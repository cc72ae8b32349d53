import Mathlib.Algebra.Order.Field.Basic
import Mathlib.Tactic.Positivity
import Slate.Proofs.Decimal.Text
import Slate.Proofs.Decimal.Value
import Slate.Proofs.Value.Input

/-!
# What is printed can be typed in again

`println` shows a value by its canonical text, and input is taken for the value that it looks like. The two were
made apart from each other:

    Value ──canonical──▶ String ──ofInput──▶ Value

Numbers without a sign and truth values come back. A text comes back if it is put in quotes that do not occur in
it, and no other text is ever changed:

* `isNumber_canonical` — the text of a number without a sign is spelled as a number of the language;
* `ofInput_eq_string` — a text that input is read as is the input, or what it has between two quotes;
* `ofInput_canonical` — all of it together.
-/

namespace Slate

/-! ## Numbers -/

namespace Decimal

theorem isNumber_unsignedChars (magnitude scale : Nat) : IsNumber (unsignedChars magnitude scale) := by
  obtain ⟨whole, fraction, text, nonempty, -, digits, -⟩ := exists_unsignedChars magnitude scale
  obtain ⟨digitsWhole, digitsFraction⟩ := List.forall_mem_append.1 digits
  rw [text, fractionChars]
  by_cases h : fraction = []
  · rw [if_pos h, List.append_nil]
    exact .whole ⟨nonempty, digitsWhole⟩
  · rw [if_neg h]
    exact .fraction ⟨nonempty, digitsWhole⟩ ⟨h, digitsFraction⟩

/-- The normal form has a sign only if the value is below nought. -/
theorem not_negative_normalize {d : Decimal} (h : 0 ≤ d.value) : d.normalize.negative = false := by
  rw [negative_normalize, decide_eq_false_iff_not]
  intro below
  have negative : d.value < 0 :=
    div_neg_of_neg_of_pos (Int.cast_lt_zero.2 below) (Nat.cast_pos.2 (tenPow_pos d.scale))
  exact absurd h (not_le.2 negative)

theorem isNumber_canonical {d : Decimal} (h : 0 ≤ d.value) : IsNumber d.canonical.toList := by
  rw [canonical, Decimal.toString, String.toList_ofList, toChars, not_negative_normalize h]
  exact isNumber_unsignedChars _ _

end Decimal

/-! ## Texts -/

/-- Input that is read as a text is that text, or has it between two quotes of one kind. -/
theorem ofText_eq_string {raw t : String} (h : Value.ofText raw = .string t) :
    t = raw ∨ ∃ q, IsQuote q ∧ raw.toList = q :: (t.toList ++ [q]) := by
  unfold Value.ofText at h
  split at h
  · next inner quoted =>
    cases h
    obtain ⟨q, hq, text, -⟩ := unquote?_eq_some_iff.1 quoted
    exact .inr ⟨q, hq, by rw [text, String.toList_ofList]⟩
  · cases h
    exact .inl rfl

theorem ofInput_eq_string {raw t : String} (h : Value.ofInput raw = .string t) :
    t = raw ∨ ∃ q, IsQuote q ∧ raw.toList = q :: (t.toList ++ [q]) := by
  rcases ofInput_cases raw with ⟨b, rfl⟩ | ⟨-, shape⟩
  · rw [ofInput_booleanText] at h
    cases h
  · rw [shape] at h
    split at h
    · split at h
      · cases h
      · exact ofText_eq_string h
    · exact ofText_eq_string h

/-! ## Values of all types -/

/-- The text of a number that is not below nought is taken for a number of the same value, and the word for a
truth value for that truth value. A text in quotes is taken for the text, if the quote does not occur in it. And
input is taken for no other text than itself, or itself without the two quotes around it. -/
theorem ofInput_canonical :
    (∀ d : Decimal, 0 ≤ d.value →
      ∃ d', Value.ofInput (Value.number d).canonical = .number d' ∧ d'.value = d.value) ∧
    (∀ b, Value.ofInput (Value.boolean b).canonical = .boolean b) ∧
    (∀ s q, IsQuote q → q ∉ s.toList →
      Value.ofInput (String.ofList (q :: (s.toList ++ [q]))) = .string s) ∧
    ∀ raw t, Value.ofInput raw = .string t →
      t = raw ∨ ∃ q, IsQuote q ∧ raw.toList = q :: (t.toList ++ [q]) := by
  refine ⟨fun d h => ?_, ofInput_booleanText, fun s q hq h => ?_, fun raw t h => ofInput_eq_string h⟩
  · have read := ofInput_eq_number_iff.2 ⟨Decimal.isNumber_canonical h, Decimal.ofString?_canonical d⟩
    exact ⟨d.normalize, read, Decimal.value_normalize d⟩
  · rw [ofInput_of_quoted hq h, String.ofList_toList]

/-- A number with a nought to drop, and a text with a quote of the other kind in it. -/
theorem ofInput_canonical_apostrophe :
    (∃ d, Decimal.make? 1050 2 = some d ∧ 0 ≤ d.value ∧ d.canonical = "10.5" ∧
      ∃ d', Value.ofInput "10.5" = .number d' ∧ d'.value = d.value) ∧
    (IsQuote '"' ∧ '"' ∉ "it's 5".toList ∧ Value.ofInput "\"it's 5\"" = .string "it's 5") ∧
    (Value.ofInput "\"it's 5\"" = .string "it's 5" → "it's 5" = "\"it's 5\"" ∨
      ∃ q, IsQuote q ∧ "\"it's 5\"".toList = q :: ("it's 5".toList ++ [q])) := by
  obtain ⟨d, made, text⟩ : ∃ d, Decimal.make? 1050 2 = some d ∧ d.canonical = "10.5" :=
    ⟨_, rfl, by decide⟩
  have notBelow : 0 ≤ d.value := by
    rw [Decimal.value, Decimal.coefficient_eq_of_make? made]
    positivity
  have back := ofInput_canonical.1 d notBelow
  rw [Value.canonical, text] at back
  have inside : '"' ∉ "it's 5".toList := by decide
  have unquoted := ofInput_canonical.2.2.1 "it's 5" '"' (.inl rfl) inside
  exact ⟨⟨d, made, notBelow, text, back⟩, ⟨.inl rfl, inside, unquoted⟩,
    ofInput_canonical.2.2.2 "\"it's 5\"" "it's 5"⟩

end Slate
