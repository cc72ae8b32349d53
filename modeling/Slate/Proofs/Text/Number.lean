import Slate.Proofs.Token.Lexer

/-!
# Numbers written out

A number is a minus sign, if it has one, and digits. So its text tells its sign and its digits, and where the text
ends if no more of its characters stand behind it.

* `append_stop_inj` — what is made of some characters ends in front of all others;
* `sign_append_inj` — a sign is told apart from what stands behind it;
* `toString_int_inj` — so a whole number is known by its text.
-/

namespace Slate.Text

/-- Two texts that are made of some characters are the same if all that starts with them is the same, and goes on with
other characters. -/
theorem append_stop_inj {p : Char → Bool} {xs ys rest more : List Char} (hx : ∀ c ∈ xs, p c = true)
    (hy : ∀ c ∈ ys, p c = true) (hr : ∀ c ∈ rest.head?, p c = false) (hm : ∀ c ∈ more.head?, p c = false)
    (h : xs ++ rest = ys ++ more) : xs = ys ∧ rest = more := by
  obtain ⟨first, left⟩ := takeWhile_append_stop hx hr
  obtain ⟨first', left'⟩ := takeWhile_append_stop hy hm
  rw [← h] at first' left'
  exact ⟨first.symm.trans first', left.symm.trans left'⟩

/-! ## Signs -/

/-- The sign in front of a number. -/
def signChars (negative : Bool) : List Char := if negative then ['-'] else []

theorem sign_append_inj {a b : Bool} {xs ys : List Char} (hx : xs.head? ≠ some '-') (hy : ys.head? ≠ some '-')
    (h : signChars a ++ xs = signChars b ++ ys) : a = b ∧ xs = ys := by
  cases a with
  | true =>
    cases b with
    | true => exact ⟨rfl, List.append_cancel_left h⟩
    | false => exact absurd (congrArg List.head? h.symm) hy
  | false =>
    cases b with
    | true => exact absurd (congrArg List.head? h) hx
    | false => exact ⟨rfl, h⟩

/-! ## Whole numbers -/

theorem isDigit_of_mem_toDigits {n : Nat} {c : Char} (h : c ∈ Nat.toDigits 10 n) : c.isDigit = true :=
  Nat.isDigit_of_mem_toDigits (by decide) (by decide) h

theorem toDigits_inj {m n : Nat} (h : Nat.toDigits 10 m = Nat.toDigits 10 n) : m = n := by
  rw [← @Nat.ofDigitChars_ten_toDigits m, h, Nat.ofDigitChars_ten_toDigits]

theorem exists_digit_toDigits (n : Nat) :
    ∃ c cs, Nat.toDigits 10 n = c :: cs ∧ c.isDigit = true := by
  obtain ⟨c, cs, digits⟩ := List.exists_cons_of_ne_nil (@Nat.toDigits_ne_nil n 10)
  exact ⟨c, cs, digits, isDigit_of_mem_toDigits (digits ▸ List.mem_cons_self)⟩

/-- Digits have no sign at their front, whatever stands behind them. -/
theorem head?_toDigits_append (n : Nat) (rest : List Char) : (Nat.toDigits 10 n ++ rest).head? ≠ some '-' := by
  obtain ⟨c, cs, digits, digit⟩ := exists_digit_toDigits n
  rw [digits]
  intro sign
  cases sign
  cases digit

theorem toList_toString_int (n : Int) :
    (toString n).toList = signChars (decide (n < 0)) ++ Nat.toDigits 10 n.natAbs := by
  rw [Int.toString_eq_repr, Int.repr_eq_if, signChars]
  by_cases h : 0 ≤ n
  · have positive : ¬ n < 0 := by omega
    have same : n.toNat = n.natAbs := by omega
    rw [if_pos h, Nat.toList_repr, same, decide_eq_false positive]
    rfl
  · have negative : n < 0 := by omega
    have same : (-n).toNat = n.natAbs := by omega
    rw [if_neg h, String.toList_append, Nat.toList_repr, same, decide_eq_true negative]
    rfl

theorem toString_int_inj {m n : Int} (h : (toString m).toList = (toString n).toList) : m = n := by
  have first (n : Nat) : (Nat.toDigits 10 n).head? ≠ some '-' := by simpa using head?_toDigits_append n []
  rw [toList_toString_int, toList_toString_int] at h
  obtain ⟨sign, digits⟩ := sign_append_inj (first _) (first _) h
  have magnitude := toDigits_inj digits
  simp only [decide_eq_decide] at sign
  omega

end Slate.Text
