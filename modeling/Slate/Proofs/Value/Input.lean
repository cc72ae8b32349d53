import Slate.Parser.Expr
import Slate.Proofs.Format.Lexeme
import Slate.Value

/-!
# Input is read as the language would read it

A text from outside is taken for the value that it looks like, and it looks like a number or a truth value
exactly if it is a token of that kind and nothing else. With strings this holds one way: a text may be in quotes
and still go over several lines or have a quote behind a backslash.

* `isToken_iff` — a text that is one token is how the token is spelled;
* `looksNumeric_iff`, `unquote?_eq_some_iff` — the shapes that input is told apart by;
* `ofInput_reads` — both ways of reading compared.
-/

namespace Slate

open Slate.Text

/-! ## Texts that are one token -/

/-- The text is read as the token alone, and the span of the token is all of the text. -/
structure IsToken (text : String) (t : Token) : Prop where
  read : tokenize text = .ok [t]
  whole : t.span = ⟨1, 1, 1 + text.length⟩

theorem isToken_iff {text : String} {t : Token} :
    IsToken text t ↔ SpelledAs t.toLexeme text.toList ∧ t.span = ⟨1, 1, 1 + text.length⟩ := by
  constructor
  · rintro ⟨read, whole⟩
    refine ⟨?_, whole⟩
    have laidOut := tokenize_eq_ok_iff.1 read
    generalize htext : text.toList = cs at laidOut
    cases laidOut with
    | @more _ front spelling back _ _ _ ht _ =>
      -- the spelling is as long as the text, so there is nothing around it
      have length := congrArg List.length htext
      have stop := ht.length
      rw [whole] at stop
      simp only [List.length_append, String.length_toList] at length stop
      obtain rfl : front = [] := List.length_eq_zero_iff.1 (by omega)
      obtain rfl : back = [] := List.length_eq_zero_iff.1 (by omega)
      simpa using ht.spelled
  · rintro ⟨spelled, whole⟩
    refine ⟨tokenize_eq_ok_iff.2 ?_, whole⟩
    have nonempty : text.toList ≠ [] := by
      obtain ⟨c, cs, e, -⟩ := spelled.exists_cons
      rw [e]
      exact List.cons_ne_nil _ _
    have stands : t.Stands [] text.toList [] := by
      refine ⟨nonempty, spelled.notMem_newline, spelled, .of_blank (by simp) _ _, fun _ => by simp, ?_, ?_⟩
      · rw [whole]
        exact ⟨rfl, rfl⟩
      · rw [whole, String.length_toList]
    rw [← List.append_nil text.toList, ← List.nil_append text.toList]
    exact .more .nil (by simpa using stands) (.done .nil)

/-! ## The shapes of input -/

theorem looksNumeric_iff {cs : List Char} : Value.looksNumeric cs = true ↔ IsNumber cs := by
  have whole := List.takeWhile_append_dropWhile (p := Char.isDigit) (l := cs)
  have digits : ∀ d ∈ cs.takeWhile Char.isDigit, d.isDigit = true := fun _ => of_mem_takeWhile
  constructor
  · intro h
    rw [Value.looksNumeric, Bool.and_eq_true, decide_eq_true_eq] at h
    obtain ⟨nonempty, h⟩ := h
    rw [← whole]
    split at h
    · next rest => rw [rest, List.append_nil]; exact .whole ⟨nonempty, digits⟩
    · next d fraction rest =>
      rw [rest]
      exact .fraction ⟨nonempty, digits⟩ ⟨List.cons_ne_nil _ _, List.all_eq_true.1 h⟩
    · cases h
  · intro h
    cases h with
    | whole h =>
      have ends : ∀ c ∈ ([] : List Char).head?, c.isDigit = false := by simp
      obtain ⟨taken, left⟩ := takeWhile_append_stop h.2 ends
      rw [List.append_nil] at taken left
      rw [Value.looksNumeric, taken, left]
      simpa using h.1
    | @fraction ds fs h hf =>
      have point : ∀ c ∈ ('.' :: fs).head?, c.isDigit = false := by
        intro c hc
        cases hc
        decide
      obtain ⟨taken, left⟩ := takeWhile_append_stop h.2 point
      obtain ⟨f, fs, rfl⟩ := List.exists_cons_of_ne_nil hf.1
      rw [Value.looksNumeric, taken, left]
      simpa using ⟨h.1, List.forall_mem_cons.1 hf.2⟩

theorem unquote?_eq_some_iff {cs inner : List Char} :
    Value.unquote? cs = some inner ↔ ∃ q, IsQuote q ∧ cs = q :: (inner ++ [q]) ∧ q ∉ inner := by
  constructor
  · intro h
    unfold Value.unquote? at h
    split at h
    · next q rest =>
      split at h
      · next quoted =>
        cases h
        obtain ⟨hq, last, inside⟩ := quoted
        obtain ⟨inner, rfl⟩ := List.getLast?_eq_some_iff.1 last
        exact ⟨q, hq, by rw [List.dropLast_concat], inside⟩
      · cases h
    · cases h
  · rintro ⟨q, hq, rfl, inside⟩
    rw [Value.unquote?, if_pos ⟨hq, by simp, by simpa using inside⟩, List.dropLast_concat]

theorem ofText_ne_number (raw : String) (d : Decimal) : Value.ofText raw ≠ .number d := by
  unfold Value.ofText
  split <;> simp

theorem ofText_ne_boolean (raw : String) (b : Bool) : Value.ofText raw ≠ .boolean b := by
  unfold Value.ofText
  split <;> simp

theorem looksNumeric_booleanText (b : Bool) : Value.looksNumeric (Value.booleanText b).toList = false := by
  cases b <;> decide

theorem ofInput_booleanText (b : Bool) : Value.ofInput (Value.booleanText b) = .boolean b := by
  cases b <;> rfl

/-- Input is a word for a truth value, or it is told apart by its shape. -/
theorem ofInput_cases (raw : String) :
    (∃ b, raw = Value.booleanText b) ∨ ((∀ b, raw ≠ Value.booleanText b) ∧
      Value.ofInput raw =
        if Value.looksNumeric raw.toList then
          match Decimal.ofString? raw with
          | .ok d => .number d
          | .error _ => Value.ofText raw
        else Value.ofText raw) := by
  unfold Value.ofInput
  split
  · next word => exact .inl ⟨true, word⟩
  · next noTrue =>
    split
    · next word => exact .inl ⟨false, word⟩
    · next noFalse =>
      refine .inr ⟨fun b => ?_, rfl⟩
      cases b
      · exact noFalse
      · exact noTrue

theorem ofInput_eq_boolean_iff {raw : String} {b : Bool} :
    Value.ofInput raw = .boolean b ↔ raw = Value.booleanText b := by
  constructor
  · intro h
    rcases ofInput_cases raw with ⟨b', rfl⟩ | ⟨-, shape⟩
    · rw [ofInput_booleanText] at h
      cases h
      rfl
    · rw [shape] at h
      split at h
      · split at h
        · cases h
        · exact absurd h (ofText_ne_boolean raw b)
      · exact absurd h (ofText_ne_boolean raw b)
  · rintro rfl
    exact ofInput_booleanText b

theorem ofInput_eq_number_iff {raw : String} {d : Decimal} :
    Value.ofInput raw = .number d ↔ IsNumber raw.toList ∧ Decimal.ofString? raw = .ok d := by
  rw [← looksNumeric_iff]
  rcases ofInput_cases raw with ⟨b, rfl⟩ | ⟨-, shape⟩
  · rw [ofInput_booleanText, looksNumeric_booleanText]
    simp
  · rw [shape]
    constructor
    · intro h
      split at h
      · next numeric =>
        split at h
        · next read =>
          cases h
          exact ⟨numeric, read⟩
        · exact absurd h (ofText_ne_number raw d)
      · exact absurd h (ofText_ne_number raw d)
    · rintro ⟨numeric, read⟩
      rw [if_pos numeric, read]

/-- A text in quotes with no further quote of the same kind loses its quotes. -/
theorem ofInput_of_quoted {q : Char} {inner : List Char} (hq : IsQuote q) (h : q ∉ inner) :
    Value.ofInput (String.ofList (q :: (inner ++ [q]))) = .string (String.ofList inner) := by
  have quoted := unquote?_eq_some_iff.2 ⟨q, hq, rfl, h⟩
  have noNumber : Value.looksNumeric (q :: (inner ++ [q])) = false := by
    have noDigit : q.isDigit = false := by rcases hq with rfl | rfl <;> decide
    simp [Value.looksNumeric, noDigit]
  rcases ofInput_cases (String.ofList (q :: (inner ++ [q]))) with ⟨b, word⟩ | ⟨-, shape⟩
  · have first := congrArg (fun s => s.toList.head?) word
    rcases hq with rfl | rfl <;> cases b <;> simp [Value.booleanText] at first
  · rw [shape, String.toList_ofList, noNumber, Value.ofText, String.toList_ofList, quoted]
    rfl

/-! ## Tokens of the three kinds -/

theorem isNumber_of_wellFormed {x : Lexeme} (h : x.WellFormed) (hk : x.kind = .number) :
    IsNumber x.text.toList := by
  cases h with
  | number h => exact h
  | fixed h =>
    cases hk
    cases h
  | name | boolean | string => cases hk

theorem exists_booleanText_of_wellFormed {x : Lexeme} (h : x.WellFormed) (hk : x.kind = .boolean) :
    ∃ b, x.text = Value.booleanText b := by
  cases h with
  | boolean b => exact ⟨b, rfl⟩
  | fixed h =>
    cases hk
    cases h
  | name | number | string => cases hk

/-- Without backslashes each character between the quotes stands for itself. -/
theorem Denotes.of_plain {quote : Char} {body value : List Char} (h : Denotes quote body value)
    (plain : '\\' ∉ body) : body = value ∧ quote ∉ value := by
  induction h with
  | nil => exact ⟨rfl, List.not_mem_nil⟩
  | plain other _ _ _ ih =>
    obtain ⟨rfl, inside⟩ := ih fun hm => plain (List.mem_cons_of_mem _ hm)
    exact ⟨rfl, by simp [other.symm, inside]⟩
  | escape => exact absurd List.mem_cons_self plain

theorem exists_quotes_of_spelledAs {x : Lexeme} {spelling : List Char} (h : SpelledAs x spelling)
    (hk : x.kind = .string) (plain : '\\' ∉ spelling) :
    ∃ q, IsQuote q ∧ spelling = q :: (x.text.toList ++ [q]) ∧ q ∉ x.text.toList := by
  cases h with
  | mark h => exact absurd hk (ofMark_eq_some h).2.2.2.2
  | @word s _ =>
    have word := isWord_ofWord s
    dsimp only at hk
    rw [hk] at word
    cases word
  | number => cases hk
  | @string q body value hq h =>
    obtain ⟨rfl, inside⟩ := h.of_plain fun hm => plain (by simp [hm])
    exact ⟨q, hq, by rw [String.toList_ofList], by rwa [String.toList_ofList]⟩

/-! ## Both ways of reading -/

section

variable {t : Token}

theorem numberLiteral_value_iff (hk : t.kind = .number) {d : Decimal} :
    (∃ l, Parser.numberLiteral [t] = .ok l ∧ l.value = .number d) ↔ Decimal.ofString? t.text = .ok d := by
  rw [Parser.numberLiteral, if_pos hk]
  cases read : Decimal.ofString? t.text with
  | ok d' => simp
  | error why => simp [Parser.failAt]

theorem booleanLiteral_value (hk : t.kind = .boolean) {b : Bool} (ht : t.text = Value.booleanText b) :
    Parser.booleanLiteral [t] = .ok ⟨.boolean b, t.span⟩ := by
  rw [Parser.booleanLiteral, if_pos hk, ht]
  cases b <;> rfl

end

/-- Input is taken for a number exactly if it is a number token whose literal is read as that number, and for a
truth value exactly if it is a token for one. A string token without backslashes loses its quotes. -/
theorem ofInput_reads (raw : String) :
    (∀ d, Value.ofInput raw = .number d ↔ ∃ t, IsToken raw t ∧ t.kind = .number ∧
      ∃ l, Parser.numberLiteral [t] = .ok l ∧ l.value = .number d) ∧
    (∀ b, Value.ofInput raw = .boolean b ↔ ∃ t, IsToken raw t ∧ t.kind = .boolean ∧
      ∃ l, Parser.booleanLiteral [t] = .ok l ∧ l.value = .boolean b) ∧
    (∀ t, IsToken raw t → t.kind = .string → '\\' ∉ raw.toList → Value.ofInput raw = .string t.text) := by
  refine ⟨fun d => ?_, fun b => ?_, fun t h hk plain => ?_⟩
  · rw [ofInput_eq_number_iff]
    constructor
    · rintro ⟨number, read⟩
      have spelled := (spelledAs_iff (x := ⟨.number, raw⟩) (by simp)).2 ⟨.number number, rfl⟩
      exact ⟨⟨⟨.number, raw⟩, ⟨1, 1, 1 + raw.length⟩⟩, isToken_iff.2 ⟨spelled, rfl⟩, rfl,
        (numberLiteral_value_iff rfl).2 read⟩
    · rintro ⟨t, h, hk, literal⟩
      obtain ⟨wellFormed, text⟩ := (spelledAs_iff (by simp [hk])).1 (isToken_iff.1 h).1
      rw [String.toList_inj.1 text]
      exact ⟨isNumber_of_wellFormed wellFormed hk, (numberLiteral_value_iff hk).1 literal⟩
  · rw [ofInput_eq_boolean_iff]
    constructor
    · rintro rfl
      have spelled := spelledAs_booleanText b
      exact ⟨⟨⟨.boolean, Value.booleanText b⟩, ⟨1, 1, 1 + (Value.booleanText b).length⟩⟩,
        isToken_iff.2 ⟨spelled, rfl⟩, rfl, _, booleanLiteral_value rfl rfl, rfl⟩
    · rintro ⟨t, h, hk, l, read, value⟩
      obtain ⟨wellFormed, text⟩ := (spelledAs_iff (by simp [hk])).1 (isToken_iff.1 h).1
      obtain ⟨b', word⟩ := exists_booleanText_of_wellFormed wellFormed hk
      rw [booleanLiteral_value hk word] at read
      cases read
      cases value
      rw [String.toList_inj.1 text, word]
  · obtain ⟨q, hq, text, inside⟩ := exists_quotes_of_spelledAs (isToken_iff.1 h).1 hk plain
    have quoted := ofInput_of_quoted hq inside
    rwa [← text, String.ofList_toList, String.ofList_toList] at quoted

theorem ofInput_reads_slashes :
    IsToken "'//'" ⟨⟨.string, "//"⟩, ⟨1, 1, 5⟩⟩ ∧ '\\' ∉ "'//'".toList ∧
      Value.ofInput "'//'" = .string "//" := by
  have slashes : Denotes '\'' ['/', '/'] ['/', '/'] :=
    .plain (by decide) (by decide) (by decide) (.plain (by decide) (by decide) (by decide) .nil)
  have token : IsToken "'//'" ⟨⟨.string, "//"⟩, ⟨1, 1, 5⟩⟩ :=
    isToken_iff.2 ⟨.string (.inr rfl) slashes, rfl⟩
  have plain : '\\' ∉ "'//'".toList := by decide
  exact ⟨token, plain, (ofInput_reads "'//'").2.2 _ token rfl plain⟩

end Slate
