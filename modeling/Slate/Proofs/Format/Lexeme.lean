import Slate.Format
import Slate.Proofs.Token.Text

/-!
# Lexemes as text

    lexemes ──Lexeme.write──▶ spellings, with blanks between them ──tokenize──▶ lexemes

Every lexeme that a text can hold has one way of being written that never fails: strings stand in double quotes
and are escaped, all others are their text.

* `Lexeme.WellFormed` — the lexemes that a text can hold, and `SpelledAs.wellFormed`;
* `denotes_escape` — a string that is escaped stands for itself;
* `tokenize_writtenApart` — lexemes that are written with blanks between them are read back, exactly if all of
  them are well-formed.
-/

namespace Slate

open Slate.Text

/-! ## Strings -/

/-- An escaped character stands for the character. -/
theorem denotes_escapeChar (c : Char) {body value : List Char} (h : Denotes '"' body value) :
    Denotes '"' (escapeChar c ++ body) (c :: value) := by
  unfold escapeChar
  split
  case h_6 quote backslash feed _ _ => exact .plain quote feed backslash h
  all_goals exact .escape rfl h

theorem denotes_escape (s : List Char) : Denotes '"' (s.flatMap escapeChar) s := by
  induction s with
  | nil => exact .nil
  | cons c s ih =>
    rw [List.flatMap_cons]
    exact denotes_escapeChar c ih

theorem spelledAs_quoteString (s : String) : SpelledAs ⟨.string, s⟩ (quoteString s).toList := by
  have spelled := SpelledAs.string (.inl rfl) (denotes_escape s.toList)
  rw [String.ofList_toList] at spelled
  simpa [quoteString] using spelled

/-! ## Words and marks -/

theorem isWord_booleanText (b : Bool) : IsWord (Value.booleanText b) := by
  cases b
  · exact .of_isAlpha (by decide)
  · exact .of_isAlpha (by decide)

theorem spelledAs_booleanText (b : Bool) :
    SpelledAs ⟨.boolean, Value.booleanText b⟩ (Value.booleanText b).toList := by
  have spelled := SpelledAs.word (isWord_booleanText b)
  cases b <;> exact spelled

/-- A kind that has one text is spelled as this text. -/
theorem spelledAs_of_onlyText? {kind : TokenKind} {s : String} (h : kind.onlyText? = some s) :
    SpelledAs ⟨kind, s⟩ s.toList := by
  have word {kind : TokenKind} {s : String} (hk : TokenKind.ofWord s = kind)
      (h : s.toList ≠ [] ∧ s.toList.all Char.isAlpha = true) : SpelledAs ⟨kind, s⟩ s.toList := by
    rw [← hk]
    exact .word (.of_isAlpha h)
  cases kind <;> cases h
  case letKeyword | constKeyword | ifKeyword | elseKeyword | numberType | stringType | booleanType =>
    exact word rfl (by decide)
  all_goals exact .mark rfl

/-! ## Well-formed lexemes -/

/-- A lexeme with a text that goes with its kind. -/
inductive Lexeme.WellFormed : Lexeme → Prop
  | name {s : String} (h : IsName s) : WellFormed ⟨.identifier, s⟩
  | number {s : String} (h : IsNumber s.toList) : WellFormed ⟨.number, s⟩
  | boolean (b : Bool) : WellFormed ⟨.boolean, Value.booleanText b⟩
  | string (s : String) : WellFormed ⟨.string, s⟩
  | fixed {kind : TokenKind} {s : String} (h : kind.onlyText? = some s) : WellFormed ⟨kind, s⟩

/-- How a lexeme is written. -/
def Lexeme.write (x : Lexeme) : String := if x.kind = .string then quoteString x.text else x.text

theorem Lexeme.write_of_ne {x : Lexeme} (h : x.kind ≠ .string) : x.write = x.text := if_neg h

theorem Lexeme.WellFormed.spelledAs {x : Lexeme} (h : x.WellFormed) : SpelledAs x x.write.toList := by
  cases h with
  | name h =>
    have spelled := SpelledAs.word h.1
    rw [h.2] at spelled
    exact spelled
  | @number s h =>
    have spelled := SpelledAs.number h
    rw [String.ofList_toList] at spelled
    exact spelled
  | boolean b => exact spelledAs_booleanText b
  | string s => exact spelledAs_quoteString s
  | @fixed kind s h =>
    have other : kind ≠ .string := by
      rintro rfl
      cases h
    rw [Lexeme.write_of_ne other]
    exact spelledAs_of_onlyText? h

theorem wellFormed_ofWord {s : String} (h : IsWord s) : Lexeme.WellFormed ⟨TokenKind.ofWord s, s⟩ := by
  generalize hk : TokenKind.ofWord s = kind
  have name (hk : TokenKind.ofWord s = .identifier) : Lexeme.WellFormed ⟨.identifier, s⟩ := .name ⟨h, hk⟩
  have other := hk
  unfold TokenKind.ofWord at hk
  split at hk <;> cases hk
  case h_8 => exact .boolean true
  case h_9 => exact .boolean false
  case h_10 => exact name other
  all_goals exact .fixed rfl

/-- What is spelled is well-formed. -/
theorem SpelledAs.wellFormed {x : Lexeme} {spelling : List Char} (h : SpelledAs x spelling) :
    x.WellFormed := by
  cases h with
  | mark h =>
    unfold TokenKind.ofMark at h
    split at h <;> cases h <;> exact .fixed rfl
  | word h => exact wellFormed_ofWord h
  | number h => exact .number (by rwa [String.toList_ofList])
  | string => exact .string _

theorem SpelledAs.eq_text {x : Lexeme} {spelling : List Char} (h : SpelledAs x spelling)
    (hk : x.kind ≠ .string) : spelling = x.text.toList := by
  cases h with
  | mark | number => exact String.toList_ofList.symm
  | word => rfl
  | string => exact absurd rfl hk

/-- All lexemes but strings have one spelling. -/
theorem spelledAs_iff {x : Lexeme} {spelling : List Char} (hk : x.kind ≠ .string) :
    SpelledAs x spelling ↔ x.WellFormed ∧ spelling = x.text.toList := by
  constructor
  · exact fun h => ⟨h.wellFormed, h.eq_text hk⟩
  · rintro ⟨h, rfl⟩
    rw [← Lexeme.write_of_ne hk]
    exact h.spelledAs

/-- What stands in a text is well-formed. -/
theorem LaidOut.wellFormed {behind before text : List Char} {ts : List Token}
    (h : LaidOut behind before ts text) : ∀ t ∈ ts, t.toLexeme.WellFormed := by
  induction h with
  | done => exact fun _ ht => by cases ht
  | more _ ht _ ih => exact List.forall_mem_cons.2 ⟨ht.spelled.wellFormed, ih⟩

/-! ## Reading -/

/-- A lexeme that is spelled and ends is read, whatever the text behind it is read as. -/
theorem ReadsAs.spelled {x : Lexeme} {spelling rest : List Char} {xs : List Lexeme} (h : ReadsAs rest xs)
    (hs : SpelledAs x spelling) (stops : Stops x.kind spelling rest)
    (slash : x.kind = .divide → rest.head? ≠ some '/') : ReadsAs (spelling ++ rest) (x :: xs) := by
  obtain ⟨c, cs, rfl, noBlank⟩ := hs.exists_cons
  refine h.found noBlank ?_ (found_of_isSpelled hs stops)
  rintro ⟨rfl, second⟩
  have divide := hs.of_slash
  obtain rfl : cs = [] := (List.cons.inj (hs.divide divide)).2
  exact slash divide second

/-! ## Lexemes with blanks between them -/

/-- The text is the lexemes as they are written, with blanks between them, and perhaps around them. -/
inductive WrittenApart : List Lexeme → List Char → Prop
  | nil : WrittenApart [] []
  | blank {c : Char} {xs : List Lexeme} {text : List Char} (hc : isBlank c = true)
      (h : WrittenApart xs text) : WrittenApart xs (c :: text)
  | lexeme {x : Lexeme} {xs : List Lexeme} {text : List Char} (apart : ∀ c ∈ text.head?, isBlank c = true)
      (h : WrittenApart xs text) : WrittenApart (x :: xs) (x.write.toList ++ text)

/-- A lexeme with a blank behind it. -/
theorem WrittenApart.ahead {x : Lexeme} {xs : List Lexeme} {c : Char} {text : List Char}
    (hc : isBlank c = true) (h : WrittenApart xs text) :
    WrittenApart (x :: xs) (x.write.toList ++ c :: text) := by
  refine .lexeme ?_ (.blank hc h)
  intro d hd
  cases hd
  exact hc

theorem WrittenApart.reads {xs : List Lexeme} {text : List Char} (h : WrittenApart xs text)
    (hx : ∀ x ∈ xs, x.WellFormed) : ReadsAs text xs := by
  induction h with
  | nil => exact .nil
  | blank hc _ ih => exact (ih hx).blank hc
  | lexeme apart _ ih =>
    obtain ⟨first, others⟩ := List.forall_mem_cons.1 hx
    refine (ih others).spelled first.spelledAs (.of_blank apart _ _) fun _ slash => ?_
    exact absurd (apart '/' slash) (by decide)

/-- Lexemes that are written with blanks between them are read back, with their kinds and texts and in their
order, exactly if all of them are well-formed. -/
theorem tokenize_writtenApart {xs : List Lexeme} {text : String} (h : WrittenApart xs text.toList) :
    (∃ ts, tokenize text = .ok ts ∧ ts.map Token.toLexeme = xs) ↔ ∀ x ∈ xs, x.WellFormed := by
  constructor
  · rintro ⟨ts, hts, rfl⟩ x hx
    obtain ⟨t, ht, rfl⟩ := List.mem_map.1 hx
    exact (tokenize_eq_ok_iff.1 hts).wellFormed t ht
  · exact fun hx => h.reads hx {}

/-- `x_1 = "//\n" / / 1.50` as lexemes, with the line feed in the string. -/
def divided : List Lexeme :=
  [⟨.identifier, "x_1"⟩, ⟨.assign, "="⟩, ⟨.string, "\"//\n"⟩, ⟨.divide, "/"⟩, ⟨.divide, "/"⟩, ⟨.number, "1.50"⟩]

theorem tokenize_writtenApart_divided :
    WrittenApart divided "x_1 =\t\"\\\"//\\n\" / \n/ 1.50".toList ∧ (∀ x ∈ divided, x.WellFormed) ∧
      ∃ ts, tokenize "x_1 =\t\"\\\"//\\n\" / \n/ 1.50" = .ok ts ∧ ts.map Token.toLexeme = divided := by
  have apart : WrittenApart divided "x_1 =\t\"\\\"//\\n\" / \n/ 1.50".toList := by
    show WrittenApart divided
      ("x_1".toList ++ ' ' :: ("=".toList ++ '\t' :: ((quoteString "\"//\n").toList ++ ' ' ::
        ("/".toList ++ ' ' :: '\n' :: ("/".toList ++ ' ' :: ("1.50".toList ++ []))))))
    exact .ahead (by decide) (.ahead (by decide) (.ahead (by decide) (.ahead (by decide) (.blank (by decide)
      (.ahead (by decide) (.lexeme (by simp) .nil))))))
  have name : IsName "x_1" :=
    ⟨⟨'x', ['_', '1'], rfl, by decide, List.all_eq_true.1 (by decide +kernel)⟩, rfl⟩
  have number : IsNumber "1.50".toList := by
    show IsNumber (['1'] ++ '.' :: ['5', '0'])
    exact .fraction ⟨by decide, List.all_eq_true.1 (by decide)⟩ ⟨by decide, List.all_eq_true.1 (by decide)⟩
  have wellFormed : ∀ x ∈ divided, x.WellFormed := by
    intro x hx
    simp only [divided, List.mem_cons, List.not_mem_nil, or_false] at hx
    rcases hx with rfl | rfl | rfl | rfl | rfl | rfl
    · exact .name name
    · exact .fixed rfl
    · exact .string _
    · exact .fixed rfl
    · exact .fixed rfl
    · exact .number number
  exact ⟨apart, wellFormed, (tokenize_writtenApart apart).2 wellFormed⟩

end Slate
