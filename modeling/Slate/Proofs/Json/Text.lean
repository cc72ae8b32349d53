import Slate.Proofs.Json.String
import Slate.Proofs.Text.Number

/-!
# The text of a value

What a value is written as, character by character, in any layout:

    [ break value , break value ... break ]        { break "name" : gap value , ... break }

* `toList_write_array`, `toList_write_object` and their like — these two forms, `compact_array`, `compact_object`
  and so on for the layout without blanks;
* `induction` — values by what is in them;
* `exists_first` — the first character of a value tells its kind;
* `number_append_inj` — a number ends where none of its characters stands.
-/

namespace Slate.Json

open Slate.Text

/-- What holds of arrays and objects if it holds of all that is in them holds of every value. -/
@[elab_as_elim]
theorem induction {P : Json → Prop} (null : P .null) (bool : ∀ b, P (.bool b)) (number : ∀ n, P (.number n))
    (string : ∀ s, P (.string s)) (array : ∀ vs : List Json, (∀ v ∈ vs, P v) → P (.array vs))
    (object : ∀ fields : List (String × Json), (∀ f ∈ fields, P f.2) → P (.object fields)) (v : Json) : P v :=
  @Json.rec P (fun vs => ∀ v ∈ vs, P v) (fun fields => ∀ f ∈ fields, P f.2) (fun f => P f.2)
    null bool number string array object
    (fun _ h => (List.not_mem_nil h).elim) (fun _ _ first others => List.forall_mem_cons.2 ⟨first, others⟩)
    (fun _ h => (List.not_mem_nil h).elim) (fun _ _ first others => List.forall_mem_cons.2 ⟨first, others⟩)
    (fun _ _ value => value) v

/-! ## Words, arrays and objects -/

section

variable (l : Layout) (depth : Nat)

theorem toList_write_null : (write l depth null).toList = ['n', 'u', 'l', 'l'] := by simp [write]

theorem toList_write_true : (write l depth (bool true)).toList = ['t', 'r', 'u', 'e'] := by simp [write]

theorem toList_write_false : (write l depth (bool false)).toList = ['f', 'a', 'l', 's', 'e'] := by simp [write]

theorem toList_write_array_nil : (write l depth (array [])).toList = ['[', ']'] := by simp

theorem toList_write_object_nil : (write l depth (object [])).toList = ['{', '}'] := by simp

theorem toList_write_array (v : Json) (vs : List Json) : (write l depth (array (v :: vs))).toList =
    '[' :: ((l.lineBreak (depth + 1)).toList ++ ((write l (depth + 1) v).toList ++
      ((writeItems l (depth + 1) vs).toList ++ ((l.lineBreak depth).toList ++ [']'])))) := by
  simp [write]

theorem toList_write_object (k : String) (v : Json) (fields : List (String × Json)) :
    (write l depth (object ((k, v) :: fields))).toList =
      '{' :: ((l.lineBreak (depth + 1)).toList ++ ((quote k).toList ++ (':' :: (l.gap.toList ++
        ((write l (depth + 1) v).toList ++ ((writeFields l (depth + 1) fields).toList ++
          ((l.lineBreak depth).toList ++ ['}']))))))) := by
  simp [write]

theorem toList_writeItems (v : Json) (vs : List Json) : (writeItems l depth (v :: vs)).toList =
    ',' :: ((l.lineBreak depth).toList ++ ((write l depth v).toList ++ (writeItems l depth vs).toList)) := by
  simp [writeItems]

theorem toList_writeFields (k : String) (v : Json) (fields : List (String × Json)) :
    (writeFields l depth ((k, v) :: fields)).toList =
      ',' :: ((l.lineBreak depth).toList ++ ((quote k).toList ++ (':' :: (l.gap.toList ++
        ((write l depth v).toList ++ (writeFields l depth fields).toList))))) := by
  simp [writeFields]

/-! In the compact layout nothing stands between the parts. -/

theorem compact_array (v : Json) (vs : List Json) : (write .compact depth (array (v :: vs))).toList =
    '[' :: ((write .compact (depth + 1) v).toList ++ ((writeItems .compact (depth + 1) vs).toList ++ [']'])) := by
  simp [toList_write_array, Layout.compact]

theorem compact_object (k : String) (v : Json) (fields : List (String × Json)) :
    (write .compact depth (object ((k, v) :: fields))).toList =
      '{' :: ((quote k).toList ++ (':' :: ((write .compact (depth + 1) v).toList ++
        ((writeFields .compact (depth + 1) fields).toList ++ ['}'])))) := by
  simp [toList_write_object, Layout.compact]

theorem compact_items (v : Json) (vs : List Json) : (writeItems .compact depth (v :: vs)).toList =
    ',' :: ((write .compact depth v).toList ++ (writeItems .compact depth vs).toList) := by
  simp [toList_writeItems, Layout.compact]

theorem compact_fields (k : String) (v : Json) (fields : List (String × Json)) :
    (writeFields .compact depth ((k, v) :: fields)).toList =
      ',' :: ((quote k).toList ++ (':' :: ((write .compact depth v).toList ++
        (writeFields .compact depth fields).toList))) := by
  simp [toList_writeFields, Layout.compact]

end

/-! ## Numbers -/

/-- What the text of a number is made of. -/
def isNumberChar (c : Char) : Bool := c.isDigit || c = '-' || c = 'e'

/-- The text does not go on with a character of a number. -/
def EndsNumber (text : List Char) : Prop := ∀ c ∈ text.head?, isNumberChar c = false

theorem isNumberChar_of_isDigit {c : Char} (h : c.isDigit = true) : isNumberChar c = true := by
  simp [isNumberChar, h]

theorem isNumberChar_of_mem_signChars {negative : Bool} {c : Char} (h : c ∈ signChars negative) :
    isNumberChar c = true := by
  cases negative with
  | true =>
    cases List.mem_singleton.1 h
    decide
  | false => exact (List.not_mem_nil h).elim

theorem isNumberChar_of_mem_int {n : Int} {c : Char} (h : c ∈ (toString n).toList) : isNumberChar c = true := by
  rw [toList_toString_int] at h
  rcases List.mem_append.1 h with h | h
  · exact isNumberChar_of_mem_signChars h
  · exact isNumberChar_of_isDigit (isDigit_of_mem_toDigits h)

namespace Number

theorem toList_text_real (negative : Bool) (coefficient : Nat) (exponent : Int) :
    (real negative coefficient exponent).text.toList =
      signChars negative ++ (Nat.toDigits 10 coefficient ++ 'e' :: (toString exponent).toList) := by
  cases negative <;> simp [text, signChars]

theorem isNumberChar_of_mem_text {n : Number} {c : Char} (h : c ∈ n.text.toList) : isNumberChar c = true := by
  cases n with
  | whole n => exact isNumberChar_of_mem_int h
  | real negative coefficient exponent =>
    rw [toList_text_real] at h
    rcases List.mem_append.1 h with h | h
    · exact isNumberChar_of_mem_signChars h
    · rcases List.mem_append.1 h with h | h
      · exact isNumberChar_of_isDigit (isDigit_of_mem_toDigits h)
      · rcases List.mem_cons.1 h with rfl | h
        · decide
        · exact isNumberChar_of_mem_int h

/-- Only a real number has an exponent. -/
theorem text_whole_ne_text_real (n : Int) (negative : Bool) (coefficient : Nat) (exponent : Int) :
    (whole n).text.toList ≠ (real negative coefficient exponent).text.toList := by
  intro h
  have mem : 'e' ∈ (whole n).text.toList := by
    rw [h, toList_text_real]
    simp
  -- but it is neither a sign nor a digit
  have int : 'e' ∈ signChars (decide (n < 0)) ++ Nat.toDigits 10 n.natAbs := toList_toString_int n ▸ mem
  rcases List.mem_append.1 int with sign | digit
  · unfold signChars at sign
    split at sign
    · cases List.mem_singleton.1 sign
    · exact List.not_mem_nil sign
  · exact absurd (isDigit_of_mem_toDigits digit) (by decide)

theorem text_inj {m n : Number} (h : m.text.toList = n.text.toList) : m = n := by
  cases m with
  | whole a =>
    cases n with
    | whole b => exact congrArg whole (toString_int_inj h)
    | real => exact (text_whole_ne_text_real _ _ _ _ h).elim
  | real negative coefficient exponent =>
    cases n with
    | whole b => exact (text_whole_ne_text_real _ _ _ _ h.symm).elim
    | real negative' coefficient' exponent' =>
      rw [toList_text_real, toList_text_real] at h
      obtain ⟨rfl, unsigned⟩ := sign_append_inj (head?_toDigits_append _ _) (head?_toDigits_append _ _) h
      -- the digits of the coefficient end at the exponent
      have stops (cs : List Char) : ∀ c ∈ ('e' :: cs).head?, c.isDigit = false := by
        intro c hc
        cases hc
        decide
      obtain ⟨digits, power⟩ := append_stop_inj (fun _ => isDigit_of_mem_toDigits)
        (fun _ => isDigit_of_mem_toDigits) (stops _) (stops _) unsigned
      rw [toDigits_inj digits, toString_int_inj (List.cons.inj power).2]

end Number

/-- A text starts with one number at most, provided that it ends there. -/
theorem number_append_inj {m n : Number} {rest more : List Char} (hr : EndsNumber rest) (hm : EndsNumber more)
    (h : m.text.toList ++ rest = n.text.toList ++ more) : m = n ∧ rest = more := by
  obtain ⟨text, left⟩ := append_stop_inj (fun _ => Number.isNumberChar_of_mem_text)
    (fun _ => Number.isNumberChar_of_mem_text) hr hm h
  exact ⟨Number.text_inj text, left⟩

/-! ## First characters -/

/-- What sort of value it is. -/
inductive Kind where
  | null
  | bool
  | number
  | string
  | array
  | object

def kind : Json → Kind
  | null => .null
  | bool _ => .bool
  | number _ => .number
  | string _ => .string
  | array _ => .array
  | object _ => .object

/-- The kind of a value that starts with the character. -/
def Kind.ofFirst? : Char → Option Kind
  | 'n' => some .null
  | 't' | 'f' => some .bool
  | '"' => some .string
  | '[' => some .array
  | '{' => some .object
  | c => if c.isDigit || c = '-' then some .number else none

theorem Kind.ofFirst?_of_isDigit {c : Char} (h : c.isDigit = true) : ofFirst? c = some .number := by
  unfold ofFirst?
  split
  case h_7 => rw [if_pos (by simp [h])]
  all_goals cases h

theorem Number.exists_first (n : Number) (rest : List Char) :
    ∃ c cs, n.text.toList ++ rest = c :: cs ∧ Kind.ofFirst? c = some .number := by
  have signed (negative : Bool) (n : Nat) (rest : List Char) :
      ∃ c cs, signChars negative ++ Nat.toDigits 10 n ++ rest = c :: cs ∧ Kind.ofFirst? c = some .number := by
    obtain ⟨c, cs, digits, digit⟩ := exists_digit_toDigits n
    rw [digits]
    cases negative with
    | true => exact ⟨'-', _, rfl, rfl⟩
    | false => exact ⟨c, _, rfl, Kind.ofFirst?_of_isDigit digit⟩
  cases n with
  | whole n =>
    rw [text, toList_toString_int]
    exact signed _ _ rest
  | real negative coefficient exponent =>
    rw [toList_text_real, ← List.append_assoc, List.append_assoc]
    exact signed _ _ _

/-- The first character of a value tells its kind. -/
theorem exists_first (l : Layout) (depth : Nat) (v : Json) (rest : List Char) :
    ∃ c cs, (write l depth v).toList ++ rest = c :: cs ∧ Kind.ofFirst? c = some v.kind := by
  cases v with
  | null =>
    rw [toList_write_null]
    exact ⟨'n', _, rfl, rfl⟩
  | bool b =>
    cases b with
    | true =>
      rw [toList_write_true]
      exact ⟨'t', _, rfl, rfl⟩
    | false =>
      rw [toList_write_false]
      exact ⟨'f', _, rfl, rfl⟩
  | number n =>
    rw [write]
    exact n.exists_first rest
  | string s =>
    rw [write, toList_quote]
    exact ⟨'"', _, rfl, rfl⟩
  | array vs =>
    rcases vs with _ | ⟨v, vs⟩
    · rw [toList_write_array_nil]
      exact ⟨'[', _, rfl, rfl⟩
    · rw [toList_write_array]
      exact ⟨'[', _, rfl, rfl⟩
  | object fields =>
    rcases fields with _ | ⟨⟨k, v⟩, fields⟩
    · rw [toList_write_object_nil]
      exact ⟨'{', _, rfl, rfl⟩
    · rw [toList_write_object]
      exact ⟨'{', _, rfl, rfl⟩

end Slate.Json
