import Slate.Json
import Slate.Text.Unsigned

/-!
# Reading JSON

A text is read from left to right and the first problem in it counts. A problem is one of three
kinds: the text ends too early, it is no JSON at that point, or it is JSON of the wrong shape for the
reader (which only a reader of some particular shape can find; see `Slate.Style.Reader`).

Each step takes something off the front of a text and leaves a shorter one (`Taken`), so reading
comes to an end.

* `Json.takeValue` reads a value, `Json.takeKey` the name of a member;
* arrays and objects stand in each other at most 127 deep, which is what `levels` counts down.
-/

namespace Slate.Json

/-- What is wrong with a text. -/
inductive ReadError where
  /-- The text ends inside a value. -/
  | ended
  /-- The text is no JSON. -/
  | malformed
  /-- The text is not of the shape that is wanted. -/
  | wrongShape
  deriving DecidableEq

/-- Something taken off the front of `s`, and what is left. -/
structure Taken (α : Type) (s : List Char) where
  value : α
  rest : List Char
  shorter : rest.length < s.length

namespace Taken

variable {α β : Type} {s t : List Char}

def map (f : α → β) (x : Taken α s) : Taken β s := ⟨f x.value, x.rest, x.shorter⟩

/-- What was taken off a later part of a text was taken off the text. -/
def widen (x : Taken α s) (h : s.length ≤ t.length) : Taken α t :=
  ⟨x.value, x.rest, Nat.lt_of_lt_of_le x.shorter h⟩

end Taken

/-- A step of a reader. -/
abbrev Take (α : Type) (s : List Char) := Except ReadError (Taken α s)

/-! ### Blanks and words -/

/-- The four characters that may stand between any two parts. -/
def isGap (c : Char) : Bool := c = ' ' || c = '\n' || c = '\t' || c = '\r'

/-- The text behind the blanks at its front. -/
def skip (s : List Char) : List Char := s.dropWhile isGap

theorem length_skip_le (s : List Char) : (skip s).length ≤ s.length :=
  (List.dropWhile_sublist _).length_le

/-- The first character of a text that is no blank, and what follows it. -/
structure Front (s : List Char) where
  first : Char
  rest : List Char
  shorter : rest.length < s.length

/-- Goes to the first character that is no blank, if there is one. -/
def front? (s : List Char) : Option (Front s) :=
  match h : skip s with
  | [] => none
  | c :: cs => some ⟨c, cs, Nat.lt_of_lt_of_le (by simp [h]) (length_skip_le s)⟩

/-- The text behind a word, which has to stand at its front. -/
def afterWord : List Char → List Char → Except ReadError (List Char)
  | [], s => .ok s
  | _ :: _, [] => .error .ended
  | w :: ws, c :: s => if c = w then afterWord ws s else .error .malformed

theorem length_afterWord_le {word s rest : List Char} (h : afterWord word s = .ok rest) :
    rest.length ≤ s.length := by
  induction word generalizing s with
  | nil => cases h; exact Nat.le_refl _
  | cons w ws ih =>
    cases s with
    | nil => cases h
    | cons c s =>
      unfold afterWord at h
      split at h
      · exact Nat.le_succ_of_le (ih h)
      · cases h

/-- Takes a word whose first character is `c`. -/
def takeWord {α : Type} (value : α) (word : List Char) (c : Char) (s : List Char) :
    Take α (c :: s) :=
  match h : afterWord word s with
  | .ok rest => .ok ⟨value, rest, Nat.lt_succ_of_le (length_afterWord_le h)⟩
  | .error e => .error e

/-! ### Numbers -/

/-- From this on a number is too large for a double. -/
def realLimit : Nat := Nat.pow 2 1024 - Nat.pow 2 970

/-- Whether `coefficient * 10 ^ exponent` is too large for a double. Its number of digits decides
unless that is 309. -/
def tooLarge (coefficient : Nat) (exponent : Int) : Bool :=
  let digits : Int := (Nat.toDigits 10 coefficient).length + exponent
  if coefficient = 0 ∨ digits < 309 then false
  else if 309 < digits then true
  else realLimit * Nat.pow 10 (-exponent).toNat ≤ coefficient * Nat.pow 10 exponent.toNat

/-- A number that is read as a double. -/
def real (negative : Bool) (coefficient : Nat) (exponent : Int) : Except ReadError Number :=
  if tooLarge coefficient exponent then .error .malformed
  else .ok (.real negative coefficient exponent)

/-- A number without point and exponent. -/
def whole (negative : Bool) (n : Nat) : Except ReadError Number :=
  if negative then
    if n = 0 ∨ Text.word64 < 2 * n then real true n 0 else .ok (.whole (-n))
  else if n < Text.word64 then .ok (.whole n)
  else real false n 0

/-- The number that digits write. -/
def natOf (digits : List Char) : Nat := Nat.ofDigitChars 10 digits 0

/-- Takes digits, of which there has to be one. -/
def takeDigits (s : List Char) : Take (List Char) s :=
  match s with
  | [] => .error .ended
  | c :: cs =>
    if c.isDigit then
      .ok ⟨c :: cs.takeWhile Char.isDigit, cs.dropWhile Char.isDigit,
        Nat.lt_succ_of_le (List.dropWhile_sublist _).length_le⟩
    else .error .malformed

/-- Takes the exponent behind an `e`. -/
def takeExponent (s : List Char) : Take Int s :=
  match s with
  | '+' :: cs =>
    (takeDigits cs).map fun x => (x.map fun ds => (natOf ds : Int)).widen (Nat.le_succ _)
  | '-' :: cs =>
    (takeDigits cs).map fun x => (x.map fun ds => -(natOf ds : Int)).widen (Nat.le_succ _)
  | cs => (takeDigits cs).map fun x => x.map fun ds => (natOf ds : Int)

/-- Goes on with an exponent, if there is one, behind a coefficient. `lower` is what the digits
behind the point take off it. -/
def takeScaled (negative : Bool) (coefficient lower : Nat) (s rest : List Char)
    (shorter : rest.length < s.length) : Take Number s :=
  match rest with
  | 'e' :: more | 'E' :: more => do
    let x ← takeExponent more
    let n ← real negative coefficient (x.value - lower)
    .ok ⟨n, x.rest, Nat.lt_trans x.shorter (Nat.lt_of_succ_lt shorter)⟩
  | rest => do
    let n ← if lower = 0 then whole negative coefficient else real negative coefficient (-lower)
    .ok ⟨n, rest, shorter⟩

/-- Takes a number without its sign. -/
def takeNumber (negative : Bool) (s : List Char) : Take Number s := do
  let x ← takeDigits s
  if x.value.head? = some '0' ∧ x.value.length ≠ 1 then .error .malformed
  else
    match h : x.rest with
    | '.' :: more => do
      let y ← takeDigits more
      have := x.shorter
      have := y.shorter
      takeScaled negative (natOf (x.value ++ y.value)) y.value.length s y.rest
        (by simp only [h, List.length_cons] at *; omega)
    | rest => takeScaled negative (natOf x.value) 0 s rest (h ▸ x.shorter)

/-! ### Strings -/

/-- The value of a hexadecimal digit. -/
def hexValue? (c : Char) : Option Nat :=
  if c.isDigit then some (c.toNat - '0'.toNat)
  else if 'a' ≤ c ∧ c ≤ 'f' then some (c.toNat - 'a'.toNat + 10)
  else if 'A' ≤ c ∧ c ≤ 'F' then some (c.toNat - 'A'.toNat + 10)
  else none

/-- Takes a code of four hexadecimal digits. A text of fewer than four bytes ends too early. -/
def takeHex (s : List Char) : Take Nat s :=
  match s with
  | a :: b :: c :: d :: rest =>
    match hexValue? a, hexValue? b, hexValue? c, hexValue? d with
    | some a, some b, some c, some d =>
      .ok ⟨((a * 16 + b) * 16 + c) * 16 + d, rest, by simp only [List.length_cons]; omega⟩
    | _, _, _, _ => .error .malformed
  | s => .error (if (String.ofList s).utf8ByteSize < 4 then .ended else .malformed)

/-- Takes the second half of a character outside the first 65536. -/
def takeTrailing (s : List Char) : Take Nat s :=
  match s with
  | [] => .error .ended
  | '\\' :: [] => .error .ended
  | '\\' :: 'u' :: rest => do
    let x ← takeHex rest
    if 0xDC00 ≤ x.value ∧ x.value ≤ 0xDFFF then .ok (x.widen (by simp only [List.length_cons]; omega))
    else .error .malformed
  | _ => .error .malformed

/-- Takes the character behind `\u`. -/
def takeUnicode (s : List Char) : Take Char s := do
  let x ← takeHex s
  if 0xDC00 ≤ x.value ∧ x.value ≤ 0xDFFF then .error .malformed
  else if 0xD800 ≤ x.value ∧ x.value ≤ 0xDBFF then
    let y ← takeTrailing x.rest
    .ok ⟨Char.ofNat (0x10000 + (x.value - 0xD800) * 0x400 + (y.value - 0xDC00)), y.rest,
      Nat.lt_trans y.shorter x.shorter⟩
  else .ok (x.map Char.ofNat)

/-- What an escaped character other than `u` stands for. -/
def unescape? : Char → Option Char
  | '"' => some '"'
  | '\\' => some '\\'
  | '/' => some '/'
  | 'b' => some '\x08'
  | 'f' => some '\x0c'
  | 'n' => some '\n'
  | 'r' => some '\r'
  | 't' => some '\t'
  | _ => none

/-- Takes an escaped character, from behind its backslash on. -/
def takeEscape (s : List Char) : Take Char s :=
  match s with
  | [] => .error .ended
  | c :: cs =>
    if c = 'u' then (takeUnicode cs).map (·.widen (Nat.le_succ _))
    else
      match unescape? c with
      | some v => .ok ⟨v, cs, Nat.lt_succ_self _⟩
      | none => .error .malformed

/-- Takes what a string holds, from behind its opening quote to behind its closing one. -/
def takeString (s : List Char) : Take (List Char) s :=
  match s with
  | [] => .error .ended
  | c :: cs =>
    if c = '"' then .ok ⟨[], cs, Nat.lt_succ_self _⟩
    else if c = '\\' then do
      let x ← takeEscape cs
      have := x.shorter
      let y ← takeString x.rest
      .ok ⟨x.value :: y.value, y.rest,
        by have := y.shorter; simp only [List.length_cons]; omega⟩
    else if c.toNat < 0x20 then .error .malformed
    else do
      let y ← takeString cs
      .ok ((y.map (c :: ·)).widen (Nat.le_succ _))
termination_by s.length

/-- Takes a name, from behind its opening quote on. -/
def takeName (s : List Char) : Take String s :=
  (takeString s).map fun x => x.map String.ofList

/-- Takes the name of a member, with its opening quote, which has to stand at the front. -/
def takeKey (s : List Char) : Take String s :=
  match s with
  | '"' :: cs => (takeName cs).map (·.widen (Nat.le_succ _))
  | [] => .error .ended
  | _ => .error .malformed

/-- Takes the colon behind a name. -/
def takeColon (s : List Char) : Take Unit s :=
  match front? s with
  | none => .error .ended
  | some x => if x.first = ':' then .ok ⟨(), x.rest, x.shorter⟩ else .error .malformed

/-! ### Values -/

/-- What comes next among the items of an array or the members of an object. -/
inductive Separator (s : List Char) where
  /-- The closing bracket. -/
  | close (rest : List Char) (shorter : rest.length < s.length)
  /-- One more item. -/
  | item (rest : List Char) (le : rest.length ≤ s.length)

/-- Goes to the next item, or behind the closing bracket. In front of each item but the first there
has to be a comma. -/
def separator (closing : Char) (first : Bool) (s : List Char) : Except ReadError (Separator s) :=
  match front? s with
  | none => .error .ended
  | some x =>
    if x.first = closing then .ok (.close x.rest x.shorter)
    else if first then .ok (.item (x.first :: x.rest) x.shorter)
    else if x.first = ',' then
      if (skip x.rest).head? = some closing then .error .malformed
      else .ok (.item (skip x.rest) (Nat.le_trans (length_skip_le x.rest) (Nat.le_of_lt x.shorter)))
    else .error .malformed

mutual

/-- Takes a value, with the blanks in front of it. -/
def takeValue (levels : Nat) (s : List Char) : Take Json s :=
  match front? s with
  | none => .error .ended
  | some ⟨c, cs, shorter⟩ =>
    match c with
    | 'n' => (takeWord null ['u', 'l', 'l'] 'n' cs).map (·.widen shorter)
    | 't' => (takeWord (bool true) ['r', 'u', 'e'] 't' cs).map (·.widen shorter)
    | 'f' => (takeWord (bool false) ['a', 'l', 's', 'e'] 'f' cs).map (·.widen shorter)
    | '"' => (takeName cs).map fun x => (x.map string).widen (Nat.le_of_lt shorter)
    | '-' => (takeNumber true cs).map fun x => (x.map number).widen (Nat.le_of_lt shorter)
    | '[' =>
      match levels with
      | 0 => .error .malformed
      | levels + 1 =>
        (takeItems levels true cs).map fun x => (x.map array).widen (Nat.le_of_lt shorter)
    | '{' =>
      match levels with
      | 0 => .error .malformed
      | levels + 1 =>
        (takeMembers levels true cs).map fun x => (x.map object).widen (Nat.le_of_lt shorter)
    | c =>
      if c.isDigit then (takeNumber false (c :: cs)).map fun x => (x.map number).widen shorter
      else .error .malformed
termination_by (s.length, 0)
decreasing_by all_goals simp only [Prod.lex_def]; omega

/-- Takes the items of an array up to its closing bracket. -/
def takeItems (levels : Nat) (first : Bool) (s : List Char) : Take (List Json) s :=
  match separator ']' first s with
  | .error e => .error e
  | .ok (.close rest shorter) => .ok ⟨[], rest, shorter⟩
  | .ok (.item rest le) => do
    let v ← takeValue levels rest
    have := v.shorter
    let vs ← takeItems levels false v.rest
    .ok ⟨v.value :: vs.value, vs.rest, by have := vs.shorter; omega⟩
termination_by (s.length, 1)
decreasing_by all_goals simp only [Prod.lex_def]; omega

/-- Takes the members of an object up to its closing brace. Of two members of one name the later one
counts. -/
def takeMembers (levels : Nat) (first : Bool) (s : List Char) : Take (List (String × Json)) s :=
  match separator '}' first s with
  | .error e => .error e
  | .ok (.close rest shorter) => .ok ⟨[], rest, shorter⟩
  | .ok (.item rest le) => do
    let k ← takeKey rest
    let colon ← takeColon k.rest
    let v ← takeValue levels colon.rest
    have := k.shorter
    have := colon.shorter
    have := v.shorter
    let fields ← takeMembers levels false v.rest
    .ok ⟨if (field? k.value fields.value).isSome then fields.value
        else (k.value, v.value) :: fields.value,
      fields.rest, by have := fields.shorter; omega⟩
termination_by (s.length, 1)
decreasing_by
  · have := k.shorter
    have := colon.shorter
    simp only [Prod.lex_def]; omega
  · simp only [Prod.lex_def]; omega

end

end Slate.Json
