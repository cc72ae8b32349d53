import Slate.Json

/-!
# Writing JSON

One function writes JSON in every layout. A `Layout` says what stands in front of each item and of
each closing bracket, by depth, and what stands between a name and its value.

* `Json.compact` writes no blanks at all;
* `Json.pretty` writes each item on its own line, two spaces deeper than what holds it.

An array or an object without items is written `[]` or `\x7b\x7d` in both.
-/

namespace Slate.Json

/-! ### Strings -/

/-- The lower case digits of a hexadecimal number. -/
def hexDigit (n : Nat) : Char := Nat.digitChar (n % 16)

/-- How a character stands in a string: quotes, backslashes and control characters are escaped. -/
def escapeChar (c : Char) : List Char :=
  match c with
  | '"' => ['\\', '"']
  | '\\' => ['\\', '\\']
  | '\n' => ['\\', 'n']
  | '\r' => ['\\', 'r']
  | '\t' => ['\\', 't']
  | '\x08' => ['\\', 'b']
  | '\x0c' => ['\\', 'f']
  | c =>
    if c.toNat < 0x20 then ['\\', 'u', '0', '0', hexDigit (c.toNat / 16), hexDigit c.toNat] else [c]

/-- A string in quotes. -/
def quote (s : String) : String :=
  "\"" ++ String.ofList (s.toList.flatMap escapeChar) ++ "\""

/-- A number. A real one has an exponent, so that it is told apart from a whole one. -/
def Number.text : Number → String
  | whole n => toString n
  | real negative coefficient exponent =>
    (if negative then "-" else "") ++ toString coefficient ++ "e" ++ toString exponent

/-! ### Values -/

/-- Where blanks stand. -/
structure Layout where
  /-- In front of an item, and of a closing bracket, at a depth. -/
  lineBreak : Nat → String
  /-- Behind the colon. -/
  gap : String

namespace Layout

def compact : Layout := ⟨fun _ => "", ""⟩

def pretty : Layout := ⟨fun depth => "\n" ++ "".pushn ' ' (2 * depth), " "⟩

end Layout

mutual

/-- Writes a value that stands at a depth. -/
def write (l : Layout) (depth : Nat) : Json → String
  | null => "null"
  | bool b => if b then "true" else "false"
  | number n => n.text
  | string s => quote s
  | array [] => "[]"
  | array (v :: vs) =>
    "[" ++ l.lineBreak (depth + 1) ++ write l (depth + 1) v ++ writeItems l (depth + 1) vs ++
      l.lineBreak depth ++ "]"
  | object [] => "\x7b\x7d"
  | object ((k, v) :: fields) =>
    "\x7b" ++ l.lineBreak (depth + 1) ++ quote k ++ ":" ++ l.gap ++ write l (depth + 1) v ++
      writeFields l (depth + 1) fields ++ l.lineBreak depth ++ "\x7d"

/-- Writes the items behind the first one. -/
def writeItems (l : Layout) (depth : Nat) : List Json → String
  | [] => ""
  | v :: vs => "," ++ l.lineBreak depth ++ write l depth v ++ writeItems l depth vs

/-- Writes the members behind the first one. -/
def writeFields (l : Layout) (depth : Nat) : List (String × Json) → String
  | [] => ""
  | (k, v) :: fields =>
    "," ++ l.lineBreak depth ++ quote k ++ ":" ++ l.gap ++ write l depth v ++
      writeFields l depth fields

end

/-! Without items, the brackets are all there is in any layout. -/

@[simp] theorem write_array_nil (l : Layout) (depth : Nat) : write l depth (array []) = "[]" := by rw [write]

@[simp] theorem write_object_nil (l : Layout) (depth : Nat) : write l depth (object []) = "\x7b\x7d" := by rw [write]

@[simp] theorem writeItems_nil (l : Layout) (depth : Nat) : writeItems l depth [] = "" := by rw [writeItems]

@[simp] theorem writeFields_nil (l : Layout) (depth : Nat) : writeFields l depth [] = "" := by rw [writeFields]

/-- The text without blanks. -/
def compact (v : Json) : String := write .compact 0 v

/-- The text with an item on each line. -/
def pretty (v : Json) : String := write .pretty 0 v

end Slate.Json
