import Slate.Decimal.Reader
import Slate.Ty

/-!
# Values

What expressions stand for: decimals, texts and truth values.

* `Value.canonical` is the text of a value, as it is printed and stored;
* `Value.isTruthy` decides a conditional;
* `Value.ofInput` reads a text that came from outside as the value it looks like.
-/

namespace Slate

inductive Value where
  | number (d : Decimal)
  | string (s : String)
  | boolean (b : Bool)
  deriving DecidableEq

namespace Value

def type : Value → Ty
  | number _ => .number
  | string _ => .string
  | boolean _ => .boolean

/-- The word for a truth value. -/
def booleanText (b : Bool) : String := if b then "true" else "false"

/-- The text of a value. Numbers have no trailing noughts behind the point. -/
def canonical : Value → String
  | number d => d.canonical
  | string s => s
  | boolean b => booleanText b

/-- Nought, the empty text and falsehood are not truthy. -/
def isTruthy : Value → Bool
  | number d => !d.isZero
  | string s => s ≠ ""
  | boolean b => b

/-! ### Values from outside -/

/-- Whether a text looks like a number: digits, perhaps a point and digits. -/
def looksNumeric (cs : List Char) : Bool :=
  cs.takeWhile Char.isDigit ≠ [] &&
    match cs.dropWhile Char.isDigit with
    | [] => true
    | '.' :: d :: fraction => (d :: fraction).all Char.isDigit
    | _ => false

/-- What stands in quotes, if the whole text is a quote, characters other than that quote, and the
quote again. -/
def unquote? : List Char → Option (List Char)
  | q :: cs =>
    if (q = '"' ∨ q = '\'') ∧ cs.getLast? = some q ∧ q ∉ cs.dropLast then some cs.dropLast
    else none
  | [] => none

/-- A text in quotes without them, any other as it is. -/
def ofText (raw : String) : Value :=
  match unquote? raw.toList with
  | some inner => string (String.ofList inner)
  | none => string raw

/-- The value that a text from outside looks like: a truth value, an unsigned number that is a
decimal, a text in quotes without them, or else the text itself. -/
def ofInput (raw : String) : Value :=
  if raw = "true" then boolean true
  else if raw = "false" then boolean false
  else if looksNumeric raw.toList then
    match Decimal.ofString? raw with
    | .ok d => number d
    | .error _ => ofText raw
  else ofText raw

end Value
end Slate
