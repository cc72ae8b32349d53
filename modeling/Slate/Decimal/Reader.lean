import Slate.Decimal.Basic
import Slate.Text.Unsigned

/-!
# Reading a decimal

A number literal is digits with at most one point among them, and so are most texts that this module
is given. Texts that a host puts into an environment or into a token may hold more: a sign, a bare
point, low lines between digits, an exponent.

    [+|-] digits [. digits] [(e|E) [-] exponent]

The whole digits have to fit. Digits behind the point are read while the magnitude fits and the
scale is below 28; the first one that has no room rounds the number, half up. Behind it only digits
and low lines may follow, and none of them counts.

A low line behind the last digit that a scale of 28 has room for depends on what has been read. Behind a
wide magnitude it is passed over like any low line, and the digit behind it rounds. Behind a narrow one
it takes the place of that digit, and rounds nothing.

A positive exponent only moves the point. A negative one makes the scale larger, and where that is more
than 28, the digits that fall off round the number, half up, which may leave nought with a sign.

* `Decimal.ofChars?` reads a text, `Decimal.ReadError` says why it is none.
-/

namespace Slate.Decimal

/-- Why a text is no decimal. -/
inductive ReadError where
  | empty
  | noDigits
  | twoPoints
  /-- A low line before any digit. -/
  | leadingSeparator
  | unknownCharacter
  | tooManyDigits
  /-- Rounding a magnitude without a scale made it too large. -/
  | roundingOverflow
  /-- What follows the `e` is no whole number of at most 32 bits. -/
  | invalidExponent
  /-- An exponent above the largest scale. -/
  | scaleTooLarge (exponent : Nat)
  | valueTooLarge
  deriving DecidableEq

def ReadError.message : ReadError → String
  | empty => "Invalid decimal: empty"
  | noDigits => "Invalid decimal: no digits found"
  | twoPoints => "Invalid decimal: two decimal points"
  | leadingSeparator => "Invalid decimal: must start lead with a number"
  | unknownCharacter => "Invalid decimal: unknown character"
  | tooManyDigits => "Invalid decimal: overflow from too many digits"
  | roundingOverflow => "Invalid decimal: overflow from mantissa after rounding"
  | invalidExponent => "Failed to parse"
  | scaleTooLarge exponent =>
    "Scale exceeds the maximum precision allowed: " ++ toString exponent ++ " > " ++ toString maxScale
  | valueTooLarge => "Number exceeds maximum value that can be represented."

/-- What a character means that cannot stand where it does. -/
def ReadError.ofChar : Char → ReadError
  | '.' => twoPoints
  | '_' => leadingSeparator
  | _ => unknownCharacter

/-! ### Digits -/

/-- The value of a digit; any other character counts for nought. -/
def digitValue (c : Char) : Nat := if c.isDigit then c.toNat - '0'.toNat else 0

/-- A magnitude is wide if it has reached this before its last digit: a tenth of the numbers of
64 bits, less 255. -/
def wideFrom : Nat := 1844674407370954906

/-- What has been read of a number behind its sign. -/
structure Reading where
  magnitude : Nat
  scale : Nat
  /-- Whether the point has come. -/
  point : Bool
  /-- Whether a digit has come. -/
  started : Bool

namespace Reading

/-- Nothing has been read. -/
def start : Reading := ⟨0, 0, false, false⟩

/-- Goes on with a magnitude that is longer by one digit. -/
def push (r : Reading) (longer : Nat) : Reading :=
  ⟨longer, if r.point then r.scale + 1 else r.scale, r.point, true⟩

/-- Whether there is no room for a further digit behind the point. -/
def isFull (r : Reading) : Bool := r.point && maxScale ≤ r.scale

/-- Whether the magnitude was large already before its last digit. -/
def isWide (r : Reading) : Bool := wideFrom ≤ r.magnitude / 10

end Reading

/-- Rounds a number by the first digit that has no room. Where that makes the magnitude too large, its
last digit goes. -/
def roundBy (digit magnitude scale : Nat) : Except ReadError (Nat × Nat) :=
  if digit < 5 then .ok (magnitude, scale)
  else if magnitude + 1 < limit then .ok (magnitude + 1, scale)
  else if scale = 0 then .error .roundingOverflow
  else .ok ((magnitude + 5) / 10, scale - 1)

/-- The characters from the digit that rounds onwards are digits and low lines. -/
def checkRest : List Char → Except ReadError Unit
  | [] => .ok ()
  | c :: cs => if c.isDigit ∨ c = '_' then checkRest cs else .error (.ofChar c)

/-- Ends a number at characters that have no room any more, of which the first one rounds it. -/
def Reading.close (r : Reading) (c : Char) (cs : List Char) : Except ReadError (Nat × Nat) := do
  let number ← roundBy (digitValue c) r.magnitude r.scale
  checkRest (c :: cs)
  return number

/-- Reads the digits behind the sign: their magnitude and its scale. -/
def readDigits (r : Reading) : List Char → Except ReadError (Nat × Nat)
  | [] => if r.started then .ok (r.magnitude, r.scale) else .error .noDigits
  | c :: cs =>
    if r.isFull then if c = '_' ∧ r.isWide then readDigits r cs else r.close c cs
    else if c.isDigit then
      let longer := r.magnitude * 10 + digitValue c
      if longer < limit then readDigits (r.push longer) cs
      else if r.point then r.close c cs
      else .error .tooManyDigits
    else if c = '.' ∧ ¬ r.point then readDigits { r with point := true } cs
    else if c = '_' ∧ r.started then readDigits r cs
    else .error (.ofChar c)

/-- A decimal that fits, or the error that it does not. -/
def checked (coefficient : Int) (scale : Nat) : Except ReadError Decimal :=
  match make? coefficient scale with
  | some d => .ok d
  | none => .error .valueTooLarge

/-- Reads a number behind its sign. -/
def readSigned (sign : Int) (cs : List Char) : Except ReadError Decimal := do
  let (magnitude, scale) ← readDigits .start cs
  checked (sign * magnitude) scale

/-- Reads a number without an exponent. -/
def readPlain : List Char → Except ReadError Decimal
  | [] => .error .empty
  | '-' :: cs => readSigned (-1) cs
  | '+' :: cs => readSigned 1 cs
  | cs => readSigned 1 cs

/-! ### Exponents -/

/-- The same digits with another scale. -/
def setScale (d : Decimal) (scale : Nat) (h : scale ≤ maxScale) : Decimal :=
  { d with scale, scale_le := h }

/-- Moves the point `exponent` places to the right: first by a smaller scale, and where that does not
reach, by noughts behind the last digit. -/
def raise (d : Decimal) (exponent : Nat) : Except ReadError Decimal :=
  if exponent ≤ d.scale then
    .ok (d.setScale (d.scale - exponent) (Nat.le_trans (Nat.sub_le _ _) d.scale_le))
  else if maxScale < exponent then .error (.scaleTooLarge exponent)
  else checked (d.coefficient * tenPow (exponent - d.scale)) 0

/-- The decimal nearest to `d / 10 ^ excess` with the largest scale, if `d` is taken to have that scale
already. The sign stays, also in front of nought. -/
def shed (d : Decimal) (excess : Nat) : Decimal where
  negative := d.negative
  magnitude := roundHalfUp d.magnitude (tenPow excess)
  scale := maxScale
  magnitude_lt := Nat.lt_of_le_of_lt (roundHalfUp_le (tenPow_pos excess)) d.magnitude_lt
  scale_le := Nat.le_refl _

/-- Moves the point `exponent` places to the left, by a larger scale. Digits beyond the largest scale
round the number. -/
def lower (d : Decimal) (exponent : Nat) : Except ReadError Decimal :=
  if maxScale < exponent then .error (.scaleTooLarge exponent)
  else if h : d.scale + exponent ≤ maxScale then .ok (d.setScale (d.scale + exponent) h)
  else .ok (d.shed (d.scale + exponent - maxScale))

/-- Applies the exponent behind the `e`. -/
def scaleBy (d : Decimal) (exponent : List Char) : Except ReadError Decimal :=
  match exponent with
  | '-' :: cs =>
    match Text.unsigned? Text.word32 cs with
    | some n => d.lower n
    | none => .error .invalidExponent
  | cs =>
    match Text.unsigned? Text.word32 cs with
    | some n => d.raise n
    | none => .error .invalidExponent

def isExponentMark (c : Char) : Bool := c = 'e' || c = 'E'

/-- Reads a decimal, with an exponent if the text is none without. -/
def ofChars? (cs : List Char) : Except ReadError Decimal :=
  match readPlain cs with
  | .ok d => .ok d
  | .error e =>
    match cs.dropWhile (!isExponentMark ·) with
    | [] => .error e
    | _ :: exponent => do
      let d ← readPlain (cs.takeWhile (!isExponentMark ·))
      scaleBy d exponent

/-- Reads a decimal from a text. -/
def ofString? (s : String) : Except ReadError Decimal := ofChars? s.toList

end Slate.Decimal
