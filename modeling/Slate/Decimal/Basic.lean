/-!
# Decimal numbers

A `Decimal` is a sign, a whole magnitude and a scale, the number of its digits behind the point. The
magnitude takes at most 96 bits and the scale is at most 28, so not every result of a computation is a
decimal. Sign and scale are part of the number as written: `1.50` and `1.5` have the same value and are
different decimals, and a negative number that was rounded to nought keeps its sign.

Arithmetic is about values: it sees the coefficient, which is the magnitude with its sign. It takes
the exact result as a quotient and gives it the largest scale at which it fits, rounded half to even
(`ofRatio?`). No scale fits only where the value is too large.

* `toChars` writes a decimal with its sign and all digits of its scale;
* `normalize` drops the trailing zeros behind the point and the sign of nought, and `canonical` is the
  text of what is left: one text for each value.
-/

namespace Slate

namespace Decimal

/-- Magnitudes are below this: 2 to the power of 96. -/
def limit : Nat := 79228162514264337593543950336

/-- The largest scale. -/
def maxScale : Nat := 28

end Decimal

/-- The number `magnitude / 10 ^ scale`, or its negative. -/
structure Decimal where
  negative : Bool
  magnitude : Nat
  scale : Nat
  magnitude_lt : magnitude < Decimal.limit
  scale_le : scale ≤ Decimal.maxScale
  deriving DecidableEq

namespace Decimal

/-- The magnitude with its sign. -/
def coefficient (d : Decimal) : Int := if d.negative then -(d.magnitude : Int) else d.magnitude

/-- The decimal of a coefficient and a scale, if there is one. Nought gets no sign. -/
def make? (coefficient : Int) (scale : Nat) : Option Decimal :=
  if h : coefficient.natAbs < limit ∧ scale ≤ maxScale then
    some ⟨coefficient < 0, coefficient.natAbs, scale, h.1, h.2⟩
  else none

theorem coefficient_eq_of_make? {coefficient : Int} {scale : Nat} {d : Decimal}
    (h : make? coefficient scale = some d) : d.coefficient = coefficient := by
  unfold make? at h
  split at h
  · cases h
    by_cases negative : coefficient < 0
    · simp only [Decimal.coefficient, negative, decide_true, ↓reduceIte]
      omega
    · simp only [Decimal.coefficient, negative, decide_false, Bool.false_eq_true, ↓reduceIte]
      omega
  · cases h

/-- Nought, with no sign and no digits behind the point. -/
def zero : Decimal := ⟨false, 0, 0, by decide, by decide⟩

instance : Inhabited Decimal := ⟨zero⟩

def isZero (d : Decimal) : Bool := d.magnitude = 0

/-! ### Text -/

/-- The digits of a magnitude, with noughts in front so that at least one digit stands before the
point. -/
def paddedDigits (magnitude scale : Nat) : List Char :=
  let digits := Nat.toDigits 10 magnitude
  List.replicate (scale + 1 - digits.length) '0' ++ digits

/-- The text of an unsigned decimal. -/
def unsignedChars (magnitude scale : Nat) : List Char :=
  let digits := paddedDigits magnitude scale
  let whole := digits.length - scale
  digits.take whole ++ if scale = 0 then [] else '.' :: digits.drop whole

/-- The text of a decimal: its sign, and as many digits behind the point as its scale says. -/
def toChars (d : Decimal) : List Char :=
  (if d.negative then ['-'] else []) ++ unsignedChars d.magnitude d.scale

protected def toString (d : Decimal) : String := String.ofList d.toChars

instance : ToString Decimal := ⟨Decimal.toString⟩

/-! ### Normal form -/

/-- Drops trailing noughts of a magnitude, at most `scale` of them. -/
def dropZeros (magnitude : Nat) : Nat → Nat × Nat
  | 0 => (magnitude, 0)
  | scale + 1 =>
    if magnitude % 10 = 0 then dropZeros (magnitude / 10) scale else (magnitude, scale + 1)

theorem dropZeros_le (magnitude scale : Nat) : (dropZeros magnitude scale).1 ≤ magnitude := by
  induction scale generalizing magnitude with
  | zero => exact Nat.le_refl _
  | succ scale ih =>
    unfold dropZeros
    split
    · exact Nat.le_trans (ih _) (Nat.div_le_self _ _)
    · exact Nat.le_refl _

theorem scale_dropZeros_le (magnitude scale : Nat) : (dropZeros magnitude scale).2 ≤ scale := by
  induction scale generalizing magnitude with
  | zero => exact Nat.le_refl _
  | succ scale ih =>
    unfold dropZeros
    split
    · exact Nat.le_succ_of_le (ih _)
    · exact Nat.le_refl _

/-- The same value without trailing noughts behind the point, and nought without a sign. -/
def normalize (d : Decimal) : Decimal where
  negative := d.negative && d.magnitude ≠ 0
  magnitude := (dropZeros d.magnitude d.scale).1
  scale := (dropZeros d.magnitude d.scale).2
  magnitude_lt := Nat.lt_of_le_of_lt (dropZeros_le _ _) d.magnitude_lt
  scale_le := Nat.le_trans (scale_dropZeros_le _ _) d.scale_le

/-- The text of the value: no trailing noughts behind the point, no sign for nought. -/
def canonical (d : Decimal) : String := d.normalize.toString

/-! ### Rounding -/

/-- The power of ten with that many noughts. -/
def tenPow (noughts : Nat) : Nat := Nat.pow 10 noughts

theorem tenPow_pos (noughts : Nat) : 0 < tenPow noughts := Nat.pow_pos (by decide)

/-- The whole number nearest to a quotient. A half goes up. -/
def roundHalfUp (num den : Nat) : Nat := num / den + if den ≤ 2 * (num % den) then 1 else 0

theorem roundHalfUp_le {num den : Nat} (h : 0 < den) : roundHalfUp num den ≤ num := by
  unfold roundHalfUp
  have parts := Nat.div_add_mod num den
  have quotient : num / den ≤ den * (num / den) := Nat.le_mul_of_pos_left _ h
  split <;> omega

/-- The whole number nearest to a quotient. A half goes to the even neighbour. -/
def roundHalfEven (num den : Nat) : Nat :=
  let q := num / den
  let r := num % den
  if 2 * r < den then q else if den < 2 * r then q + 1 else if q % 2 = 0 then q else q + 1

/-! ### Arithmetic -/

/-- The decimal nearest to `num / den` with the given scale, if its coefficient fits. -/
def atScale? (num : Int) (den scale : Nat) : Option Decimal :=
  make? (num.sign * roundHalfEven (num.natAbs * tenPow scale) den) scale

/-- The decimal nearest to `num / den` with the largest scale up to `scale` that fits. -/
def withScale? (num : Int) (den : Nat) : Nat → Option Decimal
  | 0 => atScale? num den 0
  | scale + 1 => atScale? num den (scale + 1) <|> withScale? num den scale

/-- The decimal for the quotient `num / den`, unless its value is too large. -/
def ofRatio? (num : Int) (den : Nat) : Option Decimal := withScale? num den maxScale

def add? (a b : Decimal) : Option Decimal :=
  ofRatio? (a.coefficient * tenPow b.scale + b.coefficient * tenPow a.scale) (tenPow (a.scale + b.scale))

def sub? (a b : Decimal) : Option Decimal :=
  ofRatio? (a.coefficient * tenPow b.scale - b.coefficient * tenPow a.scale) (tenPow (a.scale + b.scale))

def mul? (a b : Decimal) : Option Decimal :=
  ofRatio? (a.coefficient * b.coefficient) (tenPow (a.scale + b.scale))

/-- The quotient of two decimals. The caller sees to it that the divisor is not nought. -/
def div? (a b : Decimal) : Option Decimal :=
  ofRatio? (a.coefficient * b.coefficient.sign * tenPow b.scale) (b.magnitude * tenPow a.scale)

end Decimal
end Slate
