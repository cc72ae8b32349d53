/-!
# Unsigned whole numbers as text

Components of a version and exponents are whole numbers below a bound, written with ASCII digits and
perhaps a plus sign in front.

* `unsigned?_toDigits`: the digits of a number are read as that number.
-/

namespace Slate.Text

/-- Numbers of 32 bits are below this. -/
def word32 : Nat := 4294967296

/-- Numbers of 64 bits are below this. -/
def word64 : Nat := 18446744073709551616

/-- Digits only, and at least one: the number they write, if it is below `bound`. -/
def digits? (bound : Nat) (cs : List Char) : Option Nat :=
  if cs ≠ [] ∧ cs.all Char.isDigit then
    let n := Nat.ofDigitChars 10 cs 0
    if n < bound then some n else none
  else none

/-- A number below `bound`, with or without a plus sign. -/
def unsigned? (bound : Nat) : List Char → Option Nat
  | '+' :: cs => digits? bound cs
  | cs => digits? bound cs

theorem digits?_toDigits {bound n : Nat} (h : n < bound) :
    digits? bound (Nat.toDigits 10 n) = some n := by
  have all : (Nat.toDigits 10 n).all Char.isDigit = true :=
    List.all_eq_true.2 fun _ hc => Nat.isDigit_of_mem_toDigits (by decide) (by decide) hc
  simp [digits?, all, Nat.toDigits_ne_nil, Nat.ofDigitChars_toDigits, h]

theorem unsigned?_toDigits {bound n : Nat} (h : n < bound) :
    unsigned? bound (Nat.toDigits 10 n) = some n := by
  have plus : '+' ∉ Nat.toDigits 10 n := fun hc =>
    absurd (Nat.isDigit_of_mem_toDigits (by decide) (by decide) hc) (by decide)
  unfold unsigned?
  split
  · next cs hcs => simp [hcs] at plus
  · exact digits?_toDigits h

end Slate.Text
