import Mathlib.Algebra.Field.Rat
import Mathlib.Data.Int.Cast.Lemmas
import Mathlib.Data.Rat.Lemmas
import Mathlib.Tactic.FieldSimp
import Mathlib.Tactic.Ring
import Slate.Decimal.Basic

/-!
# The value of a decimal

`1.50` and `1.5` are different decimals of one value. What is computed from decimals depends on their
values only:

* `normalize_eq_iff` — the normal form, and with it the canonical text, is one for each value;
* `isZero_iff` — so is the test for nought;
* `add?_eq`, `sub?_eq`, `mul?_eq`, `div?_eq` — the result of an operator is the decimal for the sum, the
  difference, the product or the quotient of the values (`ofValue?`).
-/

namespace Slate.Decimal

/-- The number that a decimal stands for. -/
def value (d : Decimal) : ℚ := d.coefficient / tenPow d.scale

theorem cast_tenPow_ne_zero (noughts : Nat) : (tenPow noughts : ℚ) ≠ 0 :=
  Nat.cast_ne_zero.2 (tenPow_pos noughts).ne'

theorem tenPow_add (m n : Nat) : tenPow (m + n) = tenPow m * tenPow n := Nat.pow_add 10 m n

theorem natAbs_coefficient (d : Decimal) : d.coefficient.natAbs = d.magnitude := by
  unfold coefficient
  split <;> omega

theorem value_eq_iff {a b : Decimal} :
    a.value = b.value ↔ a.coefficient * tenPow b.scale = b.coefficient * tenPow a.scale := by
  rw [value, value, div_eq_div_iff (cast_tenPow_ne_zero _) (cast_tenPow_ne_zero _)]
  exact_mod_cast Iff.rfl

theorem isZero_iff (d : Decimal) : d.isZero = true ↔ d.value = 0 := by
  rw [value, div_eq_zero_iff, or_iff_left (cast_tenPow_ne_zero _), Int.cast_eq_zero,
    ← Int.natAbs_eq_zero, natAbs_coefficient, isZero, decide_eq_true_iff]

theorem sign_mul_natCast (n : Int) {k : Nat} (hk : 0 < k) : (n * k).sign = n.sign := by
  rw [Int.sign_mul, Int.sign_natCast_of_ne_zero hk.ne', Int.mul_one]

theorem isZero_eq_of_value_eq {a b : Decimal} (h : a.value = b.value) : a.isZero = b.isZero := by
  rw [Bool.eq_iff_iff, isZero_iff, isZero_iff, h]

/-! ## Normal forms -/

theorem dropZeros_mul (magnitude scale noughts : Nat) :
    dropZeros (magnitude * tenPow noughts) (scale + noughts) = dropZeros magnitude scale := by
  induction noughts with
  | zero => simp [tenPow]
  | succ noughts ih =>
    have last : magnitude * tenPow (noughts + 1) = magnitude * tenPow noughts * 10 := by
      rw [tenPow_add, ← Nat.mul_assoc]
      rfl
    rw [last, ← Nat.add_assoc, dropZeros, Nat.mul_mod_left, if_pos rfl,
      Nat.mul_div_cancel _ (by decide), ih]

theorem dropZeros_spec (magnitude scale : Nat) :
    (dropZeros magnitude scale).1 * tenPow scale =
      magnitude * tenPow (dropZeros magnitude scale).2 := by
  induction scale generalizing magnitude with
  | zero => rfl
  | succ scale ih =>
    unfold dropZeros
    by_cases h : magnitude % 10 = 0
    · -- the nought that goes is a factor of ten on both sides
      have whole : magnitude = magnitude / 10 * 10 := by omega
      have rest := ih (magnitude / 10)
      rw [if_pos h]
      calc (dropZeros (magnitude / 10) scale).1 * tenPow (scale + 1)
          = (dropZeros (magnitude / 10) scale).1 * tenPow scale * 10 := Nat.mul_assoc .. |>.symm
        _ = magnitude / 10 * 10 * tenPow (dropZeros (magnitude / 10) scale).2 := by
            rw [rest, Nat.mul_right_comm]
        _ = magnitude * tenPow (dropZeros (magnitude / 10) scale).2 := by rw [← whole]
    · rw [if_neg h]

theorem coefficient_normalize (d : Decimal) :
    d.normalize.coefficient * tenPow d.scale = d.coefficient * tenPow d.normalize.scale := by
  have kept : ((dropZeros d.magnitude d.scale).1 : Int) * tenPow d.scale =
      d.magnitude * tenPow (dropZeros d.magnitude d.scale).2 := by
    exact_mod_cast dropZeros_spec d.magnitude d.scale
  unfold coefficient normalize
  by_cases zero : d.magnitude = 0
  · rw [zero] at kept
    simpa [zero] using kept
  · cases negative : d.negative with
    | false => simpa using kept
    | true => simpa [zero] using kept

theorem value_normalize (d : Decimal) : d.normalize.value = d.value :=
  value_eq_iff.2 (coefficient_normalize d)

theorem negative_normalize (d : Decimal) : d.normalize.negative = decide (d.coefficient < 0) := by
  unfold normalize coefficient
  cases d.negative with
  | false => simp
  | true =>
    rw [Bool.true_and]
    apply decide_eq_decide.2
    simp only [if_true]
    omega

/-- There is one normal form for each value. -/
theorem normalize_eq_iff {a b : Decimal} : a.normalize = b.normalize ↔ a.value = b.value := by
  constructor
  · intro h
    rw [← value_normalize a, h, value_normalize]
  · intro h
    have cross := value_eq_iff.1 h
    have sign : a.normalize.negative = b.normalize.negative := by
      have := congrArg Int.sign cross
      rw [sign_mul_natCast _ (tenPow_pos _), sign_mul_natCast _ (tenPow_pos _)] at this
      rw [negative_normalize, negative_normalize, decide_eq_decide, ← Int.sign_eq_neg_one_iff_neg,
        this, Int.sign_eq_neg_one_iff_neg]
    have magnitudes : a.magnitude * tenPow b.scale = b.magnitude * tenPow a.scale := by
      have := congrArg Int.natAbs cross
      rwa [Int.natAbs_mul, Int.natAbs_mul, natAbs_coefficient, natAbs_coefficient,
        Int.natAbs_natCast, Int.natAbs_natCast] at this
    -- with the noughts of both scales behind them, the two magnitudes are one
    have digits : dropZeros a.magnitude a.scale = dropZeros b.magnitude b.scale :=
      calc dropZeros a.magnitude a.scale
          = dropZeros (a.magnitude * tenPow b.scale) (a.scale + b.scale) :=
            (dropZeros_mul ..).symm
        _ = dropZeros (b.magnitude * tenPow a.scale) (b.scale + a.scale) := by
            rw [magnitudes, Nat.add_comm]
        _ = dropZeros b.magnitude b.scale := dropZeros_mul ..
    unfold normalize at sign ⊢
    simp only at sign
    simp only [sign, digits]

theorem canonical_eq_of_value_eq {a b : Decimal} (h : a.value = b.value) :
    a.canonical = b.canonical := by
  rw [canonical, canonical, normalize_eq_iff.2 h]

/-! ## Arithmetic -/

/-- The decimal for a number, unless the number is too large. -/
def ofValue? (q : ℚ) : Option Decimal := ofRatio? q.num q.den

theorem roundHalfEven_mul (num den : Nat) {k : Nat} (hk : 0 < k) :
    roundHalfEven (num * k) (den * k) = roundHalfEven num den := by
  have below (a b : Nat) : a * k < b * k ↔ a < b := Nat.mul_lt_mul_right hk
  simp only [roundHalfEven, Nat.mul_div_mul_right _ _ hk, Nat.mul_mod_mul_right, ← Nat.mul_assoc,
    below]

theorem atScale?_mul (num : Int) (den scale : Nat) {k : Nat} (hk : 0 < k) :
    atScale? (num * k) (den * k) scale = atScale? num den scale := by
  have magnitude : (num * k).natAbs * tenPow scale = num.natAbs * tenPow scale * k := by
    rw [Int.natAbs_mul, Int.natAbs_natCast, Nat.mul_right_comm]
  rw [atScale?, atScale?, sign_mul_natCast _ hk, magnitude, roundHalfEven_mul _ _ hk]

theorem ofRatio?_mul (num : Int) (den : Nat) {k : Nat} (hk : 0 < k) :
    ofRatio? (num * k) (den * k) = ofRatio? num den := by
  have upTo (scale : Nat) : withScale? (num * k) (den * k) scale = withScale? num den scale := by
    induction scale with
    | zero => exact atScale?_mul num den 0 hk
    | succ scale ih => rw [withScale?, withScale?, atScale?_mul _ _ _ hk, ih]
  exact upTo maxScale

/-- A quotient counts by its value, however it is written. -/
theorem ofRatio?_eq (num : Int) {den : Nat} (h : den ≠ 0) :
    ofRatio? num den = ofValue? (num / den) := by
  have nonzero : (den : ℚ) ≠ 0 := Nat.cast_ne_zero.2 h
  generalize hq : (num / den : ℚ) = q
  -- each quotient is extended by the denominator of the other
  have cross : num * q.den = q.num * den := by
    have same : (num : ℚ) * q.den = q.num * den := by
      rw [← q.mul_den_eq_num, ← hq]
      field_simp
    exact_mod_cast same
  rw [ofValue?, ← ofRatio?_mul num den q.den_pos, cross,
    ← ofRatio?_mul q.num q.den (Nat.pos_of_ne_zero h), Nat.mul_comm]

theorem add?_eq (a b : Decimal) : a.add? b = ofValue? (a.value + b.value) := by
  rw [add?, ofRatio?_eq _ (tenPow_pos _).ne', value, value, tenPow_add]
  congr 1
  have := cast_tenPow_ne_zero a.scale
  have := cast_tenPow_ne_zero b.scale
  push_cast
  field_simp

theorem sub?_eq (a b : Decimal) : a.sub? b = ofValue? (a.value - b.value) := by
  rw [sub?, ofRatio?_eq _ (tenPow_pos _).ne', value, value, tenPow_add]
  congr 1
  have := cast_tenPow_ne_zero a.scale
  have := cast_tenPow_ne_zero b.scale
  push_cast
  field_simp

theorem mul?_eq (a b : Decimal) : a.mul? b = ofValue? (a.value * b.value) := by
  rw [mul?, ofRatio?_eq _ (tenPow_pos _).ne', value, value, tenPow_add]
  congr 1
  have := cast_tenPow_ne_zero a.scale
  have := cast_tenPow_ne_zero b.scale
  push_cast
  field_simp

theorem div?_eq (a : Decimal) {b : Decimal} (h : b.isZero = false) :
    a.div? b = ofValue? (a.value / b.value) := by
  have nonzero : b.magnitude ≠ 0 := by simpa [isZero] using h
  have divisor : b.coefficient ≠ 0 := by
    rwa [← Int.natAbs_ne_zero, natAbs_coefficient]
  have signed : (b.magnitude : ℚ) = b.coefficient.sign * b.coefficient := by
    have := Int.sign_mul_self_eq_natAbs b.coefficient
    rw [natAbs_coefficient] at this
    exact_mod_cast this.symm
  rw [div?, ofRatio?_eq _ (Nat.mul_ne_zero nonzero (tenPow_pos _).ne'), value, value]
  congr 1
  have := cast_tenPow_ne_zero a.scale
  have := cast_tenPow_ne_zero b.scale
  have : (b.coefficient : ℚ) ≠ 0 := Int.cast_ne_zero.2 divisor
  have : (b.coefficient.sign : ℚ) ≠ 0 := Int.cast_ne_zero.2 (mt Int.sign_eq_zero_iff_zero.1 divisor)
  push_cast
  rw [signed]
  field_simp

end Slate.Decimal
