import Slate.Proofs.Decimal.Value

/-!
# Results that need no rounding

Of all scales that a result fits in, arithmetic takes the largest one. A decimal of the same value keeps all its
digits at each scale from its own on, and it fits at its own. So where there is such a decimal nothing is rounded,
and no result is too large:

* `withScale?_exact` — on the way down from a larger scale, the first one that fits keeps the value;
* `ofValue?_value` — the decimal for the value of a decimal has that value;
* `sub?_exact`, `zero_sub?` — a difference is exact if it can be, and a number taken from nought always is.
-/

namespace Slate.Decimal

/-! ## Whole quotients -/

/-- A whole quotient is rounded to itself. -/
theorem roundHalfEven_mul_self (n : Nat) {den : Nat} (h : 0 < den) : roundHalfEven (n * den) den = n := by
  rw [roundHalfEven, Nat.mul_mod_left, Nat.mul_div_cancel _ h, if_pos (by omega)]

theorem value_of_make? {coefficient : Int} {scale : Nat} {d : Decimal}
    (h : make? coefficient scale = some d) : d.value = coefficient / tenPow scale := by
  have kept : d.scale = scale := by
    unfold make? at h
    split at h <;> cases h
    rfl
  rw [value, coefficient_eq_of_make? h, kept]

section

variable (d : Decimal) {scale : Nat}

/-- With more noughts behind its digits, and no others, a decimal needs no rounding. -/
theorem atScale?_of_le (h : d.scale ≤ scale) :
    atScale? d.coefficient (tenPow d.scale) scale =
      make? (d.coefficient * tenPow (scale - d.scale)) scale := by
  obtain ⟨noughts, rfl⟩ := Nat.exists_eq_add_of_le h
  have digits : d.coefficient.natAbs * tenPow (d.scale + noughts) =
      d.coefficient.natAbs * tenPow noughts * tenPow d.scale := by
    rw [tenPow_add, Nat.mul_comm (tenPow d.scale), Nat.mul_assoc]
  rw [atScale?, digits, roundHalfEven_mul_self _ (tenPow_pos _), Nat.add_sub_cancel_left, Int.natCast_mul,
    ← Int.mul_assoc, Int.sign_mul_natAbs]

theorem value_of_atScale? (h : d.scale ≤ scale) {d' : Decimal}
    (made : atScale? d.coefficient (tenPow d.scale) scale = some d') : d'.value = d.value := by
  rw [d.atScale?_of_le h] at made
  rw [value_of_make? made, value, div_eq_div_iff (cast_tenPow_ne_zero _) (cast_tenPow_ne_zero _)]
  have all : tenPow (scale - d.scale) * tenPow d.scale = tenPow scale := by
    rw [← tenPow_add, Nat.sub_add_cancel h]
  rw [← all]
  push_cast
  ring

/-- At its own scale a decimal fits. -/
theorem exists_atScale? : ∃ d', atScale? d.coefficient (tenPow d.scale) d.scale = some d' := by
  have fits : (d.coefficient * tenPow (d.scale - d.scale)).natAbs < limit ∧ d.scale ≤ maxScale := by
    have same : d.coefficient * tenPow (d.scale - d.scale) = d.coefficient := by
      rw [Nat.sub_self]
      exact Int.mul_one _
    rw [same, natAbs_coefficient]
    exact ⟨d.magnitude_lt, d.scale_le⟩
  rw [d.atScale?_of_le (Nat.le_refl _), make?, dif_pos fits]
  exact ⟨_, rfl⟩

/-! ## The largest scale that fits -/

theorem withScale?_of_atScale? {num : Int} {den : Nat} {d' : Decimal}
    (h : atScale? num den scale = some d') : withScale? num den scale = some d' := by
  cases scale with
  | zero => exact h
  | succ scale =>
    rw [withScale?, h]
    rfl

theorem withScale?_exact (h : d.scale ≤ scale) :
    ∃ d', withScale? d.coefficient (tenPow d.scale) scale = some d' ∧ d'.value = d.value := by
  induction scale, h using Nat.le_induction with
  | base =>
    obtain ⟨d', made⟩ := d.exists_atScale?
    exact ⟨d', withScale?_of_atScale? made, d.value_of_atScale? (Nat.le_refl _) made⟩
  | succ scale h ih =>
    cases made : atScale? d.coefficient (tenPow d.scale) (scale + 1) with
    | some d' => exact ⟨d', withScale?_of_atScale? made, d.value_of_atScale? (Nat.le_succ_of_le h) made⟩
    | none =>
      rw [withScale?, made]
      exact ih

theorem ofValue?_value : ∃ d', ofValue? d.value = some d' ∧ d'.value = d.value := by
  rw [value, ← ofRatio?_eq _ (tenPow_pos d.scale).ne']
  exact d.withScale?_exact d.scale_le

end

/-! ## Differences -/

/-- A difference that some decimal is equal to is not rounded. -/
theorem sub?_exact {a b d : Decimal} (h : d.value = a.value - b.value) :
    ∃ d', a.sub? b = some d' ∧ d'.value = a.value - b.value := by
  rw [sub?_eq, ← h]
  exact d.ofValue?_value

/-- The decimal with the other sign. -/
def opposite (d : Decimal) : Decimal := { d with negative := !d.negative }

theorem value_opposite (d : Decimal) : d.opposite.value = -d.value := by
  have sign : d.opposite.coefficient = -d.coefficient := by
    unfold coefficient opposite
    cases d.negative <;> simp
  rw [value, value, sign, Int.cast_neg, neg_div]
  rfl

theorem value_zero : zero.value = 0 := by
  rw [value, div_eq_zero_iff]
  exact .inl rfl

/-- From nought every number can be taken without rounding. -/
theorem zero_sub? (d : Decimal) : ∃ d', zero.sub? d = some d' ∧ d'.value = -d.value := by
  have difference : d.opposite.value = zero.value - d.value := by
    rw [value_opposite, value_zero, zero_sub]
  obtain ⟨d', made, exact_⟩ := sub?_exact difference
  exact ⟨d', made, by rw [exact_, ← difference, value_opposite]⟩

end Slate.Decimal
