import Slate.Decimal.Reader
import Slate.Proofs.Text.Number

/-!
# The text of a decimal

* `ofString?_toString` — a decimal is read back from its own text, with its scale. Only nought with a
  sign is not: its sign is lost;
* `toString_inj` — but it is told apart from nought without one: two decimals with one text are one decimal;
* `ofString?_canonical` — the canonical text is read back as the normal form;
* `not_negative_of_ofString?` — a text that starts with a digit is no negative number.
-/

namespace Slate.Decimal

/-! ## Digits -/

theorem isDigit_of_mem_paddedDigits {magnitude scale : Nat} {c : Char}
    (h : c ∈ paddedDigits magnitude scale) : c.isDigit = true := by
  rcases List.mem_append.1 h with h | h
  · rw [List.eq_of_mem_replicate h]
    decide
  · exact Nat.isDigit_of_mem_toDigits (by decide) (by decide) h

theorem lt_length_paddedDigits (magnitude scale : Nat) :
    scale < (paddedDigits magnitude scale).length := by
  simp only [paddedDigits, List.length_append, List.length_replicate]
  omega

theorem ofDigitChars_paddedDigits (magnitude scale : Nat) :
    Nat.ofDigitChars 10 (paddedDigits magnitude scale) 0 = magnitude := by
  rw [paddedDigits, Nat.ofDigitChars_append, Nat.ofDigitChars_replicate_zero, Nat.mul_zero,
    Nat.ofDigitChars_ten_toDigits]

/-- What stands behind the whole digits. -/
def fractionChars (fraction : List Char) : List Char :=
  if fraction = [] then [] else '.' :: fraction

/-- The text of a decimal is digits, and as many digits behind a point as its scale says. -/
theorem exists_unsignedChars (magnitude scale : Nat) :
    ∃ whole fraction, unsignedChars magnitude scale = whole ++ fractionChars fraction ∧
      whole ≠ [] ∧ fraction.length = scale ∧ (∀ c ∈ whole ++ fraction, c.isDigit = true) ∧
      Nat.ofDigitChars 10 (whole ++ fraction) 0 = magnitude := by
  have longer := lt_length_paddedDigits magnitude scale
  have digits (c : Char) (h : c ∈ paddedDigits magnitude scale) : c.isDigit = true :=
    isDigit_of_mem_paddedDigits h
  have value := ofDigitChars_paddedDigits magnitude scale
  unfold unsignedChars
  -- from here on it does not matter how the digits were made
  revert longer digits value
  generalize paddedDigits magnitude scale = ds
  intro longer digits value
  have length : (ds.drop (ds.length - scale)).length = scale := by
    rw [List.length_drop]
    omega
  refine ⟨ds.take (ds.length - scale), ds.drop (ds.length - scale), ?_, ?_, length, ?_, ?_⟩
  · rw [fractionChars]
    by_cases h : scale = 0
    · simp [h]
    · have nonempty : ds.drop (ds.length - scale) ≠ [] := by
        intro e
        rw [e] at length
        exact h length.symm
      dsimp only
      rw [if_neg h, if_neg nonempty]
  · intro e
    have := congrArg List.length e
    simp only [List.length_take, List.length_nil] at this
    omega
  · rw [List.take_append_drop]
    exact digits
  · rw [List.take_append_drop, value]

/-! ## Reading digits -/

theorem le_ofDigitChars (cs : List Char) (n : Nat) : n ≤ Nat.ofDigitChars 10 cs n := by
  induction cs generalizing n with
  | nil => exact Nat.le_refl _
  | cons c cs ih =>
    rw [Nat.ofDigitChars_cons]
    have := ih (10 * n + (c.toNat - '0'.toNat))
    omega

theorem readDigits_digit {c : Char} {r : Reading} (hc : c.isDigit = true)
    (room : r.point = true → r.scale < maxScale)
    (fits : 10 * r.magnitude + (c.toNat - '0'.toNat) < limit) (cs : List Char) :
    readDigits r (c :: cs) =
      readDigits (r.push (10 * r.magnitude + (c.toNat - '0'.toNat))) cs := by
  have notFull : r.isFull = false := by
    rw [Reading.isFull]
    cases hp : r.point with
    | false => rfl
    | true =>
      have := room hp
      simp only [Bool.true_and, decide_eq_false_iff_not]
      omega
  have longer : r.magnitude * 10 + digitValue c = 10 * r.magnitude + (c.toNat - '0'.toNat) := by
    rw [digitValue, if_pos hc, Nat.mul_comm]
  rw [readDigits, notFull, if_neg Bool.false_ne_true, if_pos hc]
  dsimp only
  rw [longer, if_pos fits]

/-- Digits that have room all count. -/
theorem readDigits_digits {xs : List Char} {r : Reading} (hd : ∀ c ∈ xs, c.isDigit = true)
    (room : r.point = true → r.scale + xs.length ≤ maxScale)
    (fits : Nat.ofDigitChars 10 xs r.magnitude < limit) (rest : List Char) :
    readDigits r (xs ++ rest) =
      readDigits ⟨Nat.ofDigitChars 10 xs r.magnitude,
        if r.point then r.scale + xs.length else r.scale, r.point,
        r.started || !xs.isEmpty⟩ rest := by
  induction xs generalizing r with
  | nil => simp
  | cons x xs ih =>
    rw [Nat.ofDigitChars_cons] at fits
    -- what all digits amount to bounds what the first ones amount to
    have small := Nat.lt_of_le_of_lt (le_ofDigitChars xs _) fits
    have place : r.point = true → r.scale < maxScale := fun hp => by
      have := room hp
      rw [List.length_cons] at this
      omega
    rw [List.cons_append, readDigits_digit (hd x List.mem_cons_self) place small,
      ih (fun c hc => hd c (List.mem_cons_of_mem _ hc)) _ fits]
    · rw [Nat.ofDigitChars_cons]
      cases hp : r.point <;> simp [Reading.push, hp, Nat.add_assoc, Nat.add_comm 1]
    · intro hp
      have point : r.point = true := hp
      have := room point
      rw [List.length_cons] at this
      simp only [Reading.push, point, if_true]
      omega

theorem readDigits_unsignedChars {magnitude scale : Nat} (hm : magnitude < limit)
    (hs : scale ≤ maxScale) :
    readDigits .start (unsignedChars magnitude scale) = .ok (magnitude, scale) := by
  obtain ⟨whole, fraction, text, nonempty, length, digits, value⟩ :=
    exists_unsignedChars magnitude scale
  obtain ⟨digitsWhole, digitsFraction⟩ := List.forall_mem_append.1 digits
  rw [Nat.ofDigitChars_append] at value
  have fits : Nat.ofDigitChars 10 whole 0 < limit := by
    have := le_ofDigitChars fraction (Nat.ofDigitChars 10 whole 0)
    omega
  have started : (!whole.isEmpty) = true := by
    cases whole with
    | nil => exact absurd rfl nonempty
    | cons => rfl
  rw [text, readDigits_digits digitsWhole (fun h => by cases h) fits]
  simp only [Reading.start, Bool.false_eq_true, if_false, Bool.false_or, started]
  -- the point is written only in front of digits
  by_cases hf : fraction = []
  · rw [hf, Nat.ofDigitChars_nil] at value
    rw [hf, List.length_nil] at length
    rw [fractionChars, if_pos hf, readDigits, value, ← length]
    rfl
  · have fitsAll : Nat.ofDigitChars 10 fraction (Nat.ofDigitChars 10 whole 0) < limit := by
      rw [value]
      exact hm
    have point : readDigits ⟨Nat.ofDigitChars 10 whole 0, 0, false, true⟩ ('.' :: fraction) =
        readDigits ⟨Nat.ofDigitChars 10 whole 0, 0, true, true⟩ fraction := by
      rw [readDigits]
      rfl
    have tail := readDigits_digits (r := ⟨Nat.ofDigitChars 10 whole 0, 0, true, true⟩)
      digitsFraction (fun _ => by rw [Nat.zero_add, length]; exact hs) fitsAll []
    rw [List.append_nil] at tail
    rw [fractionChars, if_neg hf, point, tail, readDigits, value, length]
    simp

/-! ## Reading a text back -/

theorem make?_eq_some {negative : Bool} {magnitude scale : Nat} (hm : magnitude < limit)
    (hs : scale ≤ maxScale) (h : negative = true → magnitude ≠ 0) :
    make? ((if negative then -1 else 1) * (magnitude : Int)) scale =
      some ⟨negative, magnitude, scale, hm, hs⟩ := by
  rw [make?]
  cases negative with
  | false =>
    rw [dif_pos (by simp; omega)]
    simp
  | true =>
    have := h rfl
    rw [dif_pos (by simp; omega)]
    simp
    omega

theorem ofString?_toString {d : Decimal} (h : d.negative = true → d.magnitude ≠ 0) :
    ofString? d.toString = .ok d := by
  obtain ⟨negative, magnitude, scale, hm, hs⟩ := d
  obtain ⟨whole, fraction, text, nonempty, -, digits, -⟩ := exists_unsignedChars magnitude scale
  have read := readDigits_unsignedChars hm hs
  have made := make?_eq_some hm hs h
  have plain : readPlain (toChars ⟨negative, magnitude, scale, hm, hs⟩) =
      .ok ⟨negative, magnitude, scale, hm, hs⟩ := by
    rw [toChars]
    cases negative with
    | true =>
      rw [if_pos rfl, List.singleton_append, readPlain, readSigned, read]
      simp only [if_true] at made
      simp only [bind, Except.bind, checked, made]
    | false =>
      cases whole with
      | nil => exact absurd rfl nonempty
      | cons c cs =>
        have digit := digits c (by simp)
        rw [if_neg Bool.false_ne_true, List.nil_append]
        simp only [Bool.false_eq_true, if_false] at made
        have first : readPlain (unsignedChars magnitude scale) =
            readSigned 1 (unsignedChars magnitude scale) := by
          rw [text, List.cons_append]
          unfold readPlain
          split
          · next e => cases e
          · next e => cases e; exact absurd digit (by decide)
          · next e => cases e; exact absurd digit (by decide)
          · rfl
        rw [first, readSigned, read]
        simp only [bind, Except.bind, checked, made]
  rw [ofString?, Decimal.toString, String.toList_ofList, ofChars?, plain]

theorem head?_unsignedChars (magnitude scale : Nat) : (unsignedChars magnitude scale).head? ≠ some '-' := by
  obtain ⟨whole, fraction, text, nonempty, -, digits, -⟩ := exists_unsignedChars magnitude scale
  obtain ⟨c, cs, rfl⟩ := List.exists_cons_of_ne_nil nonempty
  have digit := digits c (by simp)
  rw [text]
  intro sign
  cases sign
  cases digit

/-- A decimal is known by its text, its scale and the sign of a nought included. -/
theorem toString_inj {d e : Decimal} (h : d.toString = e.toString) : d = e := by
  obtain ⟨negative, magnitude, scale, hm, hs⟩ := d
  obtain ⟨negative', magnitude', scale', hm', hs'⟩ := e
  have chars : Text.signChars negative ++ unsignedChars magnitude scale =
      Text.signChars negative' ++ unsignedChars magnitude' scale' := String.ofList_injective h
  obtain ⟨rfl, digits⟩ := Text.sign_append_inj (head?_unsignedChars _ _) (head?_unsignedChars _ _) chars
  have read := readDigits_unsignedChars hm hs
  rw [digits, readDigits_unsignedChars hm' hs'] at read
  cases read
  rfl

/-- Without a sign, every decimal is read back from its own text. -/
theorem ofString?_toString_of_not_negative {d : Decimal} (h : d.negative = false) :
    ofString? d.toString = .ok d := by
  apply ofString?_toString
  intro negative
  rw [h] at negative
  cases negative

theorem dropZeros_ne_zero {magnitude : Nat} (h : magnitude ≠ 0) (scale : Nat) :
    (dropZeros magnitude scale).1 ≠ 0 := by
  induction scale generalizing magnitude with
  | zero => exact h
  | succ scale ih =>
    unfold dropZeros
    split
    · apply ih
      omega
    · exact h

theorem ofString?_canonical (d : Decimal) : ofString? d.canonical = .ok d.normalize := by
  apply ofString?_toString
  intro negative
  simp only [normalize, Bool.and_eq_true, decide_eq_true_eq] at negative
  exact dropZeros_ne_zero negative.2 d.scale

/-! ## Signs -/

/-- Only a sign makes a number negative. -/
theorem not_negative_of_checked {n scale : Nat} {d : Decimal}
    (h : checked ((1 : Int) * n) scale = .ok d) : d.negative = false := by
  unfold checked make? at h
  split at h
  · next hm =>
    split at hm <;> cases hm
    cases h
    simp
  · cases h

theorem not_negative_of_ofString? {s : String} {c : Char} {cs : List Char} {d : Decimal}
    (hs : s.toList = c :: cs) (hc : c.isDigit = true)
    (plain : ∀ c ∈ s.toList, isExponentMark c = false) (h : ofString? s = .ok d) :
    d.negative = false := by
  rw [ofString?, ofChars?] at h
  cases hr : readPlain s.toList with
  | ok e =>
    rw [hr] at h
    cases h
    unfold readPlain at hr
    split at hr
    · cases hr
    · next e => rw [hs] at e; cases e; exact absurd hc (by decide)
    · next e => rw [hs] at e; cases e; exact absurd hc (by decide)
    · rw [readSigned] at hr
      cases hd : readDigits .start s.toList with
      | error e => rw [hd] at hr; cases hr
      | ok number => rw [hd] at hr; exact not_negative_of_checked hr
  | error e =>
    rw [hr] at h
    have none_ : s.toList.dropWhile (!isExponentMark ·) = [] := by
      have all : ∀ c ∈ s.toList, (!isExponentMark c) = true := by
        intro c hc
        rw [plain c hc]
        rfl
      rw [← List.append_nil s.toList, List.dropWhile_append_of_pos all, List.dropWhile_nil]
    rw [none_] at h
    cases h

end Slate.Decimal
