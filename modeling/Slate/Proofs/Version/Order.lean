import Mathlib.Data.Prod.Lex
import Slate.Proofs.Version.Text

/-!
# The order of versions and of their texts

    text ──ofString?──▶ Version ──components──▶ Nat ×ₗ Nat ×ₗ Nat

Versions are ordered by their numbers, the major one first. Texts are compared by the versions that they write, so
`1.10` comes behind `1.9`, and `1.1` and ` 01.1.0` are alike.

* `ofString?_toString` — a version that is written is read again;
* `isAtLeastText_eq` — what comparing two texts gives;
* `texts_ordered` — texts of versions are ordered as their versions, and no two of them are incomparable.
-/

namespace Slate

open Slate.Text

namespace Version

variable {s t u : String} {v a b c : Version}

/-! ## Versions as texts -/

/-- All three components are numbers of 64 bits. -/
structure Fits (v : Version) : Prop where
  major : v.major < word64
  minor : v.minor < word64
  patch : v.patch < word64

theorem isRun_toDigits {n : Nat} (small : n < word64) : IsRun (Nat.toDigits 10 n) n :=
  digits?_eq_some_iff.1 (digits?_toDigits small)

theorem IsSigned.small {piece : List Char} {n : Nat} (h : IsSigned piece n) : n < word64 := by
  cases h with
  | run h => exact h.small
  | plus h => exact h.small

/-- No other version is read. -/
theorem fits_of_ofString? (h : ofString? s = .ok v) : v.Fits := by
  have zero : 0 < word64 := by decide
  have joined := ofString?_eq_ok.1 h
  generalize (trim s).toList = core at joined
  cases joined with
  | major ha => exact ⟨ha.small, zero, zero⟩
  | minor ha hb => exact ⟨ha.small, hb.small, zero⟩
  | patch ha hb hc => exact ⟨ha.small, hb.small, hc.small⟩

theorem toList_toString (v : Version) :
    v.toString.toList = Nat.toDigits 10 v.major ++
      '.' :: (Nat.toDigits 10 v.minor ++ '.' :: Nat.toDigits 10 v.patch) := by
  simp [Version.toString, String.toList_append, ToString.toString, Nat.repr]

/-- The text of a version is read as that version. -/
theorem ofString?_toString (h : v.Fits) : ofString? v.toString = .ok v := by
  rw [ofString?_eq_ok_iff_isText, toList_toString]
  refine ⟨[], _, [], fun _ hc => (List.not_mem_nil hc).elim, fun _ hc => (List.not_mem_nil hc).elim,
    (List.append_nil _).symm, ?_⟩
  exact .patch (.run (isRun_toDigits h.major)) (.run (isRun_toDigits h.minor))
    (.run (isRun_toDigits h.patch))

/-! ## Versions in order -/

/-- The numbers of a version, the one that counts most first. -/
def components (v : Version) : Nat ×ₗ Nat ×ₗ Nat := toLex (v.major, toLex (v.minor, v.patch))

theorem isAtLeast_iff : b.isAtLeast a = true ↔ a.components ≤ b.components := by
  simp only [isAtLeast, components, Prod.Lex.toLex_le_toLex, Bool.or_eq_true, Bool.and_eq_true,
    decide_eq_true_eq]

theorem isAtLeast_eq (a b : Version) : b.isAtLeast a = decide (a.components ≤ b.components) := by
  rw [Bool.eq_iff_iff, isAtLeast_iff, decide_eq_true_eq]

/-! ## Texts in order -/

/-- Texts of versions are compared by their versions. -/
theorem isAtLeastText_eq (hs : ofString? s = .ok a) (ht : ofString? t = .ok b) :
    isAtLeastText s t = .ok (decide (a.components ≤ b.components)) := by
  rw [isAtLeastText, hs, ht, ← isAtLeast_eq]
  rfl

/-- Both texts are those of versions, and the second version is no older than the first. -/
def AtMost (s t : String) : Prop := isAtLeastText s t = .ok true

theorem atMost_iff :
    AtMost s t ↔ ∃ a b, ofString? s = .ok a ∧ ofString? t = .ok b ∧ a.components ≤ b.components := by
  constructor
  · intro h
    unfold AtMost isAtLeastText at h
    cases hs : ofString? s with
    | error e => rw [hs] at h; cases h
    | ok a =>
      cases ht : ofString? t with
      | error e => rw [hs, ht] at h; cases h
      | ok b =>
        rw [hs, ht] at h
        exact ⟨a, b, rfl, rfl, isAtLeast_iff.1 (Except.ok.inj h)⟩
  · rintro ⟨a, b, hs, ht, le⟩
    rw [AtMost, isAtLeastText_eq hs ht, decide_eq_true le]

theorem AtMost.components_le (h : AtMost s t) (hs : ofString? s = .ok a) (ht : ofString? t = .ok b) :
    a.components ≤ b.components := by
  rw [AtMost, isAtLeastText_eq hs ht] at h
  exact of_decide_eq_true (Except.ok.inj h)

theorem AtMost.trans (hst : AtMost s t) (htu : AtMost t u) : AtMost s u := by
  obtain ⟨a, b, hs, ht, hab⟩ := atMost_iff.1 hst
  obtain ⟨-, c, -, hu, -⟩ := atMost_iff.1 htu
  exact atMost_iff.2 ⟨a, c, hs, hu, hab.trans (htu.components_le ht hu)⟩

theorem AtMost.total (hs : ofString? s = .ok a) (ht : ofString? t = .ok b) : AtMost s t ∨ AtMost t s := by
  rcases le_total a.components b.components with le | le
  · exact .inl (atMost_iff.2 ⟨a, b, hs, ht, le⟩)
  · exact .inr (atMost_iff.2 ⟨b, a, ht, hs, le⟩)

/-- The text that a version was read from may be replaced by the one that it is written as. -/
theorem isAtLeastText_toString (hs : ofString? s = .ok a) (ht : ofString? t = .ok b) :
    isAtLeastText a.toString t = isAtLeastText s t ∧ isAtLeastText s b.toString = isAtLeastText s t := by
  have sa := ofString?_toString (fits_of_ofString? hs)
  have tb := ofString?_toString (fits_of_ofString? ht)
  rw [isAtLeastText_eq sa ht, isAtLeastText_eq hs tb, isAtLeastText_eq hs ht]
  exact ⟨rfl, rfl⟩

/-- Versions of 64 bits are written and read without loss, and their texts are compared by their numbers. How a
version is written does not matter to that. So the texts of versions are in a total preorder, and a version further
up in it has all the features that one further down has. -/
theorem texts_ordered :
    (∀ v : Version, v.Fits → ofString? v.toString = .ok v) ∧
    (∀ a b : Version, a.Fits → b.Fits →
      isAtLeastText a.toString b.toString = .ok (decide (a.components ≤ b.components))) ∧
    (∀ s t a b, ofString? s = .ok a → ofString? t = .ok b →
      isAtLeastText s t = .ok (decide (a.components ≤ b.components)) ∧
      isAtLeastText a.toString t = isAtLeastText s t ∧ isAtLeastText s b.toString = isAtLeastText s t) ∧
    (∀ s a, ofString? s = .ok a → AtMost s s) ∧
    (∀ s t u, AtMost s t → AtMost t u → AtMost s u) ∧
    (∀ s t a b, ofString? s = .ok a → ofString? t = .ok b → AtMost s t ∨ AtMost t s) ∧
    (∀ s t a b, ofString? s = .ok a → ofString? t = .ok b → AtMost s t →
      ∀ f, a.supports f = true → b.supports f = true) := by
  refine ⟨fun v => ofString?_toString, fun a b ha hb => ?_, fun s t a b hs ht => ?_, fun s a hs => ?_,
    fun s t u => AtMost.trans, fun s t a b => AtMost.total, fun s t a b hs ht le f => ?_⟩
  · exact isAtLeastText_eq (ofString?_toString ha) (ofString?_toString hb)
  · exact ⟨isAtLeastText_eq hs ht, isAtLeastText_toString hs ht⟩
  · exact atMost_iff.2 ⟨a, a, hs, hs, le_refl _⟩
  · exact supports_of_isAtLeast (isAtLeast_iff.2 (le.components_le hs ht))

/-- As a text `1.10` would come in front of `1.9`. -/
theorem texts_ordered_ten :
    let nine : Version := ⟨1, 9, 0⟩
    let ten : Version := ⟨1, 10, word64 - 1⟩
    nine.Fits ∧ ten.Fits ∧ ofString? ten.toString = .ok ten ∧
      isAtLeastText ten.toString nine.toString = .ok false ∧
      ofString? " +1.09\n" = .ok nine ∧ AtMost "1.9" " +1.09\n" ∧ AtMost " +1.09\n" "1.9" ∧
      AtMost " +1.09\n" "1.10" ∧ AtMost "1.9" "1.10" ∧
      (nine.supports .readEnv = true → Version.supports ⟨1, 10, 0⟩ .readEnv = true) := by
  obtain ⟨back, written, compared, -, trans, -, features⟩ := texts_ordered
  have fitsNine : Fits ⟨1, 9, 0⟩ := ⟨by decide, by decide, by decide⟩
  have fitsTen : Fits ⟨1, 10, word64 - 1⟩ := ⟨by decide, by decide, by decide⟩
  have short : ofString? "1.9" = .ok ⟨1, 9, 0⟩ := rfl
  have long : ofString? " +1.09\n" = .ok ⟨1, 9, 0⟩ := rfl
  have next : ofString? "1.10" = .ok ⟨1, 10, 0⟩ := rfl
  have alike : AtMost "1.9" " +1.09\n" := (compared _ _ _ _ short long).1
  have conversely : AtMost " +1.09\n" "1.9" := (compared _ _ _ _ long short).1
  have up : AtMost " +1.09\n" "1.10" := (compared _ _ _ _ long next).1.trans (by decide)
  have further : AtMost "1.9" "1.10" := trans _ _ _ alike up
  refine ⟨fitsNine, fitsTen, back _ fitsTen, (written _ _ fitsTen fitsNine).trans (by decide), long, alike,
    conversely, up, further, features _ _ _ _ short next further .readEnv⟩

end Version

end Slate
