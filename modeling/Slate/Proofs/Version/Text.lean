import Slate.Proofs.Text.Split
import Slate.Proofs.Token.Spelling
import Slate.Version

/-!
# Which texts are versions

    version   ::= blanks component ['.' component ['.' component]] blanks
    component ::= ['+'] digits

* `Version.ofString?_eq_ok` — the text of a version without the blanks around it;
* `Version.ofString?_reads` — a text is read as a version exactly if it is written so. Without a plus sign the
  components are runs of digits and nothing else.
-/

namespace Slate

open Slate.Text

namespace Version

variable {piece : List Char} {n : Nat}

/-! ## Components -/

/-- Digits that write a number of 64 bits. -/
structure IsRun (piece : List Char) (n : Nat) : Prop where
  digits : AreDigits piece
  value : Nat.ofDigitChars 10 piece 0 = n
  small : n < word64

/-- A run of digits, with or without a plus sign in front. -/
inductive IsSigned : List Char → Nat → Prop
  | run {ds : List Char} {n : Nat} (h : IsRun ds n) : IsSigned ds n
  | plus {ds : List Char} {n : Nat} (h : IsRun ds n) : IsSigned ('+' :: ds) n

theorem digits?_eq_some_iff : digits? word64 piece = some n ↔ IsRun piece n := by
  unfold digits?
  constructor
  · intro h
    split at h
    · next digits =>
      dsimp only at h
      split at h
      · next small =>
        cases h
        exact ⟨⟨digits.1, List.all_eq_true.1 digits.2⟩, rfl, small⟩
      · cases h
    · cases h
  · rintro ⟨⟨nonempty, digits⟩, rfl, small⟩
    rw [if_pos ⟨nonempty, List.all_eq_true.2 digits⟩]
    exact if_pos small

theorem unsigned?_eq_some_iff : unsigned? word64 piece = some n ↔ IsSigned piece n := by
  constructor
  · intro h
    unfold unsigned? at h
    split at h
    · exact .plus (digits?_eq_some_iff.1 h)
    · exact .run (digits?_eq_some_iff.1 h)
  · rintro (h | h)
    · have noPlus : ∀ ds, piece ≠ '+' :: ds := by
        rintro ds rfl
        exact absurd (h.digits.2 '+' List.mem_cons_self) (by decide)
      rw [unsigned?, digits?_eq_some_iff.2 h]
      exact noPlus
    · exact digits?_eq_some_iff.2 h

/-- Where a component is read, and something is done with its number. -/
theorem component_bind_eq_ok {version : String} {f : Nat → Except VersionError Version} {v : Version} :
    (component version piece >>= f) = .ok v ↔ ∃ n, IsSigned piece n ∧ f n = .ok v := by
  unfold component
  cases h : unsigned? word64 piece with
  | none =>
    constructor
    · intro h
      cases h
    · rintro ⟨n, hn, -⟩
      rw [unsigned?_eq_some_iff.2 hn] at h
      cases h
  | some m =>
    constructor
    · exact fun hf => ⟨m, unsigned?_eq_some_iff.1 h, hf⟩
    · rintro ⟨n, hn, hf⟩
      rw [unsigned?_eq_some_iff.2 hn] at h
      cases h
      exact hf

namespace IsSigned

/-- A component has no points and no blanks. -/
theorem plain (h : IsSigned piece n) : ∀ c ∈ piece, c ≠ '.' ∧ isBlank c = false := by
  have digit {c : Char} (hc : c.isDigit = true) : c ≠ '.' ∧ isBlank c = false := by
    refine ⟨?_, not_isBlank_of_isDigit hc⟩
    rintro rfl
    exact absurd hc (by decide)
  cases h with
  | run h => exact fun c hc => digit (h.digits.2 c hc)
  | plus h => exact List.forall_mem_cons.2 ⟨by decide, fun c hc => digit (h.digits.2 c hc)⟩

theorem notMem_point (h : IsSigned piece n) : '.' ∉ piece := fun hm => (h.plain '.' hm).1 rfl

theorem ne_nil (h : IsSigned piece n) : piece ≠ [] := by
  cases h with
  | run h => exact h.digits.1
  | plus => exact List.cons_ne_nil _ _

end IsSigned

/-! ## Versions -/

/-- One to three components with points between them, and the version that they write. The components that are
not there are 0. -/
inductive Joins (component : List Char → Nat → Prop) : List Char → Version → Prop
  | major {a : List Char} {x : Nat} (ha : component a x) : Joins component a ⟨x, 0, 0⟩
  | minor {a b : List Char} {x y : Nat} (ha : component a x) (hb : component b y) :
      Joins component (a ++ '.' :: b) ⟨x, y, 0⟩
  | patch {a b c : List Char} {x y z : Nat} (ha : component a x) (hb : component b y)
      (hc : component c z) : Joins component (a ++ '.' :: (b ++ '.' :: c)) ⟨x, y, z⟩

/-- A version with blanks around it. -/
def IsText (component : List Char → Nat → Prop) (text : List Char) (v : Version) : Prop :=
  ∃ front core back, AreBlank front ∧ AreBlank back ∧ text = front ++ core ++ back ∧ Joins component core v

namespace Joins

variable {component component' : List Char → Nat → Prop} {core : List Char} {v : Version}

theorem imp (h : Joins component core v)
    (himp : ∀ ds m, ds <:+: core → component ds m → component' ds m) : Joins component' core v := by
  cases h with
  | major ha => exact .major (himp _ _ List.infix_rfl ha)
  | minor ha hb =>
    exact .minor (himp _ _ (List.prefix_append _ _).isInfix ha)
      (himp _ _ ((List.suffix_cons _ _).trans (List.suffix_append _ _)).isInfix hb)
  | @patch a b c x y z ha hb hc =>
    have rest : b ++ '.' :: c <:+ a ++ '.' :: (b ++ '.' :: c) :=
      (List.suffix_cons _ _).trans (List.suffix_append _ _)
    have last : c <:+ b ++ '.' :: c := (List.suffix_cons _ _).trans (List.suffix_append _ _)
    exact .patch (himp _ _ (List.prefix_append _ _).isInfix ha)
      (himp _ _ ((List.prefix_append _ _).isInfix.trans rest.isInfix) hb)
      (himp _ _ (last.trans rest).isInfix hc)

theorem plain (h : Joins IsSigned core v) : core ≠ [] ∧ ∀ c ∈ core, isBlank c = false := by
  have point : isBlank '.' = false := by decide
  cases h with
  | major ha => exact ⟨ha.ne_nil, fun c hc => (ha.plain c hc).2⟩
  | minor ha hb =>
    refine ⟨by simp, List.forall_mem_append.2 ⟨fun c hc => (ha.plain c hc).2, ?_⟩⟩
    exact List.forall_mem_cons.2 ⟨point, fun c hc => (hb.plain c hc).2⟩
  | patch ha hb hc =>
    refine ⟨by simp, List.forall_mem_append.2 ⟨fun c hc => (ha.plain c hc).2, ?_⟩⟩
    refine List.forall_mem_cons.2 ⟨point, List.forall_mem_append.2 ⟨fun c hc => (hb.plain c hc).2, ?_⟩⟩
    exact List.forall_mem_cons.2 ⟨point, fun d hd => (hc.plain d hd).2⟩

end Joins

/-- A text without blanks around it. -/
theorem ofString?_eq_ok {text : String} {v : Version} :
    ofString? text = .ok v ↔ Joins IsSigned (trim text).toList v := by
  constructor
  · intro h
    unfold ofString? at h
    dsimp only at h
    split at h
    · cases h
    · split at h
      · next a pieces =>
        obtain ⟨-, -, whole⟩ := split_eq_iff.1 pieces
        obtain ⟨x, ha, h⟩ := component_bind_eq_ok.1 h
        cases h
        rw [← whole]
        exact .major ha
      · next a b pieces =>
        obtain ⟨-, -, whole⟩ := split_eq_iff.1 pieces
        obtain ⟨x, ha, h⟩ := component_bind_eq_ok.1 h
        obtain ⟨y, hb, h⟩ := component_bind_eq_ok.1 h
        cases h
        rw [← whole]
        exact .minor ha hb
      · next a b c pieces =>
        obtain ⟨-, -, whole⟩ := split_eq_iff.1 pieces
        obtain ⟨x, ha, h⟩ := component_bind_eq_ok.1 h
        obtain ⟨y, hb, h⟩ := component_bind_eq_ok.1 h
        obtain ⟨z, hc, h⟩ := component_bind_eq_ok.1 h
        cases h
        rw [← whole]
        exact .patch ha hb hc
      · cases h
  · intro h
    have nonempty : trim text ≠ "" := by
      intro e
      rw [e] at h
      exact h.plain.1 rfl
    unfold ofString?
    dsimp only
    rw [if_neg nonempty]
    generalize (trim text).toList = core at h
    cases h with
    | major ha =>
      have pieces : split '.' core = [core] := split_eq_iff.2 ⟨by simp, by simp [ha.notMem_point], rfl⟩
      rw [pieces]
      exact component_bind_eq_ok.2 ⟨_, ha, rfl⟩
    | @minor a b x y ha hb =>
      have pieces : split '.' (a ++ '.' :: b) = [a, b] :=
        split_eq_iff.2 ⟨by simp, by simp [ha.notMem_point, hb.notMem_point], rfl⟩
      rw [pieces]
      exact component_bind_eq_ok.2 ⟨_, ha, component_bind_eq_ok.2 ⟨_, hb, rfl⟩⟩
    | @patch a b c x y z ha hb hc =>
      have pieces : split '.' (a ++ '.' :: (b ++ '.' :: c)) = [a, b, c] :=
        split_eq_iff.2 ⟨by simp, by simp [ha.notMem_point, hb.notMem_point, hc.notMem_point], rfl⟩
      rw [pieces]
      exact component_bind_eq_ok.2
        ⟨_, ha, component_bind_eq_ok.2 ⟨_, hb, component_bind_eq_ok.2 ⟨_, hc, rfl⟩⟩⟩

theorem ofString?_eq_ok_iff_isText {text : String} {v : Version} :
    ofString? text = .ok v ↔ IsText IsSigned text.toList v := by
  rw [ofString?_eq_ok]
  constructor
  · intro h
    obtain ⟨front, back, hf, hb, whole⟩ := exists_blanks text
    exact ⟨front, _, back, hf, hb, whole, h⟩
  · rintro ⟨front, core, back, hf, hb, whole, h⟩
    obtain ⟨nonempty, plain⟩ := h.plain
    have trimmed := trim_eq hf hb nonempty plain
    rw [← whole, String.ofList_toList] at trimmed
    rw [trimmed, String.toList_ofList]
    exact h

/-- No plus sign stands in runs of digits, in the points between them or in blanks. -/
theorem IsText.notMem_plus {text : List Char} {v : Version} (h : IsText IsRun text v) : '+' ∉ text := by
  obtain ⟨front, core, back, hf, hb, rfl, h⟩ := h
  have blank {gap : List Char} (hg : AreBlank gap) : '+' ∉ gap :=
    fun hm => absurd (hg '+' hm) (by decide)
  have run {ds : List Char} {m : Nat} (hr : IsRun ds m) : '+' ∉ ds :=
    fun hm => absurd (hr.digits.2 '+' hm) (by decide)
  have inside : '+' ∉ core := by
    cases h with
    | major ha => exact run ha
    | minor ha hb => simp [run ha, run hb]
    | patch ha hb hc => simp [run ha, run hb, run hc]
  simp [blank hf, blank hb, inside]

/-- A text is read as a version exactly if it is one to three components with points between them and blanks
around them. A component may have a plus sign in front; the components of a text without plus signs are runs of
digits. -/
theorem ofString?_reads (text : String) (v : Version) :
    (ofString? text = .ok v ↔ IsText IsSigned text.toList v) ∧
      (IsText IsRun text.toList v ↔ ofString? text = .ok v ∧ '+' ∉ text.toList) := by
  refine ⟨ofString?_eq_ok_iff_isText, ?_⟩
  rw [ofString?_eq_ok_iff_isText]
  constructor
  · intro h
    have noPlus := h.notMem_plus
    obtain ⟨front, core, back, hf, hb, whole, h⟩ := h
    exact ⟨⟨front, core, back, hf, hb, whole, h.imp fun _ _ _ => .run⟩, noPlus⟩
  · rintro ⟨⟨front, core, back, hf, hb, whole, h⟩, noPlus⟩
    refine ⟨front, core, back, hf, hb, whole, h.imp fun ds m part hm => ?_⟩
    cases hm with
    | run hm => exact hm
    | plus =>
      refine absurd ?_ noPlus
      rw [whole]
      exact List.mem_append_left _ (List.mem_append_right _ (part.subset List.mem_cons_self))

/-- A text whose components are not all runs of digits. -/
theorem ofString?_plus_one :
    ofString? "+1.1" = .ok ⟨1, 1, 0⟩ ∧ ∀ v, ¬ IsText IsRun "+1.1".toList v :=
  ⟨rfl, fun _ h => h.notMem_plus (by decide)⟩

end Version

end Slate
