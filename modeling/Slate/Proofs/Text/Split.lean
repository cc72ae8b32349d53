import Slate.Proofs.Token.Lexer
import Slate.Text.Split

/-!
# What a text is cut into

* `split_eq_iff` — the pieces of a text are the texts without a mark that give the text when they are joined;
* `split_append` — a piece up to a mark, and the pieces behind it;
* `trim_eq`, `exists_blanks` — what is left of a text when the blanks at its ends are cut off.
-/

namespace Slate.Text

/-! ## Pieces between marks -/

section

variable {mark : Char}

theorem notMem_of_mem_split {cs piece : List Char} (h : piece ∈ split mark cs) : mark ∉ piece := by
  induction cs generalizing piece with
  | nil =>
    rw [split, List.mem_singleton] at h
    rw [h]
    exact List.not_mem_nil
  | cons c cs ih =>
    rw [split] at h
    split at h
    · rcases List.mem_cons.1 h with rfl | h
      · exact List.not_mem_nil
      · exact ih h
    · next other =>
      split at h
      · next none => exact absurd none (split_ne_nil mark cs)
      · next first others pieces =>
        rw [pieces] at ih
        rcases List.mem_cons.1 h with rfl | h
        · simp [Ne.symm other, ih List.mem_cons_self]
        · exact ih (List.mem_cons_of_mem _ h)

theorem split_append {piece : List Char} (h : mark ∉ piece) (rest : List Char) :
    split mark (piece ++ mark :: rest) = piece :: split mark rest := by
  induction piece with
  | nil => rw [List.nil_append, split, if_pos rfl]
  | cons c piece ih =>
    obtain ⟨other, h⟩ := List.ne_and_not_mem_of_not_mem_cons h
    rw [List.cons_append, split, if_neg other.symm, ih h]

theorem split_of_notMem {piece : List Char} (h : mark ∉ piece) : split mark piece = [piece] := by
  induction piece with
  | nil => rfl
  | cons c piece ih =>
    obtain ⟨other, h⟩ := List.ne_and_not_mem_of_not_mem_cons h
    rw [split, if_neg other.symm, ih h]

theorem split_join {pieces : List (List Char)} (hne : pieces ≠ []) (h : ∀ piece ∈ pieces, mark ∉ piece) :
    split mark (join mark pieces) = pieces := by
  induction pieces with
  | nil => exact absurd rfl hne
  | cons first others ih =>
    obtain ⟨hf, ho⟩ := List.forall_mem_cons.1 h
    cases others with
    | nil => exact split_of_notMem hf
    | cons second others => rw [join, split_append hf, ih (List.cons_ne_nil _ _) ho]

theorem split_eq_iff {cs : List Char} {pieces : List (List Char)} :
    split mark cs = pieces ↔ pieces ≠ [] ∧ (∀ piece ∈ pieces, mark ∉ piece) ∧ join mark pieces = cs := by
  constructor
  · rintro rfl
    exact ⟨split_ne_nil mark cs, fun _ => notMem_of_mem_split, join_split mark cs⟩
  · rintro ⟨hne, h, rfl⟩
    exact split_join hne h

end

/-! ## Blanks at the ends -/

/-- Blanks, or nothing. -/
def AreBlank (gap : List Char) : Prop := ∀ c ∈ gap, isBlank c = true

theorem trim_eq {front cs back : List Char} (hf : AreBlank front) (hb : AreBlank back) (hne : cs ≠ [])
    (h : ∀ c ∈ cs, isBlank c = false) : trim (String.ofList (front ++ cs ++ back)) = String.ofList cs := by
  have first : ∀ c ∈ (cs ++ back).head?, isBlank c = false := by
    obtain ⟨d, ds, rfl⟩ := List.exists_cons_of_ne_nil hne
    intro c hc
    cases hc
    exact h d List.mem_cons_self
  have last : ∀ c ∈ cs.reverse.head?, isBlank c = false :=
    fun c hc => h c (List.mem_reverse.1 (List.mem_of_mem_head? hc))
  have backwards : AreBlank back.reverse := fun c hc => hb c (List.mem_reverse.1 hc)
  rw [trim, String.toList_ofList, List.append_assoc, (takeWhile_append_stop hf first).2,
    List.reverse_append, (takeWhile_append_stop backwards last).2, List.reverse_reverse]

/-- Cutting off the blanks at the ends loses nothing else. -/
theorem exists_blanks (s : String) :
    ∃ front back, AreBlank front ∧ AreBlank back ∧ s.toList = front ++ (trim s).toList ++ back := by
  have start := List.takeWhile_append_dropWhile (p := isBlank) (l := s.toList)
  have stop := List.takeWhile_append_dropWhile (p := isBlank) (l := (s.toList.dropWhile isBlank).reverse)
  refine ⟨s.toList.takeWhile isBlank, ((s.toList.dropWhile isBlank).reverse.takeWhile isBlank).reverse,
    fun c => of_mem_takeWhile, fun c hc => of_mem_takeWhile (List.mem_reverse.1 hc), ?_⟩
  rw [trim, String.toList_ofList, List.append_assoc, ← List.reverse_append, stop, List.reverse_reverse,
    start]

end Slate.Text
