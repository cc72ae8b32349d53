import Mathlib.Data.Prod.Lex
import Slate.Proofs.Token.Text

/-!
# The order of tokens

A place in a text is a line and a column, and a place comes behind another one if its line does, or its column on
one line. So reading on never leads back:

* `positionBehind_le` — what stands behind more of a text comes no earlier;
* `positions_inOrder` — the tokens of a text come in the order of their places.
-/

namespace Slate

/-- Where a span starts: its line, and the column there. -/
def Span.position (s : Span) : Nat ×ₗ Nat := toLex (s.line, s.start)

/-- The line and the column behind a text. -/
def positionBehind (text : List Char) : Nat ×ₗ Nat := toLex (lineBehind text, columnBehind text)

theorem Span.StartsBehind.position {s : Span} {text : List Char} (h : s.StartsBehind text) :
    s.position = positionBehind text := by
  rw [Span.position, positionBehind, h.line, h.start]

theorem lineBehind_concat (text : List Char) (c : Char) :
    lineBehind (text ++ [c]) = if c = '\n' then lineBehind text + 1 else lineBehind text := by
  unfold lineBehind
  rw [List.count_append, List.count_singleton]
  by_cases h : c = '\n'
  · simp [h]
    omega
  · simp [h]

/-- A character leads to the next line, or to the next column. -/
theorem positionBehind_concat (text : List Char) (c : Char) :
    positionBehind text ≤ positionBehind (text ++ [c]) := by
  rw [positionBehind, positionBehind, Prod.Lex.toLex_le_toLex, lineBehind_concat, columnBehind_concat]
  by_cases h : c = '\n'
  · left
    simp [h]
  · right
    simp [h]

theorem positionBehind_le (text more : List Char) : positionBehind text ≤ positionBehind (text ++ more) := by
  induction more generalizing text with
  | nil => rw [List.append_nil]
  | cons c more ih =>
    have further := ih (text ++ [c])
    rw [List.append_assoc, List.singleton_append] at further
    exact (positionBehind_concat text c).trans further

namespace LaidOut

variable {behind before text : List Char} {ts : List Token}

/-- No token starts in front of the text that is made of them. -/
theorem positionBehind_le_position (h : LaidOut behind before ts text) :
    ∀ t ∈ ts, positionBehind before ≤ t.span.position := by
  induction h with
  | done => exact fun _ ht => (List.not_mem_nil ht).elim
  | @more before gap spelling text t ts _ stands _ ih =>
    have gap_ := positionBehind_le before gap
    have token := positionBehind_le (before ++ gap) spelling
    refine List.forall_mem_cons.2 ⟨?_, fun u hu => gap_.trans (token.trans (ih u hu))⟩
    rw [stands.place.position]
    exact gap_

theorem positions_inOrder (h : LaidOut behind before ts text) :
    ts.Pairwise fun t u => t.span.position ≤ u.span.position := by
  induction h with
  | done => exact .nil
  | @more before gap spelling text t ts _ stands rest ih =>
    refine .cons (fun u hu => ?_) ih
    rw [stands.place.position]
    exact (positionBehind_le _ spelling).trans (rest.positionBehind_le_position u hu)

end LaidOut

/-- The tokens of a text come in the order of their places. -/
theorem positions_inOrder {source : String} {ts : List Token} (h : tokenize source = .ok ts) :
    ts.Pairwise fun t u => t.span.position ≤ u.span.position :=
  (tokenize_eq_ok_iff.1 h).positions_inOrder

end Slate
