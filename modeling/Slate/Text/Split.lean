/-!
# Splitting a text

* `split` cuts a text at each mark, and `join_split` says that nothing but the marks is lost;
* `lines` cuts a text into lines.
-/

namespace Slate.Text

/-- The pieces of a text between its marks. There is always one. -/
def split (mark : Char) : List Char → List (List Char)
  | [] => [[]]
  | c :: cs =>
    if c = mark then [] :: split mark cs
    else
      match split mark cs with
      | [] => [[c]]
      | p :: ps => (c :: p) :: ps

theorem split_ne_nil (mark : Char) (cs : List Char) : split mark cs ≠ [] := by
  fun_induction split mark cs <;> simp

/-- Joins pieces with marks. -/
def join (mark : Char) : List (List Char) → List Char
  | [] => []
  | [p] => p
  | p :: q :: ps => p ++ mark :: join mark (q :: ps)

theorem join_split (mark : Char) (cs : List Char) : join mark (split mark cs) = cs := by
  induction cs with
  | nil => rfl
  | cons c cs ih =>
    unfold split
    cases h : split mark cs with
    | nil => exact absurd h (split_ne_nil mark cs)
    | cons p ps =>
      rw [h] at ih
      split
      · next e => rw [join, ih, e]; rfl
      · rw [← ih]; cases ps <;> rfl

/-- A line without the carriage return at its end. -/
def dropReturn (line : List Char) : List Char :=
  if line.getLast? = some '\r' then line.dropLast else line

/-- The lines of the pieces between line feeds. What follows the last line feed is a line only if it
is not empty, and keeps its carriage return. -/
def linesOf : List (List Char) → List (List Char)
  | [] => []
  | [last] => if last = [] then [] else [last]
  | line :: rest => dropReturn line :: linesOf rest

/-- The lines of a text, without the line feed or the carriage return and line feed at their ends. -/
def lines (s : String) : List String := (linesOf (split '\n' s.toList)).map String.ofList

end Slate.Text
