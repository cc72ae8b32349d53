/-!
# Places in a text

A `Span` is a stretch of one line: the line, the column of its first character and the column just
after its last one, all counted from 1. Tokens and tree nodes carry one, and every error points at
one.

* `Span.cover` joins the spans of the first and the last part of a node;
* `Span.after` points at what is missing behind a part;
* `Span.toString` is how a message names a place, `(line:start)`.
-/

namespace Slate

/-- A stretch of a line. A node over several lines keeps the line of its first part. -/
structure Span where
  line : Nat
  start : Nat
  stop : Nat
  deriving DecidableEq, Inhabited

namespace Span

/-- From the start of `first` to the end of `last`. -/
def cover (first last : Span) : Span := ⟨first.line, first.start, last.stop⟩

/-- The empty span just behind `s`. -/
def after (s : Span) : Span := ⟨s.line, s.stop, s.stop⟩

/-- The empty span where `s` starts. -/
def before (s : Span) : Span := ⟨s.line, s.start, s.start⟩

protected def toString (s : Span) : String :=
  "(" ++ toString s.line ++ ":" ++ toString s.start ++ ")"

instance : ToString Span := ⟨Span.toString⟩

@[simp] theorem cover_line (a b : Span) : (cover a b).line = a.line := rfl
@[simp] theorem cover_start (a b : Span) : (cover a b).start = a.start := rfl
@[simp] theorem cover_stop (a b : Span) : (cover a b).stop = b.stop := rfl
@[simp] theorem cover_self (a : Span) : cover a a = a := rfl

end Span
end Slate
