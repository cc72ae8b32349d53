import Slate.Parser.Failure

/-!
# Cutting a body into statements

A body is what a program or a block holds. `cut` goes over its tokens once and cuts them into one
slice for each statement: a semicolon ends a statement, except inside a conditional, which ends with
the brace that closes its block, or its second one if an `else` follows the first. A slice is not
read yet, so a cut says nothing of what its statements hold.

`Cut` is the slices and how the body ended (`Ending`). The program and the blocks of a conditional
are cut by the same rule and differ in the ending that they ask for.

* `tokens_cut`: slices and ending hold the tokens of the body, each once and in order;
* `length_le_of_mem_cut`: so no slice is longer than the body.
-/

namespace Slate.Parser

/-- The conditional that a statement is part of: whether its `else` has come. -/
structure OpenConditional where
  elseTaken : Bool
  deriving DecidableEq

/-- How a body ends. -/
inductive Ending where
  /-- The tokens ended. `pending` are those behind the last slice. -/
  | exhausted (pending : List Token)
  /-- The tokens ended inside a block of some statement. -/
  | unclosed (pending : List Token)
  /-- A brace closed the body. -/
  | closed (pending : List Token) (brace : Token) (rest : List Token)
  /-- A brace opened a block that no conditional has. -/
  | strayBrace (pending : List Token) (brace : Token) (rest : List Token)
  /-- An `else` came that no conditional has. -/
  | strayElse (pending : List Token) (token : Token) (rest : List Token)
  /-- An `if` came in the middle of a statement that ends with `previous`. -/
  | unfinished (pending : List Token) (previous token : Token) (rest : List Token)

/-- The tokens that the slices do not hold. -/
def Ending.tokens : Ending → List Token
  | exhausted pending | unclosed pending => pending
  | closed pending t rest | strayBrace pending t rest | strayElse pending t rest
  | unfinished pending _ t rest => pending ++ t :: rest

/-- A body cut into statements. -/
structure Cut where
  slices : List (List Token)
  ending : Ending

namespace Cut

/-- A body without a statement. -/
def stop (ending : Ending) : Cut := ⟨[], ending⟩

/-- A statement in front of a body. -/
def push (slice : List Token) (c : Cut) : Cut := { c with slices := slice :: c.slices }

def tokens (c : Cut) : List Token := c.slices.flatten ++ c.ending.tokens

@[simp] theorem tokens_stop (e : Ending) : (stop e).tokens = e.tokens := rfl

@[simp] theorem tokens_push (s : List Token) (c : Cut) : (c.push s).tokens = s ++ c.tokens := by
  simp [push, tokens]

end Cut

/-- Where a scan stands inside the body: the depth of braces, the conditional that is open, and the
tokens since the last slice, the last one first. -/
structure Scanner where
  depth : Nat := 0
  conditional : Option OpenConditional := none
  pending : List Token := []

namespace Scanner

/-- Whether a new statement may start. -/
def between (s : Scanner) : Bool := s.depth = 0 && s.conditional.isNone

/-- Goes over a token. -/
def take (s : Scanner) (t : Token) : Scanner := { s with pending := t :: s.pending }

end Scanner

/-- Cuts the tokens of a body. -/
def cut (s : Scanner) : List Token → Cut
  | [] => .stop (if s.depth = 0 then .exhausted s.pending.reverse else .unclosed s.pending.reverse)
  | t :: ts =>
    match t.kind with
    | .ifKeyword =>
      if s.between then
        match s.pending with
        | [] => cut { s.take t with conditional := some ⟨false⟩ } ts
        | previous :: _ => .stop (.unfinished s.pending.reverse previous t ts)
      else cut (s.take t) ts
    | .openBrace =>
      if s.between then .stop (.strayBrace s.pending.reverse t ts)
      else cut { s.take t with depth := s.depth + 1 } ts
    | .closeBrace =>
      match s.depth, s.conditional with
      | 0, _ => .stop (.closed s.pending.reverse t ts)
      | 1, some c =>
        match ts with
        | e :: rest =>
          if e.kind = .elseKeyword ∧ ¬ c.elseTaken then
            cut ⟨0, some ⟨true⟩, e :: t :: s.pending⟩ rest
          else (cut {} (e :: rest)).push (s.take t).pending.reverse
        | [] => (cut {} []).push (s.take t).pending.reverse
      | depth + 1, _ => cut { s.take t with depth := depth } ts
    | .elseKeyword =>
      if s.depth = 0 then .stop (.strayElse s.pending.reverse t ts) else cut (s.take t) ts
    | .semicolon =>
      if s.between then (cut {} ts).push (s.take t).pending.reverse else cut (s.take t) ts
    | _ => cut (s.take t) ts

theorem tokens_cut (s : Scanner) (ts : List Token) :
    (cut s ts).tokens = s.pending.reverse ++ ts := by
  fun_induction cut s ts with
  | case1 s => rw [Cut.tokens_stop]; split <;> simp [Ending.tokens]
  | _ => simp_all [Ending.tokens, Scanner.take]

theorem length_le_of_mem_cut {s : Scanner} {ts slice : List Token}
    (h : slice ∈ (cut s ts).slices) : slice.length ≤ s.pending.length + ts.length := by
  have total := congrArg List.length (tokens_cut s ts)
  have part := (List.sublist_flatten_of_mem h).length_le
  simp only [Cut.tokens, List.length_append, List.length_reverse] at total
  omega

end Slate.Parser
