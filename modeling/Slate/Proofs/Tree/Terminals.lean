import Slate.Tree

/-!
# The names and the literals of a program

What a program is made of at its leaves: the names, be they of variables or of functions, and the literals, in the
order of the text. The nought in front of a sign is none of them, no text has it.
-/

namespace Slate

/-- A name or a literal, with its place. -/
inductive Terminal where
  | name (x : Identifier)
  | literal (l : Literal)
  deriving DecidableEq

mutual

/-- The names and the literals of an expression. -/
def Expr.terminals : Expr → List Terminal
  | .literal l => [.literal l]
  | .identifier x => [.name x]
  | .binary op left right s =>
    if (Expr.binary op left right s).isNegation then right.terminals else left.terminals ++ right.terminals
  | .call callee arguments _ => .name callee :: terminalsOfExprs arguments
  | .assignment target value _ => .name target :: value.terminals

def terminalsOfExprs : List Expr → List Terminal
  | [] => []
  | e :: es => e.terminals ++ terminalsOfExprs es

end

/-- The names and the literals of the declaration of a variable. -/
def Declarator.terminals (d : Declarator) : List Terminal :=
  .name d.id ::
    match d.init with
    | some e => e.terminals
    | none => []

mutual

/-- The names and the literals of a statement. -/
def Stmt.terminals : Stmt → List Terminal
  | .declaration _ ds _ => ds.flatMap Declarator.terminals
  | .expression e _ => e.terminals
  | .conditional test consequent alternate _ =>
    .name test :: (terminalsOfStmts consequent ++ terminalsOfStmts alternate)

def terminalsOfStmts : List Stmt → List Terminal
  | [] => []
  | s :: ss => s.terminals ++ terminalsOfStmts ss

end

theorem Expr.terminals_negation (sign span : Span) (operand : Expr) :
    (Expr.negation sign operand span).terminals = operand.terminals := by
  have nought := isNegation_negation sign span operand
  unfold negation at nought ⊢
  rw [terminals, if_pos nought]

theorem Expr.terminals_binary {op : BinaryOp} {left right : Expr} {s : Span}
    (h : (Expr.binary op left right s).isNegation = false) :
    (Expr.binary op left right s).terminals = left.terminals ++ right.terminals := by
  rw [terminals, if_neg (Bool.eq_false_iff.1 h)]

end Slate
