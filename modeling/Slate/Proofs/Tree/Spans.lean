import Slate.Tree

/-!
# The places in a program

The spans of the nodes of a tree, each node before its parts and the parts in the order of the text. A name
counts as a node of its own, and so does the nought in front of a sign.
-/

namespace Slate

mutual

/-- The places of an expression and of its parts. -/
def Expr.spans : Expr → List Span
  | .literal l => [l.span]
  | .identifier x => [x.span]
  | .binary _ left right s => s :: (left.spans ++ right.spans)
  | .call callee arguments s => s :: callee.span :: spansOfExprs arguments
  | .assignment target value s => s :: target.span :: value.spans

def spansOfExprs : List Expr → List Span
  | [] => []
  | e :: es => e.spans ++ spansOfExprs es

end

/-- The places of the declaration of a variable and of its parts. -/
def Declarator.spans (d : Declarator) : List Span :=
  d.span :: d.id.span ::
    match d.init with
    | some e => e.spans
    | none => []

mutual

/-- The places of a statement and of its parts. -/
def Stmt.spans : Stmt → List Span
  | .declaration _ ds s => s :: ds.flatMap Declarator.spans
  | .expression e s => s :: e.spans
  | .conditional test consequent alternate s =>
    s :: test.span :: (spansOfStmts consequent ++ spansOfStmts alternate)

def spansOfStmts : List Stmt → List Span
  | [] => []
  | s :: ss => s.spans ++ spansOfStmts ss

end

theorem Expr.span_mem_spans (e : Expr) : e.span ∈ e.spans := by
  cases e <;> exact List.mem_cons_self

end Slate
