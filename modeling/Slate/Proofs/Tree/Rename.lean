import Slate.Tree

/-!
# Trees with other names of variables

`rename r` replaces the name of every variable of a tree by `r`, be it declared, assigned to, tested or read.
The names of functions, the texts of strings and all spans stay.
-/

namespace Slate

variable (r : String → String)

/-- The variable with another name. -/
def Identifier.rename (x : Identifier) : Identifier := { x with name := r x.name }

@[simp] theorem Identifier.name_rename (x : Identifier) : (x.rename r).name = r x.name := rfl

@[simp] theorem Identifier.span_rename (x : Identifier) : (x.rename r).span = x.span := rfl

mutual

/-- The expression with every variable renamed. A function is no variable. -/
def Expr.rename : Expr → Expr
  | .literal l => .literal l
  | .identifier x => .identifier (x.rename r)
  | .binary op left right s => .binary op left.rename right.rename s
  | .call callee arguments s => .call callee (renameExprs arguments) s
  | .assignment target value s => .assignment (target.rename r) value.rename s

def renameExprs : List Expr → List Expr
  | [] => []
  | e :: es => e.rename :: renameExprs es

end

@[simp] theorem Expr.span_rename (e : Expr) : (e.rename r).span = e.span := by
  cases e <;> rw [rename] <;> rfl

@[simp] theorem length_renameExprs (es : List Expr) : (renameExprs r es).length = es.length := by
  induction es with
  | nil => rw [renameExprs]
  | cons e es ih => rw [renameExprs, List.length_cons, List.length_cons, ih]

def Declarator.rename (d : Declarator) : Declarator :=
  { d with id := d.id.rename r, init := d.init.map (Expr.rename r) }

mutual

/-- The statement with every variable renamed. -/
def Stmt.rename : Stmt → Stmt
  | .declaration kind ds s => .declaration kind (ds.map (Declarator.rename r)) s
  | .expression e s => .expression (e.rename r) s
  | .conditional test consequent alternate s =>
    .conditional (test.rename r) (renameStmts consequent) (renameStmts alternate) s

def renameStmts : List Stmt → List Stmt
  | [] => []
  | s :: ss => s.rename :: renameStmts ss

end

/-- The program with every variable renamed. -/
def Program.rename (p : Program) : Program := ⟨renameStmts r p.statements⟩

end Slate
