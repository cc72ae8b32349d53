import Slate.Proofs.Tree.Erase
import Slate.Token

/-!
# Tokens and trees at other places

`relocate f` moves every span of a token or of a tree by `f`, and leaves the rest alone. To erase the spans
of a tree is to move them all to one place (`Program.erase_eq_relocate`), so a fact about moved trees is also
one about erased trees.
-/

namespace Slate

/-- A move of spans that agrees with how spans are made from one another. -/
structure Span.Coherent (f : Span → Span) : Prop where
  cover : ∀ first last : Span, f (.cover first last) = .cover (f first) (f last)
  after : ∀ s : Span, f s.after = (f s).after
  before : ∀ s : Span, f s.before = (f s).before

variable (f : Span → Span)

/-! ## Tokens -/

/-- The token at another place. -/
def Token.relocate (t : Token) : Token := { t with span := f t.span }

@[simp] theorem Token.kind_relocate (t : Token) : (t.relocate f).kind = t.kind := rfl

@[simp] theorem Token.text_relocate (t : Token) : (t.relocate f).text = t.text := rfl

@[simp] theorem Token.span_relocate (t : Token) : (t.relocate f).span = f t.span := rfl

@[simp] theorem Token.toLexeme_relocate (t : Token) : (t.relocate f).toLexeme = t.toLexeme := rfl

/-! ## Every span of a tree moved -/

def Literal.relocate (l : Literal) : Literal := { l with span := f l.span }

def Identifier.relocate (x : Identifier) : Identifier := { x with span := f x.span }

@[simp] theorem Identifier.name_relocate (x : Identifier) : (x.relocate f).name = x.name := rfl

@[simp] theorem Identifier.span_relocate (x : Identifier) : (x.relocate f).span = f x.span := rfl

mutual

/-- The expression with every span moved. -/
def Expr.relocate : Expr → Expr
  | .literal l => .literal (l.relocate f)
  | .identifier x => .identifier (x.relocate f)
  | .binary op left right s => .binary op left.relocate right.relocate (f s)
  | .call callee arguments s => .call (callee.relocate f) (relocateExprs arguments) (f s)
  | .assignment target value s => .assignment (target.relocate f) value.relocate (f s)

def relocateExprs : List Expr → List Expr
  | [] => []
  | e :: es => e.relocate :: relocateExprs es

end

@[simp] theorem Expr.span_relocate (e : Expr) : (e.relocate f).span = f e.span := by
  cases e <;> simp [relocate, span, Literal.relocate]

theorem relocateExprs_eq_map (es : List Expr) : relocateExprs f es = es.map (Expr.relocate f) := by
  induction es with
  | nil => rw [relocateExprs, List.map_nil]
  | cons e es ih => rw [relocateExprs, List.map_cons, ih]

def Declarator.relocate (d : Declarator) : Declarator :=
  ⟨d.id.relocate f, d.type, d.init.map (Expr.relocate f), f d.span⟩

mutual

/-- The statement with every span moved. -/
def Stmt.relocate : Stmt → Stmt
  | .declaration kind ds s => .declaration kind (ds.map (Declarator.relocate f)) (f s)
  | .expression e s => .expression (e.relocate f) (f s)
  | .conditional test consequent alternate s =>
    .conditional (test.relocate f) (relocateStmts consequent) (relocateStmts alternate) (f s)

def relocateStmts : List Stmt → List Stmt
  | [] => []
  | s :: ss => s.relocate :: relocateStmts ss

end

theorem relocateStmts_eq_map (ss : List Stmt) : relocateStmts f ss = ss.map (Stmt.relocate f) := by
  induction ss with
  | nil => rw [relocateStmts, List.map_nil]
  | cons s ss ih => rw [relocateStmts, List.map_cons, ih]

/-- The program with every span moved. -/
def Program.relocate (p : Program) : Program := ⟨relocateStmts f p.statements⟩

/-! ## Every span at one place -/

mutual

theorem Expr.erase_eq_relocate : ∀ e : Expr, e.erase = e.relocate fun _ => default
  | .literal l => by rw [Expr.erase, Expr.relocate]; rfl
  | .identifier x => by rw [Expr.erase, Expr.relocate]; rfl
  | .binary op left right s => by
    rw [Expr.erase, Expr.relocate, left.erase_eq_relocate, right.erase_eq_relocate]
  | .call callee arguments s => by rw [Expr.erase, Expr.relocate, eraseExprs_eq_relocateExprs arguments]; rfl
  | .assignment target value s => by rw [Expr.erase, Expr.relocate, value.erase_eq_relocate]; rfl

theorem eraseExprs_eq_relocateExprs : ∀ es : List Expr, eraseExprs es = relocateExprs (fun _ => default) es
  | [] => by rw [eraseExprs, relocateExprs]
  | e :: es => by
    rw [eraseExprs, relocateExprs, e.erase_eq_relocate, eraseExprs_eq_relocateExprs es]

end

theorem Declarator.erase_eq_relocate (d : Declarator) : d.erase = d.relocate fun _ => default := by
  rw [erase, relocate, funext Expr.erase_eq_relocate]
  rfl

mutual

theorem Stmt.erase_eq_relocate : ∀ s : Stmt, s.erase = s.relocate fun _ => default
  | .declaration kind ds s => by rw [Stmt.erase, Stmt.relocate, funext Declarator.erase_eq_relocate]
  | .expression e s => by rw [Stmt.erase, Stmt.relocate, e.erase_eq_relocate]
  | .conditional test consequent alternate s => by
    rw [Stmt.erase, Stmt.relocate, eraseStmts_eq_relocateStmts consequent,
      eraseStmts_eq_relocateStmts alternate]
    rfl

theorem eraseStmts_eq_relocateStmts : ∀ ss : List Stmt, eraseStmts ss = relocateStmts (fun _ => default) ss
  | [] => by rw [eraseStmts, relocateStmts]
  | s :: ss => by
    rw [eraseStmts, relocateStmts, s.erase_eq_relocate, eraseStmts_eq_relocateStmts ss]

end

theorem Program.erase_eq_relocate (p : Program) : p.erase = p.relocate fun _ => default := by
  rw [erase, relocate, eraseStmts_eq_relocateStmts]

end Slate
