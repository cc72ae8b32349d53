import Slate.Tree

/-!
# Trees without their places

Two trees are the same program at different places if they are equal once every span is erased
(`Program.erase`). A sign is told from a subtraction by a span alone, so that is not all:
`Program.negations` says of each operation of a program, from left to right and from the top down,
whether it is a sign.
-/

namespace Slate

/-! ## Spans erased -/

def Literal.erase (l : Literal) : Literal := { l with span := default }

def Identifier.erase (x : Identifier) : Identifier := { x with span := default }

mutual

/-- The expression with every span erased. -/
def Expr.erase : Expr → Expr
  | .literal l => .literal l.erase
  | .identifier x => .identifier x.erase
  | .binary op left right _ => .binary op left.erase right.erase default
  | .call callee arguments _ => .call callee.erase (eraseExprs arguments) default
  | .assignment target value _ => .assignment target.erase value.erase default

def eraseExprs : List Expr → List Expr
  | [] => []
  | e :: es => e.erase :: eraseExprs es

end

def Declarator.erase (d : Declarator) : Declarator :=
  ⟨d.id.erase, d.type, d.init.map Expr.erase, default⟩

mutual

/-- The statement with every span erased. -/
def Stmt.erase : Stmt → Stmt
  | .declaration kind ds _ => .declaration kind (ds.map Declarator.erase) default
  | .expression e _ => .expression e.erase default
  | .conditional test consequent alternate _ =>
    .conditional test.erase (eraseStmts consequent) (eraseStmts alternate) default

def eraseStmts : List Stmt → List Stmt
  | [] => []
  | s :: ss => s.erase :: eraseStmts ss

end

/-- The program with every span erased. -/
def Program.erase (p : Program) : Program := ⟨eraseStmts p.statements⟩

/-! ## Signs -/

mutual

/-- Whether each operation of the expression is a sign. -/
def Expr.negations : Expr → List Bool
  | .literal _ | .identifier _ => []
  | .binary op left right s =>
    (Expr.binary op left right s).isNegation :: (left.negations ++ right.negations)
  | .call _ arguments _ => negationsOfExprs arguments
  | .assignment _ value _ => value.negations

def negationsOfExprs : List Expr → List Bool
  | [] => []
  | e :: es => e.negations ++ negationsOfExprs es

end

def Declarator.negations (d : Declarator) : List Bool :=
  match d.init with
  | some e => e.negations
  | none => []

mutual

/-- Whether each operation of the statement is a sign. -/
def Stmt.negations : Stmt → List Bool
  | .declaration _ ds _ => ds.flatMap Declarator.negations
  | .expression e _ => e.negations
  | .conditional _ consequent alternate _ =>
    negationsOfStmts consequent ++ negationsOfStmts alternate

def negationsOfStmts : List Stmt → List Bool
  | [] => []
  | s :: ss => s.negations ++ negationsOfStmts ss

end

/-- Whether each operation of the program is a sign. -/
def Program.negations (p : Program) : List Bool := negationsOfStmts p.statements

/-! ## The same at other places -/

attribute [local simp] Literal.erase Identifier.erase Expr.erase eraseExprs Declarator.erase Stmt.erase eraseStmts
  Expr.negations negationsOfExprs Stmt.negations negationsOfStmts

/-- Two expressions that differ in their spans only, and have their signs at the same operations. -/
def Expr.Same (e e' : Expr) : Prop := e.erase = e'.erase ∧ e.negations = e'.negations

def SameExprs (es es' : List Expr) : Prop :=
  eraseExprs es = eraseExprs es' ∧ negationsOfExprs es = negationsOfExprs es'

theorem SameExprs.nil : SameExprs [] [] := ⟨rfl, rfl⟩

theorem Expr.Same.cons {e e' : Expr} {es es' : List Expr} (h : e.Same e') (hs : SameExprs es es') :
    SameExprs (e :: es) (e' :: es') := by
  constructor
  · simp [h.1, hs.1]
  · simp [h.2, hs.2]

namespace Expr.Same

theorem literal (v : LiteralValue) (s s' : Span) :
    Same (.literal ⟨v, s⟩) (.literal ⟨v, s'⟩) := by
  constructor <;> simp

theorem identifier (name : String) (s s' : Span) :
    Same (.identifier ⟨name, s⟩) (.identifier ⟨name, s'⟩) := by
  constructor <;> simp

theorem binary {op : BinaryOp} {left right left' right' : Expr} {s s' : Span} (hl : Same left left')
    (hr : Same right right')
    (h : (Expr.binary op left right s).isNegation = (Expr.binary op left' right' s').isNegation) :
    Same (.binary op left right s) (.binary op left' right' s') := by
  constructor
  · simp [hl.1, hr.1]
  · simp [h, hl.2, hr.2]

theorem negation {operand operand' : Expr} (h : Same operand operand') (sign sign' s s' : Span) :
    Same (.negation sign operand s) (.negation sign' operand' s') := by
  apply binary
  · exact literal _ _ _
  · exact h
  · exact (isNegation_negation sign s operand).trans (isNegation_negation sign' s' operand').symm

theorem call {es es' : List Expr} (h : SameExprs es es') (name : String)
    (n n' s s' : Span) : Same (.call ⟨name, n⟩ es s) (.call ⟨name, n'⟩ es' s') := by
  constructor
  · simp [h.1]
  · simp [h.2]

theorem assignment {value value' : Expr} (h : Same value value') (name : String)
    (n n' s s' : Span) :
    Same (.assignment ⟨name, n⟩ value s) (.assignment ⟨name, n'⟩ value' s') := by
  constructor
  · simp [h.1]
  · simp [h.2]

end Expr.Same

/-- As `Expr.Same`, for a variable of a declaration. -/
def Declarator.Same (d d' : Declarator) : Prop := d.erase = d'.erase ∧ d.negations = d'.negations

theorem Declarator.Same.of_init {name : String} {type : Ty} {e e' : Option Expr} {n n' s s' : Span}
    (h : e.map Expr.erase = e'.map Expr.erase ∧ e.map Expr.negations = e'.map Expr.negations) :
    Same ⟨⟨name, n⟩, type, e, s⟩ ⟨⟨name, n'⟩, type, e', s'⟩ := by
  obtain ⟨he, hn⟩ := h
  constructor
  · simp [he]
  · cases e with
    | none => cases e' with
      | none => rfl
      | some => cases hn
    | some => cases e' with
      | none => cases hn
      | some => exact Option.some.inj hn

def SameDeclarators (ds ds' : List Declarator) : Prop :=
  ds.map Declarator.erase = ds'.map Declarator.erase ∧
    ds.flatMap Declarator.negations = ds'.flatMap Declarator.negations

theorem SameDeclarators.nil : SameDeclarators [] [] := ⟨rfl, rfl⟩

theorem Declarator.Same.cons {d d' : Declarator} {ds ds' : List Declarator} (h : d.Same d')
    (hs : SameDeclarators ds ds') : SameDeclarators (d :: ds) (d' :: ds') := by
  constructor
  · rw [List.map_cons, List.map_cons, h.1, hs.1]
  · rw [List.flatMap_cons, List.flatMap_cons, h.2, hs.2]

/-- As `Expr.Same`, for statements. -/
def Stmt.Same (s s' : Stmt) : Prop := s.erase = s'.erase ∧ s.negations = s'.negations

def SameStmts (ss ss' : List Stmt) : Prop :=
  eraseStmts ss = eraseStmts ss' ∧ negationsOfStmts ss = negationsOfStmts ss'

theorem SameStmts.nil : SameStmts [] [] := ⟨rfl, rfl⟩

theorem Stmt.Same.cons {s s' : Stmt} {ss ss' : List Stmt} (h : s.Same s')
    (hs : SameStmts ss ss') : SameStmts (s :: ss) (s' :: ss') := by
  constructor
  · simp [h.1, hs.1]
  · simp [h.2, hs.2]

namespace Stmt.Same

theorem declaration {ds ds' : List Declarator} (h : SameDeclarators ds ds')
    (kind : DeclarationKind) (s s' : Span) :
    Same (.declaration kind ds s) (.declaration kind ds' s') := by
  constructor
  · simp [h.1]
  · simp [h.2]

theorem expression {e e' : Expr} (h : e.Same e') (s s' : Span) :
    Same (.expression e s) (.expression e' s') := by
  constructor
  · simp [h.1]
  · simp [h.2]

theorem conditional {consequent alternate consequent' alternate' : List Stmt}
    (hc : SameStmts consequent consequent') (ha : SameStmts alternate alternate') (name : String)
    (n n' s s' : Span) :
    Same (.conditional ⟨name, n⟩ consequent alternate s)
      (.conditional ⟨name, n'⟩ consequent' alternate' s') := by
  constructor
  · simp [hc.1, ha.1]
  · simp [hc.2, ha.2]

end Stmt.Same

end Slate
