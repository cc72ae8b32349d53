import Slate.Decimal.Basic
import Slate.Span
import Slate.Ty

/-!
# Programs as trees

A program is a list of statements: declarations, expressions followed by a semicolon, and
conditionals whose test is a variable. Every node has the span it was read from.

A sign in front of an operand has no node of its own: `-x` is `0 - x`, and the nought has an empty
span, which no nought of a text can have (`Expr.negation`, `Expr.isNegation`).

* `Expr.span`, `Stmt.span`: the place of a node;
* `isNegation_negation`: a sign is told apart from a subtraction.
-/

namespace Slate

inductive BinaryOp where
  | add
  | subtract
  | multiply
  | divide
  deriving DecidableEq

namespace BinaryOp

def all : List BinaryOp := [add, subtract, multiply, divide]

def symbol : BinaryOp → String
  | add => "+"
  | subtract => "-"
  | multiply => "*"
  | divide => "/"

/-- How strongly the operator binds its operands. -/
def precedence : BinaryOp → Nat
  | add | subtract => 1
  | multiply | divide => 2

end BinaryOp

/-- What a literal stands for. -/
inductive LiteralValue where
  | number (d : Decimal)
  | string (s : String)
  | boolean (b : Bool)
  deriving DecidableEq

structure Literal where
  value : LiteralValue
  span : Span
  deriving DecidableEq

/-- A name of a variable or of a function. -/
structure Identifier where
  name : String
  span : Span
  deriving DecidableEq

inductive Expr where
  | literal (l : Literal)
  | identifier (x : Identifier)
  | binary (op : BinaryOp) (left right : Expr) (span : Span)
  | call (callee : Identifier) (arguments : List Expr) (span : Span)
  /-- An assignment. As a statement it changes a variable; it has no value. -/
  | assignment (target : Identifier) (value : Expr) (span : Span)

instance : Inhabited Expr := ⟨.literal ⟨.boolean false, default⟩⟩

namespace Expr

def span : Expr → Span
  | literal l => l.span
  | identifier x => x.span
  | binary _ _ _ s | call _ _ s | assignment _ _ s => s

/-- The operand with a sign in front. `sign` is the place of the sign. -/
def negation (sign : Span) (operand : Expr) (span : Span) : Expr :=
  binary .subtract (literal ⟨.number .zero, sign.before⟩) operand span

/-- Whether the expression is an operand with a sign in front. -/
def isNegation : Expr → Bool
  | binary .subtract (literal ⟨.number d, s⟩) _ _ => d.isZero && s.start = s.stop
  | _ => false

theorem isNegation_negation (sign span : Span) (operand : Expr) :
    (negation sign operand span).isNegation = true := by
  simp [negation, isNegation, Decimal.isZero, Decimal.zero, Span.before]

end Expr

/-- Variables of a `let` can be assigned to, those of a `const` cannot. -/
inductive DeclarationKind where
  | mutable
  | constant
  deriving DecidableEq

/-- How the kind is written. -/
def DeclarationKind.keyword : DeclarationKind → String
  | mutable => "let"
  | constant => "const"

/-- One variable of a declaration, with its first value if it has one. -/
structure Declarator where
  id : Identifier
  type : Ty
  init : Option Expr
  span : Span

inductive Stmt where
  | declaration (kind : DeclarationKind) (declarators : List Declarator) (span : Span)
  | expression (e : Expr) (span : Span)
  /-- A conditional. Without an `else` its alternate is empty. -/
  | conditional (test : Identifier) (consequent alternate : List Stmt) (span : Span)

instance : Inhabited Stmt := ⟨.expression default default⟩

namespace Stmt

def span : Stmt → Span
  | declaration _ _ s | expression _ s | conditional _ _ _ s => s

/-- The kind of the statement in a word. -/
def kindName : Stmt → String
  | declaration .. => "declaration"
  | expression .. => "expression"
  | conditional .. => "conditional"

end Stmt

structure Program where
  statements : List Stmt

end Slate
