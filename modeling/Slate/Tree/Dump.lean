import Slate.Json.Printer
import Slate.Tree

/-!
# Trees as JSON

A node is an object with its parts in a fixed order, its span last. Where a node can be of several
kinds, it is an object whose only member is named for its kind: `\x7b"Binary": …\x7d`. A decimal is a
string, so that its scale is kept.

* `Expr.node`, `Stmt.node` are the node alone, `Expr.toJson`, `Stmt.toJson` the node with its kind;
* `Program.toJson` is the whole tree.
-/

namespace Slate

def Span.toJson (s : Span) : Json :=
  .object [("line", .ofNat s.line), ("start", .ofNat s.start), ("end", .ofNat s.stop)]

def Ty.toJson : Ty → Json
  | number => .string "Number"
  | string => .string "String"
  | boolean => .string "Boolean"

def DeclarationKind.toJson : DeclarationKind → Json
  | mutable => .string "Let"
  | constant => .string "Const"

/-- The name of an operator. -/
def BinaryOp.name : BinaryOp → String
  | add => "Add"
  | subtract => "Subtract"
  | multiply => "Multiply"
  | divide => "Divide"

def LiteralValue.toJson : LiteralValue → Json
  | number d => .object [("Number", .string d.toString)]
  | string s => .object [("String", .string s)]
  | boolean b => .object [("Boolean", .bool b)]

def Literal.toJson (l : Literal) : Json :=
  .object [("value", l.value.toJson), ("span", l.span.toJson)]

def Identifier.toJson (x : Identifier) : Json :=
  .object [("name", .string x.name), ("span", x.span.toJson)]

/-- The name of the kind of an expression. -/
def Expr.tag : Expr → String
  | literal _ => "Literal"
  | identifier _ => "Identifier"
  | binary .. => "Binary"
  | call .. => "Call"
  | assignment .. => "Assignment"

mutual

/-- The node of an expression. -/
def Expr.node : Expr → Json
  | .literal l => l.toJson
  | .identifier x => x.toJson
  | .binary op left right s =>
    .object [("operator", .string op.name), ("left", .object [(left.tag, left.node)]),
      ("right", .object [(right.tag, right.node)]), ("span", s.toJson)]
  | .call callee arguments s =>
    .object [("callee", callee.toJson), ("arguments", .array (nodes arguments)),
      ("span", s.toJson)]
  | .assignment target value s =>
    .object [("left", target.toJson), ("right", .object [(value.tag, value.node)]),
      ("span", s.toJson)]

/-- The nodes of expressions, with their kinds. -/
def nodes : List Expr → List Json
  | [] => []
  | e :: es => .object [(e.tag, e.node)] :: nodes es

end

/-- The node of an expression with its kind. -/
def Expr.toJson (e : Expr) : Json := .object [(e.tag, e.node)]

def Declarator.toJson (d : Declarator) : Json :=
  .object [("id", d.id.toJson), ("var_type", d.type.toJson),
    ("init", match d.init with | some e => e.toJson | none => .null), ("span", d.span.toJson)]

/-- The name of the kind of a statement. -/
def Stmt.tag : Stmt → String
  | declaration .. => "VariableDeclaration"
  | expression .. => "Expression"
  | conditional .. => "Conditional"

mutual

/-- The node of a statement. -/
def Stmt.node : Stmt → Json
  | .declaration kind ds s =>
    .object [("kind", kind.toJson), ("declarations", .array (ds.map Declarator.toJson)),
      ("span", s.toJson)]
  | .expression e s => .object [("expression", e.toJson), ("span", s.toJson)]
  | .conditional test consequent alternate s =>
    .object [("test", test.toJson), ("consequent", .array (blockNodes consequent)),
      ("alternate", .array (blockNodes alternate)), ("span", s.toJson)]

/-- The nodes of statements, with their kinds. -/
def blockNodes : List Stmt → List Json
  | [] => []
  | s :: ss => .object [(s.tag, s.node)] :: blockNodes ss

end

/-- The node of a statement with its kind. -/
def Stmt.toJson (s : Stmt) : Json := .object [(s.tag, s.node)]

def Program.toJson (p : Program) : Json :=
  .object [("statements", .array (blockNodes p.statements))]

end Slate
