import Slate.Style
import Slate.Tree
import Slate.Value

/-!
# Formatting

A program is written as lines, one for each declaration and each expression statement, and for a
conditional one at each brace. A line stands as deep as the blocks around it. Comments, spacing and
needless parentheses of the text that the program was read from are not kept.

An operand that is an operation itself is put in parentheses where it would be read otherwise: on
the left if it binds less than the operator, on the right also if it binds the same, and always
behind a sign.

    Program ──Stmt.lines──▶ lines ──format──▶ text

* `Expr.format` writes an expression, `Stmt.lines` a statement;
* `format` writes a program. Each line ends with a line feed, so the text of the empty program is
  empty.
-/

namespace Slate

/-- How a character stands in a string in double quotes. -/
def escapeChar : Char → List Char
  | '"' => ['\\', '"']
  | '\\' => ['\\', '\\']
  | '\n' => ['\\', 'n']
  | '\r' => ['\\', 'r']
  | '\t' => ['\\', 't']
  | c => [c]

/-- A string in double quotes. -/
def quoteString (s : String) : String :=
  "\"" ++ String.ofList (s.toList.flatMap escapeChar) ++ "\""

def LiteralValue.format : LiteralValue → String
  | number d => d.toString
  | string s => quoteString s
  | boolean b => Value.booleanText b

namespace Style

/-- That many spaces. -/
def spaces (n : Nat) : String := String.ofList (List.replicate n ' ')

/-- The equals sign and the spaces around it. -/
def assignSign (style : Style) : String :=
  spaces style.spacesAroundAssign ++ "=" ++ spaces style.spacesAroundAssign

/-- The colon of a declaration and the spaces around it. -/
def colonSign (style : Style) : String :=
  (if style.spaceBeforeColon then " " else "") ++ ":" ++ (if style.spaceAfterColon then " " else "")

/-- The spaces in front of a line that stands inside `level` blocks. -/
def indent (style : Style) (level : Nat) : String := spaces (level * style.blockIndent)

end Style

/-! ### Expressions -/

/-- The precedence of an operation. What has none is never put in parentheses: operands with a sign,
and all that is no operation. -/
def Expr.looseness? (e : Expr) : Option Nat :=
  match e with
  | .binary op _ _ _ => if e.isNegation then none else some op.precedence
  | _ => none

/-- An operand, in parentheses if its precedence says so. -/
def parenthesize (e : Expr) (needed : Nat → Bool) (text : String) : String :=
  if e.looseness?.any needed then "(" ++ text ++ ")" else text

mutual

/-- Writes an expression. -/
def Expr.format (style : Style) : Expr → String
  | .literal l => l.value.format
  | .identifier x => x.name
  | .binary op left right s =>
    if (Expr.binary op left right s).isNegation then
      "-" ++ parenthesize right (fun _ => true) (right.format style)
    else
      parenthesize left (fun p => p < op.precedence) (left.format style) ++
        (" " ++ op.symbol ++ " ") ++
        parenthesize right (fun p => p ≤ op.precedence) (right.format style)
  | .call callee arguments _ =>
    callee.name ++ "(" ++ ", ".intercalate (formatAll style arguments) ++ ")"
  | .assignment target value _ => target.name ++ style.assignSign ++ value.format style

/-- Writes expressions. -/
def formatAll (style : Style) : List Expr → List String
  | [] => []
  | e :: es => e.format style :: formatAll style es

end

/-! ### Statements -/

/-- Writes one variable of a declaration. -/
def Declarator.format (style : Style) (d : Declarator) : String :=
  d.id.name ++ style.colonSign ++ d.type.keyword ++
    match d.init with
    | some e => style.assignSign ++ e.format style
    | none => ""

/-- Whether an expression is a call that prints. -/
def Expr.isPrintln : Expr → Bool
  | .call callee _ _ => callee.name = "println"
  | _ => false

mutual

/-- The lines of a statement that stands inside `level` blocks. -/
def Stmt.lines (style : Style) (level : Nat) : Stmt → List String
  | .declaration kind ds _ =>
    [style.indent level ++ kind.keyword ++ " " ++
      ", ".intercalate (ds.map (Declarator.format style)) ++ ";"]
  | .expression e _ =>
    List.replicate (if e.isPrintln then style.emptyLinesBeforePrintln else 0) "" ++
      [style.indent level ++ e.format style ++ ";"]
  | .conditional test consequent alternate _ =>
    [style.indent level ++ "if (" ++ test.name ++ ") \x7b"] ++
      linesAll style (level + 1) consequent ++
      (if alternate.isEmpty then []
        else [style.indent level ++ "\x7d else \x7b"] ++ linesAll style (level + 1) alternate) ++
      [style.indent level ++ "\x7d"]

/-- The lines of statements that stand inside `level` blocks. -/
def linesAll (style : Style) (level : Nat) : List Stmt → List String
  | [] => []
  | s :: ss => s.lines style level ++ linesAll style level ss

end

/-- The lines of a program. -/
def Program.lines (style : Style) (p : Program) : List String := linesAll style 0 p.statements

/-- The text of lines, each with a line feed at its end. -/
def joinLines (lines : List String) : String := String.join (lines.map (· ++ "\n"))

/-- Writes a program. -/
def format (style : Style) (p : Program) : String := joinLines (p.lines style)

end Slate
