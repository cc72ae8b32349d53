import Slate.Style
import Slate.Tree
import Slate.Version

/-!
# Analysis

A program is checked against the rules of a style, and each place that breaks one gives a
`Diagnostic`. There are three rules:

* the names of variables follow an `IdentifierFormat`, wherever they stand;
* the arguments of `println` are variables or literals;
* the arguments of `readInput` are, in versions that have that function.

A rule is off if the style does not give it, or gives it a parameter of another kind.

The diagnostics come in the order of the text. A call gives those of its own arguments first and
those inside its arguments after them. The name of a function is not checked.

* `Expr.diagnostics`, `Stmt.diagnostics` check a part of a program, `analyze` all of it;
* `IdentifierFormat.admits` says which names follow a format.
-/

namespace Slate

/-! ### Formats of names -/

inductive IdentifierFormat where
  | camelCase
  | snakeCase
  deriving DecidableEq

/-- A lower case English letter. -/
def isLower (c : Char) : Bool := 'a' ≤ c && c ≤ 'z'

/-- A lower case English letter or a digit. -/
def isLowerOrDigit (c : Char) : Bool := isLower c || c.isDigit

/-- Whether words of lower case letters and digits follow, with one low line between each two.
`inWord` says whether the word at the front has begun. -/
def snakeWords (inWord : Bool) : List Char → Bool
  | [] => inWord
  | c :: cs => if c = '_' then inWord && snakeWords false cs else isLowerOrDigit c && snakeWords true cs

namespace IdentifierFormat

def all : List IdentifierFormat := [camelCase, snakeCase]

/-- How a style and a message name the format. -/
def describe : IdentifierFormat → String
  | camelCase => "camel case"
  | snakeCase => "snake case"

/-- Whether a name follows the format. Both formats start with a lower case letter. -/
def admits (format : IdentifierFormat) (name : String) : Bool :=
  match name.toList with
  | [] => false
  | c :: cs =>
    isLower c &&
      match format with
      | camelCase => cs.all Char.isAlphanum
      | snakeCase => snakeWords true cs

end IdentifierFormat

/-! ### Rules -/

inductive Rule where
  | identifierFormat
  | printlnArgument
  | readInputArgument
  deriving DecidableEq

namespace Rule

def all : List Rule := [identifierFormat, printlnArgument, readInputArgument]

/-- The member of a style that gives the rule. -/
def name : Rule → String
  | identifierFormat => "identifier_format"
  | printlnArgument => "mandatory-variable-or-literal-in-println"
  | readInputArgument => "mandatory-variable-or-literal-in-readInput"

end Rule

/-- The rules that a program is checked against. -/
structure Rules where
  identifierFormat : Option IdentifierFormat
  printlnArgument : Bool
  readInputArgument : Bool
  deriving DecidableEq

namespace Rules

/-- The format that a parameter names, by itself or as the only member of an object. -/
def format? : Json → Option IdentifierFormat
  | .string s => IdentifierFormat.all.find? fun f => f.describe = s
  | .object [(s, .null)] => IdentifierFormat.all.find? fun f => f.describe = s
  | _ => none

/-- Whether a parameter puts its rule on. -/
def isOn : Option Json → Bool
  | some (.bool b) => b
  | _ => false

/-- The rules of a style for a version. -/
def ofStyle (style : Style) (version : Version) : Rules where
  identifierFormat := (style.rule? Rule.identifierFormat.name).bind format?
  printlnArgument := isOn (style.rule? Rule.printlnArgument.name)
  readInputArgument :=
    version.supports .readInput && isOn (style.rule? Rule.readInputArgument.name)

end Rules

/-! ### Diagnostics -/

/-- What breaks a rule. -/
inductive Finding where
  /-- A name does not follow the format. -/
  | misnamed (name : String) (format : IdentifierFormat)
  /-- An argument of `println` is neither a variable nor a literal. -/
  | printlnArgument
  /-- An argument of `readInput` is neither a variable nor a literal. -/
  | readInputArgument
  deriving DecidableEq

namespace Finding

def rule : Finding → Rule
  | misnamed .. => .identifierFormat
  | printlnArgument => .printlnArgument
  | readInputArgument => .readInputArgument

def message : Finding → String
  | misnamed name format => "identifier '" ++ name ++ "' is not in " ++ format.describe
  | printlnArgument => "'println' argument must be a variable or a literal"
  | readInputArgument => "'readInput' argument must be a variable or a literal"

end Finding

/-- What breaks a rule, and where. -/
structure Diagnostic where
  finding : Finding
  span : Span
  deriving DecidableEq

namespace Diagnostic

def rule (d : Diagnostic) : Rule := d.finding.rule

def message (d : Diagnostic) : String := d.finding.message

protected def toString (d : Diagnostic) : String :=
  d.message ++ " at " ++ d.span.toString ++ " [" ++ d.rule.name ++ "]"

end Diagnostic

/-! ### Checking -/

/-- Checks the name of a variable. -/
def Identifier.diagnostics (rules : Rules) (x : Identifier) : List Diagnostic :=
  match rules.identifierFormat with
  | some format => if format.admits x.name then [] else [⟨.misnamed x.name format, x.span⟩]
  | none => []

/-- Whether an expression is a variable or a literal. -/
def Expr.isSimple : Expr → Bool
  | .literal _ | .identifier _ => true
  | _ => false

/-- What breaks a rule if a function is called with other arguments than variables and literals. -/
def Rules.argumentFinding? (rules : Rules) (callee : String) : Option Finding :=
  if callee = "println" ∧ rules.printlnArgument then some .printlnArgument
  else if callee = "readInput" ∧ rules.readInputArgument then some .readInputArgument
  else none

/-- Checks the arguments of a call by themselves. -/
def Rules.argumentDiagnostics (rules : Rules) (callee : String) (arguments : List Expr) :
    List Diagnostic :=
  match rules.argumentFinding? callee with
  | some finding =>
    (arguments.filter fun e => !e.isSimple).map fun e => ⟨finding, e.span⟩
  | none => []

mutual

/-- Checks an expression and all in it. -/
def Expr.diagnostics (rules : Rules) : Expr → List Diagnostic
  | .literal _ => []
  | .identifier x => x.diagnostics rules
  | .binary _ left right _ => left.diagnostics rules ++ right.diagnostics rules
  | .call callee arguments _ =>
    rules.argumentDiagnostics callee.name arguments ++ diagnosticsAll rules arguments
  | .assignment target value _ => target.diagnostics rules ++ value.diagnostics rules

/-- Checks expressions in order. -/
def diagnosticsAll (rules : Rules) : List Expr → List Diagnostic
  | [] => []
  | e :: es => e.diagnostics rules ++ diagnosticsAll rules es

end

/-- Checks one variable of a declaration. -/
def Declarator.diagnostics (rules : Rules) (d : Declarator) : List Diagnostic :=
  d.id.diagnostics rules ++
    match d.init with
    | some e => e.diagnostics rules
    | none => []

mutual

/-- Checks a statement and all in it. -/
def Stmt.diagnostics (rules : Rules) : Stmt → List Diagnostic
  | .declaration _ ds _ => ds.flatMap (Declarator.diagnostics rules)
  | .expression e _ => e.diagnostics rules
  | .conditional test consequent alternate _ =>
    test.diagnostics rules ++ blockDiagnostics rules consequent ++ blockDiagnostics rules alternate

/-- Checks statements in order. -/
def blockDiagnostics (rules : Rules) : List Stmt → List Diagnostic
  | [] => []
  | s :: ss => s.diagnostics rules ++ blockDiagnostics rules ss

end

/-- Checks a program against the rules of a style for a version. -/
def analyze (style : Style) (version : Version) (p : Program) : List Diagnostic :=
  blockDiagnostics (Rules.ofStyle style version) p.statements

end Slate
