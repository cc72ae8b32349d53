import Slate.Parser.Expr

/-!
# Declarations and expression statements

    declaration ::= (let|const) declarator {, declarator} ;
    declarator  ::= name : type [= expr]
    statement   ::= name = expr ; | expr ;

The commas of a declaration are those outside parentheses.

* `declarator` reads one variable, `declaration` a whole declaration;
* `expressionStatement` reads what is neither a declaration nor a conditional.
-/

namespace Slate.Parser

/-- The type that a kind of token names. -/
def type? : TokenKind → Option Ty
  | .numberType => some .number
  | .stringType => some .string
  | .booleanType => some .boolean
  | _ => none

/-- The kind of declaration that a keyword starts. -/
def declarationKind? : TokenKind → Option DeclarationKind
  | .letKeyword => some .mutable
  | .constKeyword => some .constant
  | _ => none

/-- Reads the type behind the colon. -/
def typeName (colon : Token) : List Token → Parsed (Ty × List Token)
  | [] => failAt colon.span.after (.expected .type (some (.after .colon)) none)
  | t :: ts =>
    match type? t.kind with
    | some type => .ok (type, ts)
    | none => failAt t.span (.expected .type (some (.after .colon)) (some t.toLexeme))

/-- Reads the first value behind the type, if there is one. -/
def initializer : List Token → Parsed (Option Expr)
  | [] => .ok none
  | t :: ts =>
    if t.kind = .assign then
      if ts = [] then failAt t.span.after (.expected .expression (some (.after .assign)) none)
      else (expression ts).map some
    else failAt t.span (.expected .initializer (some .afterType) (some t.toLexeme))

/-- Reads one variable of a declaration. -/
def declarator (ts : List Token) : Parsed Declarator := do
  let (id, rest) ← expect .identifier .inDeclaration none ts
  let (colon, rest) ← expect .colon .afterVariableName (some id.span) rest
  let (type, rest) ← typeName colon rest
  let init ← initializer rest
  .ok ⟨⟨id.text, id.span⟩, type, init, coverFrom id ts⟩

/-- Reads the declarators between the keyword and the semicolon `last`. -/
def declarators (last : Token) (body : List Token) : Parsed (List Declarator) :=
  inOrder ((commaParts 0 body).map fun part =>
    if part = [] then failAt last.span (.expected .declarator none none) else declarator part)

/-- Reads a declaration. -/
def declaration : List Token → Parsed Stmt
  | [] => mismatch .declaration []
  | keyword :: rest =>
    match declarationKind? keyword.kind with
    | none => mismatch .declaration (keyword :: rest)
    | some kind =>
      let last := rest.getLastD keyword
      let body := rest.dropLast
      if rest ≠ [] ∧ last.kind ≠ .semicolon then
        failAt last.span.after (.expected (.token .semicolon) (some .atEndOfDeclaration) none)
      else if body = [] then
        failAt keyword.span.after
          (.expected (.token .identifier) (some (.after keyword.kind)) none)
      else do
        let ds ← declarators last body
        .ok (.declaration kind ds (coverFrom keyword rest))

/-- Reads what stands before the semicolon: an assignment, or an expression. -/
def action : List Token → Parsed Expr
  | target :: assign :: value =>
    if assign.kind = .assign then
      if target.kind = .identifier then assignment (target :: assign :: value)
      else failAt target.span .invalidTarget
    else expression (target :: assign :: value)
  | ts => expression ts

/-- Whether a statement that starts with a token of the kind is more than an expression. -/
def startsOther : TokenKind → Bool
  | .letKeyword | .constKeyword | .ifKeyword => true
  | _ => false

/-- Reads an expression and the semicolon behind it. -/
def expressionStatement : List Token → Parsed Stmt
  | [] => .error ⟨.nothingFor .expressionStatement, none⟩
  | first :: rest =>
    let last := rest.getLastD first
    let body := (first :: rest).dropLast
    if startsOther first.kind then mismatch .expressionStatement (first :: rest)
    else if last.kind ≠ .semicolon then
      failAt last.span.after (.expected (.token .semicolon) (some .atEndOfStatement) none)
    else if body = [] then failAt last.span .emptyStatement
    else do
      let e ← action body
      .ok (.expression e (coverFrom first rest))

end Slate.Parser
