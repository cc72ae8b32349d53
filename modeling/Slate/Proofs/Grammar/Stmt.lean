import Slate.Parser.Stmt
import Slate.Proofs.Grammar.Expr

/-!
# The grammar of programs

    body        ::= {statement}
    statement   ::= declaration | action ; | conditional
    declaration ::= (let|const) variable {, variable} ;
    variable    ::= NAME : type [= expr]
    action      ::= expr | NAME = expr
    conditional ::= if ( NAME ) block [else block]
    block       ::= OPEN body CLOSE                  -- in braces

An expression is here what the parser reads as one (`Accepted`). A `Phrase` is a tree of the grammar
above it: it knows which `else` belongs to which `if`, and nothing of slices, depths and open
conditionals.

* `Phrase.tokens` — the tokens of a phrase, in order;
* `Phrase.result` — the statements it stands for, each at the place of its own tokens.
-/

namespace Slate.Grammar

open Slate.Parser

/-- From the start of the first token to the end of the last. -/
def placeOf (ts : List Token) : Span := (coverAll ts).getD default

/-- The name that a token writes. -/
def nameOf (t : TokenOf .identifier) : Identifier := ⟨t.val.text, t.val.span⟩

/-- Tokens that the parser reads as an expression. -/
structure Accepted where
  tokens : List Token
  result : Expr
  read : expression tokens = .ok result

/-! ## Declarations -/

/-- A variable of a declaration. -/
structure Variable where
  name : TokenOf .identifier
  colon : TokenOf .colon
  word : Token
  type : Ty
  writes : type? word.kind = some type
  init : Option (TokenOf .assign × Accepted)

namespace Variable

/-- The tokens behind the type. -/
def initTokens : Option (TokenOf .assign × Accepted) → List Token
  | none => []
  | some (assign, value) => assign.val :: value.tokens

def tokens (v : Variable) : List Token :=
  v.name.val :: v.colon.val :: v.word :: initTokens v.init

def result (v : Variable) : Declarator :=
  ⟨nameOf v.name, v.type, v.init.map fun i => i.2.result, placeOf v.tokens⟩

end Variable

/-- The variables of a declaration. There is at least one. -/
inductive Variables where
  | last (v : Variable)
  | more (v : Variable) (comma : TokenOf .comma) (rest : Variables)

namespace Variables

def tokens : Variables → List Token
  | last v => v.tokens
  | more v comma rest => v.tokens ++ comma.val :: rest.tokens

def result : Variables → List Declarator
  | last v => [v.result]
  | more v _ rest => v.result :: rest.result

end Variables

/-- A declaration up to its semicolon. -/
structure Declaration where
  keyword : Token
  kind : DeclarationKind
  writes : declarationKind? keyword.kind = some kind
  vars : Variables

/-! ## Actions -/

/-- What stands in front of the semicolon of a statement that is no declaration. -/
inductive Action where
  | expression (e : Accepted)
  | assignment (target : TokenOf .identifier) (assign : TokenOf .assign) (value : Accepted)

namespace Action

def tokens : Action → List Token
  | expression e => e.tokens
  | assignment target assign value => target.val :: assign.val :: value.tokens

def result : Action → Expr
  | expression e => e.result
  | assignment target assign value =>
    .assignment (nameOf target) value.result (placeOf (target.val :: assign.val :: value.tokens))

end Action

/-! ## Statements -/

/-- A conditional up to its first block. -/
structure Test where
  ifWord : TokenOf .ifKeyword
  opening : TokenOf .openParen
  name : TokenOf .identifier
  closing : TokenOf .closeParen

def Test.tokens (t : Test) : List Token :=
  [t.ifWord.val, t.opening.val, t.name.val, t.closing.val]

/-- What the grammar of programs has rules for. -/
inductive Category where
  | statement
  | block
  | body

/-- What a phrase stands for. -/
abbrev Category.Result : Category → Type
  | statement => Stmt
  | block | body => List Stmt

/-- A tree of the grammar of programs. -/
inductive Phrase : Category → Type where
  | declaration (d : Declaration) (semicolon : TokenOf .semicolon) : Phrase .statement
  | action (a : Action) (semicolon : TokenOf .semicolon) : Phrase .statement
  | conditional (test : Test) (consequent : Phrase .block) : Phrase .statement
  | conditionalElse (test : Test) (consequent : Phrase .block) (elseWord : TokenOf .elseKeyword)
      (alternate : Phrase .block) : Phrase .statement
  | block (opening : TokenOf .openBrace) (body : Phrase .body) (closing : TokenOf .closeBrace) :
      Phrase .block
  | done : Phrase .body
  | more (first : Phrase .statement) (rest : Phrase .body) : Phrase .body

namespace Phrase

/-- The tokens of a phrase. -/
def tokens {c : Category} : Phrase c → List Token
  | declaration d semicolon => d.keyword :: d.vars.tokens ++ [semicolon.val]
  | action a semicolon => a.tokens ++ [semicolon.val]
  | conditional test consequent => test.tokens ++ consequent.tokens
  | conditionalElse test consequent elseWord alternate =>
    test.tokens ++ (consequent.tokens ++ elseWord.val :: alternate.tokens)
  | block opening body closing => opening.val :: body.tokens ++ [closing.val]
  | done => []
  | more first rest => first.tokens ++ rest.tokens

/-- What the phrase stands for. -/
def result {c : Category} : Phrase c → c.Result
  | declaration d semicolon =>
    .declaration d.kind d.vars.result (placeOf (declaration d semicolon).tokens)
  | action a semicolon => .expression a.result (placeOf (action a semicolon).tokens)
  | conditional test consequent =>
    .conditional (nameOf test.name) consequent.result []
      (placeOf (conditional test consequent).tokens)
  | conditionalElse test consequent elseWord alternate =>
    .conditional (nameOf test.name) consequent.result alternate.result
      (placeOf (conditionalElse test consequent elseWord alternate).tokens)
  | block _ body _ => body.result
  | done => []
  | more first rest => first.result :: rest.result

end Phrase

end Slate.Grammar
