import Slate.Decimal.Reader
import Slate.Token

/-!
# Why tokens are no program

Each part of the parser reads one construct from a whole list of tokens. It fails in one of two
ways: the tokens are not its construct at all (`Failure.Kind.mismatch`), so that another part may
have them, or they start like it and break its grammar (`Failure.Kind.malformed`), which is final.

A `Fault` is the cause. Nearly all read "expected … in some setting, found …" or "unexpected … in
some setting", so the wording is put together from what was `Wanted`, the `Setting` and the lexeme
that was found.

* `Fault.kind` tells the two ways apart, `Fault.message` gives the words;
* `Failure` adds the place, if there is one.
-/

namespace Slate.Parser

/-- What a list of tokens may be tried as. -/
inductive Construct where
  | identifier
  | number
  | string
  | boolean
  | literal
  | binary
  | parenthesized
  | call
  | assignment
  | declaration
  | expressionStatement
  | conditional
  deriving DecidableEq

/-- What should have stood at a place. -/
inductive Wanted where
  | token (kind : TokenKind)
  | type
  /-- The equals sign of a first value, or the end of the declaration. -/
  | initializer
  | expression
  | argument
  | declarator
  deriving DecidableEq

def Wanted.describe : Wanted → String
  | token kind => kind.describe
  | type => "type"
  | initializer => "'=' or ';'"
  | expression => "expression"
  | argument => "argument"
  | declarator => "declarator"

/-- Where something should have stood, or should not. -/
inductive Setting where
  | after (kind : TokenKind)
  | before (kind : TokenKind)
  | afterVariableName
  | afterType
  | afterCondition
  | afterCall (callee : String)
  | afterConditional
  | inDeclaration
  | inExpression
  | insideParentheses
  | insideBlock
  | atEndOfDeclaration
  | atEndOfStatement
  deriving DecidableEq

def Setting.describe : Setting → String
  | after kind => "after " ++ kind.describe
  | before kind => "before " ++ kind.describe
  | afterVariableName => "after variable name"
  | afterType => "after type"
  | afterCondition => "after condition"
  | afterCall callee => "after call to '" ++ callee ++ "'"
  | afterConditional => "after conditional block"
  | inDeclaration => "in declaration"
  | inExpression => "in expression"
  | insideParentheses => "inside parentheses"
  | insideBlock => "inside block"
  | atEndOfDeclaration => "at end of declaration"
  | atEndOfStatement => "at end of statement"

/-- Why reading a construct failed. -/
inductive Fault where
  /-- The tokens are not the construct. -/
  | notA (c : Construct)
  /-- There are no tokens where a statement of the construct should be. -/
  | nothingFor (c : Construct)
  | expected (wanted : Wanted) (setting : Option Setting) (found : Option Lexeme)
  | unexpected (found : Lexeme) (setting : Option Setting)
  | unmatched (kind : TokenKind)
  | unclosedParen
  | unclosedCall
  /-- The text ends right behind the brace that opens a block. -/
  | unclosedBlock
  /-- The text ends somewhere inside a block. -/
  | neverClosed
  | invalidBoolean (text : String)
  | invalidNumber (text : String) (why : Decimal.ReadError)
  /-- A semicolon by itself. -/
  | emptyStatement
  /-- What stands before the equals sign is no name. -/
  | invalidTarget
  /-- No kind of statement starts like this. -/
  | unrecognised
  deriving DecidableEq

def Construct.mismatch : Construct → String
  | identifier => "Invalid identifier"
  | number => "Invalid number"
  | string => "Invalid string"
  | boolean => "Invalid boolean"
  | literal => "expected a literal"
  | binary => "not a binary expression"
  | parenthesized => "expected '('"
  | call => "not a call expression"
  | assignment => "not an assignment"
  | declaration => "not a variable declaration"
  | expressionStatement => "not an expression statement"
  | conditional => "Invalid conditional statement"

/-- The end of a message about what was found. -/
def foundText : Option Lexeme → String
  | none => ""
  | some x => ", found " ++ x.describe

/-- The end of a message about where it was found. -/
def settingText : Option Setting → String
  | none => ""
  | some s => " " ++ s.describe

def Fault.message : Fault → String
  | notA c => c.mismatch
  | nothingFor .conditional => "Not enough tokens to build conditional statement"
  | nothingFor _ => "empty statement"
  | expected w s f => "expected " ++ w.describe ++ settingText s ++ foundText f
  | unexpected x s => "unexpected " ++ x.describe ++ settingText s
  | unmatched kind => "unmatched " ++ kind.describe
  | unclosedParen => "unclosed '('"
  | unclosedCall => "unclosed '(' in call"
  | unclosedBlock => "unclosed block"
  | neverClosed => "unmatched braces: block is never closed"
  | invalidBoolean text => "invalid boolean literal '" ++ text ++ "'"
  | invalidNumber text why => "invalid number literal '" ++ text ++ "': " ++ why.message
  | emptyStatement => "empty statement"
  | invalidTarget => "invalid assignment target"
  | unrecognised => "unrecognised statement"

/-- The cause of a failure and its place. Only a failure on no tokens at all can be without one. -/
structure Failure where
  fault : Fault
  span : Option Span
  deriving DecidableEq

/-- Whether another construct may still fit. -/
inductive Failure.Kind where
  | mismatch
  | malformed
  deriving DecidableEq

def Fault.kind : Fault → Failure.Kind
  | notA _ | nothingFor _ => .mismatch
  | _ => .malformed

namespace Failure

def kind (f : Failure) : Kind := f.fault.kind

def message (f : Failure) : String :=
  match f.span with
  | some s => f.fault.message ++ " at " ++ s.toString
  | none => f.fault.message

end Failure

/-- What a part of the parser answers. -/
abbrev Parsed (α : Type) := Except Failure α

/-- Fails at a place. -/
def failAt {α : Type} (s : Span) (fault : Fault) : Parsed α := .error ⟨fault, some s⟩

/-- Fails because the tokens are not the construct. -/
def mismatch {α : Type} (c : Construct) (ts : List Token) : Parsed α :=
  .error ⟨.notA c, coverAll ts⟩

/-- The first token, which has to be of a kind, and those behind it. Behind `previous` something is
missing where there are none. -/
def expect (kind : TokenKind) (setting : Setting) (previous : Option Span) :
    List Token → Parsed (Token × List Token)
  | [] => .error ⟨.expected (.token kind) (some setting) none, previous.map Span.after⟩
  | t :: ts =>
    if t.kind = kind then .ok (t, ts)
    else failAt t.span (.expected (.token kind) (some setting) (some t.toLexeme))

theorem expect_eq_ok {kind : TokenKind} {setting : Setting} {previous : Option Span}
    {ts rest : List Token} {t : Token} :
    expect kind setting previous ts = .ok (t, rest) ↔ ts = t :: rest ∧ t.kind = kind := by
  cases ts with
  | nil => simp [expect]
  | cons a as =>
    by_cases h : a.kind = kind
    · simp only [expect, h, if_true, Except.ok.injEq, Prod.mk.injEq, List.cons.injEq]
      exact ⟨fun e => ⟨e, e.1 ▸ h⟩, fun e => e.1⟩
    · simp only [expect, h, if_false, failAt, reduceCtorEq, List.cons.injEq, false_iff, not_and]
      exact fun e hk => h (e.1 ▸ hk)

theorem bind_eq_ok {ε α β : Type} {x : Except ε α} {f : α → Except ε β} {b : β}
    (h : x >>= f = .ok b) : ∃ a, x = .ok a ∧ f a = .ok b := by
  cases x with
  | error e => cases h
  | ok a => exact ⟨a, rfl, h⟩

/-- The results of a list of attempts in order, or the first failure. -/
def inOrder {ε α : Type} : List (Except ε α) → Except ε (List α)
  | [] => .ok []
  | .error e :: _ => .error e
  | .ok a :: rest => (inOrder rest).map (a :: ·)

theorem inOrder_eq_ok {ε α : Type} {rs : List (Except ε α)} {as : List α} :
    inOrder rs = .ok as ↔ rs = as.map .ok := by
  induction rs generalizing as with
  | nil => cases as <;> simp [inOrder]
  | cons r rs ih =>
    cases r with
    | error e => cases as <;> simp [inOrder]
    | ok a =>
      cases as with
      | nil => cases h : inOrder rs <;> simp [inOrder, Except.map, h]
      | cons b bs =>
        rw [List.map_cons, List.cons.injEq, Except.ok.injEq, ← ih]
        cases h : inOrder rs <;> simp [inOrder, Except.map, h]

end Slate.Parser
