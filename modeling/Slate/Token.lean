import Slate.Span

/-!
# Tokens

A `Lexeme` is a word of the language: its kind and its text. For a string the text is what the
string holds, without quotes and escapes. A `Token` is a lexeme with its place.

* `TokenKind.describe` names a kind in a message, `Lexeme.describe` names what was found;
* `coverFrom`, `coverAll`: the span of a list of tokens.
-/

namespace Slate

inductive TokenKind where
  | letKeyword
  | constKeyword
  | ifKeyword
  | elseKeyword
  | numberType
  | stringType
  | booleanType
  /-- A name, of a variable or of a function. -/
  | identifier
  | number
  | string
  /-- One of the words `true` and `false`. -/
  | boolean
  | colon
  | semicolon
  | comma
  | assign
  | plus
  | minus
  | times
  | divide
  | openParen
  | closeParen
  | openBrace
  | closeBrace
  deriving DecidableEq, Inhabited

namespace TokenKind

/-- All kinds, in the order of their declaration. -/
def all : List TokenKind :=
  [letKeyword, constKeyword, ifKeyword, elseKeyword, numberType, stringType, booleanType,
   identifier, number, string, boolean, colon, semicolon, comma, assign, plus, minus, times,
   divide, openParen, closeParen, openBrace, closeBrace]

theorem mem_all (k : TokenKind) : k ∈ all := by cases k <;> decide

/-- How a message names the kind: the quoted word where there is only one, else what it is. -/
def describe : TokenKind → String
  | letKeyword => "'let'"
  | constKeyword => "'const'"
  | ifKeyword => "'if'"
  | elseKeyword => "'else'"
  | numberType => "'number'"
  | stringType => "'string'"
  | booleanType => "'boolean'"
  | identifier => "identifier"
  | number => "number literal"
  | string => "string literal"
  | boolean => "boolean literal"
  | colon => "':'"
  | semicolon => "';'"
  | comma => "','"
  | assign => "'='"
  | plus => "'+'"
  | minus => "'-'"
  | times => "'*'"
  | divide => "'/'"
  | openParen => "'('"
  | closeParen => "')'"
  | openBrace => "'\x7b'"
  | closeBrace => "'\x7d'"

end TokenKind

/-- A word of the language, wherever it stands. -/
structure Lexeme where
  kind : TokenKind
  text : String
  deriving DecidableEq, Inhabited

/-- How a message names what it found: names, numbers and booleans by their text in single quotes,
strings by their text in double quotes, all else by its kind. -/
def Lexeme.describe (x : Lexeme) : String :=
  match x.kind with
  | .identifier | .number | .boolean => "'" ++ x.text ++ "'"
  | .string => "\"" ++ x.text ++ "\""
  | kind => kind.describe

/-- A lexeme and its place. -/
structure Token extends Lexeme where
  span : Span
  deriving DecidableEq, Inhabited

/-- From the start of `first` to the end of the last token of `first :: rest`. -/
def coverFrom (first : Token) (rest : List Token) : Span :=
  Span.cover first.span (rest.getLastD first).span

/-- The span of a list of tokens, if there are any. -/
def coverAll : List Token → Option Span
  | [] => none
  | t :: ts => some (coverFrom t ts)

@[simp] theorem coverFrom_nil (t : Token) : coverFrom t [] = t.span := rfl

end Slate
