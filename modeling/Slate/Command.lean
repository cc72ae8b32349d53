import Slate.Analysis
import Slate.Eval
import Slate.Format
import Slate.Parser.Stmt
import Slate.Style.Reader
import Slate.Token.Lexer
import Slate.Tree.Dump

/-!
# Commands

What can be done with the text of a program: run it, check it, format it, analyze it, dump its tree.
Each command takes its steps in a fixed order, and the first one that fails ends it.

* `parseSource` reads a program;
* `startRun`, `check`, `formatSource`, `analyzeSource`, `dumpSource` are the commands;
* `CommandError` says why a command failed, with the wording of `CommandError.message`.
-/

namespace Slate

/-- Why a command failed. -/
inductive CommandError where
  | lex (e : LexError)
  | parse (f : Parser.Failure)
  | eval (e : EvalError)
  | version (e : VersionError)
  | style (e : Style.LoadError)
  /-- A text could not be read, for a reason that the system gives. -/
  | unreadable (reason : String)
  /-- There is no file and nothing but a terminal to read from. -/
  | noInput
  /-- The analysis found that many places. -/
  | diagnostics (count : Nat)

namespace CommandError

def message : CommandError → String
  | lex e => "Syntax error: " ++ e.message
  | parse f => "Syntax error: " ++ f.message
  | eval e => "Runtime error: " ++ e.message
  | version e => e.message
  | style e => e.message
  | unreadable reason => "IO error: " ++ reason
  | noInput => "No input provided. Pass a file path or pipe a program to stdin."
  | diagnostics count => toString count ++ " rule violation(s) found"

/-- Whether the error reports one that a step of the command gave. -/
def hasCause : CommandError → Bool
  | noInput | diagnostics _ => false
  | _ => true

end CommandError

/-- The text of a file, or the system's reason why there is none. -/
abbrev Files := String → Except String String

/-- Reads a program. -/
def parseSource (source : String) : Except CommandError Program := do
  let tokens ← (tokenize source).mapError .lex
  (Parser.program tokens).mapError .parse

/-- Reads a version, the newest one if none is given. -/
def parseVersion : Option String → Except CommandError Version
  | none => .ok .newest
  | some text => (Version.ofString? text).mapError .version

/-- Reads a style. -/
def loadStyle (read : Files) (path : Option String) : Except CommandError Style :=
  (Style.load read path).mapError .style

/-- Runs a program from the empty environment. -/
def startRun (version : Option String) (source : String) : Dialogue CommandError Env := do
  let version ← .ofExcept (parseVersion version)
  let program ← .ofExcept (parseSource source)
  (program.run version ∅).mapError .eval

/-- Reads a program, and counts its statements. -/
def check (source : String) : Except CommandError Nat := do
  let program ← parseSource source
  return program.statements.length

/-- The lines of a program in a style. -/
def formatSource (read : Files) (path : Option String) (source : String) :
    Except CommandError (List String) := do
  let style ← loadStyle read path
  let program ← parseSource source
  return program.lines style

/-- Checks a program against the rules of a style. -/
def analyzeSource (read : Files) (path version : Option String) (source : String) :
    Except CommandError (List Diagnostic) := do
  let version ← parseVersion version
  let style ← loadStyle read path
  let program ← parseSource source
  return analyze style version program

/-- The tree of a program as JSON. -/
def dumpSource (pretty : Bool) (source : String) : Except CommandError String := do
  let program ← parseSource source
  return if pretty then program.toJson.pretty else program.toJson.compact

end Slate
