import Slate.Shell

/-!
# The entry point

Reads what a command needs from files and from standard input, leads its dialogue on the console, and
exits with 0, with 1 if the command failed, and with 2 if the command line is none. All decisions are
in `Slate.Shell`.
-/

namespace Slate

/-- The system's reason for an error. -/
def reasonOf : IO.Error → String
  | .noFileOrDirectory .. => "No such file or directory (os error 2)"
  | .permissionDenied .. => "Permission denied (os error 13)"
  | .inappropriateType .. => "Is a directory (os error 21)"
  | e => toString e

/-- The text that bytes stand for. -/
def decode (bytes : ByteArray) : Except String String :=
  match String.fromUTF8? bytes with
  | some text => .ok text
  | none => .error "stream did not contain valid UTF-8"

/-- The text of bytes that are read, or the reason why there is none. -/
def readText (bytes : IO ByteArray) : IO (Except String String) := do
  try return decode (← bytes)
  catch e => return .error (reasonOf e)

/-- The texts of files. -/
def readFiles : List String → IO (List (String × Except String String))
  | [] => return []
  | path :: paths => do
    let text ← readText (IO.FS.readBinFile path)
    return (path, text) :: (← readFiles paths)

/-- The text of a file among those that were read. -/
def textOf (files : List (String × Except String String)) : Files := fun path =>
  match files.lookup path with
  | some text => text
  | none => .error "the file was not read"

/-- The next line of a stream with its line feed, empty at the end of the stream. -/
def lineOf (stdin : IO.FS.Stream) : IO String := do
  try stdin.getLine catch _ => return ""

/-- Leads a dialogue on the console. -/
def Dialogue.onTerminal {ε α : Type} (stdin stdout : IO.FS.Stream) :
    Dialogue ε α → IO (Except ε α)
  | done a => return .ok a
  | failed e => return .error e
  | say line next => do
    stdout.putStr (Event.said line).text
    stdout.flush
    next.onTerminal stdin stdout
  | ask prompt unanswered next => do
    stdout.putStr (Event.asked prompt).text
    stdout.flush
    let line ← lineOf stdin
    if line = "" then return .error unanswered
    else (next (chomp line.toList)).onTerminal stdin stdout
  | lookUp name next => do
    let text ← IO.getEnv name
    (next text).onTerminal stdin stdout

/-- What an executable shows for a command line that is none. -/
def usage : String :=
  "Usage: slate run|check|format|analyze|ast [FILE] [OPTIONS]\n       slate --version\n"

/-- Does what a command says. -/
def Command.execute (c : Command) : IO UInt32 := do
  let stdin ← IO.getStdin
  let stdout ← IO.getStdout
  let stderr ← IO.getStderr
  let terminal ← stdin.isTty
  let files ← readFiles c.paths
  let program ← if c.readsStdin terminal then readText stdin.readBinToEnd else pure (.ok "")
  match program with
  | .error reason =>
    stderr.putStr ((CommandError.unreadable reason).message ++ "\n")
    return 1
  | .ok text =>
    let host : Host := ⟨textOf files, text, terminal⟩
    match ← (c.dialogue host).onTerminal stdin stdout with
    | .ok () => return 0
    | .error e =>
      stderr.putStr (e.message ++ "\n")
      return 1

end Slate

/-- Reads the command line and does what it says. -/
def main (args : List String) : IO UInt32 := do
  match Slate.Command.ofArgs? args with
  | some c => c.execute
  | none =>
    (← IO.getStderr).putStr Slate.usage
    return 2
