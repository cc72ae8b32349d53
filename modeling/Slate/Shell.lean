import Slate.Command

/-!
# The executable

    slate run     [FILE] [--lang-version V]
    slate check   [FILE]
    slate format  [FILE] [--config F]
    slate analyze [FILE] [--config F] [--lang-version V]
    slate ast     [FILE] [--pretty]
    slate --version

With `-` for a file, or without one, the program is read from standard input; then nothing is left
there for the program to ask for. The files and the standard input are a `Host`. A command is a
`Dialogue` with it, so what the executable writes can be told without running it.

* `Command.ofArgs?` reads a command line;
* `Command.dialogue` is what a command says and asks;
* `Command.report` is all that the executable writes, and its exit code.
-/

namespace Slate

/-! ### Command lines -/

/-- Where a program is read from. -/
inductive Source where
  | file (path : String)
  | stdin
  /-- Standard input, unless that is a terminal. -/
  | unnamed
  deriving DecidableEq

inductive Command where
  | run (source : Source) (version : String)
  | check (source : Source)
  | format (source : Source) (style : Option String)
  | analyze (source : Source) (style : Option String) (version : String)
  | ast (source : Source) (pretty : Bool)
  | version
  deriving DecidableEq

/-- What a command line holds behind the name of its command. -/
structure Options where
  file : Option String := none
  version : Option String := none
  style : Option String := none
  pretty : Bool := false
  deriving DecidableEq

namespace Options

/-- What follows `front` in a word that starts with it. -/
def after? : List Char → List Char → Option (List Char)
  | [], s => some s
  | _ :: _, [] => none
  | f :: fs, c :: cs => if f = c then after? fs cs else none

/-- The value of an option that is written in one word with it. -/
def valueIn? (option word : String) : Option String :=
  (after? (option ++ "=").toList word.toList).map String.ofList

/-- Whether a word is an option. A single hyphen is a file. -/
def isOption (word : String) : Bool := word.toList.head? = some '-' && word ≠ "-"

/-- Notes a word that is no option. There is at most one. -/
def addFile (o : Options) (word : String) : Option Options :=
  if o.file = none ∧ ¬ isOption word then some { o with file := some word } else none

/-- Notes a version. -/
def addVersion (o : Options) (v : String) : Option Options :=
  if o.version = none ∧ ¬ isOption v then some { o with version := some v } else none

/-- Notes the file of a style. -/
def addStyle (o : Options) (path : String) : Option Options :=
  if o.style = none ∧ ¬ isOption path then some { o with style := some path } else none

/-- Notes a word that needs no other one. -/
def addWord (o : Options) (word : String) : Option Options :=
  if word = "-p" ∨ word = "--pretty" then
    if o.pretty then none else some { o with pretty := true }
  else
    match valueIn? "--lang-version" word, valueIn? "--config" word with
    | some v, _ => if o.version = none then some { o with version := some v } else none
    | none, some path => if o.style = none then some { o with style := some path } else none
    | none, none => o.addFile word

/-- Reads the words of a command line into options. -/
def ofWords? (o : Options) : List String → Option Options
  | [] => some o
  | "--lang-version" :: v :: rest => do ofWords? (← o.addVersion v) rest
  | "-c" :: path :: rest | "--config" :: path :: rest => do ofWords? (← o.addStyle path) rest
  | word :: rest => do ofWords? (← o.addWord word) rest

/-- Where the program is read from. -/
def source (o : Options) : Source :=
  match o.file with
  | none => .unnamed
  | some path => if path = "-" then .stdin else .file path

/-- The version to use. -/
def versionText (o : Options) : String := o.version.getD Version.newest.toString

end Options

namespace Command

/-- Reads a command line, the words behind the name of the executable. -/
def ofArgs? : List String → Option Command
  | ["--version"] | ["-V"] => some .version
  | [] => none
  | name :: words => do
    let o ← Options.ofWords? {} words
    match name with
    | "run" => if o.style = none ∧ ¬ o.pretty then some (.run o.source o.versionText) else none
    | "check" =>
      if o.style = none ∧ o.version = none ∧ ¬ o.pretty then some (.check o.source) else none
    | "format" =>
      if o.version = none ∧ ¬ o.pretty then some (.format o.source o.style) else none
    | "analyze" =>
      if o.pretty then none else some (.analyze o.source o.style o.versionText)
    | "ast" =>
      if o.style = none ∧ o.version = none then some (.ast o.source o.pretty) else none
    | _ => none

/-- Where the command reads a program from. -/
def source? : Command → Option Source
  | run s _ | check s | format s _ | analyze s _ _ | ast s _ => some s
  | version => none

/-- The files that the command may read. -/
def paths (c : Command) : List String :=
  (match c.source? with
    | some (.file path) => [path]
    | _ => []) ++
  match c with
  | format _ (some path) | analyze _ (some path) _ => [path]
  | _ => []

/-- Whether the command reads its program from standard input. `terminal` says whether that is a
terminal. -/
def readsStdin (c : Command) (terminal : Bool) : Bool :=
  match c.source? with
  | some .stdin => true
  | some .unnamed => !terminal
  | _ => false

end Command

/-! ### Running a command -/

/-- What the executable finds around it. -/
structure Host where
  files : Files
  /-- The text on standard input. -/
  stdin : String
  /-- Whether standard input is a terminal. -/
  terminal : Bool

/-- What the executable writes, and its exit code. -/
structure Report where
  exitCode : Nat
  stdout : String
  stderr : String
  deriving DecidableEq

namespace Command

/-- The text of the program. -/
def readSource (host : Host) : Source → Except CommandError String
  | .file path => (host.files path).mapError .unreadable
  | .stdin => .ok host.stdin
  | .unnamed => if host.terminal then .error .noInput else .ok host.stdin

/-- What a command says and asks. -/
def dialogue (host : Host) : Command → Dialogue CommandError Unit
  | run source v => do
    let text ← .ofExcept (readSource host source)
    let _ ← startRun (some v) text
  | check source => do
    let text ← .ofExcept (readSource host source)
    let _ ← .ofExcept (Slate.check text)
    .sayAll ["Syntax is valid"]
  | format source style => do
    let text ← .ofExcept (readSource host source)
    .sayAll (← .ofExcept (formatSource host.files style text))
  | analyze source style v => do
    let text ← .ofExcept (readSource host source)
    let found ← .ofExcept (analyzeSource host.files style (some v) text)
    .sayAll (found.map Diagnostic.toString)
    if found = [] then .done () else .failed (.diagnostics found.length)
  | ast source pretty => do
    let text ← .ofExcept (readSource host source)
    .sayAll [← .ofExcept (dumpSource pretty text)]
  | version => .sayAll ["slate 0.1.0"]

/-- What is left on standard input for the program to ask for. -/
def input (host : Host) (c : Command) : List Char :=
  if c.readsStdin host.terminal then [] else host.stdin.toList

/-- All that the executable does for a command in a process with some variables. -/
def report (host : Host) (vars : ProcessEnv) (c : Command) : Report :=
  match (c.dialogue host).onConsole vars (c.input host) with
  | (output, .ok ()) => ⟨0, output, ""⟩
  | (output, .error e) => ⟨1, output, e.message ++ "\n"⟩

end Command
end Slate
