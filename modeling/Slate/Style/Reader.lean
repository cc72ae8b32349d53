import Slate.Json.Reader
import Slate.Style

/-!
# Reading a style

A style is a JSON object. Its text is read once from left to right, and the first problem counts: a
setting of the wrong type is found where its value starts, and a setting that comes twice where its
name ends, both before anything behind them is looked at.

* `Style.ofJson?` reads a style from its text;
* `Style.load` reads it from a file.
-/

namespace Slate.Style

open Json (ReadError Take skip takeValue)

/-- Why there is no style. -/
inductive LoadError where
  /-- The file cannot be read, for a reason that the system gives. -/
  | unreadable (path reason : String)
  /-- The text is no style. -/
  | invalid (e : ReadError)
  deriving DecidableEq

def LoadError.message : LoadError → String
  | unreadable path reason => "Cannot read config file '" ++ path ++ "': " ++ reason
  | invalid .ended => "Invalid config JSON: the text ends inside a value"
  | invalid .malformed => "Invalid config JSON: the text is no JSON"
  | invalid .wrongShape => "Invalid config JSON: the text is no style"

/-- The error at a value that has to be of another type. Arrays and objects are not looked into, and
a value that is no JSON in itself is malformed. -/
def otherType (s : List Char) : ReadError :=
  match skip s with
  | '[' :: _ | '{' :: _ => .wrongShape
  | s =>
    match takeValue 0 s with
    | .ok _ => .wrongShape
    | .error e => e

/-- Takes one of the two truth values. -/
def takeSwitch (s : List Char) : Take Bool s :=
  match takeValue 0 s with
  | .ok x =>
    match x.value with
    | .bool b => .ok (x.map fun _ => b)
    | _ => .error (otherType s)
  | .error _ => .error (otherType s)

/-- Takes a whole number of at most 64 bits. -/
def takeCount (s : List Char) : Take Nat s :=
  match takeValue 0 s with
  | .ok x =>
    match x.value with
    | .number (.whole (.ofNat n)) => .ok (x.map fun _ => n)
    | _ => .error (otherType s)
  | .error _ => .error (otherType s)

/-- Takes the value of a setting into a style. -/
def takeSetting (style : Style) (k : Setting) (s : List Char) : Take Style s :=
  match k with
  | .spaceBeforeColon =>
    (takeSwitch s).map (·.map fun b => { style with spaceBeforeColon := b })
  | .spaceAfterColon => (takeSwitch s).map (·.map fun b => { style with spaceAfterColon := b })
  | .spacesAroundAssign =>
    (takeCount s).map (·.map fun n => { style with spacesAroundAssign := n })
  | .emptyLinesBeforePrintln =>
    (takeCount s).map (·.map fun n => { style with emptyLinesBeforePrintln := n })
  | .blockIndent => (takeCount s).map (·.map fun n => { style with blockIndent := n })

/-- How deep arrays and objects may stand in each other in the parameter of a rule. -/
def ruleLevels : Nat := 126

/-- Takes the parameter of a rule into a style, in place of an earlier one. -/
def takeRule (style : Style) (name : String) (s : List Char) : Take Style s :=
  (takeValue ruleLevels s).map
    (·.map fun v => { style with rules := Json.put name v style.rules })

/-- What was read of a style: the style, and the settings that were given. -/
abbrev Draft := Style × List Setting

/-- Takes the value of a setting, which has not been given before. -/
def takeNewSetting (draft : Draft) (k : Setting) (s : List Char) : Take Draft s :=
  if k ∈ draft.2 then .error .wrongShape
  else do
    let colon ← Json.takeColon s
    let x ← takeSetting draft.1 k colon.rest
    .ok ((x.map fun style => (style, k :: draft.2)).widen (Nat.le_of_lt colon.shorter))

/-- Takes the parameter of a rule, with the colon in front of it. -/
def takeNewRule (draft : Draft) (name : String) (s : List Char) : Take Draft s := do
  let colon ← Json.takeColon s
  let x ← takeRule draft.1 name colon.rest
  .ok ((x.map fun style => (style, draft.2)).widen (Nat.le_of_lt colon.shorter))

/-- Takes a member of a style. -/
def takeMember (draft : Draft) (s : List Char) : Take Draft s := do
  let key ← Json.takeKey s
  let x ← match Setting.ofKey? key.value with
    | some k => takeNewSetting draft k key.rest
    | none => takeNewRule draft key.value key.rest
  .ok (x.widen (Nat.le_of_lt key.shorter))

/-- Takes the members of a style up to the closing brace. -/
def takeMembers (draft : Draft) (first : Bool) (s : List Char) : Take Style s :=
  match Json.separator '}' first s with
  | .error e => .error e
  | .ok (.close rest shorter) => .ok ⟨draft.1, rest, shorter⟩
  | .ok (.item rest le) => do
    let x ← takeMember draft rest
    let all ← takeMembers x.value false x.rest
    .ok (all.widen (Nat.le_of_lt (Nat.lt_of_lt_of_le x.shorter le)))
termination_by s.length
decreasing_by exact Nat.lt_of_lt_of_le x.shorter le

/-- Reads a style from its text. -/
def ofJson? (text : String) : Except ReadError Style :=
  match skip text.toList with
  | '{' :: s => do
    let style ← takeMembers ({}, []) true s
    if skip style.rest = [] then .ok style.value else .error .malformed
  | s => .error (otherType s)

/-- The style in a file, or the one without any member if no file is given. `read` gives the text of
a file, or the system's reason why there is none. -/
def load (read : String → Except String String) : Option String → Except LoadError Style
  | none => .ok {}
  | some path =>
    match read path with
    | .error reason => .error (.unreadable path reason)
    | .ok text =>
      match ofJson? text with
      | .ok style => .ok style
      | .error e => .error (.invalid e)

end Slate.Style
