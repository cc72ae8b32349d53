import Slate.Json

/-!
# Styles

A style says how programs are laid out and which rules they are checked against. It is written as a
JSON object. Five of its members are settings of the layout; every other member is a rule with its
parameter, which only the analysis looks at.

* `Style` holds the settings, with a value for each that is not given, and the rules;
* `Style.Setting` names the five settings.
-/

namespace Slate

/-- How programs are laid out, and the rules for them. -/
structure Style where
  /-- A space in front of the colon of a declaration. -/
  spaceBeforeColon : Bool := false
  /-- A space behind it. -/
  spaceAfterColon : Bool := true
  /-- The spaces on each side of an equals sign. -/
  spacesAroundAssign : Nat := 0
  /-- The empty lines in front of a statement that prints. -/
  emptyLinesBeforePrintln : Nat := 0
  /-- The spaces by which a block is deeper than what is around it. -/
  blockIndent : Nat := 4
  /-- The parameters of rules by name. No name stands twice. -/
  rules : List (String × Json) := []

namespace Style

instance : Inhabited Style := ⟨{}⟩

/-- A member that is no rule. -/
inductive Setting where
  | spaceBeforeColon
  | spaceAfterColon
  | spacesAroundAssign
  | emptyLinesBeforePrintln
  | blockIndent
  deriving DecidableEq

namespace Setting

def all : List Setting :=
  [spaceBeforeColon, spaceAfterColon, spacesAroundAssign, emptyLinesBeforePrintln, blockIndent]

/-- The name of the member. -/
def key : Setting → String
  | spaceBeforeColon => "spaceBeforeColon"
  | spaceAfterColon => "spaceAfterColon"
  | spacesAroundAssign => "spacesInAssignSymbol"
  | emptyLinesBeforePrintln => "lineBreaksBeforePrintln"
  | blockIndent => "ifBlockIndent"

def ofKey? (key : String) : Option Setting := all.find? fun k => k.key = key

end Setting

/-- The parameter of a rule, if the style has it. -/
def rule? (style : Style) (name : String) : Option Json := Json.field? name style.rules

/-- Whether the style is the one without any member, as far as can be told from it. -/
def isDefault (style : Style) : Bool :=
  !style.spaceBeforeColon && style.spaceAfterColon && style.spacesAroundAssign = 0 &&
    style.emptyLinesBeforePrintln = 0 && style.blockIndent = 4 && style.rules.isEmpty

end Style
end Slate
