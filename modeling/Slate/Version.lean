import Slate.Text.Blank
import Slate.Text.Split
import Slate.Text.Unsigned

/-!
# Language versions

A version has three components, `major.minor.patch`, and versions are ordered component by component.
Some features exist from a version on.

* `Version.ofString?` reads a text of one to three components, missing ones being 0;
* `Version.toString` writes all three;
* `Version.supports` says which features a version has.
-/

namespace Slate

structure Version where
  major : Nat
  minor : Nat
  patch : Nat
  deriving DecidableEq

/-- Why a text is no version. Both carry the text without the blanks around it. -/
inductive VersionError where
  | empty
  | invalidComponent (version component : String)
  | tooManyComponents (version : String)
  deriving DecidableEq

def VersionError.message : VersionError → String
  | empty => "Version string is empty"
  | invalidComponent v c => "Invalid version '" ++ v ++ "': '" ++ c ++ "' is not a number"
  | tooManyComponents v => "Invalid version '" ++ v ++ "': expected at most major.minor.patch"

/-- What not every version has. -/
inductive Feature where
  /-- The type of truth values, its literals and its values. -/
  | boolean
  | readInput
  | readEnv
  deriving DecidableEq

namespace Version

protected def toString (v : Version) : String :=
  toString v.major ++ "." ++ toString v.minor ++ "." ++ toString v.patch

instance : ToString Version := ⟨Version.toString⟩

/-- Whether `v` is `threshold` or newer. -/
def isAtLeast (v threshold : Version) : Bool :=
  threshold.major < v.major ||
    (threshold.major = v.major && (threshold.minor < v.minor ||
      (threshold.minor = v.minor && threshold.patch ≤ v.patch)))

theorem isAtLeast_trans {a b c : Version} (hab : a.isAtLeast b = true)
    (hbc : b.isAtLeast c = true) : a.isAtLeast c = true := by
  simp only [isAtLeast, Bool.or_eq_true, Bool.and_eq_true, decide_eq_true_eq] at *
  omega

/-- The newest version of the language. -/
def newest : Version := ⟨1, 1, 0⟩

/-- Reads a component. Components take at most 64 bits. -/
def component (version : String) (piece : List Char) : Except VersionError Nat :=
  match Text.unsigned? Text.word64 piece with
  | some n => .ok n
  | none => .error (.invalidComponent version (String.ofList piece))

/-- Reads a version. Blanks around it do not count. -/
def ofString? (text : String) : Except VersionError Version := do
  let trimmed := Text.trim text
  if trimmed = "" then .error .empty
  else
    match Text.split '.' trimmed.toList with
    | [a] => .ok ⟨← component trimmed a, 0, 0⟩
    | [a, b] => .ok ⟨← component trimmed a, ← component trimmed b, 0⟩
    | [a, b, c] => .ok ⟨← component trimmed a, ← component trimmed b, ← component trimmed c⟩
    | _ => .error (.tooManyComponents trimmed)

/-- Whether the version in the text `actual` is that in `threshold` or newer. -/
def isAtLeastText (threshold actual : String) : Except VersionError Bool := do
  let threshold ← ofString? threshold
  let actual ← ofString? actual
  .ok (actual.isAtLeast threshold)

end Version

namespace Feature

def all : List Feature := [boolean, readInput, readEnv]

/-- How messages name the feature. -/
def name : Feature → String
  | boolean => "bool"
  | readInput => "readInput"
  | readEnv => "readEnv"

def introducedIn : Feature → Version
  | boolean | readInput | readEnv => ⟨1, 1, 0⟩

end Feature

def Version.supports (v : Version) (f : Feature) : Bool := v.isAtLeast f.introducedIn

/-- A newer version has all that an older one has. -/
theorem Version.supports_of_isAtLeast {v v' : Version} (newer : v'.isAtLeast v = true) {f : Feature}
    (h : v.supports f = true) : v'.supports f = true :=
  isAtLeast_trans newer h

end Slate
