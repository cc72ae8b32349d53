/-!
# Types

The three types of values and variables. Each has two names: the keyword of a declaration, and the
name by which messages and listings speak of it. They differ for truth values.
-/

namespace Slate

inductive Ty where
  | number
  | string
  | boolean
  deriving DecidableEq

namespace Ty

def all : List Ty := [number, string, boolean]

/-- How a declaration writes the type. -/
def keyword : Ty → String
  | number => "number"
  | string => "string"
  | boolean => "boolean"

/-- How messages and listings write it. -/
def name : Ty → String
  | number => "number"
  | string => "string"
  | boolean => "bool"

/-- The type of a listing's name for it. -/
def ofName? (s : String) : Option Ty := all.find? fun t => t.name = s

theorem ofName?_name (t : Ty) : ofName? t.name = some t := by cases t <;> decide

end Ty
end Slate
