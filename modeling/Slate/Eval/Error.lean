import Slate.Tree
import Slate.Version

/-!
# Errors of a run

Why a run ends early, and where. The place is that of the smallest node that is to blame.
-/

namespace Slate

/-- Why a run ends early. -/
inductive EvalFault where
  | variableNotFound (name : String)
  /-- A variable that was declared and has no value yet. -/
  | uninitializedVariable (name : String)
  | immutableAssignment (name : String)
  | typeMismatch (name : String) (expected found : Ty)
  /-- A type that the version does not have. -/
  | unsupportedType (feature : Feature) (version : Version)
  /-- A function that the version does not have. -/
  | unsupportedFeature (feature : Feature) (version : Version)
  | constantWithoutInitializer (name : String)
  | invalidOperands (op : BinaryOp) (left right : Ty)
  | divisionByZero
  /-- A result that is no decimal. -/
  | numericOverflow
  | unknownFunction (name : String)
  | argumentCount (name : String) (expected found : Nat)
  /-- A value is needed and the expression has none. -/
  | noValue
  | expectedString (found : Ty)
  /-- There is no answer to a question. -/
  | inputUnavailable
  | undefinedEnvVar (name : String)
  /-- The text stored for a variable is no value of its type. -/
  | invalidStoredValue (name : String) (type : Ty) (value : String)
  deriving DecidableEq

namespace EvalFault

/-- The words of a message up to the place. -/
def words : EvalFault → String
  | variableNotFound name => "Variable not found: '" ++ name ++ "'"
  | uninitializedVariable name => "Variable '" ++ name ++ "' is used before it is initialized"
  | immutableAssignment name => "Variable is not mutable: '" ++ name ++ "'"
  | typeMismatch name expected found =>
    "Type mismatch for '" ++ name ++ "': expected " ++ expected.name ++ ", got " ++ found.name
  | unsupportedType feature version =>
    "Unsupported type '" ++ feature.name ++ "' in version " ++ version.toString
  | unsupportedFeature feature version =>
    "'" ++ feature.name ++ "' is not available in version " ++ version.toString
  | constantWithoutInitializer name => "Constant '" ++ name ++ "' must be initialized"
  | invalidOperands op left right =>
    "Cannot apply '" ++ op.symbol ++ "' to " ++ left.name ++ " and " ++ right.name
  | divisionByZero => "Division by zero"
  | numericOverflow => "Numeric overflow"
  | unknownFunction name => "Unknown function '" ++ name ++ "'"
  | argumentCount name expected found =>
    "'" ++ name ++ "' takes " ++ toString expected ++ " argument(s) but " ++ toString found ++
      " were given"
  | noValue => "Expression does not produce a value"
  | expectedString found => "Expected string argument but was " ++ found.name
  | inputUnavailable => "No input available"
  | undefinedEnvVar name => "Undefined environment variable '" ++ name ++ "'"
  | invalidStoredValue name type value =>
    "Stored value '" ++ value ++ "' of '" ++ name ++ "' is not a valid " ++ type.name

end EvalFault

/-- Why a run ends early, and where. -/
structure EvalError where
  fault : EvalFault
  span : Span
  deriving DecidableEq

def EvalError.message (e : EvalError) : String := e.fault.words ++ " at " ++ e.span.toString

end Slate
