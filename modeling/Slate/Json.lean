/-!
# JSON

Values of the data format JSON. The members of an object stand in order. A number is a whole number,
or a *real* one, which is read as a double: that holds of all numbers with a point or an exponent, of
whole numbers outside 64 bits, and of `-0`.

* `Json.field?` looks a member up.
-/

namespace Slate

namespace Json

inductive Number where
  | whole (n : Int)
  /-- The number `coefficient * 10 ^ exponent`, or its negative. -/
  | real (negative : Bool) (coefficient : Nat) (exponent : Int)
  deriving DecidableEq

end Json

inductive Json where
  | null
  | bool (b : Bool)
  | number (n : Json.Number)
  | string (s : String)
  | array (items : List Json)
  | object (fields : List (String × Json))

namespace Json

instance : Inhabited Json := ⟨null⟩

/-- A number without a sign. -/
def ofNat (n : Nat) : Json := number (.whole n)

/-- The member of a name in a list of members, the first one if there are several. -/
def field? (name : String) : List (String × Json) → Option Json
  | [] => none
  | (k, v) :: rest => if k = name then some v else field? name rest

/-- The members of an object without that of a name. -/
def without (name : String) (fields : List (String × Json)) : List (String × Json) :=
  fields.filter fun f => f.1 ≠ name

/-- The members with one more at the end, which replaces an earlier one of its name. -/
def put (name : String) (v : Json) (fields : List (String × Json)) : List (String × Json) :=
  without name fields ++ [(name, v)]

end Json
end Slate
