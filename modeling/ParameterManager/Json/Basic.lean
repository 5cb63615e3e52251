/-
JSON values.

Whole numbers are kept apart from the others, since only they can be read as counts.
The members of an object are kept in ascending order of their names when a value is
read, and in the order given when a value is built to be written.
-/
import ParameterManager.Table

namespace ParameterManager

/-- A number: whole, or a finite double. -/
inductive Json.Number
  | int (i : Int)
  | float (f : Float)
  deriving Repr, Inhabited

/-- A JSON value. -/
inductive Json
  | null
  | bool (b : Bool)
  | number (n : Json.Number)
  | string (s : String)
  | array (items : List Json)
  | object (members : List (String × Json))
  deriving Repr, Inhabited

namespace Json

/-- A whole number as a value. -/
def ofNat (n : Nat) : Json := .number (.int n)

/-- An optional text as a value. -/
def ofText? : Option String → Json
  | some s => .string s
  | none => .null

/-- The member of an object with a name. -/
def member? (name : String) : Json → Option Json
  | .object members => lookupEntry name members
  | _ => none

/-- The text of a string value. -/
def text? : Json → Option String
  | .string s => some s
  | _ => none

/-- The object of some members, in ascending order of their names, the last one of a name
standing for all. -/
def sorted (members : List (String × Json)) : Json :=
  .object (members.foldl (fun ms m => insertEntry m.1 m.2 ms) [])

end Json

end ParameterManager
