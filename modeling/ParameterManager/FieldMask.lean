/-
The fields an update is allowed to touch.

A mask lists field paths in the notation of the service's schema, words joined by low
lines.  In a query the words are joined by capitals instead.
-/
import ParameterManager.Text.Split
import ParameterManager.Text.Uppercase

namespace ParameterManager

/-- A set of field paths, in a fixed order. -/
structure FieldMask where
  paths : List String
  deriving DecidableEq, Repr, Inhabited

namespace FieldMask

/-- The mask without paths. -/
def empty : FieldMask := ⟨[]⟩

def contains (m : FieldMask) (path : String) : Bool := m.paths.contains path

/-- The mask with a path at the end, unless it has it already. -/
def add (m : FieldMask) (path : String) : FieldMask :=
  if m.contains path then m else ⟨m.paths ++ [path]⟩

/-- Characters without low lines; the one after a low line becomes a capital, and so does
the first one if `capital` says so. -/
def camelChars : Bool → List Char → List Char
  | _, [] => []
  | capital, c :: cs =>
    if c = '_' then camelChars true cs
    else (if capital then Text.uppercase c else [c]) ++ camelChars false cs

/-- A segment of a path with its words joined by capitals. -/
def camelSegment (s : String) : String := String.ofList (camelChars false s.toList)

/-- A path with the words of each segment joined by capitals. -/
def camelPath (path : String) : String :=
  Text.join '.' ((Text.split '.' path).map camelSegment)

/-- The mask as it stands in a query. -/
def queryValue (m : FieldMask) : String := Text.join ',' (m.paths.map camelPath)

end FieldMask

end ParameterManager
