/-
The name of a parameter.

A parameter belongs to a location of a project.  Its name spells the three identifiers
out between fixed words.  Nothing is checked here: an identifier may be any text, and
the service rejects what it does not know.
-/
import ParameterManager.Text.Split

namespace ParameterManager

structure ParameterName where
  project : String
  location : String
  parameter : String
  deriving DecidableEq, Repr, Inhabited

namespace ParameterName

/-- The location that belongs to no region. -/
def globalLocation : String := "global"

def global (project parameter : String) : ParameterName := ⟨project, globalLocation, parameter⟩

/-- The parts of the name, each identifier kept whole. -/
def segments (n : ParameterName) : List String :=
  ["projects", n.project, "locations", n.location, "parameters", n.parameter]

def parent (n : ParameterName) : String := s!"projects/{n.project}/locations/{n.location}"

/-- The name as text. -/
def display (n : ParameterName) : String := s!"{n.parent}/parameters/{n.parameter}"

/-- The text of a name is its parts joined by slashes. -/
theorem display_eq_join (n : ParameterName) : n.display = Text.join '/' n.segments := by
  apply String.toList_inj.mp
  simp [display, parent, segments, Text.join, List.intercalate, List.intersperse, toString]

end ParameterName

end ParameterManager
