/-
An in-memory store of parameters.

A registry is seeded with parameters and then only changed by updates.  It keeps every
update that it has received, in order, also those that it has rejected.  What becomes of
an update depends on the update and on the parameters alone, so the parameters are what
the received updates make of the seed.
-/
import ParameterManager.ApiError
import ParameterManager.Parameter
import ParameterManager.Text.Split

namespace ParameterManager

/-- An update, as it arrives. -/
structure ReceivedUpdate where
  /-- The name that the address spells. -/
  name : String
  mask : Option String
  body : Json

/-- The paths that the mask of an update names. -/
def ReceivedUpdate.paths (u : ReceivedUpdate) : List String :=
  (Text.split ',' (u.mask.getD "")).filter (· ≠ "")

/-! ### Rejections -/

namespace ApiError

/-- The error of a request that cannot be carried out as it is. -/
def invalidArgument (message : String) : ApiError := ⟨400, message, "INVALID_ARGUMENT"⟩

/-- The error of a name that is not stored. -/
def unknownName (name : String) : ApiError := ⟨404, s!"Parameter [{name}] not found.", "NOT_FOUND"⟩

/-- The error of a request without the right token. -/
def unauthenticated : ApiError :=
  ⟨401, "Request had invalid authentication credentials.", "UNAUTHENTICATED"⟩

end ApiError

/-! ### Fields -/

/-- A field that a mask may name. -/
inductive MaskField
  | kmsKey
  | labels
  | format
  deriving DecidableEq, Repr

namespace MaskField

/-- The path of a field in a query. -/
def path : MaskField → String
  | kmsKey => "kmsKey"
  | labels => "labels"
  | format => "format"

def ofPath? (path : String) : Option MaskField :=
  [kmsKey, labels, format].find? (·.path = path)

/-- A parameter with one field taken from another one, set or not. -/
def copy (delta p : Parameter) : MaskField → Parameter
  | kmsKey => { p with kmsKey := delta.kmsKey }
  | labels => { p with labels := delta.labels }
  | format => { p with format := delta.format }

end MaskField

/-! ### The store -/

/-- A store of parameters. -/
structure Registry where
  /-- The parameters by name. -/
  parameters : Table Parameter := .empty
  /-- The updates received, in order. -/
  updates : List ReceivedUpdate := []
  deriving Inhabited

namespace Registry

/-- The registry that holds some parameters; the last one of a name stands for all. -/
def ofList (ps : List Parameter) : Registry where
  parameters := .ofList (ps.map fun p => (p.name, p))

/-- A parameter with the fields of some paths taken from another one; the first path that
names no field is a fault. -/
def patch (delta : Parameter) : Parameter → List String → Except ApiError Parameter
  | p, [] => .ok p
  | p, path :: rest =>
    match MaskField.ofPath? path with
    | some f => patch delta (f.copy delta p) rest
    | none => .error (.invalidArgument s!"Invalid update_mask path: {path}")

/-- What an update makes of the parameter it names. -/
def outcome (ps : Table Parameter) (u : ReceivedUpdate) : Except ApiError Parameter :=
  match Parameter.wire.ofValue u.body with
  | .error e => .error (.invalidArgument e.message)
  | .ok delta =>
    if u.paths.isEmpty then .error (.invalidArgument "update_mask must not be empty")
    else
      match ps.get? u.name with
      | none => .error (.unknownName u.name)
      | some stored => patch delta stored u.paths

/-- The parameters after an update. -/
def apply (ps : Table Parameter) (u : ReceivedUpdate) : Table Parameter :=
  match outcome ps u with
  | .ok p => ps.insert u.name p
  | .error _ => ps

def receive (r : Registry) (u : ReceivedUpdate) : Except ApiError Parameter × Registry :=
  (outcome r.parameters u, { parameters := apply r.parameters u, updates := r.updates ++ [u] })

def find (r : Registry) (name : String) : Except ApiError Parameter :=
  match r.parameters.get? name with
  | some p => .ok p
  | none => .error (.unknownName name)

end Registry

end ParameterManager
