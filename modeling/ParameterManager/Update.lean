/-
Partial updates of a parameter.

The payload and the mask of a request are built from the same list of changes: the mask
names the fields that were changed, in the order of their first change, and the payload
has the last value of each.  A field that is named but unset is cleared by the service.
-/
import ParameterManager.FieldMask
import ParameterManager.Parameter
import ParameterManager.Resource

namespace ParameterManager

/-- A change of one field. -/
inductive ParameterUpdate
  /-- Sets the key, or removes it. -/
  | kmsKey (key? : Option String)
  /-- Replaces all labels. -/
  | labels (table : Table String)
  | format (format : ParameterFormat)
  deriving DecidableEq

namespace ParameterUpdate

/-- The path of the field that is changed. -/
def path : ParameterUpdate → String
  | kmsKey _ => "kms_key"
  | labels _ => "labels"
  | format _ => "format"

/-- Makes the change. -/
def apply (p : Parameter) : ParameterUpdate → Parameter
  | kmsKey key? => { p with kmsKey := key? }
  | labels table => { p with labels := some table }
  | format f => { p with format := some f }

end ParameterUpdate

/-- A request to change some fields of a parameter. -/
structure UpdateRequest where
  name : ParameterName
  /-- The name and the new values. -/
  parameter : Parameter
  mask : FieldMask
  deriving DecidableEq

namespace UpdateRequest

/-- The request that makes some changes one after the other. -/
def ofUpdates (name : ParameterName) (updates : List ParameterUpdate) : UpdateRequest where
  name := name
  parameter := updates.foldl ParameterUpdate.apply { name := name.display }
  mask := updates.foldl (fun m u => m.add u.path) .empty

def setKmsKey (name : ParameterName) (key : String) : UpdateRequest :=
  .ofUpdates name [.kmsKey (some key)]

/-- The request that removes the key. -/
def clearKmsKey (name : ParameterName) : UpdateRequest := .ofUpdates name [.kmsKey none]

end UpdateRequest

end ParameterManager
