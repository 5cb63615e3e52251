/-
Errors, as the service reports them.

The report is the only member of a body.  Its message has to be there; the code and the
status may be left out.
-/
import ParameterManager.Json.Record

namespace ParameterManager

open Json (Wire Record Field)

/-- A report of an error. -/
structure ApiError where
  code : Nat := 0
  message : String := ""
  /-- The name of the kind of error. -/
  status : String := ""
  deriving DecidableEq, Repr, Inhabited

namespace ApiError

/-- A report as a record. -/
def record : Record ApiError where
  name := "GoogleApiErrorContent"
  initial := {}
  fields := [
    .of "code" .defaulted (.count 16) fun v e => { e with code := v },
    .of "message" .required .string fun v e => { e with message := v },
    .of "status" .defaulted .string fun v e => { e with status := v }]

/-- A body with a report as a record. -/
def bodyRecord : Record ApiError where
  name := "GoogleApiErrorBody"
  initial := {}
  fields := [.of "error" .required record.wire fun v _ => v]

/-- The wire of a body with a report. -/
def wire : Wire ApiError := bodyRecord.wire

/-- A body with a report as a value. -/
def toJson (e : ApiError) : Json :=
  .object [("error", .object
    [("code", .ofNat e.code), ("message", .string e.message), ("status", .string e.status)])]

end ApiError

end ParameterManager
