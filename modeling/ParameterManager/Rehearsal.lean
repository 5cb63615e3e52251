/-
Services that follow a plan.

A plan says what happens to a connection and to a call on it.  What is done is kept in a
log, in order, so that a rehearsal shows every step an operation takes.
-/
import ParameterManager.Operation

namespace ParameterManager

/-- One step towards a service, on it, or away from it. -/
inductive ServiceEvent
  | connected
  | got (name : ParameterName)
  | updated (request : UpdateRequest)
  | released
  deriving DecidableEq

/-- What comes of a call. -/
inductive PlannedAnswer
  | fails (error : ClientError)
  /-- The answer is a value, which need not be a parameter. -/
  | value (json : Json)
  /-- The answer shows what was asked for. -/
  | echo

/-- What happens to a connection and to a call. -/
structure ServicePlan where
  connectError? : Option ClientError := none
  answer : PlannedAnswer := .echo

namespace ServicePlan

/-- A rehearsal keeps a log. -/
abbrev Rehearsal := StateM (List ServiceEvent)

/-- Puts an event at the end of the log. -/
def note (e : ServiceEvent) : Rehearsal Unit := modify (· ++ [e])

/-- What comes of a call that would show a parameter. -/
def outcome (plan : ServicePlan) (shown : Parameter) : ClientResult Parameter :=
  match plan.answer with
  | .fails e => .error e
  | .value j => (Parameter.wire.ofValue j).mapError ClientError.ofJson
  | .echo => .ok shown

def service (plan : ServicePlan) : Service Rehearsal where
  get name := do
    note (.got name)
    pure (plan.outcome { name := name.display })
  update request := do
    note (.updated request)
    pure (plan.outcome { name := request.name.display, kmsKey := request.parameter.kmsKey })
  release := note .released

/-- The way to the service of a plan. -/
def connector (plan : ServicePlan) : Connector Rehearsal where
  connect := do
    note .connected
    match plan.connectError? with
    | some e => pure (.error e)
    | none => pure (.ok plan.service)

end ServicePlan

end ParameterManager
