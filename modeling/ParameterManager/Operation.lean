/-
Operations on one parameter of the global location.

An operation connects, makes exactly one call, and releases the service whatever came of
the call.  Nothing is tried again.  A change is reported in one line on a sink; a line
that the sink does not take whole is a failure, though the change has been made.

Services are described by what they can do, in any monad: the client talks over HTTP, and
a rehearsal follows a plan.
-/
import ParameterManager.ClientError
import ParameterManager.Update

namespace ParameterManager

/-! ### Services -/

/-- What a service can do. -/
structure Service (m : Type → Type) where
  get : ParameterName → m (ClientResult Parameter)
  update : UpdateRequest → m (ClientResult Parameter)
  /-- Gives the service up. -/
  release : m Unit

/-- A way to a service. -/
structure Connector (m : Type → Type) where
  connect : m (ClientResult (Service m))

/-! ### Sinks -/

/-- What a sink does when it is full. -/
inductive Refusal
  /-- It reports a failure of its own wording. -/
  | failure (text : String := "sink is full")
  /-- It takes nothing, without a failure. -/
  | nothing
  deriving DecidableEq, Repr

/-- The error of a line that was not taken whole. -/
def Refusal.error : Refusal → ClientError
  | failure text => .other text
  | nothing => .other "failed to write whole buffer"

/-- A place for lines. -/
structure Sink where
  /-- What has been taken. -/
  written : Bytes := []
  /-- How many bytes more are taken; no bound if it is none. -/
  room? : Option Nat := none
  refusal : Refusal := .failure
  deriving DecidableEq, Repr

namespace Sink

/-- Writes bytes: as many as there is room for are taken. -/
def write (s : Sink) (bs : Bytes) : ClientResult Unit × Sink :=
  match s.room? with
  | none => (.ok (), { s with written := s.written ++ bs })
  | some room =>
    let taken := { s with written := s.written ++ bs.take room, room? := some (room - bs.length) }
    (if bs.length ≤ room then .ok () else .error s.refusal.error, taken)

end Sink

namespace Operation

variable {m : Type → Type} [Monad m]

/-- Makes one call on a service of its own; `wrap` says of an error which call it is of. -/
def call (c : Connector m) (wrap : ClientError → ClientError)
    (ask : Service m → m (ClientResult Parameter)) : m (ClientResult Parameter) := do
  match ← c.connect with
  | .error e => pure (.error (.clientInitialization e))
  | .ok service =>
    let answer ← ask service
    service.release
    pure (answer.mapError wrap)

/-- Reports the outcome of a call on a sink. -/
def report (s : Sink) (line : Parameter → ClientResult String) (answer : ClientResult Parameter) :
    ClientResult Parameter × Sink :=
  match answer with
  | .error e => (.error e, s)
  | .ok p =>
    match line p with
    | .error e => (.error e, s)
    | .ok text =>
      match s.write (Utf8.encode text) with
      | (.ok (), s) => (.ok p, s)
      | (.error e, s) => (.error e, s)

/-- The line about a key that was set. -/
def updatedLine (p : Parameter) : ClientResult String :=
  match p.kmsKey with
  | some key => .ok s!"Updated parameter {p.name} with kms_key {key}\n"
  | none => .error (.missingKmsKey p.name)

/-- The line about a key that was removed. -/
def removedLine (p : Parameter) : ClientResult String :=
  .ok s!"Removed kms_key for parameter {p.name}\n"

/-- Reads a parameter. -/
def get (c : Connector m) (project parameter : String) : m (ClientResult Parameter) :=
  call c .getParameter (·.get (.global project parameter))

/-- Sets the key of a parameter. -/
def updateKmsKey (c : Connector m) (s : Sink) (project parameter key : String) :
    m (ClientResult Parameter × Sink) := do
  let answer ← call c .updateParameter (·.update (.setKmsKey (.global project parameter) key))
  pure (report s updatedLine answer)

def removeKmsKey (c : Connector m) (s : Sink) (project parameter : String) :
    m (ClientResult Parameter × Sink) := do
  let answer ← call c .updateParameter (·.update (.clearKmsKey (.global project parameter)))
  pure (report s removedLine answer)

end Operation

end ParameterManager
