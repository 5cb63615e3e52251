/-
Where requests to a registry lead.

A path is matched segment by segment.  Escapes are decoded first, all but those of the
percent sign, the slash and the plus sign, and then the escapes that are left in each
identifier.  So a slash in an identifier has to be written as an escape, and an identifier
is never empty.
-/
import ParameterManager.Http.Message
import ParameterManager.Resource
import ParameterManager.Url.Percent

namespace ParameterManager

/-- What a request to a registry is about. -/
inductive Route
  | get (name : ParameterName)
  | update (name : ParameterName)
  | token
  deriving DecidableEq, Repr

namespace Route

/-- The path and the query of a target, which has no address before the path; what follows a
number sign is left out. -/
def splitTarget (target : String) : String × Option String :=
  let cs := target.toList.takeWhile (· ≠ '#')
  let query := match cs.dropWhile (· ≠ '?') with
    | [] => none
    | _ :: rest => some (String.ofList rest)
  (String.ofList (cs.takeWhile (· ≠ '?')), query)

/-- Whether the escape of a byte stays when a path is split. -/
def isKept (b : Nat) : Bool := Percent.isOneOf ['%', '/', '+'] b

/-- The segments of a path, escapes that were kept included. -/
def segments (path : String) : List String :=
  Text.split '/' (Utf8.lossy (Percent.decodeExcept isKept (Utf8.encode path)))

/-- The identifier that a segment stands for. -/
def identifier (segment : String) : String := Utf8.lossy (Percent.decode (Utf8.encode segment))

/-- The name that a path spells. -/
def nameOf? (path : String) : Option ParameterName :=
  match segments path with
  | ["", "v1", "projects", project, "locations", location, "parameters", parameter] =>
    if project ≠ "" ∧ location ≠ "" ∧ parameter ≠ "" then
      some ⟨identifier project, identifier location, identifier parameter⟩
    else none
  | _ => none

def ofRequest? (q : Request) : Option Route :=
  let path := (splitTarget q.target).1
  if q.method = "GET" then (nameOf? path).map get
  else if q.method = "PATCH" then (nameOf? path).map update
  else if q.method = "POST" ∧ segments path = ["", "token"] then some token
  else none

end Route

end ParameterManager
