/-
The client of the service.

A client knows the address of an endpoint and an access token.  It asks for a parameter
or changes one with one message each, and reads the response: a success has to be a
parameter, and everything else is an error that keeps what the service said.
-/
import ParameterManager.ApiError
import ParameterManager.Credential.Token
import ParameterManager.Operation

namespace ParameterManager

structure Client where
  /-- The endpoint, as it is configured, without slashes at its end. -/
  serverUrl : String
  token : String
  deriving DecidableEq, Repr

namespace Client

/-! ### Making a client -/

/-- A text without slashes at its end. -/
def dropSlashes (s : String) : String := String.ofList (Text.dropEndWhile (· == '/') s.toList)

/-- The client of a configuration.  An endpoint that is no address is found out first. -/
def ofConf (c : ClientConf) (files : FileTree) (now : Nat) : Remote Client := do
  let serverUrl := dropSlashes c.url
  let _ ← Remote.ofResult ((Url.parse serverUrl).mapError ClientError.url)
  let token ← c.resolveToken files now
  pure { serverUrl, token }

/-! ### Messages -/

/-- The version of the interface. -/
def apiVersion : String := "v1"

/-- The address of a parameter. -/
def resource (serverUrl : String) (n : ParameterName) : ClientResult Url := do
  let u ← (Url.parse (serverUrl ++ "/" ++ apiVersion)).mapError ClientError.url
  match u.extend? n.segments with
  | some u => .ok u
  | none => .error (.configuration s!"{serverUrl} cannot be used as a base URL")

/-- The name of the mask in a query. -/
def maskName : String := "updateMask"

/-- The address of a parameter with a mask in its query. -/
def maskedResource (serverUrl : String) (r : UpdateRequest) : ClientResult Url :=
  (resource serverUrl r.name).map (·.appendPair maskName r.mask.queryValue)

/-- The media type of JSON. -/
def jsonType : String := "application/json"

/-- The message that asks for a parameter. -/
def getMessage (c : Client) (u : Url) : Message := (Message.ofUrl "GET" u).withToken c.token

/-- The message that changes a parameter. -/
def updateMessage (c : Client) (u : Url) (r : UpdateRequest) : Message :=
  ((Message.ofUrl "PATCH" u).withToken c.token).withBody jsonType
    (Utf8.encode r.parameter.toJson.compact)

/-! ### Responses -/

/-- What is said of a response without a body. -/
def statusText (s : Status) : String :=
  if s = .notFound then "Parameter Manager endpoint does not exist"
  else if s = .unauthorized then "Bad authorization token"
  else s.text

/-- The refusal in a response: the report of the service, or else its body as it is. -/
def refusal (path : String) (r : Response) : String :=
  match ApiError.wire.ofString r.text with
  | .ok e => s!"{path}: {if e.status.isEmpty then r.status.text else e.status}: {e.message}"
  | .error _ =>
    if r.text.isEmpty then s!"{path}: {statusText r.status}"
    else s!"{path}: {r.status.text} {r.text}"

/-- The parameter in the response to a message for a path. -/
def ofResponse (path : String) (r : Response) : ClientResult Parameter :=
  if r.status.isSuccess then
    match Parameter.wire.ofString r.text with
    | .ok p => .ok p
    | .error e => .error (.responseFailed s!"{path}: {e.message}")
  else .error (.requestFailed (refusal path r))

/-! ### Calls -/

/-- Asks for a parameter. -/
def get (c : Client) (n : ParameterName) : Remote Parameter := do
  let u ← Remote.ofResult (resource c.serverUrl n)
  let response ← (c.getMessage u).send
  Remote.ofResult (ofResponse u.pathText response)

/-- Changes a parameter. -/
def update (c : Client) (r : UpdateRequest) : Remote Parameter := do
  let u ← Remote.ofResult (maskedResource c.serverUrl r)
  let response ← (c.updateMessage u r).send
  Remote.ofResult (ofResponse u.pathText response)

def service (c : Client) : Service Exchange where
  get n := c.get n
  update r := c.update r
  release := pure ()

end Client

/-- A configuration connects by making a client. -/
def ClientConf.connector (c : ClientConf) (files : FileTree) (now : Nat) : Connector Exchange where
  connect := (Client.ofConf c files now).run >>= fun
    | .ok client => pure (.ok client.service)
    | .error e => pure (.error e)

end ParameterManager
