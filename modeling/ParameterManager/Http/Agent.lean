/-
Sending a message, and following where it is sent on to.

A message names a whole address.  A user in the address becomes a header of its own and
is not part of the address any more.  A response that sends the message elsewhere is
followed, nine times at most: the method and the body are kept or dropped as its status
says, and the credentials are dropped when the host or the port changes.  A place that is no
URI is not followed.  What cannot be sent, or is not answered, is a failure of transport.
-/
import ParameterManager.ClientError
import ParameterManager.Credential.Base64
import ParameterManager.Http.Exchange
import ParameterManager.Http.Uri

namespace ParameterManager

/-- A computation that may send messages and may fail. -/
abbrev Remote (α : Type) := ExceptT ClientError Exchange α

/-- A computation that sends nothing. -/
def Remote.ofResult {α : Type} (r : ClientResult α) : Remote α := ExceptT.mk (pure r)

/-- A message to be sent. -/
structure Message where
  method : String
  url : Url
  authorization : List Bytes := []
  contentType : List Bytes := []
  body : Bytes := []

namespace Message

/-! ### Credentials -/

/-- The header value of a user with a password. -/
def basic (user password : String) : Bytes :=
  Utf8.encode "Basic " ++
    Utf8.encodeChars (Base64.standard.encode (Utf8.encode (user ++ ":" ++ password)))

/-- The header value of an access token. -/
def bearer (token : String) : Bytes := Utf8.encode ("Bearer " ++ token)

/-- The text of a part of an address, if its escapes spell one. -/
def decoded? (s : String) : Option String := Utf8.text? (Percent.decode (Utf8.encode s))

/-- The user in an address, and the password. -/
def user? (u : Url) : Option (String × Option String) := do
  let name ← decoded? u.username
  let password := u.password.bind decoded?
  if name ≠ "" ∨ password.isSome then some (name, password) else none

/-- A message for an address, without a body. -/
def ofUrl (method : String) (u : Url) : Message :=
  match u.host, user? u with
  | some _, some (name, password) =>
    { method
      url := { u with username := "", password := none }
      authorization := [basic name (password.getD "")] }
  | _, _ => { method, url := u }

/-- A message with an access token. -/
def withToken (m : Message) (token : String) : Message :=
  { m with authorization := m.authorization ++ [bearer token] }

def withBody (m : Message) (contentType : String) (body : Bytes) : Message :=
  { m with contentType := [Utf8.encode contentType], body }

/-! ### What can be sent -/

/-- Whether a byte may stand in a header value. -/
def isHeaderByte (b : UInt8) : Bool := (0x20 ≤ b.toNat && b.toNat ≠ 0x7F) || b.toNat == 0x9

/-- The greatest length of an address. -/
def maxUrl : Nat := 65534

/-- Whether an address is short enough. -/
def isShort (u : Url) : Bool := u.text.utf8ByteSize ≤ maxUrl

/-- Whether an address is one that messages are sent to: a URI, and short enough. -/
def isAddress (u : Url) : Bool := Uri.accepts u && isShort u

/-- Whether a message can be sent at all. -/
def isSendable (m : Message) : Bool :=
  m.url.isWeb && isAddress m.url && m.authorization.all (·.all isHeaderByte)

/-- Where a message is sent.  The first address of a message is one of the web; a place that it
is sent on to may have any scheme, and all but one are asked like `http`. -/
def origin? (m : Message) : Option Origin := do
  let host ← m.url.host
  let secure := m.url.scheme == "https"
  some ⟨secure, host, m.url.port.getD (if secure then 443 else 80)⟩

def request (m : Message) : Request where
  method := m.method
  target := m.url.target
  authorization := m.authorization
  contentType := m.contentType
  body := m.body

/-! ### Redirects -/

/-- The address that a response sends a message on to. -/
def nextUrl? (m : Message) (r : Response) : Option Url := do
  let place ← Utf8.text? (← r.location)
  let u ← (m.url.join place).toOption
  if isAddress u then some u else none

/-- A message with another address; credentials are not given to another place. -/
def movedTo (m : Message) (u : Url) : Message :=
  if u.host = m.url.host ∧ u.effectivePort = m.url.effectivePort then { m with url := u }
  else { m with url := u, authorization := [] }

/-- A message without its body, which asks and changes nothing. -/
def withoutBody (m : Message) : Message :=
  { m with
    method := if m.method = "GET" ∨ m.method = "HEAD" then m.method else "GET"
    contentType := []
    body := [] }

/-- The message that is sent after a response, if one is. -/
def redirected? (m : Message) (r : Response) : Option Message :=
  if r.status.isRedirect then
    (m.nextUrl? r).map ((if r.status.keepsMethod then m else m.withoutBody).movedTo ·)
  else none

/-- How many times a message may be sent on. -/
def maxRedirects : Nat := 9

/-- Sends a message once; `again` goes on with the message that it is sent on as. -/
def round (again : Message → Remote Response) (m : Message) : Remote Response :=
  match m.origin? with
  | none => Remote.ofResult (.error .transport)
  | some origin => .ask origin m.request fun
    | none => .done (.error .transport)
    | some response =>
      match m.redirected? response with
      | none => .done (.ok response)
      | some next => again next

/-- The response in the end, if a message may be sent on a number of times. -/
def follow : Nat → Message → Remote Response
  | 0 => round fun _ => Remote.ofResult (.error .transport)
  | n + 1 => round (follow n)

def send (m : Message) : Remote Response :=
  if m.isSendable then follow maxRedirects m else Remote.ofResult (.error .transport)

end Message

end ParameterManager
