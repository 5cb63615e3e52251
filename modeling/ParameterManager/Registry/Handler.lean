/-
A registry over HTTP.

A request is looked at from the outside in: where it leads, whether its query and its body
can be read, whether it carries the token, and only then what it asks for.  A request that
fails before the token is accepted neither sees the parameters nor leaves a trace.
-/
import ParameterManager.Client
import ParameterManager.Registry.Basic
import ParameterManager.Registry.Route

namespace ParameterManager.Registry

/-- The token that is accepted, and given for an assertion. -/
def accessToken : String := "test-access-token"

/-! ### Responses -/

/-- A response with a value. -/
def jsonResponse (status : Status) (j : Json) : Response where
  status := status
  contentType := some (Utf8.encode Client.jsonType)
  body := Utf8.encode j.compact

def textResponse (status : Status) (text : String) : Response where
  status := status
  contentType := some (Utf8.encode "text/plain; charset=utf-8")
  body := Utf8.encode text

/-- A response with a report of an error. -/
def errorResponse (e : ApiError) : Response := jsonResponse ⟨e.code⟩ e.toJson

/-- The response to what became of a request. -/
def resultResponse : Except ApiError Parameter → Response
  | .ok p => jsonResponse .ok p.toJson
  | .error e => errorResponse e

/-! ### The token -/

/-- A header value without blanks at its ends, which are no part of it. -/
def trimmed (bs : Bytes) : Bytes :=
  let isBlank (b : UInt8) : Bool := b.toNat == 0x20 || b.toNat == 0x9
  ((bs.dropWhile isBlank).reverse.dropWhile isBlank).reverse

/-- Whether a request carries the token. -/
def isAuthorized (q : Request) : Bool :=
  q.authorization.head?.map trimmed == some (Message.bearer accessToken)

/-! ### Forms -/

/-- The first name of some that stands in a form for the second time; `seen` are those that
stand there before. -/
def duplicate? (names : List String) : List String → List (String × String) → Option String
  | _, [] => none
  | seen, p :: rest =>
    if names.contains p.1 then
      if seen.contains p.1 then some p.1 else duplicate? names (p.1 :: seen) rest
    else duplicate? names seen rest

/-- Checks that some names stand in a form once at most. -/
def checkOnce (names : List String) (pairs : List (String × String)) : Except Json.Cause Unit :=
  match duplicate? names [] pairs with
  | some name => .error (.duplicateField name)
  | none => .ok ()

/-- The text of a field that has to stand in a form. -/
def requiredField (pairs : List (String × String)) (name : String) : Except Json.Cause String :=
  match pairs.lookup name with
  | some text => .ok text
  | none => .error (.missingField name)

/-! ### Bodies -/

/-- The greatest length of a body that is a value. -/
def maxJson : Nat := 2097152

/-- The greatest length of a body that is a form. -/
def maxForm : Nat := 16384

def mediaType? (q : Request) : Option MediaType :=
  q.contentType.head?.bind fun bs => MediaType.ofHeader? (trimmed bs)

/-- The value in the body of a request, or the response that says why there is none. -/
def jsonBody (q : Request) : Except Response Json :=
  if !(mediaType? q).any MediaType.isJson then .error (textResponse .badRequest "Content type error")
  else if maxJson < q.body.length then
    .error (textResponse .payloadTooLarge
      s!"JSON payload ({q.body.length} bytes) is larger than allowed (limit: {maxJson} bytes).")
  else
    match Json.Wire.any.ofBytes q.body with
    | .ok j => .ok j
    | .error e => .error (textResponse .badRequest s!"Json deserialize error: {e.message}")

/-- The encoding of the form in a request, if its media type is that of a form. -/
def formCharset? (q : Request) : Option Charset := do
  let text ← MediaType.headerText? (trimmed (← q.contentType.head?))
  let essence := Text.trim (String.ofList (text.toList.takeWhile (· ≠ ';')))
  let m ← MediaType.parse? text
  if MediaType.nameOf essence.toList = TokenGrant.formType then
    match m.parameter? "charset" with
    | some label => Charset.ofLabel? label
    | none => some .utf8
  else none

/-- The pairs of the form in a request, or the response that says why there are none. -/
def formBody (q : Request) : Except Response (List (String × String)) :=
  match formCharset? q with
  | none => .error (textResponse .unsupportedMediaType "Content type error.")
  | some charset =>
    if maxForm < q.body.length then
      .error (textResponse .payloadTooLarge
        s!"URL encoded payload is larger ({q.body.length} bytes) than allowed (limit: {maxForm} bytes).")
    else if charset = .utf8 then .ok (Form.decode q.body)
    else .ok (Form.decode (Utf8.encode (charset.decode q.body)))

/-! ### Requests -/

/-- The mask in the query of a request. -/
def maskOf (q : Request) : Except Json.Cause (Option String) := do
  let pairs := Form.decode (Utf8.encode ((Route.splitTarget q.target).2.getD ""))
  checkOnce [Client.maskName] pairs
  .ok (pairs.lookup Client.maskName)

/-- The update that a request asks for, or the response that says why there is none. -/
def updateOf (name : ParameterName) (q : Request) : Except Response ReceivedUpdate := do
  let mask ← (maskOf q).mapError fun cause =>
    textResponse .badRequest s!"Query deserialize error: {cause.message}"
  let body ← jsonBody q
  if isAuthorized q then .ok { name := name.display, mask, body }
  else .error (errorResponse .unauthenticated)

/-- The kind of grant that a form asks for, and the assertion. -/
def grantFields (pairs : List (String × String)) : Except Json.Cause (String × String) := do
  checkOnce [TokenGrant.grantTypeName, TokenGrant.assertionName] pairs
  let grantType ← requiredField pairs TokenGrant.grantTypeName
  let assertion ← requiredField pairs TokenGrant.assertionName
  .ok (grantType, assertion)

/-- What is given for an assertion: the token, if it has three parts. -/
def grantFor (grantType assertion : String) : Response :=
  if grantType ≠ TokenGrant.assertionGrant then
    jsonResponse .badRequest (.object [("error", .string "unsupported_grant_type")])
  else if (Text.split '.' assertion).length ≠ 3 then
    jsonResponse .badRequest (.object [("error", .string "invalid_grant")])
  else
    jsonResponse .ok (.object [("access_token", .string accessToken), ("expires_in", .ofNat 3600),
      ("token_type", .string "Bearer")])

/-- The response to a request for a token. -/
def grant (q : Request) : Response :=
  match formBody q with
  | .error response => response
  | .ok pairs =>
    match grantFields pairs with
    | .error cause => textResponse .badRequest s!"Parse error: {cause.message}."
    | .ok (grantType, assertion) => grantFor grantType assertion

/-- Answers a request. -/
def handle (r : Registry) (q : Request) : Response × Registry :=
  match Route.ofRequest? q with
  | none => (.empty .notFound, r)
  | some .token => (grant q, r)
  | some (.get name) =>
    if isAuthorized q then (resultResponse (r.find name.display), r)
    else (errorResponse .unauthenticated, r)
  | some (.update name) =>
    match updateOf name q with
    | .error response => (response, r)
    | .ok u =>
      let (result, r') := r.receive u
      (resultResponse result, r')

/-- The configuration of a client of a registry that is reached at an address. -/
def clientConf (url : String) : ClientConf where
  url := url
  accessToken := some accessToken
  timeoutSecs := some 10

/-- A registry answers requests wherever they are sent. -/
def party : Exchange.Party Registry := fun _ q r =>
  let (response, r') := r.handle q
  (some response, r')

end ParameterManager.Registry
