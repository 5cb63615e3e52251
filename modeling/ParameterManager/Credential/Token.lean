/-
Access tokens.

A configuration either holds a token or names the file of a service account.  The
account signs an assertion, and the endpoint of the account gives a token for it.  A
token in the configuration goes first, and then the file is not read.
-/
import ParameterManager.Credential.Assertion
import ParameterManager.Http.Agent

namespace ParameterManager

open Json (Wire Record Field)

/-- What an endpoint gives for an assertion. -/
structure TokenGrant where
  accessToken : String := ""
  expiresIn : Nat := 0
  tokenType : String := ""
  deriving DecidableEq, Repr, Inhabited

namespace TokenGrant

def record : Record TokenGrant where
  name := "GoogleAuthResponse"
  initial := {}
  fields := [
    .of "access_token" .required .string fun v g => { g with accessToken := v },
    .of "expires_in" .defaulted (.count 32) fun v g => { g with expiresIn := v },
    .of "token_type" .defaulted .string fun v g => { g with tokenType := v }]

def wire : Wire TokenGrant := record.wire

/-- The kind of grant that an assertion is traded for. -/
def assertionGrant : String := "urn:ietf:params:oauth:grant-type:jwt-bearer"

/-- The name of the field that holds the kind of grant. -/
def grantTypeName : String := "grant_type"

/-- The name of the field that holds the assertion. -/
def assertionName : String := "assertion"

/-- The media type of a form. -/
def formType : String := "application/x-www-form-urlencoded"

/-- The form that trades an assertion. -/
def form (assertion : String) : String :=
  Form.encode [(grantTypeName, assertionGrant), (assertionName, assertion)]

/-- The message that trades an assertion at the endpoint of an account. -/
def message (a : ServiceAccount) (assertion : String) : ClientResult Message :=
  match Url.parse a.tokenUri with
  | .ok u => .ok ((Message.ofUrl "POST" u).withBody formType (Utf8.encode (form assertion)))
  | .error _ => .error .transport

/-- The token in the response of an endpoint. -/
def ofResponse (r : Response) : ClientResult String :=
  if r.status.isSuccess then do
    let grant ← withContext .other Json.Error.message
      "Unable to parse the token endpoint response" (wire.ofString r.text)
    .ok grant.accessToken
  else .error (.tokenRetrieval s!"{r.status.text}: {r.text}")

/-- Trades an assertion of an account for a token, at a time. -/
def retrieve (a : ServiceAccount) (now : Nat) : Remote String := do
  let assertion ← Remote.ofResult (Assertion.create a now)
  let m ← Remote.ofResult (message a assertion)
  let response ← m.send
  Remote.ofResult (ofResponse response)

end TokenGrant

/-- The token that a configuration stands for, at a time. -/
def ClientConf.resolveToken (c : ClientConf) (files : FileTree) (now : Nat) : Remote String :=
  match c.accessToken, c.keyPath with
  | some token, _ => pure token
  | none, some path => do
    let a ← Remote.ofResult (ServiceAccount.load files path)
    TokenGrant.retrieve a now
  | none, none => Remote.ofResult (.error (.configuration
      "no credentials: set either access_token or service_account_key_path"))

end ParameterManager
