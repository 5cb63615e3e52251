/-
Service accounts.

The file of a service account holds a private key, the names under which the key and the
account are known, and the endpoint that exchanges a signed assertion for an access
token.
-/
import ParameterManager.Config

namespace ParameterManager

open Json (Wire Record Field)

/-- A service account, as its file describes it. -/
structure ServiceAccount where
  kind : String := ""
  projectId : String := ""
  privateKeyId : String := ""
  privateKey : String := ""
  clientEmail : String := ""
  clientId : String := ""
  authUri : String := ""
  tokenUri : String := ""
  deriving DecidableEq, Repr, Inhabited

namespace ServiceAccount

def record : Record ServiceAccount where
  name := "ServiceAccount"
  initial := {}
  fields := [
    .of "type" .required .string fun v a => { a with kind := v },
    .of "project_id" .defaulted .string fun v a => { a with projectId := v },
    .of "private_key_id" .required .string fun v a => { a with privateKeyId := v },
    .of "private_key" .required .string fun v a => { a with privateKey := v },
    .of "client_email" .required .string fun v a => { a with clientEmail := v },
    .of "client_id" .defaulted .string fun v a => { a with clientId := v },
    .of "auth_uri" .defaulted .string fun v a => { a with authUri := v },
    .of "token_uri" .required .string fun v a => { a with tokenUri := v }]

def wire : Wire ServiceAccount := record.wire

/-- An account as a value. -/
def toJson (a : ServiceAccount) : Json :=
  .object [("type", .string a.kind), ("project_id", .string a.projectId),
    ("private_key_id", .string a.privateKeyId), ("private_key", .string a.privateKey),
    ("client_email", .string a.clientEmail), ("client_id", .string a.clientId),
    ("auth_uri", .string a.authUri), ("token_uri", .string a.tokenUri)]

/-- The kind of account that can be used. -/
def usableKind : String := "service_account"

def load (t : FileTree) (p : FilePath) : ClientResult ServiceAccount := do
  let a ← ClientConf.readJson wire t p "Unable to read service account key"
    "Error while parsing service account key"
  if a.kind = usableKind then .ok a
  else .error (.configuration s!"{p.quoted} is a {a.kind} key, not a service_account key")

end ServiceAccount

end ParameterManager
