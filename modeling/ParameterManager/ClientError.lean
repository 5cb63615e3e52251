/-
Why an operation failed.

Three kinds of error wrap the error of a step: making the client, reading a parameter,
changing one.  The others end the chain.  An error has a wording, which spells the
whole chain out, and a debug form, which shows how it is built.

`CliError` is the error of a command.  Around an error of the client it adds nothing:
neither the wording nor the causes change.
-/
import ParameterManager.Json.Error
import ParameterManager.OsError
import ParameterManager.Url.Host

namespace ParameterManager

inductive ClientError
  /-- The client could not be made. -/
  | clientInitialization (cause : ClientError)
  | configuration (text : String)
  /-- An error that has no kind of its own. -/
  | other (text : String)
  /-- A message could not be sent, or its answer not received. -/
  | transport
  /-- The parameter could not be read. -/
  | getParameter (cause : ClientError)
  /-- The credentials could not be signed. -/
  | jwt (text : String)
  /-- The service accepted an update and answered without a key. -/
  | missingKmsKey (name : String)
  | notSupported (text : String)
  /-- The service refused a request. -/
  | requestFailed (text : String)
  /-- The answer of the service is not what was asked for. -/
  | responseFailed (text : String)
  /-- The token endpoint refused the credentials. -/
  | tokenRetrieval (text : String)
  /-- The parameter could not be changed. -/
  | updateParameter (cause : ClientError)
  | url (error : UrlError)
  deriving DecidableEq, Repr

namespace ClientError

/-- The name of the kind of an error. -/
def label : ClientError → String
  | clientInitialization _ => "ClientInitialization"
  | configuration _ => "Configuration"
  | other _ => "Default"
  | transport => "Default"
  | getParameter _ => "GetParameter"
  | jwt _ => "JwtError"
  | missingKmsKey _ => "MissingKmsKey"
  | notSupported _ => "NotSupported"
  | requestFailed _ => "RequestFailed"
  | responseFailed _ => "ResponseFailed"
  | tokenRetrieval _ => "TokenRetrieval"
  | updateParameter _ => "UpdateParameter"
  | url _ => "UrlError"

/-- The wording of an error. -/
def message : ClientError → String
  | clientInitialization cause => s!"failed to create Parameter Manager client: {cause.message}"
  | configuration text => s!"Invalid configuration: {text}"
  | other text => text
  | transport => "<transport>"
  | getParameter cause => s!"failed to get parameter: {cause.message}"
  | jwt text => s!"JWT Error: {text}"
  | missingKmsKey name => s!"parameter {name} was updated but the response carries no kms_key"
  | notSupported text => s!"Not Supported: {text}"
  | requestFailed text => s!"REST Request Failed: {text}"
  | responseFailed text => s!"REST Response Conversion Failed: {text}"
  | tokenRetrieval text => s!"Token retrieval error: {text}"
  | updateParameter cause => s!"failed to update parameter: {cause.message}"
  | url e => e.message

/-- The error that an error wraps, if it wraps one. -/
def cause? : ClientError → Option ClientError
  | clientInitialization cause => some cause
  | getParameter cause => some cause
  | updateParameter cause => some cause
  | _ => none

/-- The errors wrapped in an error, from the outermost to the innermost. -/
def causes : ClientError → List ClientError
  | clientInitialization cause => cause :: cause.causes
  | getParameter cause => cause :: cause.causes
  | updateParameter cause => cause :: cause.causes
  | _ => []

/-- The way an error is built. -/
def debug : ClientError → String
  | clientInitialization cause => s!"ClientInitialization({cause.debug})"
  | getParameter cause => s!"GetParameter({cause.debug})"
  | updateParameter cause => s!"UpdateParameter({cause.debug})"
  | url e => s!"UrlError({e.label})"
  | configuration text => s!"Configuration({Text.quoted text})"
  | other text => s!"Default({Text.quoted text})"
  | transport => s!"Default({Text.quoted transport.message})"
  | jwt text => s!"JwtError({Text.quoted text})"
  | missingKmsKey name => s!"MissingKmsKey({Text.quoted name})"
  | notSupported text => s!"NotSupported({Text.quoted text})"
  | requestFailed text => s!"RequestFailed({Text.quoted text})"
  | responseFailed text => s!"ResponseFailed({Text.quoted text})"
  | tokenRetrieval text => s!"TokenRetrieval({Text.quoted text})"

/-! ### Errors of other parts -/

/-- An error of the operating system as an error of the client. -/
def ofOs (e : OsError) : ClientError := other e.message

/-- A fault in a text as an error of the client. -/
def ofJson (e : Json.Error) : ClientError := responseFailed e.message

end ClientError

abbrev ClientResult (α : Type) := Except ClientError α

/-! ### Context

What was being done is put before the failure's own wording; a missing value has no
wording of its own.
-/

/-- A result whose failure says what was being done. -/
def withContext {ε ε' α : Type} (make : String → ε') (wording : ε → String) (context : String) :
    Except ε α → Except ε' α
  | .ok a => .ok a
  | .error e => .error (make s!"{context}: {wording e}")

/-- A value that has to be there. -/
def orContext {ε α : Type} (make : String → ε) (context : String) : Option α → Except ε α
  | some a => .ok a
  | none => .error (make context)

/-- A condition that has to hold. -/
def ensure {ε : Type} (holds : Bool) (e : ε) : Except ε Unit := if holds then .ok () else .error e

/-! ### Errors of commands -/

/-- An error of a command. -/
inductive CliError
  | other (text : String)
  | io (text : String)
  | client (error : ClientError)
  | json (error : Json.Error)
  | utf8 (error : Utf8.Malformed)

namespace CliError

/-- The wording of an error. -/
def message : CliError → String
  | other text => text
  | io text => text
  | client e => e.message
  | json e => e.message
  | utf8 e => e.message

/-- The error that an error wraps: an error of the client stands for itself. -/
def cause? : CliError → Option ClientError
  | client e => e.cause?
  | _ => none

/-- The way an error of a command around an error of the client is built. -/
def debugOf (e : ClientError) : String := s!"ClientError({e.debug})"

end CliError

end ParameterManager
