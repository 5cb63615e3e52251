/-
The configuration of the client.

It says which endpoint to ask and with which credentials: an access token, or the file
of a service account that is exchanged for one.  `location?` finds the file, `load`
reads it, or writes and returns the default configuration if there is none, and `save`
writes one.
-/
import ParameterManager.ClientError
import ParameterManager.FileTree.Basic
import ParameterManager.Json.Printer
import ParameterManager.Json.Record

namespace ParameterManager

open Json (Wire Record Field)

/-- What the environment of a command says; a variable that is not set is none. -/
structure Environment where
  /-- The file of the configuration. -/
  conf : Option Bytes := none
  home : Option Bytes := none
  userProfile : Option Bytes := none
  homeDrive : Option Bytes := none
  homePath : Option Bytes := none
  /-- How results are printed. -/
  format : Option Bytes := none
  deriving DecidableEq, Repr, Inhabited

namespace Environment

/-- The home directory of the user. -/
def homeDirectory? (env : Environment) : Option FilePath :=
  match env.home, env.userProfile, env.homeDrive, env.homePath with
  | some home, _, _, _ => some ⟨home⟩
  | none, some profile, _, _ => some ⟨profile⟩
  | none, none, some drive, some path => some (FilePath.join ⟨drive⟩ ⟨path⟩)
  | _, _, _, _ => none

end Environment

structure ClientConf where
  acceptInvalidCerts : Bool := false
  url : String
  accessToken : Option String := none
  keyPath : Option FilePath := none
  timeoutSecs : Option Nat := none
  deriving DecidableEq, Repr

namespace ClientConf

/-- The endpoint of the service itself. -/
def defaultUrl : String := "https://parametermanager.googleapis.com"

/-- The configuration that a missing file stands for. -/
def default : ClientConf := { url := defaultUrl }

instance : Inhabited ClientConf := ⟨default⟩

/-! ### On the wire -/

/-- The wire of a file name: a text. -/
def pathWire : Wire FilePath := (Wire.text "path string").map FilePath.ofString

def record : Record ClientConf where
  name := "ClientConf"
  initial := { url := "" }
  fields := [
    .of "accept_invalid_certs" .defaulted .flag fun v c => { c with acceptInvalidCerts := v },
    .of "parameter_manager_url" .required .string fun v c => { c with url := v },
    .of "access_token" .optional (.optional .string) fun v c => { c with accessToken := v },
    .of "service_account_key_path" .optional (.optional pathWire) fun v c => { c with keyPath := v },
    .of "timeout_secs" .optional (.optional (.count 64)) fun v c => { c with timeoutSecs := v }]

def wire : Wire ClientConf := record.wire

/-- A configuration as a value; none if the name of its key file is no text. -/
def toJson? (c : ClientConf) : Option Json := do
  let path ← match c.keyPath with
    | none => some []
    | some p => p.text?.map fun s => [("service_account_key_path", Json.string s)]
  some (.object (
    (if c.acceptInvalidCerts then [("accept_invalid_certs", .bool true)] else []) ++
    [("parameter_manager_url", .string c.url)] ++
    (c.accessToken.toList.map fun s => ("access_token", .string s)) ++ path ++
    (c.timeoutSecs.toList.map fun n => ("timeout_secs", .ofNat n))))

/-- An optional value in the debug form. -/
def debugOption {α : Type} (debug : α → String) : Option α → String
  | none => "None"
  | some a => s!"Some({debug a})"

/-- The way a configuration is built. -/
def debug (c : ClientConf) : String :=
  "ClientConf \x7b accept_invalid_certs: " ++ toString c.acceptInvalidCerts ++
    ", parameter_manager_url: " ++ Text.quoted c.url ++
    ", access_token: " ++ debugOption Text.quoted c.accessToken ++
    ", service_account_key_path: " ++ debugOption FilePath.quoted c.keyPath ++
    ", timeout_secs: " ++ debugOption toString c.timeoutSecs ++ " \x7d"

/-! ### The file -/

/-- The name of the variable that gives the file. -/
def confVariable : String := "PM_CLI_CONF"

/-- The place of the file in the home directory. -/
def homeFile : FilePath := .ofString ".cosmian/pmctl.json"

/-- The file that is used: the one of the argument, the one of the environment, or the one
in the home directory, which alone need not be there. -/
def location? (t : FileTree) (env : Environment) (arg : Option FilePath) :
    ClientResult FilePath :=
  match arg, env.conf.bind Utf8.text? with
  | some p, _ =>
    if t.isThere p then .ok p
    else .error (.configuration s!"Configuration file {p.quoted} from CLI arg does not exist")
  | none, some name =>
    let p := FilePath.ofString name
    if t.isThere p then .ok p
    else .error (.configuration
      s!"Configuration file {p.quoted} specified in {confVariable} environment variable does not exist")
  | none, none =>
    match env.homeDirectory? with
    | some home => .ok (home.join homeFile)
    | none => .error (.notSupported "unable to determine the home folder")

/-- Writes a configuration to a file. -/
def save (t : FileTree) (c : ClientConf) (p : FilePath) : ClientResult FileTree :=
  match c.toJson? with
  | none => .error (.other
      s!"Unable to serialize configuration {c.debug}: path contains invalid UTF-8 characters")
  | some j =>
    withContext .other FileError.message s!"Unable to write configuration to file {p.quoted}"
      (t.writeFile p (Utf8.encode j.pretty))

/-- The value that the file of a name holds, read as a stream. -/
def readJson {α : Type} (w : Wire α) (t : FileTree) (p : FilePath) (opening reading : String) :
    ClientResult α := do
  let opened ← withContext .other FileError.message s!"{opening} {p.quoted}" (t.openFile p)
  match opened with
  | .directory => .error (.other s!"{reading} {p.quoted}: {OsError.isDirectory.message}")
  | .bytes content =>
    withContext .other Json.Error.message s!"{reading} {p.quoted}" (w.ofStream content)

/-- Reads the configuration in a file.  A file that is not there is written first, with the
default configuration; the tree that results is returned even if that fails. -/
def load (t : FileTree) (p : FilePath) : FileTree × ClientResult ClientConf :=
  if t.isThere p then
    (t, readJson wire t p "Unable to read configuration file"
      "Error while parsing configuration file")
  else
    match p.parent? with
    | none => (t, .error (.other s!"Unable to get parent directory of {p.quoted}"))
    | some parent =>
      match t.createDirectories parent with
      | (t', .error e) =>
        (t', .error (.other
          s!"Unable to create directory for configuration file {parent.quoted}: {e.message}"))
      | (t', .ok ()) =>
        match save t' default p with
        | .ok t'' => (t'', .ok default)
        | .error e => (t', .error e)

end ClientConf

end ParameterManager
