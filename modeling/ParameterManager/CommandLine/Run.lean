/-
Running a command.

The configuration is found and loaded, its endpoint replaced if the command line says so,
and then one operation is made.  What it did is printed as a line, or as a document with
the line and the parameter.  A command that fails prints nothing but its error; and one whose
operation has written something that is no text fails.
-/
import ParameterManager.Client
import ParameterManager.CommandLine.Command

namespace ParameterManager

/-! ### Printing -/

/-- What a command prints. -/
structure Printout where
  line : String
  parameter : Parameter
  deriving DecidableEq

namespace Printout

/-- The value of the variable that asks for a document, in letters of either case. -/
def jsonFormat : String := "json"

/-- Whether a document is asked for. -/
def asksJson (format : Option Bytes) : Bool :=
  match format.bind Utf8.text? with
  | some s => s.toList.map Char.toLower == jsonFormat.toList
  | none => false

def document (p : Printout) : Json :=
  .object [("stdout", .string p.line), ("parameter", p.parameter.toJson)]

/-- What is printed without a document. -/
def text (p : Printout) : String := if p.line.isEmpty then "" else p.line ++ "\n"

def render (p : Printout) (format : Option Bytes) : String :=
  if asksJson format then p.document.pretty ++ "\n" else p.text

/-- The printout about a parameter that was found. -/
def ofFound (p : Parameter) : Printout where
  line :=
    let format := match (p.format.getD default).toJson with
      | .string name => name
      | _ => ParameterFormat.unspecified.name
    match p.kmsKey with
    | some key => s!"Found parameter {p.name} with format {format} and kms_key {key}"
    | none => s!"Found parameter {p.name} with format {format}"
  parameter := p

/-- The printout about a parameter that was changed: the line that was written, which has to be
a text. -/
def ofChanged (p : Parameter) (s : Sink) : Except CliError Printout :=
  ((Utf8.decode? s.written).mapError .utf8).map fun text =>
    { line := Text.trimEnd text, parameter := p }

end Printout

namespace ParameterCommand

variable {m : Type → Type} [Monad m]

/-- The operation that a command makes, with what it leaves in a sink. -/
def operation (c : Connector m) (s : Sink) : ParameterCommand → m (ClientResult Parameter × Sink)
  | get project parameter => do
    let r ← Operation.get c project parameter
    pure (r, s)
  | updateKmsKey project parameter key => Operation.updateKmsKey c s project parameter key
  | removeKmsKey project parameter => Operation.removeKmsKey c s project parameter

/-- What a command prints of a parameter and of what its operation has written. -/
def printout (p : Parameter) (s : Sink) : ParameterCommand → Except CliError Printout
  | get _ _ => .ok (.ofFound p)
  | updateKmsKey _ _ _ => Printout.ofChanged p s
  | removeKmsKey _ _ => Printout.ofChanged p s

/-- What a command comes to after its operation. -/
def conclude (command : ParameterCommand) (done : ClientResult Parameter × Sink) :
    Except CliError Printout :=
  (done.1.mapError .client).bind (command.printout · done.2)

/-- Makes the operation of a command. -/
def process (c : Connector m) (command : ParameterCommand) : m (Except CliError Printout) := do
  let done ← command.operation c {}
  pure (command.conclude done)

end ParameterCommand

/-! ### Whole runs -/

/-- What a run leaves behind. -/
structure Outcome where
  exit : Nat
  stdout : String := ""
  stderr : String := ""
  files : FileTree

/-- The outcome of arguments that are not understood. -/
def UsageError.outcome (e : UsageError) (files : FileTree) : Outcome :=
  match e with
  | helpRequested _ => { exit := 0, stdout := e.message, files }
  | _ => { exit := 2, stderr := e.message, files }

/-- The outcome of a failure. -/
def CliError.outcome (e : CliError) (files : FileTree) : Outcome :=
  { exit := 1, stderr := s!"ERROR: {e.message}\n", files }

/-- The outcome of a command that has been processed. -/
def Outcome.ofPrintout (format : Option Bytes) (files : FileTree) :
    Except CliError Printout → Outcome
  | .error e => e.outcome files
  | .ok p => { exit := 0, stdout := p.render format, files }

namespace Invocation

/-- The configuration of an invocation, and the files after it has been loaded. -/
def configure (i : Invocation) (env : Environment) (files : FileTree) :
    FileTree × Except CliError ClientConf :=
  match ClientConf.location? files env i.conf with
  | .error e => (files, .error (.client e))
  | .ok path =>
    let (files, loaded) := ClientConf.load files path
    let conf := withContext CliError.other ClientError.message
      s!"Unable to load the configuration at {path.quoted}" loaded
    (files, conf.map fun c => { c with url := i.url.getD c.url })

def run (i : Invocation) (env : Environment) (files : FileTree) (now : Nat) : Exchange Outcome :=
  match i.configure env files with
  | (files, .error e) => pure (e.outcome files)
  | (files, .ok conf) => do
    let r ← i.command.process (conf.connector files now)
    pure (.ofPrintout env.format files r)

/-- Runs a command line. -/
def runArguments (args : List Bytes) (env : Environment) (files : FileTree) (now : Nat) :
    Exchange Outcome :=
  match read args with
  | .error e => pure (e.outcome files)
  | .ok i => i.run env files now

end Invocation

end ParameterManager
