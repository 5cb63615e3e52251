/-
The commands of `pmctl`.

All commands are about one parameter of the global location; the options before them say
which configuration is used, and may replace its endpoint.
-/
import ParameterManager.CommandLine.Arguments
import ParameterManager.FileTree.Path

namespace ParameterManager

/-- A command about a parameter. -/
inductive ParameterCommand
  | get (project parameter : String)
  | updateKmsKey (project parameter key : String)
  | removeKmsKey (project parameter : String)
  deriving DecidableEq, Repr

/-- What `pmctl` is asked to do. -/
structure Invocation where
  conf : Option FilePath := none
  url : Option String := none
  command : ParameterCommand
  deriving DecidableEq, Repr

namespace ParameterCommand

/-! ### Options -/

/-- The option that names the project. -/
def projectOption : OptionSpec :=
  { long := "project-id", short? := some 'p', placeholder := "PROJECT_ID", required := true }

/-- The option that names the parameter. -/
def parameterOption : OptionSpec :=
  { long := "parameter-id", short? := some 'i', placeholder := "PARAMETER_ID", required := true }

/-- The option that names the key. -/
def keyOption : OptionSpec :=
  { long := "kms-key", short? := some 'k', placeholder := "KMS_KEY", required := true }

/-- The text of an option, which has been read before. -/
def textOf (values : String → Bytes) (o : OptionSpec) : String := Utf8.lossy (values o.long)

/-! ### Commands -/

/-- The command that asks for a parameter. -/
def getSpec : CommandSpec ParameterCommand :=
  .leaf
    { name := "get", fullName := "pmctl parameters get", helpLead := "Display a parameter"
      options := [projectOption, parameterOption] }
    fun v => .get (textOf v projectOption) (textOf v parameterOption)

/-- The command that sets the key of a parameter. -/
def updateSpec : CommandSpec ParameterCommand :=
  .leaf
    { name := "update-kms-key", fullName := "pmctl parameters update-kms-key"
      helpLead := "Protect a parameter with a Cloud KMS key."
      options := [projectOption, parameterOption, keyOption] }
    fun v => .updateKmsKey (textOf v projectOption) (textOf v parameterOption) (textOf v keyOption)

/-- The command that removes the key of a parameter. -/
def removeSpec : CommandSpec ParameterCommand :=
  .leaf
    { name := "remove-kms-key", fullName := "pmctl parameters remove-kms-key"
      helpLead := "Remove the Cloud KMS key protecting a parameter."
      options := [projectOption, parameterOption] }
    fun v => .removeKmsKey (textOf v projectOption) (textOf v parameterOption)

/-- The commands about a parameter. -/
def group : CommandSpec ParameterCommand :=
  .group
    { name := "parameters", fullName := "pmctl parameters"
      helpLead := "Manage the parameters of the \x60global\x60 location" }
    [getSpec, updateSpec, removeSpec]

/-- Reads a command without the options of `pmctl`. -/
def read (args : List Bytes) : Except UsageError ParameterCommand := (group.read args).map (·.2)

end ParameterCommand

namespace Invocation

/-- The option that names the file of the configuration. -/
def confOption : OptionSpec :=
  { long := "conf", short? := some 'c', placeholder := "CONF", kind := .path }

/-- The option that replaces the endpoint. -/
def urlOption : OptionSpec := { long := "url", placeholder := "URL" }

/-- The whole command line. -/
def spec : CommandSpec ParameterCommand :=
  .group
    { name := "pmctl", fullName := "pmctl", helpLead := "Usage: pmctl [OPTIONS] <COMMAND>"
      options := [confOption, urlOption], hasVersion := true }
    [ParameterCommand.group]

/-- Reads a command line. -/
def read (args : List Bytes) : Except UsageError Invocation := do
  let (values, command) ← spec.read args
  .ok {
    conf := (values.lookup confOption.long).map FilePath.mk
    url := (values.lookup urlOption.long).map Utf8.lossy
    command }

end Invocation

end ParameterManager
