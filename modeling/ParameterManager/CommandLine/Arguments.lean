/-
Reading the arguments of a command line.

A command takes options with one value each, and either stands for itself or has
subcommands.  Arguments are read from left to right.  A value may be attached to its
option or follow it, but what looks like an option is never taken for a value that
follows.  A value is looked at only when the next option begins or the command ends; an
argument that fits nowhere is a fault before that.
-/
import ParameterManager.Text.Utf8

namespace ParameterManager

/-- What the value of an option may be. -/
inductive ValueKind
  /-- A text, which may be empty. -/
  | text
  /-- A file name, which may be any bytes but none. -/
  | path
  deriving DecidableEq, Repr

structure OptionSpec where
  long : String
  short? : Option Char := none
  /-- What stands for the value in messages. -/
  placeholder : String
  kind : ValueKind := .text
  required : Bool := false
  deriving DecidableEq, Repr

/-- An option as messages show it. -/
def OptionSpec.shown (o : OptionSpec) : String := s!"--{o.long} <{o.placeholder}>"

structure CommandHead where
  name : String
  /-- The name with those of the commands it belongs to. -/
  fullName : String
  /-- The first lines of the help. -/
  helpLead : String
  options : List OptionSpec := []
  /-- Whether the command tells its version. -/
  hasVersion : Bool := false

/-- A command that stands for a value of type `α`, which it makes of the values of its
options, or a group of commands. -/
inductive CommandSpec (α : Type)
  | leaf (head : CommandHead) (make : (String → Bytes) → α)
  | group (head : CommandHead) (subcommands : List (CommandSpec α))

/-! ### Faults -/

/-- Why arguments are not understood. -/
inductive UsageError
  /-- The help, or the version, was asked for. -/
  | helpRequested (lead : String)
  /-- There are no arguments at all. -/
  | nothingGiven (lead : String)
  | missingSubcommand (command : String) (known : List String)
  | valueRequired (option : OptionSpec)
  | repeated (option : OptionSpec)
  | missing (options : List OptionSpec)
  | unknownSubcommand (argument : String)
  | unexpected (argument : String)
  | surplusValue (value flag : String)
  | notUtf8
  deriving DecidableEq, Repr

namespace UsageError

/-- The wording of a fault. -/
def message : UsageError → String
  | helpRequested lead => lead
  | nothingGiven lead => lead
  | missingSubcommand command known =>
    s!"error: '{command}' requires a subcommand but one was not provided\n  [subcommands: " ++
      ", ".intercalate known ++ "]"
  | valueRequired o => s!"error: a value is required for '{o.shown}' but none was supplied"
  | repeated o => s!"error: the argument '{o.shown}' cannot be used multiple times"
  | missing os =>
    "error: the following required arguments were not provided:" ++
      String.join (os.map fun o => s!"\n  {o.shown}")
  | unknownSubcommand argument => s!"error: unrecognized subcommand '{argument}'"
  | unexpected argument => s!"error: unexpected argument '{argument}' found"
  | surplusValue value flag =>
    s!"error: unexpected value '{value}' for '{flag}' found; no more were expected"
  | notUtf8 => "error: invalid UTF-8 was detected in one or more arguments"

end UsageError

namespace CommandSpec

variable {α : Type}

def head : CommandSpec α → CommandHead
  | leaf head _ => head
  | group head _ => head

/-- The commands of a group. -/
def subcommands : CommandSpec α → List (CommandSpec α)
  | leaf _ _ => []
  | group _ subcommands => subcommands

/-- The name of the command that every group has: it shows the help of another one. -/
def helpName : String := "help"

/-- The command of a group with a name. -/
def subcommand? (c : CommandSpec α) (arg : Bytes) : Option (CommandSpec α) :=
  c.subcommands.find? fun sub => Utf8.encode sub.head.name = arg

/-- Whether an argument names a command of a group, or the one that shows the help. -/
def isSubcommand (c : CommandSpec α) (arg : Bytes) : Bool :=
  !c.subcommands.isEmpty && ((c.subcommand? arg).isSome || arg == Utf8.encode helpName)

end CommandSpec

/-! ### Reading -/

structure Reading where
  values : List (String × Bytes) := []
  /-- The option read last with its value, unless that still has to come; neither has been
  looked at. -/
  last? : Option (OptionSpec × Option Bytes) := none
  /-- Whether what follows cannot be options any more. -/
  trailing : Bool := false

namespace Reading

/-- Whether the next argument may be the value of an option. -/
def awaiting? (r : Reading) : Option OptionSpec :=
  match r.last? with
  | some (o, none) => some o
  | _ => none

/-- Takes the value of an option. -/
def take (r : Reading) (o : OptionSpec) : Option Bytes → Except UsageError Reading
  | none => .error (.valueRequired o)
  | some value =>
    if (r.values.lookup o.long).isSome then .error (.repeated o)
    else if o.kind = .path ∧ value = [] then .error (.valueRequired o)
    else if o.kind = .text ∧ (Utf8.text? value).isNone then .error .notUtf8
    else .ok { r with values := r.values ++ [(o.long, value)] }

/-- Takes the value of the option read last. -/
def settle (r : Reading) : Except UsageError Reading :=
  match r.last? with
  | none => .ok r
  | some (o, value?) => ({ r with last? := none } : Reading).take o value?

/-- Begins an option, with its value if that is attached. -/
def begin (r : Reading) (o : OptionSpec) (attached? : Option Bytes) : Except UsageError Reading := do
  let r ← r.settle
  match attached? with
  | some value => r.take o (some value)
  | none => .ok { r with last? := some (o, none) }

end Reading

/-- Asks for the help, once the option read last has been settled. -/
def Reading.askHelp (r : Reading) (head : CommandHead) : Except UsageError Reading := do
  let _ ← r.settle
  .error (.helpRequested head.helpLead)

namespace CommandHead

/-- The byte of an equals sign. -/
def equalsSign : UInt8 := 0x3D

/-- The byte of a hyphen. -/
def hyphen : UInt8 := 0x2D

/-- The long names of what is answered at once. -/
def flags (head : CommandHead) : List String := "help" :: if head.hasVersion then ["version"] else []

/-- The short names of what is answered at once. -/
def shortFlags (head : CommandHead) : List Char := 'h' :: if head.hasVersion then ['V'] else []

/-- Reads a long option, after its hyphens. -/
def readLong (head : CommandHead) (r : Reading) (text : Bytes) : Except UsageError Reading :=
  let name := text.takeWhile (· ≠ equalsSign)
  let value? := match text.dropWhile (· ≠ equalsSign) with
    | [] => none
    | _ :: value => some value
  match head.options.find? fun o => Utf8.encode o.long = name with
  | some o => r.begin o value?
  | none =>
    let shown := "--" ++ Utf8.lossy name
    if head.flags.any fun flag => Utf8.encode flag = name then
      match value? with
      | some value => .error (.surplusValue (Utf8.lossy value) shown)
      | none => r.askHelp head
    else .error (.unexpected shown)

/-- Reads a short option, after its hyphen. -/
def readShort (head : CommandHead) (r : Reading) (text : Bytes) : Except UsageError Reading :=
  match Utf8.decode text with
  | .char ch :: _ =>
    let rest := text.drop (Utf8.width ch)
    match head.options.find? fun o => o.short? = some ch with
    | some o =>
      match rest with
      | [] => r.begin o none
      | b :: value => r.begin o (some (if b = equalsSign then value else rest))
    | none =>
      if head.shortFlags.contains ch then r.askHelp head
      else .error (.unexpected (String.ofList ['-', ch]))
  | _ => .error (.unexpected ("-" ++ Utf8.lossy text))

end CommandHead

namespace CommandSpec

variable {α : Type}

/-- The fault of an argument that fits nowhere. -/
def surplus (c : CommandSpec α) (r : Reading) (arg : Bytes) : UsageError :=
  if c.subcommands.isEmpty ∨ (r.trailing ∧ c.isSubcommand arg) then .unexpected (Utf8.lossy arg)
  else .unknownSubcommand (Utf8.lossy arg)

/-- The help of the command that some arguments name. -/
def helpOf (c : CommandSpec α) : List Bytes → UsageError
  | [] => .helpRequested c.head.helpLead
  | arg :: rest =>
    match c.subcommand? arg with
    | some sub => helpOf sub rest
    | none =>
      match c.isSubcommand arg, rest with
      | true, [] => .helpRequested c.head.helpLead
      | true, next :: _ => .unknownSubcommand (Utf8.lossy next)
      | false, _ => .unknownSubcommand (Utf8.lossy arg)

/-- The value of a command, and the values of its options, once all has been read. -/
def finish (c : CommandSpec α) (r : Reading) : Except UsageError (List (String × Bytes) × α) := do
  let r ← r.settle
  match c with
  | .group head subcommands =>
    if r.values.isEmpty then .error (.nothingGiven head.helpLead)
    else .error (.missingSubcommand head.fullName (subcommands.map (·.head.name) ++ [helpName]))
  | .leaf head make =>
    match head.options.filter fun o => o.required && (r.values.lookup o.long).isNone with
    | [] => .ok (r.values, make fun name => (r.values.lookup name).getD [])
    | missing => .error (.missing missing)

/-- Reads arguments: the values of all options, and the value of the command they name. -/
def scan : CommandSpec α → Reading → List Bytes → Except UsageError (List (String × Bytes) × α)
  | c, r, [] => c.finish r
  | c, r, arg :: rest =>
    if r.trailing then .error (c.surplus r arg)
    else if r.awaiting?.isNone ∧ c.isSubcommand arg then
      match c.subcommand? arg with
      | none => .error (c.helpOf rest)
      | some sub => do
        let (values, a) ← scan sub {} rest
        let r ← r.settle
        .ok (r.values ++ values, a)
    else
      match arg with
      | 0x2D :: 0x2D :: [] => scan c { r with trailing := true } rest
      | 0x2D :: 0x2D :: text => do
        let r ← c.head.readLong r text
        scan c r rest
      | 0x2D :: b :: text => do
        let r ← c.head.readShort r (b :: text)
        scan c r rest
      | _ =>
        match r.awaiting? with
        | some o => scan c { r with last? := some (o, some arg) } rest
        | none => .error (c.surplus r arg)

def read (c : CommandSpec α) (args : List Bytes) : Except UsageError (List (String × Bytes) × α) :=
  c.scan {} args

end CommandSpec

end ParameterManager
