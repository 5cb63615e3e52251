/-
Why a text is not the value that was asked for.

A cause is a fault of syntax, or a value of another kind than the one expected.  Faults
found in a text carry the place where reading stopped; faults found in a value that has
been read before carry none.
-/
import ParameterManager.Json.Basic
import ParameterManager.Text.Quoted
import ParameterManager.Decimal.Shortest

namespace ParameterManager.Json

/-- A place in a text: its line, and how many bytes of the line come before it. -/
structure Position where
  line : Nat
  column : Nat
  deriving DecidableEq, Repr, Inhabited

namespace Position

/-- The start of a text. -/
def start : Position := ⟨1, 0⟩

/-- The place after a piece of the text. -/
def after (p : Position) (piece : Utf8.Piece) : Position :=
  if piece = .char '\n' then ⟨p.line + 1, 0⟩ else ⟨p.line, p.column + piece.width⟩

/-- The place after a piece's first byte. -/
def afterByte (p : Position) (piece : Utf8.Piece) : Position :=
  if piece = .char '\n' then ⟨p.line + 1, 0⟩ else ⟨p.line, p.column + 1⟩

/-- The place some bytes further on, or the end of the text if that comes first. -/
def forward : Nat → List Utf8.Piece → Position → Position
  | _, [], p => p
  | n, x :: rest, p =>
    if n = 0 then p
    else if x.width ≤ n then forward (n - x.width) rest (p.after x)
    else ⟨p.line, p.column + n⟩

/-- The end of the text. -/
def atEnd (rest : List Utf8.Piece) (p : Position) : Position := rest.foldl after p

end Position

/-- What was found in place of the value expected. -/
inductive Found
  | null
  | bool (b : Bool)
  | number (n : Number)
  | string (s : String)
  | sequence
  | map
  deriving Repr

/-- The kind of thing a value is. -/
def found : Json → Found
  | .null => .null
  | .bool b => .bool b
  | .number n => .number n
  | .string s => .string s
  | .array _ => .sequence
  | .object _ => .map

/-- What was found, in words. -/
def Found.describe : Found → String
  | null => "null"
  | bool b => s!"boolean `{b}`"
  | number (.int i) => s!"integer `{i}`"
  | number (.float f) => s!"floating point `{Decimal.floatText f}`"
  | string s => s!"string {Text.quoted s}"
  | sequence => "sequence"
  | map => "map"

/-- Why reading failed. -/
inductive Cause
  | endInValue
  | endInList
  | endInObject
  | endInString
  | expectedValue
  | expectedIdent
  | expectedColon
  | expectedListCommaOrEnd
  | expectedObjectCommaOrEnd
  | keyMustBeString
  | trailingComma
  | trailingCharacters
  | invalidNumber
  | numberOutOfRange
  | invalidEscape
  | unexpectedEndOfHexEscape
  | loneSurrogate
  | invalidCodePoint
  | controlCharacter
  | recursionLimit
  | wrongType (found : Found) (expected : String)
  | wrongValue (found : Found) (expected : String)
  | wrongLength (length : Nat) (expected : String)
  | missingField (name : String)
  | duplicateField (name : String)
  | unknownVariant (name : String) (known : List String)
  deriving Repr

/-- A list of names as alternatives: one, one of two, or one of several. -/
def alternatives : List String → String
  | [] => "no variants"
  | [a] => s!"`{a}`"
  | [a, b] => s!"`{a}` or `{b}`"
  | names => "one of " ++ ", ".intercalate (names.map fun n => s!"`{n}`")

/-- The wording of a cause. -/
def Cause.message : Cause → String
  | endInValue => "EOF while parsing a value"
  | endInList => "EOF while parsing a list"
  | endInObject => "EOF while parsing an object"
  | endInString => "EOF while parsing a string"
  | expectedValue => "expected value"
  | expectedIdent => "expected ident"
  | expectedColon => "expected `:`"
  | expectedListCommaOrEnd => "expected `,` or `]`"
  | expectedObjectCommaOrEnd => "expected `,` or `\x7d`"
  | keyMustBeString => "key must be a string"
  | trailingComma => "trailing comma"
  | trailingCharacters => "trailing characters"
  | invalidNumber => "invalid number"
  | numberOutOfRange => "number out of range"
  | invalidEscape => "invalid escape"
  | unexpectedEndOfHexEscape => "unexpected end of hex escape"
  | loneSurrogate => "lone leading surrogate in hex escape"
  | invalidCodePoint => "invalid unicode code point"
  | controlCharacter =>
    "control character (\\u0000-\\u001F) found while parsing a string"
  | recursionLimit => "recursion limit exceeded"
  | wrongType found expected => s!"invalid type: {found.describe}, expected {expected}"
  | wrongValue found expected => s!"invalid value: {found.describe}, expected {expected}"
  | wrongLength length expected => s!"invalid length {length}, expected {expected}"
  | missingField name => s!"missing field `{name}`"
  | duplicateField name => s!"duplicate field `{name}`"
  | unknownVariant name known => s!"unknown variant `{name}`, expected {alternatives known}"

/-- A cause, and where it was found if that was in a text. -/
structure Error where
  cause : Cause
  position? : Option Position
  deriving Repr

/-- The wording of an error. -/
def Error.message (e : Error) : String :=
  match e.position? with
  | some p => s!"{e.cause.message} at line {p.line} column {p.column}"
  | none => e.cause.message

end ParameterManager.Json
