/-
Media types, as a message gives that of its body.

A media type is a kind and a subtype with a slash between them, and some parameters
after semicolons.  A subtype may end in a suffix after its last plus sign.  Names are
read without regard to case.
-/
import ParameterManager.Text.Utf8

namespace ParameterManager

/-- A media type; its names are in small letters. -/
structure MediaType where
  kind : String
  subtype : String
  suffix : Option String := none
  parameters : List (String × String) := []
  deriving DecidableEq, Repr

namespace MediaType

/-- Whether a character may stand in a name, or in a value without quotation marks. -/
def isToken (c : Char) : Bool :=
  c.isAlphanum || ['!', '#', '$', '%', '&', '\'', '*', '+', '-', '.', '^', '_', '\x60', '|', '~'].contains c

/-- Whether a character may stand between quotation marks. -/
def isQuotable (c : Char) : Bool := 0x20 ≤ c.toNat && c.toNat ≠ 0x7F

def nameOf (cs : List Char) : String := String.ofList (cs.map Char.toLower)

/-- A subtype without its suffix, and the suffix. -/
def splitSuffix (cs : List Char) : List Char × Option (List Char) :=
  let after := (cs.reverse.takeWhile (· ≠ '+')).reverse
  let before := cs.take (cs.length - after.length - 1)
  if before.isEmpty then (cs, none) else (before, some after)

/-- The value at the start of a text, and what follows it. -/
def value? : List Char → Option (List Char × List Char)
  | '"' :: c :: cs =>
    -- the first character may be a quotation mark too
    match c :: cs.takeWhile (· ≠ '"'), cs.dropWhile (· ≠ '"') with
    | text, '"' :: rest =>
      if text.all isQuotable then some (text, rest.dropWhile (· = ' ')) else none
    | _, [] => none
    | _, _ => none
  | '"' :: [] => none
  | cs =>
    let text := cs.takeWhile isToken
    let rest := cs.dropWhile isToken
    if text.isEmpty ∧ !rest.isEmpty then none else some (text, rest)

/-- The parameters in a text, which is what follows a semicolon; the bound is the number of
semicolons left. -/
def parametersWithin : Nat → List Char → Option (List (String × String))
  | n, cs =>
    match cs.dropWhile (· = ' ') with
    | [] => some []
    | cs =>
      match cs.takeWhile isToken, cs.dropWhile isToken with
      | c :: name, '=' :: rest => do
        let (text, rest) ← value? rest
        let parameter := (nameOf (c :: name), String.ofList text)
        match n, rest with
        | _, [] => some [parameter]
        | n + 1, ';' :: rest =>
          let others ← parametersWithin n rest
          some (parameter :: others)
        | _, _ => none
      | _, _ => none

/-- The media type that a text spells. -/
def parse? (s : String) : Option MediaType :=
  let cs := s.toList
  match cs.takeWhile isToken, cs.dropWhile isToken with
  | c :: kind, '/' :: rest =>
    let (subtype, suffix) := splitSuffix (rest.takeWhile isToken)
    let named (parameters : List (String × String)) : MediaType :=
      { kind := nameOf (c :: kind), subtype := nameOf subtype, suffix := suffix.map nameOf, parameters }
    match subtype, rest.dropWhile isToken with
    | [], _ => none
    | _, [] => some (named [])
    | _, ';' :: rest => (parametersWithin rest.length rest).map named
    | _, _ => none
  | _, _ => none

/-- The value of a parameter. -/
def parameter? (m : MediaType) (name : String) : Option String := m.parameters.lookup name

/-- Whether bodies of a media type are JSON. -/
def isJson (m : MediaType) : Bool := m.subtype == "json" || m.suffix == some "json"

/-! ### In messages -/

/-- The text of a header value, if it is visible ASCII with blanks. -/
def headerText? (bs : Bytes) : Option String :=
  if bs.all fun b => (0x20 ≤ b.toNat && b.toNat < 0x7F) || b.toNat == 0x9 then
    some (String.ofList (bs.map fun b => Char.ofNat b.toNat))
  else none

/-- The media type that a header value gives. -/
def ofHeader? (bs : Bytes) : Option MediaType := (headerText? bs).bind parse?

end MediaType

end ParameterManager
