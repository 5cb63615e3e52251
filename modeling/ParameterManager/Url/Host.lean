/-
Hosts of addresses.

A host is a domain name or a number.  A name that ends in a number has to be a whole
numeric address, of one to four parts in base eight, ten or sixteen.  An address of the
newer kind stands in brackets.  Names outside ASCII are brought into ASCII label by
label.
-/
import ParameterManager.Url.Percent
import ParameterManager.Url.Punycode
import ParameterManager.Text.Uppercase
import ParameterManager.Text.Split

namespace ParameterManager

/-- Why a text is no address. -/
inductive UrlError
  | relativeWithoutBase
  | relativeWithOpaqueBase
  | emptyHost
  | invalidPort
  | invalidIpv4
  | invalidIpv6
  | invalidDomain
  | invalidDomainCharacter
  deriving DecidableEq, Repr

namespace UrlError

/-- The wording of an error. -/
def message : UrlError → String
  | relativeWithoutBase => "relative URL without a base"
  | relativeWithOpaqueBase => "relative URL with a cannot-be-a-base base"
  | emptyHost => "empty host"
  | invalidPort => "invalid port number"
  | invalidIpv4 => "invalid IPv4 address"
  | invalidIpv6 => "invalid IPv6 address"
  | invalidDomain => "invalid international domain name"
  | invalidDomainCharacter => "invalid domain character"

/-- The short name of an error. -/
def label : UrlError → String
  | relativeWithoutBase => "RelativeUrlWithoutBase"
  | relativeWithOpaqueBase => "RelativeUrlWithCannotBeABaseBase"
  | emptyHost => "EmptyHost"
  | invalidPort => "InvalidPort"
  | invalidIpv4 => "InvalidIpv4Address"
  | invalidIpv6 => "InvalidIpv6Address"
  | invalidDomain => "IdnaError"
  | invalidDomainCharacter => "InvalidDomainCharacter"

end UrlError

/-- A host: a name in ASCII, or an address as a number or as eight numbers. -/
inductive Host
  | domain (name : String)
  | ipv4 (address : Nat)
  | ipv6 (pieces : List Nat)
  deriving DecidableEq, Repr

namespace Host

/-! ### Numbers in several bases -/

/-- The value of a digit in base sixteen. -/
def digitValue (c : Char) : Nat :=
  if '0' ≤ c ∧ c ≤ '9' then c.toNat - 0x30
  else if 'a' ≤ c ∧ c ≤ 'f' then c.toNat - 0x57
  else if 'A' ≤ c ∧ c ≤ 'F' then c.toNat - 0x37
  else 16

def valueOf (base : Nat) (ds : List Char) : Nat := ds.foldl (fun n d => n * base + digitValue d) 0

/-- The number that digits stand for, if all of them are digits of the base. -/
def number? (base : Nat) (ds : List Char) : Option Nat :=
  if ds.all (digitValue · < base) then some (valueOf base ds) else none

/-- One part of a numeric address.  A leading zero means base eight, a leading `0x`
sixteen, and no digits after either mean zero. -/
def ipv4Number? : List Char → Option Nat
  | [] => none
  | '0' :: 'x' :: ds => number? 16 ds
  | '0' :: 'X' :: ds => number? 16 ds
  | '0' :: d :: ds => number? 8 (d :: ds)
  | ds => number? 10 ds

/-- The parts of a name, without an empty last one. -/
def partsOf (name : List Char) : List (List Char) :=
  let parts := name.splitOn '.'
  if parts.getLast? = some [] ∧ 1 < parts.length then parts.dropLast else parts

/-- Whether the last part of a name makes it a numeric address. -/
def endsInNumber (name : List Char) : Bool :=
  match (partsOf name).getLast? with
  | none => false
  | some last => (!last.isEmpty && last.all Char.isDigit) || (ipv4Number? last).isSome

/-- The numeric address of a name: each part but the last is a byte, and the last one
fills the rest. -/
def ipv4? (name : List Char) : Option Nat := do
  let numbers ← (partsOf name).mapM ipv4Number?
  let last ← numbers.getLast?
  let front := numbers.dropLast
  if 3 < front.length ∨ front.any (255 < ·) ∨ Nat.pow 256 (4 - front.length) ≤ last then none
  else some (front.zipIdx.foldl (fun sum p => sum + p.1 * Nat.pow 256 (3 - p.2)) last)

/-! ### Addresses in brackets -/

/-- A piece of an address in brackets. -/
def ipv6Piece? (ds : List Char) : Option Nat :=
  if ds.isEmpty ∨ 4 < ds.length then none else number? 16 ds

/-- A byte of a dotted address in brackets, without leading zeros. -/
def dottedByte? (ds : List Char) : Option Nat :=
  if ds.isEmpty ∨ 3 < ds.length ∨ (ds.head? = some '0' ∧ 1 < ds.length) then none
  else (number? 10 ds).filter (· ≤ 255)

/-- A dotted address as two pieces. -/
def dotted? (cs : List Char) : Option (List Nat) := do
  match ← (cs.splitOn '.').mapM dottedByte? with
  | [a, b, c, d] => some [a * 256 + b, c * 256 + d]
  | _ => none

/-- Pieces between colons; the last one may be a dotted address if `dotted` says so. -/
def ipv6Pieces? (dotted : Bool) (cs : List Char) : Option (List Nat) :=
  if cs.isEmpty then some []
  else do
    let parts := cs.splitOn ':'
    let front ← parts.dropLast.mapM ipv6Piece?
    let last ← parts.getLast?
    if dotted ∧ last.contains '.' then do
      let two ← dotted? last
      some (front ++ two)
    else do
      let piece ← ipv6Piece? last
      some (front ++ [piece])

/-- The parts of a text before and after its first double colon. -/
def cutDoubleColon : List Char → Option (List Char × List Char)
  | ':' :: ':' :: rest => some ([], rest)
  | c :: rest => (cutDoubleColon rest).map fun p => (c :: p.1, p.2)
  | [] => none

/-- The eight pieces of an address in brackets; a double colon stands for one zero or more. -/
def ipv6? (cs : List Char) : Option (List Nat) :=
  match cutDoubleColon cs with
  | none => (ipv6Pieces? true cs).filter (·.length = 8)
  | some (front, back) => do
    let front ← ipv6Pieces? false front
    let back ← ipv6Pieces? true back
    if 7 < front.length + back.length then none
    else some (front ++ List.replicate (8 - front.length - back.length) 0 ++ back)

/-! ### Names -/

/-- Full stops of other scripts. -/
def isFullStop (n : Nat) : Bool := n == 0x3002 || n == 0xFF0E || n == 0xFF61

/-- Characters that are left out of a name. -/
def isIgnored (n : Nat) : Bool :=
  n == 0xAD || n == 0x34F || (0x180B ≤ n && n ≤ 0x180D) || n == 0x180F || n == 0x200B ||
    n == 0x2060 || n == 0x2064 || (0xFE00 ≤ n && n ≤ 0xFE0F) || n == 0xFEFF ||
    (0xE0100 ≤ n && n ≤ 0xE01EF)

/-- The code point whose simple upper-case form is `n`, if there is one. -/
def lowercase? (n : Nat) : Option Nat :=
  (Text.uppercaseRuns.find? fun r =>
    let m := ((n : Int) - r.2.2.2).toNat
    r.1 ≤ m && m ≤ r.2.1 && (m - r.1) % r.2.2.1 == 0).map fun r => ((n : Int) - r.2.2.2).toNat

/-- A character of a name in the form in which names are compared.  This is a part of the mapping
that Unicode gives: full-width signs become ASCII ones, letters become small by their simple forms,
and what is ignored is dropped.  Other compatibility forms and composition are left as they are. -/
def mapChar (c : Char) : List Char :=
  let n := c.toNat
  if n < 0x80 then [c.toLower]
  else if isFullStop n then ['.']
  else if isIgnored n then []
  else if 0xFF01 ≤ n ∧ n ≤ 0xFF5E then [(Char.ofNat (n - 0xFEE0)).toLower]
  else match lowercase? n with
    | some m => [Char.ofNat m]
    | none => [c]

/-- Whether a character may not stand in a name. -/
def isForbidden (c : Char) : Bool :=
  let n := c.toNat
  if n < 0x80 then
    n ≤ 0x20 || n == 0x7F ||
      ['%', '#', '/', ':', '<', '>', '?', '@', '[', '\\', ']', '^', '|'].contains c
  else Text.inRanges Text.nonGraphicRanges n

/-- Whether a label starts with a character that extends the one before. -/
def startsWithMark (label : List Char) : Bool :=
  match label with
  | [] => false
  | c :: _ => Text.inRanges Text.graphemeExtendRanges c.toNat

/-- Whether a label is sound, as far as its characters go. -/
def isSound (label : List Char) : Bool := !label.any isForbidden && !startsWithMark label

def asciiLabel? (label : List Char) : Option (List Char) :=
  if label.take 4 = ['x', 'n', '-', '-'] then
    match Punycode.decode (label.drop 4) with
    | some decoded =>
      if decoded.all (·.toNat < 0x80) ∨ !isSound decoded ∨ decoded.flatMap mapChar ≠ decoded then none
      else some label
    | none => none
  else if !isSound label then none
  else if label.all (·.toNat < 0x80) then some label
  else some (['x', 'n', '-', '-'] ++ Punycode.encode label)

def asciiName? (name : List Char) : Option (List Char) := do
  let labels ← ((name.flatMap mapChar).splitOn '.').mapM asciiLabel?
  some (['.'].intercalate labels)

/-! ### Parsing -/

/-- An address in brackets, the opening one being given. -/
def parseBracketed (cs : List Char) : Except UrlError Host :=
  if cs.getLast? = some ']' then
    match ipv6? (cs.drop 1).dropLast with
    | some pieces => .ok (.ipv6 pieces)
    | none => .error .invalidIpv6
  else .error .invalidIpv6

/-- The host that a text stands for in an address of the web. -/
def parse (cs : List Char) : Except UrlError Host :=
  if cs.head? = some '[' then parseBracketed cs
  else
    match Utf8.text? (Percent.decode (Utf8.encodeChars cs)) with
    | none => .error .invalidDomain
    | some name =>
      match asciiName? name.toList with
      | none => .error .invalidDomain
      | some [] => .error .emptyHost
      | some ascii =>
        if endsInNumber ascii then
          match ipv4? ascii with
          | some address => .ok (.ipv4 address)
          | none => .error .invalidIpv4
        else .ok (.domain (String.ofList ascii))

/-- The characters that may not stand in a host of another kind of address. -/
def opaqueForbidden : List Char :=
  ['\x00', '\t', '\n', '\r', ' ', '#', '/', ':', '<', '>', '?', '@', '[', '\\', ']', '^', '|']

/-- The host that a text stands for in an address of another kind. -/
def parseOpaque (cs : List Char) : Except UrlError Host :=
  if cs.head? = some '[' then parseBracketed cs
  else if cs.any opaqueForbidden.contains then .error .invalidDomainCharacter
  else .ok (.domain (String.ofList (Percent.encodeChars Percent.isControl cs)))

/-! ### Writing -/

/-- The start and the length of the longest run of zeros, the first of several. -/
def longestZeros : Nat → List Nat → Nat × Nat
  | _, [] => (0, 0)
  | i, p :: ps =>
    let n := ((p :: ps).takeWhile (· == 0)).length
    let later := longestZeros (i + 1) ps
    if n ≠ 0 ∧ later.2 ≤ n then (i, n) else later

/-- Pieces of an address joined by colons. -/
def showPieces (ps : List Nat) : List Char := [':'].intercalate (ps.map (Nat.toDigits 16))

/-- A host as it stands in an address. -/
def text : Host → String
  | domain name => name
  | ipv4 address =>
    String.ofList (['.'].intercalate ([3, 2, 1, 0].map fun k =>
      Nat.toDigits 10 (address / Nat.pow 256 k % 256)))
  | ipv6 ps =>
    let (start, n) := longestZeros 0 ps
    let body := if n < 2 then showPieces ps
      else showPieces (ps.take start) ++ [':', ':'] ++ showPieces (ps.drop (start + n))
    String.ofList ('[' :: body ++ [']'])

end Host

end ParameterManager
