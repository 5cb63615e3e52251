/-
The encodings of the bodies of messages.

A mark at the start of a body tells its encoding before all else; otherwise the media
type may name one, and UTF-8 is what is left.  Nothing is rejected: what belongs to no
character shows as the replacement character.
-/
import ParameterManager.Http.MediaType

namespace ParameterManager

/-- An encoding of texts. -/
inductive Charset
  | utf8
  | utf16 (little : Bool)
  /-- The encoding of western Europe, one byte for each character. -/
  | windows1252
  deriving DecidableEq, Repr

namespace Charset

/-- The labels of the encodings that are known here.  Most encodings that a body may have are left
out; what names one of them is read as UTF-8. -/
def labels : List (Charset × List String) := [
  (utf8, ["unicode-1-1-utf-8", "unicode11utf8", "unicode20utf8", "utf-8", "utf8", "x-unicode20utf8"]),
  (utf16 true, ["csunicode", "iso-10646-ucs-2", "ucs-2", "unicode", "unicodefeff", "utf-16", "utf-16le"]),
  (utf16 false, ["unicodefffe", "utf-16be"]),
  (windows1252, ["ansi_x3.4-1968", "ascii", "cp1252", "cp819", "csisolatin1", "ibm819", "iso-8859-1",
    "iso-ir-100", "iso8859-1", "iso88591", "iso_8859-1", "iso_8859-1:1987", "l1", "latin1", "us-ascii",
    "windows-1252", "x-cp1252"])]

/-- The encoding with a label, in letters of either case and with blanks around it. -/
def ofLabel? (label : String) : Option Charset :=
  let isSpace (c : Char) : Bool := c == ' ' || ('\t' ≤ c && c ≤ '\r' && c ≠ '\x0B')
  let trimmed := ((label.toList.dropWhile isSpace).reverse.dropWhile isSpace).reverse
  let name := String.ofList (trimmed.map Char.toLower)
  (labels.find? fun entry => entry.2.contains name).map (·.1)

/-! ### Decoding -/

/-- The characters of the bytes from 0x80 to 0x9F in the encoding of western Europe. -/
def westernUpper : List Nat := [
  0x20AC, 0x81, 0x201A, 0x0192, 0x201E, 0x2026, 0x2020, 0x2021, 0x02C6, 0x2030, 0x0160, 0x2039,
  0x0152, 0x8D, 0x017D, 0x8F, 0x90, 0x2018, 0x2019, 0x201C, 0x201D, 0x2022, 0x2013, 0x2014,
  0x02DC, 0x2122, 0x0161, 0x203A, 0x0153, 0x9D, 0x017E, 0x0178]

/-- The character of a byte in the encoding of western Europe. -/
def westernChar (b : UInt8) : Char :=
  Char.ofNat (if b.toNat < 0x80 then b.toNat else (westernUpper[b.toNat - 0x80]?).getD b.toNat)

/-- Bytes as units of sixteen bits, and whether one byte is left over. -/
def units (little : Bool) : Bytes → List Nat × Bool
  | a :: b :: rest =>
    let unit := if little then b.toNat * 256 + a.toNat else a.toNat * 256 + b.toNat
    let (us, odd) := units little rest
    (unit :: us, odd)
  | [_] => ([], true)
  | [] => ([], false)

/-- Whether a unit is the first half of a pair. -/
def isLead (u : Nat) : Bool := 0xD800 ≤ u && u ≤ 0xDBFF

/-- Whether a unit is the second half of a pair. -/
def isTrail (u : Nat) : Bool := 0xDC00 ≤ u && u ≤ 0xDFFF

/-- The character shown for what belongs to none. -/
def replacement : Char := '\uFFFD'

/-- The characters of units; a half at the very end and a byte left over are one fault. -/
def unitChars (odd : Bool) : List Nat → List Char
  | [] => if odd then [replacement] else []
  | [u] =>
    if isLead u then [replacement]
    else (if isTrail u then replacement else Char.ofNat u) :: if odd then [replacement] else []
  | u :: v :: rest =>
    if isLead u then
      if isTrail v then
        Char.ofNat (0x10000 + (u - 0xD800) * 0x400 + (v - 0xDC00)) :: unitChars odd rest
      else replacement :: unitChars odd (v :: rest)
    else (if isTrail u then replacement else Char.ofNat u) :: unitChars odd (v :: rest)

/-- The text of bytes in an encoding. -/
def decode : Charset → Bytes → String
  | utf8, bs => Utf8.lossy bs
  | windows1252, bs => String.ofList (bs.map westernChar)
  | utf16 little, bs =>
    let (us, odd) := units little bs
    String.ofList (unitChars odd us)

/-! ### The encoding of a body -/

/-- The encoding that a mark at the start of some bytes tells, and the bytes after it. -/
def marked? : Bytes → Option (Charset × Bytes)
  | 0xEF :: 0xBB :: 0xBF :: rest => some (utf8, rest)
  | 0xFE :: 0xFF :: rest => some (utf16 false, rest)
  | 0xFF :: 0xFE :: rest => some (utf16 true, rest)
  | _ => none

/-- The encoding that the content type of a message names. -/
def named? (contentType : Option Bytes) : Option Charset := do
  let m ← MediaType.ofHeader? (← contentType)
  ofLabel? (← m.parameter? "charset")

def textOf (contentType : Option Bytes) (body : Bytes) : String :=
  match marked? body with
  | some (charset, rest) => charset.decode rest
  | none => ((named? contentType).getD utf8).decode body

end Charset

end ParameterManager
