/-
Base 64: bytes as text.

Three bytes are one number and so are four digits.  A last group of one or two bytes is
filled up with zero bits and written with two or three digits, and padded with equals
signs where the alphabet asks for it.  Reading back is strict: the bits filled up have to
be zero, and so there is one text for every sequence of bytes.
-/
import ParameterManager.Text.Utf8

namespace ParameterManager.Base64

/-- An alphabet: its last two digits, and whether a short group is padded. -/
structure Alphabet where
  digit62 : Char
  digit63 : Char
  padded : Bool
  deriving DecidableEq, Repr

/-- The alphabet of files and headers. -/
def standard : Alphabet := ⟨'+', '/', true⟩

/-- The alphabet of texts that stand in addresses. -/
def urlSafe : Alphabet := ⟨'-', '_', false⟩

namespace Alphabet

variable (a : Alphabet)

/-- The digit with a value below sixty-four. -/
def digit (n : Nat) : Char :=
  if n < 26 then Char.ofNat (0x41 + n)
  else if n < 52 then Char.ofNat (0x47 + n)
  else if n < 62 then Char.ofNat (n - 4)
  else if n = 62 then a.digit62
  else a.digit63

/-- The value of a digit. -/
def value? (c : Char) : Option Nat :=
  let n := c.toNat
  if 0x41 ≤ n ∧ n ≤ 0x5A then some (n - 0x41)
  else if 0x61 ≤ n ∧ n ≤ 0x7A then some (n - 0x47)
  else if 0x30 ≤ n ∧ n ≤ 0x39 then some (n + 4)
  else if c = a.digit62 then some 62
  else if c = a.digit63 then some 63
  else none

/-- The padding of a group that lacks some digits. -/
def padding (n : Nat) : List Char := if a.padded then List.replicate n '=' else []

/-- Bytes as text. -/
def encode : Bytes → List Char
  | x :: y :: z :: rest =>
    let n := (x.toNat * 256 + y.toNat) * 256 + z.toNat
    a.digit (n / 262144) :: a.digit (n / 4096 % 64) :: a.digit (n / 64 % 64) ::
      a.digit (n % 64) :: encode rest
  | [x, y] =>
    let n := (x.toNat * 256 + y.toNat) * 4
    a.digit (n / 4096) :: a.digit (n / 64 % 64) :: a.digit (n % 64) :: a.padding 1
  | [x] =>
    let n := x.toNat * 16
    a.digit (n / 64) :: a.digit (n % 64) :: a.padding 2
  | [] => []

/-- The bytes of some digits, without padding. -/
def decodeDigits : List Nat → Option Bytes
  | p :: q :: r :: s :: rest => do
    let n := ((p * 64 + q) * 64 + r) * 64 + s
    let bs ← decodeDigits rest
    some (UInt8.ofNat (n / 65536) :: UInt8.ofNat (n / 256 % 256) :: UInt8.ofNat (n % 256) :: bs)
  | [p, q, r] =>
    let n := (p * 64 + q) * 64 + r
    if n % 4 = 0 then some [UInt8.ofNat (n / 1024), UInt8.ofNat (n / 4 % 256)] else none
  | [p, q] =>
    let n := p * 64 + q
    if n % 16 = 0 then some [UInt8.ofNat (n / 16)] else none
  | [_] => none
  | [] => some []

/-- The bytes of a text. -/
def decode (cs : List Char) : Option Bytes := do
  let body := cs.takeWhile (· ≠ '=')
  let digits ← body.mapM a.value?
  if cs.drop body.length = a.padding ((4 - body.length % 4) % 4) then decodeDigits digits else none

end Alphabet

end ParameterManager.Base64
