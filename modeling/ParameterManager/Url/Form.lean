/-
Forms: pairs of texts in one line.

Pairs are joined by ampersands, the two parts of a pair by an equals sign, and a space
is written as a plus sign.  Letters, digits and four signs stand for themselves.
-/
import ParameterManager.Url.Percent
import ParameterManager.Text.Split

namespace ParameterManager.Form

/-- Whether a byte stands for itself in a form. -/
def isPlain (b : Nat) : Bool :=
  (0x30 ≤ b && b ≤ 0x39) || (0x41 ≤ b && b ≤ 0x5A) || (0x61 ≤ b && b ≤ 0x7A) ||
    Percent.isOneOf ['*', '-', '.', '_'] b

def encodeByte (b : UInt8) : List Char :=
  if b.toNat = 0x20 then ['+']
  else if isPlain b.toNat then [Char.ofNat b.toNat]
  else Percent.encodeByte b

def encodeText (s : String) : List Char := (Utf8.encode s).flatMap encodeByte

def encodePair (p : String × String) : List Char := encodeText p.1 ++ '=' :: encodeText p.2

/-- Pairs of texts as a form. -/
def encode (pairs : List (String × String)) : String :=
  String.ofList (['&'].intercalate (pairs.map encodePair))

/-- A part of a pair, read back; what is not UTF-8 shows as replacement characters. -/
def decodeText (bs : Bytes) : String :=
  Utf8.lossy (Percent.decode (bs.map fun b => if b.toNat = 0x2B then 0x20 else b))

/-- A pair, read back; without an equals sign its second part is empty. -/
def decodePair (bs : Bytes) : String × String :=
  (decodeText (bs.takeWhile (· ≠ 0x3D)), decodeText ((bs.dropWhile (· ≠ 0x3D)).drop 1))

/-- The pairs of a form; empty parts between ampersands are left out. -/
def decode (bs : Bytes) : List (String × String) :=
  ((bs.splitOn 0x26).filter (· ≠ [])).map decodePair

end ParameterManager.Form
