/-
Quoted text, as diagnostics show it.

A text is put between quotation marks.  Inside, the quotation mark and the backslash
are escaped, the commonest controls have a letter of their own, and every other
character that is not shown bare is written by its number.  Bytes that are not UTF-8
are written one by one, so two different file names never look the same.
-/
import ParameterManager.Text.Utf8
import ParameterManager.Text.Printable

namespace ParameterManager.Text

/-- The digits of a number in base sixteen, small letters, no leading zero. -/
def hexDigits (n : Nat) : List Char := Nat.toDigits 16 n

/-- The two capital digits of a byte in base sixteen. -/
def hexByte (b : UInt8) : List Char :=
  let digit (d : Nat) : Char := if d < 10 then Char.ofNat (0x30 + d) else Char.ofNat (0x37 + d)
  [digit (b.toNat / 16), digit (b.toNat % 16)]

/-- One character inside quotation marks. -/
def quotedChar (c : Char) : List Char :=
  if c = '"' then ['\\', '"']
  else if c = '\\' then ['\\', '\\']
  else if c = '\n' then ['\\', 'n']
  else if c = '\r' then ['\\', 'r']
  else if c = '\t' then ['\\', 't']
  else if c.toNat = 0 then ['\\', '0']
  else if isShownBare c then [c]
  else ['\\', 'u', '{'] ++ hexDigits c.toNat ++ ['}']

/-- One piece of a file name inside quotation marks. -/
def quotedPiece : Utf8.Piece → List Char
  | .char c => quotedChar c
  | .malformed bs => bs.flatMap fun b => ['\\', 'x'] ++ hexByte b

/-- A text between quotation marks. -/
def quoted (s : String) : String :=
  String.ofList ('"' :: s.toList.flatMap quotedChar ++ ['"'])

/-- Bytes between quotation marks, read as UTF-8 where they are. -/
def quotedBytes (bs : Bytes) : String :=
  String.ofList ('"' :: (Utf8.decode bs).flatMap quotedPiece ++ ['"'])

end ParameterManager.Text
