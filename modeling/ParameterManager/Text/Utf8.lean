/-
UTF-8, over lists of bytes.

Texts that come from outside (files, arguments, message bodies) need not be UTF-8.
`decode` therefore never fails: it splits the bytes into characters and into
malformed runs, each run being the longest prefix of a well-formed sequence, as the
standard asks of a decoder that substitutes.  `lossy` replaces every run by one
replacement character, and `decode?` accepts only bytes without such a run, saying
otherwise where the first one starts.

Numbers are kept in `Nat`, so that facts about the ranges are linear arithmetic.
-/

namespace ParameterManager

/-- A sequence of bytes. -/
abbrev Bytes := List UInt8

namespace Utf8

/-! ### Encoding -/

/-- The byte with a given value below 256. -/
def byte (n : Nat) : UInt8 := UInt8.ofNat n

/-- The one to four bytes of a character. -/
def encodeChar (c : Char) : Bytes :=
  let n := c.toNat
  if n < 0x80 then [byte n]
  else if n < 0x800 then [byte (0xC0 + n / 64), byte (0x80 + n % 64)]
  else if n < 0x10000 then
    [byte (0xE0 + n / 4096), byte (0x80 + n / 64 % 64), byte (0x80 + n % 64)]
  else
    [byte (0xF0 + n / 262144), byte (0x80 + n / 4096 % 64), byte (0x80 + n / 64 % 64),
      byte (0x80 + n % 64)]

def encodeChars (cs : List Char) : Bytes := cs.flatMap encodeChar

/-- The bytes of a text. -/
def encode (s : String) : Bytes := encodeChars s.toList

/-- How many bytes a character takes. -/
def width (c : Char) : Nat :=
  let n := c.toNat
  if n < 0x80 then 1 else if n < 0x800 then 2 else if n < 0x10000 then 3 else 4

/-! ### Decoding

The lead byte fixes how many bytes must follow and the range of the second one; every
later byte lies in the range of continuation bytes.
-/

/-- One item of decoded bytes: a character, or bytes that belong to none. -/
inductive Piece
  | char (c : Char)
  | malformed (bytes : Bytes)
  deriving DecidableEq, Repr

/-- How many bytes have to follow a lead byte; none for a byte that cannot lead. -/
def following? (lead : Nat) : Option Nat :=
  if lead < 0x80 then some 0
  else if lead < 0xC2 then none
  else if lead < 0xE0 then some 1
  else if lead < 0xF0 then some 2
  else if lead < 0xF5 then some 3
  else none

/-- The least and the greatest byte that may come second after a lead byte. -/
def secondRange (lead : Nat) : Nat × Nat :=
  if lead = 0xE0 then (0xA0, 0xBF)
  else if lead = 0xED then (0x80, 0x9F)
  else if lead = 0xF0 then (0x90, 0xBF)
  else if lead = 0xF4 then (0x80, 0x8F)
  else (0x80, 0xBF)

/-- The continuation bytes at the start of `bs`, at most `n`, the first one in `range`. -/
def continuation : Nat → Nat × Nat → Bytes → Bytes
  | n + 1, range, b :: bs =>
    if range.1 ≤ b.toNat ∧ b.toNat ≤ range.2 then b :: continuation n (0x80, 0xBF) bs else []
  | _, _, _ => []

/-- The number that a lead byte and its continuation bytes stand for. -/
def codePoint (lead : Nat) (tail : Bytes) : Nat :=
  let top := match tail.length with
    | 0 => lead
    | 1 => lead - 0xC0
    | 2 => lead - 0xE0
    | _ => lead - 0xF0
  tail.foldl (fun n b => n * 64 + (b.toNat - 0x80)) top

/-- The piece that starts with `b`, of which `tail` are the continuation bytes found. -/
def pieceOf (b : UInt8) (tail : Bytes) : Piece :=
  if following? b.toNat = some tail.length then .char (Char.ofNat (codePoint b.toNat tail))
  else .malformed (b :: tail)

/-- The continuation bytes that belong to the lead byte `b`. -/
def tailOf (b : UInt8) (rest : Bytes) : Bytes :=
  continuation ((following? b.toNat).getD 0) (secondRange b.toNat) rest

/-- Splits bytes into characters and malformed runs. -/
def decode : Bytes → List Piece
  | [] => []
  | b :: rest =>
    let tail := tailOf b rest
    pieceOf b tail :: decode (rest.drop tail.length)
termination_by bs => bs.length
decreasing_by simp only [List.length_drop, List.length_cons]; omega

/-! ### Pieces as text -/

namespace Piece

/-- The character shown for a piece: itself, or the replacement character. -/
def shown : Piece → Char
  | char c => c
  | malformed _ => '\uFFFD'

/-- How many bytes a piece covers. -/
def width : Piece → Nat
  | char c => Utf8.width c
  | malformed bs => bs.length

/-- The bytes a piece covers. -/
def bytes : Piece → Bytes
  | char c => encodeChar c
  | malformed bs => bs

end Piece

/-- The pieces of a text: its characters. -/
def pieces (s : String) : List Piece := s.toList.map .char

/-- The text of bytes, every malformed run replaced by one replacement character. -/
def lossy (bs : Bytes) : String := String.ofList ((decode bs).map Piece.shown)

/-- Why bytes are not UTF-8: where the first malformed run starts, and its length unless
the bytes merely end too early. -/
structure Malformed where
  validUpTo : Nat
  length? : Option Nat
  deriving DecidableEq, Repr

namespace Malformed

/-- The wording of the failure. -/
def message (e : Malformed) : String :=
  match e.length? with
  | some n => s!"invalid utf-8 sequence of {n} bytes from index {e.validUpTo}"
  | none => s!"incomplete utf-8 byte sequence from index {e.validUpTo}"

end Malformed

/-- A run cut short by the end of the bytes: a lead byte that still waits for some. -/
def cutShort : Bytes → Bool
  | [] => false
  | b :: tail => match following? b.toNat with
    | some n => tail.length < n
    | none => false

/-- The characters of pieces that hold no malformed run; the number is the offset of the first. -/
def strict : Nat → List Piece → Except Malformed (List Char)
  | _, [] => .ok []
  | i, .char c :: rest => (strict (i + width c) rest).map (c :: ·)
  | i, .malformed bs :: rest =>
    .error ⟨i, if rest.isEmpty && cutShort bs then none else some bs.length⟩

/-- The text of bytes that are UTF-8. -/
def decode? (bs : Bytes) : Except Malformed String := (strict 0 (decode bs)).map String.ofList

/-- The text of bytes, if they are UTF-8. -/
def text? (bs : Bytes) : Option String := (decode? bs).toOption

end Utf8

end ParameterManager
