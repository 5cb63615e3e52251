/-
Percent encoding.

A byte is written as itself, or as a percent sign and two capital digits.  Which bytes
are written as themselves depends on the place: each component of an address has its
own set.  Bytes outside ASCII are never written as themselves.
-/
import ParameterManager.Text.Quoted

namespace ParameterManager.Percent

/-! ### The sets of bytes that are encoded -/

/-- Control characters. -/
def isControl (b : Nat) : Bool := b < 0x20 || b == 0x7F

/-- Whether a byte is the code of one of some characters. -/
def isOneOf (chars : List Char) (b : Nat) : Bool := chars.any fun c => c.toNat == b

/-- What is encoded in a fragment. -/
def inFragment (b : Nat) : Bool := isControl b || isOneOf [' ', '"', '<', '>', '\x60'] b

/-- What is encoded in a path. -/
def inPath (b : Nat) : Bool := inFragment b || isOneOf ['#', '?', '{', '}'] b

/-- What is encoded in a segment that is put into a path whole. -/
def inSegment (b : Nat) : Bool := inPath b || isOneOf ['/', '%', '\\'] b

/-- What is encoded in the name and the password of a user. -/
def inUserinfo (b : Nat) : Bool :=
  inPath b || isOneOf ['/', ':', ';', '=', '@', '[', '\\', ']', '^', '|'] b

/-- What is encoded in a query. -/
def inQuery (b : Nat) : Bool := isControl b || isOneOf [' ', '"', '#', '<', '>'] b

/-- What is encoded in the query of an address of the web. -/
def inWebQuery (b : Nat) : Bool := inQuery b || b == 0x27

/-! ### Encoding and decoding -/

/-- A byte as a percent sign and two digits. -/
def encodeByte (b : UInt8) : List Char := '%' :: Text.hexByte b

/-- Bytes as text, those of a set and those outside ASCII encoded. -/
def encodeBytes (set : Nat → Bool) (bs : Bytes) : List Char :=
  bs.flatMap fun b =>
    if 0x80 ≤ b.toNat || set b.toNat then encodeByte b else [Char.ofNat b.toNat]

/-- Characters as text, those of a set and those outside ASCII encoded. -/
def encodeChars (set : Nat → Bool) (cs : List Char) : List Char :=
  encodeBytes set (Utf8.encodeChars cs)

/-- A text with the characters of a set and those outside ASCII encoded. -/
def encode (set : Nat → Bool) (s : String) : String := String.ofList (encodeChars set s.toList)

/-- The value of a byte that is a digit in base sixteen. -/
def hexValue? (b : UInt8) : Option Nat :=
  let n := b.toNat
  if 0x30 ≤ n ∧ n ≤ 0x39 then some (n - 0x30)
  else if 0x61 ≤ n ∧ n ≤ 0x66 then some (n - 0x57)
  else if 0x41 ≤ n ∧ n ≤ 0x46 then some (n - 0x37)
  else none

/-- The byte that a percent sign and two digits at the start of some bytes stand for, and
the bytes after them. -/
def escape? : Bytes → Option (UInt8 × Bytes)
  | p :: a :: b :: rest =>
    if p.toNat = 0x25 then
      match hexValue? a, hexValue? b with
      | some a, some b => some (UInt8.ofNat (a * 16 + b), rest)
      | _, _ => none
    else none
  | _ => none

theorem escape?_length {bs rest : Bytes} {b : UInt8} (h : escape? bs = some (b, rest)) :
    rest.length < bs.length := by
  unfold escape? at h
  split at h
  · split at h
    · split at h
      · simp only [Option.some.injEq, Prod.mk.injEq] at h
        obtain ⟨-, rfl⟩ := h
        simp only [List.length_cons]
        omega
      · simp at h
    · simp at h
  · simp at h

/-- Bytes with every escape decoded, except the escapes of bytes in a set; a percent sign
without two digits stands for itself. -/
def decodeExcept (kept : Nat → Bool) : Bytes → Bytes
  | [] => []
  | b :: bs =>
    match _found : escape? (b :: bs) with
    | some (e, rest) =>
      if kept e.toNat then b :: decodeExcept kept bs else e :: decodeExcept kept rest
    | none => b :: decodeExcept kept bs
termination_by bs => bs.length
decreasing_by
  · simp
  · exact escape?_length _found
  · simp

/-- Bytes with every escape decoded. -/
def decode (bs : Bytes) : Bytes := decodeExcept (fun _ => false) bs

end ParameterManager.Percent
