/-
Strings and numbers in a text.

A string is read up to its closing quotation mark and may hold escapes; a character
outside the basic plane is escaped as two surrogates.  Where a string is skipped, its
escapes must have the right form but need not name characters.

A number is read digit by digit into a significand of 64 bits.  What does not fit is
counted as a power of ten, and a number with a fraction or an exponent becomes the
double nearest to what one multiplication or division by a power of ten gives.
-/
import ParameterManager.Json.Cursor

namespace ParameterManager.Json

open Utf8 (Piece)

/-! ### Escapes -/

/-- The value of a digit in base sixteen. -/
def hexValue? (c : Char) : Option Nat :=
  if '0' ≤ c ∧ c ≤ '9' then some (c.toNat - 0x30)
  else if 'a' ≤ c ∧ c ≤ 'f' then some (c.toNat - 0x57)
  else if 'A' ≤ c ∧ c ≤ 'F' then some (c.toNat - 0x37)
  else none

/-- The number written by the four digits at the start of a text. -/
def hexQuad? : List Piece → Option Nat
  | .char a :: .char b :: .char c :: .char d :: _ => do
    let a ← hexValue? a
    let b ← hexValue? b
    let c ← hexValue? c
    let d ← hexValue? d
    pure (((a * 16 + b) * 16 + c) * 16 + d)
  | _ => none

/-- How many bytes some pieces cover. -/
def byteCount (pieces : List Piece) : Nat := pieces.foldl (fun n x => n + x.width) 0

/-- The four digits of an escape.  Four bytes count as read even if they are no digits. -/
def hexQuad : Reader Nat := fun c =>
  match hexQuad? c.rest with
  | some n => .ok (n, c.advance.advance.advance.advance)
  | none =>
    if byteCount (c.rest.take 4) < 4 then .error ⟨.endInString, some (c.position.atEnd c.rest)⟩
    else .error ⟨.invalidEscape, some (c.position.forward 4 c.rest)⟩

/-- Whether a number is the first or the second half of a pair of surrogates. -/
def isLeadSurrogate (n : Nat) : Bool := 0xD800 ≤ n && n ≤ 0xDBFF

/-- Whether a number is the second half of a pair of surrogates. -/
def isTrailSurrogate (n : Nat) : Bool := 0xDC00 ≤ n && n ≤ 0xDFFF

/-- One fixed character of the escape that must follow a first surrogate. -/
def secondHalfMark (expected : Char) : Reader Unit := do
  match ← Reader.peek with
  | none => Reader.failHere .endInString
  | some ch =>
    if ch = expected then Reader.advance else Reader.failBeyond .unexpectedEndOfHexEscape

/-- The character of an escape by number, after its letter. -/
def numberedEscape : Reader Char := do
  let n ← hexQuad
  if isTrailSurrogate n then Reader.failHere .loneSurrogate
  else if isLeadSurrogate n then do
    secondHalfMark '\\'
    secondHalfMark 'u'
    let m ← hexQuad
    if isTrailSurrogate m then
      pure (Char.ofNat (0x10000 + (n - 0xD800) * 0x400 + (m - 0xDC00)))
    else Reader.failHere .loneSurrogate
  else pure (Char.ofNat n)

/-- The character of an escape by a letter or a sign of its own. -/
def letterEscape? (c : Char) : Option Char :=
  if c = '"' ∨ c = '\\' ∨ c = '/' then some c
  else if c = 'b' then some (Char.ofNat 0x8)
  else if c = 'f' then some (Char.ofNat 0xC)
  else if c = 'n' then some '\n'
  else if c = 'r' then some '\r'
  else if c = 't' then some '\t'
  else none

/-- The character of an escape, after the backslash. -/
def escape : Reader Char := do
  match ← Reader.peek with
  | none => Reader.failHere .endInString
  | some ch =>
    match letterEscape? ch with
    | some c => do
      Reader.advance
      pure c
    | none =>
      if ch = 'u' then do
        Reader.advance
        numberedEscape
      else Reader.failBeyond .invalidEscape

/-- An escape that is skipped: its form counts, not the character it names. -/
def skippedEscape : Reader Unit := do
  match ← Reader.peek with
  | none => Reader.failHere .endInString
  | some ch =>
    if (letterEscape? ch).isSome then Reader.advance
    else if ch = 'u' then do
      Reader.advance
      let _ ← hexQuad
      pure ()
    else Reader.failBeyond .invalidEscape

/-! ### Strings

The bound is the length of the text: every character and every escape takes some of it.
-/

/-- The characters up to the closing quotation mark, put before those read so far in
reverse; `fault?` is the place of the first byte that belongs to no character.  A string
has to end before that is held against it. -/
def stringBody : Nat → List Char → Option Position → Reader String
  | 0, _, _ => Reader.failHere .endInString
  | n + 1, acc, fault? => fun c =>
    match c.rest with
    | [] => Reader.failHere .endInString c
    | .malformed _ :: _ => stringBody n acc (fault? <|> some c.beyond) c.advance
    | .char ch :: _ =>
      if ch = '"' then
        match fault? with
        | none => .ok (String.ofList acc.reverse, c.advance)
        | some place => .error ⟨.invalidCodePoint, some place⟩
      else if ch = '\\' then
        match escape c.advance with
        | .ok (e, c') => stringBody n (e :: acc) fault? c'
        | .error e => .error e
      else if ch.toNat < 0x20 then Reader.failBeyond .controlCharacter c
      else stringBody n (ch :: acc) fault? c.advance

/-- A string, after its opening quotation mark. -/
def stringRest : Reader String := fun c => stringBody (c.rest.length + 1) [] none c

/-- The rest of a string that is skipped. -/
def skipStringBody : Nat → Reader Unit
  | 0 => Reader.failHere .endInString
  | n + 1 => fun c =>
    match c.rest with
    | [] => Reader.failHere .endInString c
    | .malformed _ :: _ => skipStringBody n c.advance
    | .char ch :: _ =>
      if ch = '"' then .ok ((), c.advance)
      else if ch = '\\' then
        match skippedEscape c.advance with
        | .ok (_, c') => skipStringBody n c'
        | .error e => .error e
      else if ch.toNat < 0x20 then
        -- a stream has taken the control character, a text in memory has not
        if c.stream then Reader.failBeyond .controlCharacter c
        else .error ⟨.controlCharacter, some c.position⟩
      else skipStringBody n c.advance

/-- Skips a string, after its opening quotation mark. -/
def skipString : Reader Unit := fun c => skipStringBody (c.rest.length + 1) c

/-! ### Numbers -/

/-- The greatest significand. -/
def maxSignificand : Nat := 0xFFFFFFFFFFFFFFFF

/-- The value of a decimal digit. -/
def digitValue (c : Char) : Nat := c.toNat - 0x30

/-- A significand with as many digits appended as fit, and the digits that do not. -/
def absorb : Nat → List Char → Nat × List Char
  | significand, [] => (significand, [])
  | significand, d :: ds =>
    let next := significand * 10 + digitValue d
    if next ≤ maxSignificand then absorb next ds else (significand, d :: ds)

/-- The double nearest to a power of ten. -/
def powerOfTen (n : Nat) : Float := Float.ofScientific 1 false n

/-- A double times a power of ten, unless that is too large; powers beyond the range of a
double are applied in steps. -/
def scaleByTen (f : Float) (e : Int) : Option Float :=
  if -308 ≤ e ∧ e ≤ 308 then
    if 0 ≤ e then
      let r := f * powerOfTen e.toNat
      if r.isInf then none else some r
    else some (f / powerOfTen (-e).toNat)
  else if f == 0 then some f
  else if 0 ≤ e then none
  else scaleByTen (f / powerOfTen 308) (e + 308)
termination_by (-e).toNat
decreasing_by omega

/-- The number with a significand and a power of ten. -/
def floating (positive : Bool) (significand : Nat) (exponent : Int) : Reader Number :=
  match scaleByTen significand.toUInt64.toFloat exponent with
  | some f => pure (.float (if positive then f else -f))
  | none => Reader.failHere .numberOutOfRange

/-- The whole number with a significand, a double if it is negative zero or too small. -/
def whole (positive : Bool) (significand : Nat) : Number :=
  if positive then .int significand
  else if 1 ≤ significand ∧ significand ≤ 0x8000000000000000 then .int (-significand)
  else .float (-significand.toUInt64.toFloat)

/-- The greatest exponent that can be written. -/
def maxExponent : Nat := 0x7FFFFFFF

/-- How many digits of an exponent are read until it is too large, if it ever is. -/
def exponentOverflow? : Nat → Nat → List Char → Option Nat
  | _, _, [] => none
  | count, value, d :: ds =>
    let next := value * 10 + digitValue d
    if next ≤ maxExponent then exponentOverflow? (count + 1) next ds else some (count + 1)

def decimalValue (ds : List Char) : Nat := ds.foldl (fun n d => n * 10 + digitValue d) 0

/-- A power of ten within the range of exponents. -/
def clampExponent (e : Int) : Int := max (-0x80000000) (min e 0x7FFFFFFF)

/-- The sign of an exponent, if one is written. -/
def exponentSign : Reader Bool := do
  match ← Reader.peek with
  | some '+' => do
    Reader.advance
    pure true
  | some '-' => do
    Reader.advance
    pure false
  | _ => pure true

/-- The rest of a number from the letter of its exponent on. -/
def exponentPart (positive : Bool) (significand : Nat) (exponent : Int) : Reader Number := do
  Reader.advance
  let up ← exponentSign
  match ← Reader.peek with
  | none => Reader.failHere .endInValue
  | some ch =>
    if !ch.isDigit then Reader.failBeyond .invalidNumber
    else fun c =>
      match Reader.digits c with
      | .error e => .error e
      | .ok (ds, c') =>
        match exponentOverflow? 0 0 ds with
        | some count =>
          if significand ≠ 0 ∧ up then
            .error ⟨.numberOutOfRange, some ⟨c.position.line, c.position.column + count⟩⟩
          else .ok (.float (if positive then 0.0 else -0.0), c')
        | none =>
          let e : Int := decimalValue ds
          floating positive significand (clampExponent (if up then exponent + e else exponent - e)) c'

/-- The rest of a number from its point on. -/
def fractionPart (positive : Bool) (significand : Nat) (exponent : Int) : Reader Number := do
  Reader.advance
  let ds ← Reader.digits
  match ds, ← Reader.peek with
  | [], some _ => Reader.failBeyond .invalidNumber
  | [], none => Reader.failBeyond .endInValue
  | _ :: _, next =>
    let (significand, left) := absorb significand ds
    let exponent := exponent - (ds.length - left.length : Nat)
    if next = some 'e' ∨ next = some 'E' then exponentPart positive significand exponent
    else floating positive significand exponent

/-- The rest of a number after the digits before its point. -/
def afterWhole (positive : Bool) (ds : List Char) : Reader Number := do
  let (significand, left) := absorb 0 ds
  let next ← Reader.peek
  if next = some '.' then fractionPart positive significand left.length
  else if next = some 'e' ∨ next = some 'E' then exponentPart positive significand left.length
  else if left.isEmpty then pure (whole positive significand)
  else floating positive significand left.length

/-- A number, after its sign. -/
def numberRest (positive : Bool) : Reader Number := do
  match ← Reader.peek with
  | none => Reader.failHere .endInValue
  | some ch =>
    if ch = '0' then do
      Reader.advance
      match ← Reader.peek with
      | some d => if d.isDigit then Reader.failBeyond .invalidNumber else afterWhole positive ['0']
      | none => afterWhole positive ['0']
    else if ch.isDigit then do
      let ds ← Reader.digits
      afterWhole positive ds
    else Reader.failBeyond .invalidNumber

/-- A number, its first character being a digit or the sign. -/
def signedNumber : Reader Number := do
  match ← Reader.peek with
  | some '-' => do
    Reader.advance
    numberRest false
  | _ => numberRest true

/-- Skips the exponent of a number, its letter being next. -/
def skipExponent : Reader Unit := do
  Reader.advance
  let _ ← exponentSign
  match ← Reader.peek with
  | some ch =>
    if ch.isDigit then do
      let _ ← Reader.digits
      pure ()
    else Reader.failBeyond .invalidNumber
  | none => Reader.failBeyond .invalidNumber

/-- Skips what may follow the digits before the point. -/
def skipAfterWhole : Reader Unit := do
  let next ← Reader.peek
  if next = some '.' then do
    Reader.advance
    let ds ← Reader.digits
    if ds.isEmpty then Reader.failBeyond .invalidNumber
    else do
      let next ← Reader.peek
      if next = some 'e' ∨ next = some 'E' then skipExponent else pure ()
  else if next = some 'e' ∨ next = some 'E' then skipExponent
  else pure ()

/-- Skips a number, after its sign: its size does not count. -/
def skipNumberRest : Reader Unit := do
  match ← Reader.peek with
  | none => Reader.failBeyond .invalidNumber
  | some ch =>
    if ch = '0' then do
      Reader.advance
      match ← Reader.peek with
      | some d => if d.isDigit then Reader.failBeyond .invalidNumber else skipAfterWhole
      | none => skipAfterWhole
    else if ch.isDigit then do
      let _ ← Reader.digits
      skipAfterWhole
    else Reader.failBeyond .invalidNumber

end ParameterManager.Json
