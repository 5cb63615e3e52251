/-
Reading a text piece by piece.

A cursor holds what is left of the text and where it stands.  A text comes from memory
or from a stream.  The two differ in one respect only: a stream cannot look at a byte
without taking it, so a fault that is noticed after a look is reported one byte later.
`here` and `beyond` are the two places a fault can be reported at, and every other
definition of the reader leaves that difference alone.
-/
import ParameterManager.Json.Error

namespace ParameterManager.Json

open Utf8 (Piece)

/-- A place in a text that is being read. -/
structure Cursor where
  rest : List Piece
  position : Position
  stream : Bool
  looked : Bool

namespace Cursor

/-- The cursor at the start of a text in memory. -/
def ofString (s : String) : Cursor := ⟨Utf8.pieces s, .start, false, false⟩

/-- The cursor at the start of bytes in memory. -/
def ofBytes (bs : Bytes) : Cursor := ⟨Utf8.decode bs, .start, false, false⟩

def ofStream (bs : Bytes) : Cursor := ⟨Utf8.decode bs, .start, true, false⟩

/-- The place after the next byte, if there is one. -/
def beyond (c : Cursor) : Position :=
  match c.rest with
  | [] => c.position
  | x :: _ => c.position.afterByte x

/-- The place that has been reached. -/
def here (c : Cursor) : Position := if c.stream && c.looked then c.beyond else c.position

/-- The cursor after the next piece. -/
def advance (c : Cursor) : Cursor :=
  match c.rest with
  | [] => c
  | x :: rest => ⟨rest, c.position.after x, c.stream, false⟩

end Cursor

/-- A computation that reads from a text and may fail. -/
abbrev Reader (α : Type) := Cursor → Except Error (α × Cursor)

namespace Reader

instance : Monad Reader where
  pure a := fun c => .ok (a, c)
  bind r f := fun c =>
    match r c with
    | .ok (a, c') => f a c'
    | .error e => .error e

/-- Fails at the place that has been reached. -/
def failHere {α : Type} (cause : Cause) : Reader α := fun c => .error ⟨cause, some c.here⟩

/-- Fails at the next byte, which counts as read. -/
def failBeyond {α : Type} (cause : Cause) : Reader α := fun c => .error ⟨cause, some c.beyond⟩

/-- The next character, if there is one; a malformed run shows as the replacement character. -/
def peek : Reader (Option Char) := fun c =>
  .ok (c.rest.head?.map Piece.shown, { c with looked := true })

/-- Moves past the next piece. -/
def advance : Reader Unit := fun c => .ok ((), c.advance)

/-- How many pieces are left: a bound on how often a loop can go round. -/
def remaining : Reader Nat := fun c => .ok (c.rest.length, c)

end Reader

/-! ### Blanks, fixed words and digits -/

/-- The four blanks that may stand between tokens. -/
def isBlank (c : Char) : Bool := c == ' ' || c == '\n' || c == '\t' || c == '\r'

/-- The rest of a text after the characters of a class, and the place reached. -/
def dropWhile (p : Char → Bool) : List Piece → Position → List Piece × Position
  | .char ch :: rest, pos =>
    if p ch then dropWhile p rest (pos.after (.char ch)) else (.char ch :: rest, pos)
  | rest, pos => (rest, pos)

/-- The characters of a class at the start of a text. -/
def takeWhile (p : Char → Bool) : List Piece → List Char
  | .char ch :: rest => if p ch then ch :: takeWhile p rest else []
  | _ => []

namespace Reader

/-- The next character that is no blank, if there is one. -/
def peekToken : Reader (Option Char) := fun c =>
  let (rest, position) := dropWhile isBlank c.rest c.position
  peek { c with rest, position }

/-- The rest of a fixed word. -/
def word : List Char → Reader Unit
  | [] => pure ()
  | expected :: rest => do
    match ← peek with
    | none => failHere .endInValue
    | some ch =>
      if ch = expected then
        advance
        word rest
      else failBeyond .expectedIdent

/-- The digits that come next. -/
def digits : Reader (List Char) := fun c =>
  let (rest, position) := dropWhile Char.isDigit c.rest c.position
  .ok (takeWhile Char.isDigit c.rest, { c with rest, position, looked := true })

/-- The colon between a name and its value. -/
def colon : Reader Unit := do
  match ← peekToken with
  | some ':' => advance
  | some _ => failBeyond .expectedColon
  | none => failBeyond .endInObject

/-! ### Lists and objects

`first` says whether no item has been read yet: only later ones follow a comma.
-/

/-- Whether another item of a list follows; the cursor is then at its start. -/
def nextItem (first : Bool) : Reader Bool := do
  match ← peekToken with
  | some ']' => pure false
  | some ch =>
    if first then pure true
    else if ch = ',' then
      advance
      match ← peekToken with
      | some ']' => failBeyond .trailingComma
      | some _ => pure true
      | none => failBeyond .endInValue
    else failBeyond .expectedListCommaOrEnd
  | none => failBeyond .endInList

/-- Whether another member of an object follows; the cursor is then at its name. -/
def nextMember (first : Bool) : Reader Bool := do
  match ← peekToken with
  | some '}' => pure false
  | some ch =>
    if first then
      if ch = '"' then pure true else failBeyond .keyMustBeString
    else if ch = ',' then
      advance
      match ← peekToken with
      | some '"' => pure true
      | some '}' => failBeyond .trailingComma
      | some _ => failBeyond .keyMustBeString
      | none => failBeyond .endInValue
    else failBeyond .expectedObjectCommaOrEnd
  | none => failBeyond .endInObject

/-- Moves past the end of a list, or says what stands there instead. -/
def endList : Reader (Option Cause) := do
  match ← peekToken with
  | some ']' =>
    advance
    pure none
  | some ',' =>
    advance
    match ← peekToken with
    | some ']' => pure (some .trailingComma)
    | _ => pure (some .trailingCharacters)
  | some _ => pure (some .trailingCharacters)
  | none => pure (some .endInList)

/-- Moves past the end of an object, or says what stands there instead. -/
def endObject : Reader (Option Cause) := do
  match ← peekToken with
  | some '}' =>
    advance
    pure none
  | some ',' => pure (some .trailingComma)
  | some _ => pure (some .trailingCharacters)
  | none => pure (some .endInObject)

/-- What was read between brackets, once the end has been read too.  A fault of the
content as a whole is reported after the end, and one of the end counts only if the
content has none. -/
def closed {α : Type} (content : Except Cause α) (fault? : Option Cause) : Reader α :=
  match content, fault? with
  | .ok a, none => pure a
  | .ok _, some fault => failBeyond fault
  | .error cause, _ => failHere cause

/-- The end of the text. -/
def finish : Reader Unit := do
  match ← peekToken with
  | some _ => failBeyond .trailingCharacters
  | none => pure ()

/-- The result of a reader on a whole text. -/
def runAll {α : Type} (r : Reader α) (c : Cursor) : Except Error α :=
  ((do let a ← r; finish; pure a : Reader α) c).map (·.1)

end Reader

end ParameterManager.Json
