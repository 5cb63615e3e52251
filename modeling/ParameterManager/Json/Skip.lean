/-
Skipping a value of any kind.

A value nobody asked for has to be well formed, but it may be nested to any depth, so
the open brackets are kept in a list rather than on the stack.
-/
import ParameterManager.Json.Literal

namespace ParameterManager.Json

/-- An open bracket. -/
inductive Bracket
  | list
  | object
  deriving DecidableEq, Repr

/-- The sign that closes a bracket. -/
def Bracket.close : Bracket → Char
  | list => ']'
  | object => '}'

/-- The fault of a text that ends inside a bracket. -/
def Bracket.atEnd : Bracket → Cause
  | list => .endInList
  | object => .endInObject

/-- The fault of an item that is followed by neither a comma nor the end. -/
def Bracket.expectedComma : Bracket → Cause
  | list => .expectedListCommaOrEnd
  | object => .expectedObjectCommaOrEnd

/-- A value without items, or the opening of one that has some. -/
def skipStart : Reader (Option Bracket) := do
  match ← Reader.peekToken with
  | none => Reader.failBeyond .endInValue
  | some ch =>
    if ch = 'n' then do
      Reader.advance
      Reader.word ['u', 'l', 'l']
      pure none
    else if ch = 't' then do
      Reader.advance
      Reader.word ['r', 'u', 'e']
      pure none
    else if ch = 'f' then do
      Reader.advance
      Reader.word ['a', 'l', 's', 'e']
      pure none
    else if ch = '-' then do
      Reader.advance
      skipNumberRest
      pure none
    else if ch.isDigit then do
      skipNumberRest
      pure none
    else if ch = '"' then do
      Reader.advance
      skipString
      pure none
    else if ch = '[' then do
      Reader.advance
      pure (some .list)
    else if ch = '{' then do
      Reader.advance
      pure (some .object)
    else Reader.failBeyond .expectedValue

/-- Closes brackets up to the next item; `done` says whether an item has just been
skipped.  The result is the brackets still open, none if the whole value has been skipped. -/
def skipClosings : Nat → Bool → Bracket → List Bracket → Reader (List Bracket)
  | 0, _, top, _ => Reader.failBeyond top.atEnd
  | n + 1, done, top, outer => do
    match ← Reader.peekToken with
    | none => Reader.failBeyond top.atEnd
    | some ch =>
      if ch = top.close then do
        Reader.advance
        match outer with
        | [] => pure []
        | next :: outer => skipClosings n true next outer
      else if !done then pure (top :: outer)
      else if ch = ',' then do
        Reader.advance
        pure (top :: outer)
      else Reader.failBeyond top.expectedComma

/-- Skips the name of a member and the colon. -/
def skipName : Reader Unit := do
  match ← Reader.peekToken with
  | some '"' => do
    Reader.advance
    skipString
    Reader.colon
  | some _ => Reader.failBeyond .keyMustBeString
  | none => Reader.failBeyond .endInObject

/-- Skips a value inside some open brackets, and what follows it up to the last of them. -/
def skipWithin : Nat → List Bracket → Reader Unit
  | 0, _ => Reader.failBeyond .endInValue
  | n + 1, stack => do
    let opened ← skipStart
    let inner ← match opened, stack with
      | some b, _ => skipClosings n false b stack
      | none, [] => pure []
      | none, top :: outer => skipClosings n true top outer
    match inner with
    | [] => pure ()
    | .list :: _ => skipWithin n inner
    | .object :: _ => do
      skipName
      skipWithin n inner

def skipValue : Reader Unit := do
  let n ← Reader.remaining
  skipWithin (n + 1) []

end ParameterManager.Json
