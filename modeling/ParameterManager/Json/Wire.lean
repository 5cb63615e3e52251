/-
How a type is written on the wire.

A `Wire α` reads an `α` from a text and from a value that has been read before.  The
two agree on what they accept, and differ in that only the first knows places.  This
file has the wires of texts, counts, flags, choices and tables, and of values of any
kind; records are built from them elsewhere.
-/
import ParameterManager.Json.Skip

namespace ParameterManager.Json

/-- A way to read a type, from a text and from a value. -/
structure Wire (α : Type) where
  read : Reader α
  ofJson : Json → Except Cause α

namespace Wire

variable {α β : Type}

/-- A wire whose result is changed by a function. -/
def map (f : α → β) (w : Wire α) : Wire β where
  read := do
    let a ← w.read
    pure (f a)
  ofJson j := (w.ofJson j).map f

/-- A wire whose result is tested by a function that may refuse it. -/
def check (f : α → Except Cause β) (w : Wire α) : Wire β where
  read := do
    let a ← w.read
    match f a with
    | .ok b => pure b
    | .error cause => Reader.failHere cause
  ofJson j := w.ofJson j >>= f

end Wire

/-! ### Values of another kind -/

/-- Fails because the value that comes next is not of the kind expected. -/
def mismatch {α : Type} (expected : String) : Reader α := do
  match ← Reader.peek with
  | none => Reader.failBeyond .expectedValue
  | some ch =>
    if ch = 'n' then do
      Reader.advance
      Reader.word ['u', 'l', 'l']
      Reader.failHere (.wrongType .null expected)
    else if ch = 't' then do
      Reader.advance
      Reader.word ['r', 'u', 'e']
      Reader.failHere (.wrongType (.bool true) expected)
    else if ch = 'f' then do
      Reader.advance
      Reader.word ['a', 'l', 's', 'e']
      Reader.failHere (.wrongType (.bool false) expected)
    else if ch = '-' ∨ ch.isDigit then do
      let n ← signedNumber
      Reader.failHere (.wrongType (.number n) expected)
    else if ch = '"' then do
      Reader.advance
      let s ← stringRest
      Reader.failHere (.wrongType (.string s) expected)
    else if ch = '[' then Reader.failHere (.wrongType .sequence expected)
    else if ch = '{' then Reader.failHere (.wrongType .map expected)
    else Reader.failBeyond .expectedValue

/-- Fails because a value is not of the kind expected. -/
def mismatchOf {α : Type} (expected : String) (j : Json) : Except Cause α :=
  .error (.wrongType (found j) expected)

/-- A reader of the value that starts with the next token, if there is one. -/
def withToken {α : Type} (f : Char → Reader α) : Reader α := do
  match ← Reader.peekToken with
  | none => Reader.failBeyond .endInValue
  | some ch => f ch

namespace Wire

/-! ### Scalars -/

/-- A text; `what` is what the reader of a message is told to have been expected. -/
def text (what : String) : Wire String where
  read := withToken fun ch =>
    if ch = '"' then do
      Reader.advance
      stringRest
    else mismatch what
  ofJson
    | .string s => .ok s
    | j => mismatchOf what j

def string : Wire String := text "a string"

def flag : Wire Bool where
  read := withToken fun ch =>
    if ch = 't' then do
      Reader.advance
      Reader.word ['r', 'u', 'e']
      pure true
    else if ch = 'f' then do
      Reader.advance
      Reader.word ['a', 'l', 's', 'e']
      pure false
    else mismatch "a boolean"
  ofJson
    | .bool b => .ok b
    | j => mismatchOf "a boolean" j

/-- The count that a number stands for, if it is one of `bits` bits. -/
def toCount (bits : Nat) (n : Number) : Except Cause Nat :=
  match n with
  | .int i =>
    if 0 ≤ i ∧ i < Nat.pow 2 bits then .ok i.toNat
    else .error (.wrongValue (.number n) s!"u{bits}")
  | .float _ => .error (.wrongType (.number n) s!"u{bits}")

def count (bits : Nat) : Wire Nat where
  read := withToken fun ch =>
    if ch = '-' ∨ ch.isDigit then do
      let n ← signedNumber
      match toCount bits n with
      | .ok k => pure k
      | .error cause => Reader.failHere cause
    else mismatch s!"u{bits}"
  ofJson
    | .number n => toCount bits n
    | j => mismatchOf s!"u{bits}" j

/-- Nothing but `null`. -/
def unit : Wire Unit where
  read := withToken fun ch =>
    if ch = 'n' then do
      Reader.advance
      Reader.word ['u', 'l', 'l']
    else mismatch "unit"
  ofJson
    | .null => .ok ()
    | j => mismatchOf "unit" j

/-- A value that may be `null` instead. -/
def optional {α : Type} (w : Wire α) : Wire (Option α) where
  read := do
    match ← Reader.peekToken with
    | some 'n' => do
      Reader.advance
      Reader.word ['u', 'l', 'l']
      pure none
    | _ => do
      let a ← w.read
      pure (some a)
  ofJson
    | .null => .ok none
    | j => (w.ofJson j).map some

/-! ### Choices

A choice is a string, or an object whose only member is named for it and is `null`.
-/

/-- The choice with a name. -/
def chosen {α : Type} (variants : List (String × α)) (name : String) : Except Cause α :=
  match lookupEntry name variants with
  | some a => .ok a
  | none => .error (.unknownVariant name (variants.map (·.1)))

/-- One of some named values. -/
def choice {α : Type} (variants : List (String × α)) : Wire α where
  read := withToken fun ch =>
    if ch = '"' then (string.check (chosen variants)).read
    else if ch = '{' then do
      Reader.advance
      match ← Reader.peekToken with
      | none => Reader.failBeyond .endInObject
      | some _ => do
        let a ← ((text "variant identifier").check (chosen variants)).read
        Reader.colon
        unit.read
        match ← Reader.peekToken with
        | some '}' => do
          Reader.advance
          pure a
        | some _ => Reader.failHere .expectedValue
        | none => Reader.failHere .endInObject
    else Reader.failBeyond .expectedValue
  ofJson
    | .string s => chosen variants s
    | .object [(name, value)] => do
      let a ← chosen variants name
      let _ ← unit.ofJson value
      pure a
    | .object _ => .error (.wrongValue .map "map with a single key")
    | j => mismatchOf "string or map" j

end Wire

/-! ### Lists and tables -/

/-- The items of a list up to its end, put after those read so far in reverse. -/
def readItems {α : Type} (one : Reader α) : Nat → List α → Reader (List α)
  | 0, _ => Reader.failBeyond .endInList
  | n + 1, acc => do
    if ← Reader.nextItem acc.isEmpty then do
      let a ← one
      readItems one n (a :: acc)
    else pure acc.reverse

/-- The name of a member, the cursor being at its start. -/
def memberName : Reader String := do
  Reader.advance
  stringRest

/-- The members of an object up to its end, put after those read so far in reverse. -/
def readMembers {α : Type} (one : Reader α) :
    Nat → List (String × α) → Reader (List (String × α))
  | 0, _ => Reader.failBeyond .endInObject
  | n + 1, acc => do
    if ← Reader.nextMember acc.isEmpty then do
      let name ← memberName
      Reader.colon
      let a ← one
      readMembers one n ((name, a) :: acc)
    else pure acc.reverse

/-- The members of an object with values of one type, after its opening bracket. -/
def membersOf {α : Type} (one : Reader α) : Reader (List (String × α)) := do
  let n ← Reader.remaining
  let members ← readMembers one (n + 1) []
  let fault? ← Reader.endObject
  Reader.closed (.ok members) fault?

/-- The items of a list with values of one type, after its opening bracket. -/
def itemsOf {α : Type} (one : Reader α) : Reader (List α) := do
  let n ← Reader.remaining
  let items ← readItems one (n + 1) []
  let fault? ← Reader.endList
  Reader.closed (.ok items) fault?

/-- A table of values of one type; of several members of one name the last counts. -/
def Wire.table {α : Type} (w : Wire α) : Wire (Table α) where
  read := withToken fun ch =>
    if ch = '{' then do
      Reader.advance
      let members ← membersOf w.read
      pure (Table.ofList members)
    else mismatch "a map"
  ofJson
    | .object members => do
      let entries ← members.mapM fun m => do
        let a ← w.ofJson m.2
        pure (m.1, a)
      pure (Table.ofList entries)
    | j => mismatchOf "a map" j

/-! ### Values of any kind -/

/-- A value nested at most so deeply. -/
def readValue (depth : Nat) : Reader Json := withToken fun ch =>
  if ch = 'n' then do
    Reader.advance
    Reader.word ['u', 'l', 'l']
    pure .null
  else if ch = 't' then do
    Reader.advance
    Reader.word ['r', 'u', 'e']
    pure (.bool true)
  else if ch = 'f' then do
    Reader.advance
    Reader.word ['a', 'l', 's', 'e']
    pure (.bool false)
  else if ch = '-' ∨ ch.isDigit then do
    let n ← signedNumber
    pure (.number n)
  else if ch = '"' then do
    Reader.advance
    let s ← stringRest
    pure (.string s)
  else if ch = '[' then
    match depth with
    | 0 => Reader.failBeyond .recursionLimit
    | depth + 1 => do
      Reader.advance
      let items ← itemsOf (readValue depth)
      pure (.array items)
  else if ch = '{' then
    match depth with
    | 0 => Reader.failBeyond .recursionLimit
    | depth + 1 => do
      Reader.advance
      let members ← membersOf (readValue depth)
      pure (sorted members)
  else Reader.failBeyond .expectedValue

/-- How deeply a value may be nested. -/
def maxDepth : Nat := 127

/-- A value of any kind. -/
def Wire.any : Wire Json where
  read := readValue maxDepth
  ofJson := .ok

end ParameterManager.Json
