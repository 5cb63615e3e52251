/-
Records on the wire.

A record is an object whose members have fixed names, in any order, or a list of the
members' values in the order of declaration.  Members it does not know are skipped.
A field says what its absence means: nothing, a value of its own, or a fault.
-/
import ParameterManager.Json.Wire

namespace ParameterManager.Json

/-- What the absence of a field means. -/
inductive Presence
  /-- The field has to be there. -/
  | required
  /-- An object may leave the field out, a list may not. -/
  | optional
  /-- The field may be left out. -/
  | defaulted
  deriving DecidableEq, Repr

/-- A field of a record of type `σ`: its wire gives the change it makes to a record. -/
structure Field (σ : Type) where
  name : String
  presence : Presence
  wire : Wire (σ → σ)

/-- A field whose value is put into the record by a function. -/
def Field.of {σ α : Type} (name : String) (presence : Presence) (w : Wire α)
    (set : α → σ → σ) : Field σ :=
  ⟨name, presence, w.map set⟩

/-- A record type: its name, the record without any field read, and its fields in order. -/
structure Record (σ : Type) where
  name : String
  initial : σ
  fields : List (Field σ)

namespace Record

variable {σ : Type}

/-- The kind of thing a record is. -/
def what (r : Record σ) : String := s!"struct {r.name}"

/-- The kind of list a record is. -/
def whatList (r : Record σ) : String :=
  let n := r.fields.length
  s!"{r.what} with {n} element" ++ if n = 1 then "" else "s"

def field? (r : Record σ) (name : String) : Option (Field σ) :=
  r.fields.find? fun f => f.name = name

/-- The first field that has to be there and is not among those read. -/
def missing? (r : Record σ) (seen : List String) : Option (Field σ) :=
  r.fields.find? fun f => f.presence = .required && !seen.contains f.name

/-- The record, once all members have been read. -/
def complete (r : Record σ) (seen : List String) (state : σ) : Except Cause σ :=
  match r.missing? seen with
  | some f => .error (.missingField f.name)
  | none => .ok state

/-- The members up to the end of the object.  A member read twice is a fault of the whole. -/
def readMembers (r : Record σ) : Nat → Bool → List String → σ → Reader (Except Cause σ)
  | 0, _, _, _ => Reader.failBeyond .endInObject
  | n + 1, first, seen, state => do
    if ← Reader.nextMember first then do
      let name ← memberName
      match r.field? name with
      | none => do
        Reader.colon
        skipValue
        readMembers r n false seen state
      | some f =>
        if seen.contains name then pure (.error (.duplicateField name))
        else do
          Reader.colon
          let change ← f.wire.read
          readMembers r n false (name :: seen) (change state)
    else pure (r.complete seen state)

/-- The values of the fields in order, up to the end of the list; `index` counts those
before. -/
def readItems (r : Record σ) : List (Field σ) → Nat → Bool → σ → Reader (Except Cause σ)
  | [], _, _, state => pure (.ok state)
  | f :: fields, index, first, state => do
    if ← Reader.nextItem first then do
      let change ← f.wire.read
      readItems r fields (index + 1) false (change state)
    else if f.presence = .defaulted then readItems r fields (index + 1) first state
    else pure (.error (.wrongLength index r.whatList))

/-- The record in a list of values already read; `length` is that of the whole list. -/
def ofItems (r : Record σ) (length : Nat) :
    List (Field σ) → List Json → Nat → σ → Except Cause σ
  | [], [], _, state => .ok state
  | [], _ :: _, _, _ => .error (.wrongLength length "fewer elements in array")
  | f :: fields, item :: items, index, state => do
    let change ← f.wire.ofJson item
    ofItems r length fields items (index + 1) (change state)
  | f :: fields, [], index, state =>
    if f.presence = .defaulted then ofItems r length fields [] (index + 1) state
    else .error (.wrongLength index r.whatList)

/-- The record in a list of members already read. -/
def ofMembers (r : Record σ) : List (String × Json) → List String → σ → Except Cause σ
  | [], seen, state => r.complete seen state
  | (name, value) :: members, seen, state =>
    match r.field? name with
    | none => ofMembers r members seen state
    | some f =>
      if seen.contains name then .error (.duplicateField name)
      else do
        let change ← f.wire.ofJson value
        ofMembers r members (name :: seen) (change state)

def wire (r : Record σ) : Wire σ where
  read := withToken fun ch =>
    if ch = '{' then do
      Reader.advance
      let n ← Reader.remaining
      let content ← r.readMembers (n + 1) true [] r.initial
      let fault? ← Reader.endObject
      Reader.closed content fault?
    else if ch = '[' then do
      Reader.advance
      let content ← r.readItems r.fields 0 true r.initial
      let fault? ← Reader.endList
      Reader.closed content fault?
    else mismatch r.what
  ofJson
    | .object members => r.ofMembers members [] r.initial
    | .array items => r.ofItems items.length r.fields items 0 r.initial
    | j => mismatchOf r.what j

end Record

/-! ### Whole texts -/

namespace Wire

variable {α : Type}

/-- The value that a text in memory stands for. -/
def ofString (w : Wire α) (s : String) : Except Error α := w.read.runAll (.ofString s)

/-- The value that bytes in memory stand for. -/
def ofBytes (w : Wire α) (bs : Bytes) : Except Error α := w.read.runAll (.ofBytes bs)

/-- The value that a stream of bytes stands for. -/
def ofStream (w : Wire α) (bs : Bytes) : Except Error α := w.read.runAll (.ofStream bs)

/-- The value that a value read before stands for. -/
def ofValue (w : Wire α) (j : Json) : Except Error α :=
  match w.ofJson j with
  | .ok a => .ok a
  | .error cause => .error ⟨cause, none⟩

end Wire

end ParameterManager.Json
