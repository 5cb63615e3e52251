/-
Trees of files.

A tree maps places, given by the parts of their names from the root, to files and
directories.  A file name is walked part by part: each part but the last has to name a
directory, and going up from the root stays there.  Every operation either fails and
leaves the tree alone, or changes one place; only `createDirectories` may add several.
-/
import ParameterManager.FileTree.Path
import ParameterManager.OsError

namespace ParameterManager

/-- What stands at a place. -/
inductive FileNode
  | file (content : Bytes)
  | directory
  /-- A file that reads as empty and takes everything written to it. -/
  | sink
  deriving DecidableEq, Repr

/-- A tree of files, and the place from which relative names start. -/
structure FileTree where
  entries : List (List Bytes × FileNode)
  start : List Bytes
  deriving Repr, Inhabited

/-- Why an operation on files failed. -/
inductive FileError
  | os (error : OsError)
  | nulByte
  deriving DecidableEq, Repr

/-- The wording of a failure. -/
def FileError.message : FileError → String
  | os e => e.message
  | nulByte => "file name contained an unexpected NUL byte"

/-- Where a file name leads: to a place that is there, or to one that is not, in a
directory that is. -/
inductive Spot
  | found (place : List Bytes)
  | absent (place : List Bytes)
  deriving DecidableEq, Repr

namespace FileTree

/-- What stands at a place; the root is always a directory. -/
def node? (t : FileTree) (place : List Bytes) : Option FileNode :=
  if place = [] then some .directory else t.entries.lookup place

def put (t : FileTree) (place : List Bytes) (node : FileNode) : FileTree :=
  { t with entries := (place, node) :: t.entries.filter (·.1 ≠ place) }

/-- The tree without a place and what is under it. -/
def erase (t : FileTree) (place : List Bytes) : FileTree :=
  { t with entries := t.entries.filter fun e => !place.isPrefixOf e.1 }

/-! ### Walking -/

/-- The greatest length of a part of a name. -/
def maxPart : Nat := 255

/-- The greatest length of a name. -/
def maxName : Nat := 4095

/-- The spot that some parts lead to from a place that is there. -/
def walk (t : FileTree) (place : List Bytes) : List Bytes → Except OsError Spot
  | [] => .ok (.found place)
  | part :: rest =>
    if t.node? place ≠ some .directory then .error .notDirectory
    else if part = [] ∨ part = [FilePath.dot] then walk t place rest
    else if part = [FilePath.dot, FilePath.dot] then walk t place.dropLast rest
    else if maxPart < part.length then .error .nameTooLong
    else if (t.node? (place ++ [part])).isSome then walk t (place ++ [part]) rest
    else if rest.all (· = []) then .ok (.absent (place ++ [part]))
    else .error .notFound

/-- The spot that a file name leads to. -/
def spot (t : FileTree) (p : FilePath) : Except FileError Spot :=
  if p.bytes.contains 0 then .error .nulByte
  else if p.bytes = [] then .error (.os .notFound)
  else if maxName < p.bytes.length then .error (.os .nameTooLong)
  else
    match t.walk (if p.isAbsolute then [] else t.start) p.parts with
    | .ok s => .ok s
    | .error e => .error (.os e)

/-! ### Operations -/

/-- Whether a file name leads to something that is there. -/
def isThere (t : FileTree) (p : FilePath) : Bool :=
  match t.spot p with
  | .ok (.found _) => true
  | _ => false

/-- What can be opened under a name: bytes, or a directory, which cannot be read. -/
inductive Opened
  | bytes (content : Bytes)
  | directory

/-- Opens the file of a name for reading. -/
def openFile (t : FileTree) (p : FilePath) : Except FileError Opened :=
  match t.spot p with
  | .ok (.found place) =>
    match t.node? place with
    | some (.file content) => .ok (.bytes content)
    | some .sink => .ok (.bytes [])
    | _ => .ok .directory
  | .ok (.absent _) => .error (.os .notFound)
  | .error e => .error e

/-- Whether a name can only be that of a directory. -/
def hasTrailingSlash (p : FilePath) : Bool := p.bytes.getLast? == some FilePath.slash

/-- A name without slashes at its end. -/
def dropTrailingSlashes (p : FilePath) : FilePath :=
  ⟨(p.bytes.reverse.dropWhile (· = FilePath.slash)).reverse⟩

/-- Makes the content of a file what is given, creating the file if it is not there. -/
def writeFile (t : FileTree) (p : FilePath) (content : Bytes) : Except FileError FileTree :=
  if hasTrailingSlash p ∧ dropTrailingSlashes p ≠ ⟨[]⟩ then
    match t.spot (dropTrailingSlashes p) with
    | .ok _ => .error (.os .isDirectory)
    | .error e => .error e
  else
    match t.spot p with
    | .ok (.found place) =>
      match t.node? place with
      | some (.file _) => .ok (t.put place (.file content))
      | some .sink => .ok t
      | _ => .error (.os .isDirectory)
    | .ok (.absent place) => .ok (t.put place (.file content))
    | .error e => .error e

def createDirectory (t : FileTree) (p : FilePath) : Except FileError FileTree :=
  match t.spot p with
  | .ok (.found _) => .error (.os .alreadyExists)
  | .ok (.absent place) => .ok (t.put place .directory)
  | .error e => .error e

/-- Whether a name leads to a directory. -/
def isDirectory (t : FileTree) (p : FilePath) : Bool :=
  match t.spot p with
  | .ok (.found place) => t.node? place == some .directory
  | _ => false

/-- Creates a directory and its parents; the bound is the number of parents.  A directory
that is there already is left alone, and what was created before a failure stays. -/
def createDirectoriesWithin : Nat → FileTree → FilePath → FileTree × Except FileError Unit
  | fuel, t, p =>
    if p.bytes = [] then (t, .ok ())
    else
      match t.createDirectory p with
      | .ok t' => (t', .ok ())
      | .error e =>
        if e = .os .notFound then
          match fuel, p.parent? with
          | fuel + 1, some parent =>
            match createDirectoriesWithin fuel t parent with
            | (t', .error e) => (t', .error e)
            | (t', .ok ()) =>
              match t'.createDirectory p with
              | .ok t'' => (t'', .ok ())
              | .error e => (t', if t'.isDirectory p then .ok () else .error e)
          | _, _ => (t, .error e)
        else (t, if t.isDirectory p then .ok () else .error e)

/-- Creates a directory and its parents. -/
def createDirectories (t : FileTree) (p : FilePath) : FileTree × Except FileError Unit :=
  createDirectoriesWithin (p.bytes.length + 1) t p

/-- Removes a file, or a directory with what is in it. -/
def remove (t : FileTree) (p : FilePath) : Except FileError FileTree :=
  match t.spot p with
  | .ok (.found place) => .ok (t.erase place)
  | .ok (.absent _) => .error (.os .notFound)
  | .error e => .error e

/-- The tree with the file of a name made to hold some bytes, parents included. -/
def place (t : FileTree) (p : FilePath) (content : Bytes) : Except FileError FileTree := do
  let t := match p.parent? with
    | some parent => (t.createDirectories parent).1
    | none => t
  t.writeFile p content

/-- The places under the start and what stands there, each name relative to it. -/
def listing (t : FileTree) : List (Bytes × FileNode) :=
  t.entries.filterMap fun e =>
    if t.start.isPrefixOf e.1 ∧ e.1 ≠ t.start then
      some ([FilePath.slash].intercalate (e.1.drop t.start.length), e.2)
    else none

/-- A tree with an empty directory to start from, beside the sink of the system. -/
def fresh : FileTree where
  entries :=
    [([Utf8.encode "dev"], .directory), ([Utf8.encode "dev", Utf8.encode "null"], .sink),
      ([Utf8.encode "work"], .directory)]
  start := [Utf8.encode "work"]

end FileTree

end ParameterManager
