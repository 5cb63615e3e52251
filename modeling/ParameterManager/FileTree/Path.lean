/-
File names.

A file name is a sequence of bytes in which slashes separate the parts.  Its parent is
what is left of it without its last part; separators at the end, and parts that name
the directory they stand in, do not count.
-/
import ParameterManager.Text.Quoted

namespace ParameterManager

/-- A file name. -/
structure FilePath where
  bytes : Bytes
  deriving DecidableEq, Repr, Inhabited

namespace FilePath

/-- The byte of a slash. -/
def slash : UInt8 := 0x2F

/-- The byte of a full stop. -/
def dot : UInt8 := 0x2E

/-- The file name that a text spells. -/
def ofString (s : String) : FilePath := ⟨Utf8.encode s⟩

/-- The text of a file name that is UTF-8. -/
def text? (p : FilePath) : Option String := Utf8.text? p.bytes

/-- A file name between quotation marks. -/
def quoted (p : FilePath) : String := Text.quotedBytes p.bytes

/-- Whether a file name starts at the root. -/
def isAbsolute (p : FilePath) : Bool := p.bytes.head? == some slash

/-- The parts of a file name, empty ones included. -/
def parts (p : FilePath) : List Bytes := p.bytes.splitOn slash

/-- The bytes of a name, in reverse, without what does not count at its end.  A single
slash is the root and a single dot at the start is a part. -/
def trimReversed : Bytes → Bytes
  | [] => []
  | [b] => [b]
  | a :: b :: rest =>
    if a = slash then trimReversed (b :: rest)
    else if a = dot ∧ b = slash then trimReversed (b :: rest)
    else a :: b :: rest

/-- A file name without its last part; none for the root and the empty name. -/
def parent? (p : FilePath) : Option FilePath :=
  match trimReversed p.bytes.reverse with
  | [] => none
  | [b] => if b = slash then none else some ⟨[]⟩
  | bs => some ⟨(trimReversed (bs.dropWhile (· ≠ slash))).reverse⟩

/-- A file name relative to another one; an absolute name stands for itself. -/
def join (base p : FilePath) : FilePath :=
  if p.isAbsolute then p
  else if base.bytes.isEmpty ∨ base.bytes.getLast? = some slash then ⟨base.bytes ++ p.bytes⟩
  else ⟨base.bytes ++ slash :: p.bytes⟩

end FilePath

end ParameterManager
