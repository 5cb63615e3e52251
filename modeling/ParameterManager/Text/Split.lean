/-
Texts split at a separator, and joined by one.
-/

namespace ParameterManager.Text

/-- The parts of a text between the occurrences of a character; at least one part. -/
def split (separator : Char) (s : String) : List String :=
  (s.toList.splitOn separator).map String.ofList

/-- Some texts with a character between them. -/
def join (separator : Char) (parts : List String) : String :=
  String.ofList ([separator].intercalate (parts.map String.toList))

/-- Joining undoes splitting. -/
theorem join_split (separator : Char) (s : String) : join separator (split separator s) = s := by
  have h : String.toList ∘ String.ofList = id := by funext l; simp
  simp [join, split, h, List.intercalate_splitOn]

end ParameterManager.Text
