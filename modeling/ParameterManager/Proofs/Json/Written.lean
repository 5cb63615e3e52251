/-
Texts that are written are read back.

A value is written in one of two forms, in one line or indented.  Both are texts of the
value in the sense of `Spells`, for the values that a record is made of: texts, flags,
counts, and objects of such values.  So what a wire takes the value for is what it reads
off either form, whether the text comes from memory, as characters or as bytes, or from a
stream.
-/
import ParameterManager.Proofs.Json.Wire

namespace ParameterManager.Json

open Utf8 (Piece)

variable {α : Type}

/-! ### Values that are written -/

/-- A value made of what has one text up to blanks. -/
inductive Writable : Json → Prop
  | null : Writable .null
  | bool (b : Bool) : Writable (.bool b)
  | count {n : Nat} : n ≤ maxSignificand → Writable (.ofNat n)
  | string (s : String) : Writable (.string s)
  | object {members : List (String × Json)} :
    (∀ m ∈ members, Writable m.2) → Writable (.object members)

private theorem number_chars (n : Nat) : Number.chars (.int n) = Nat.toDigits 10 n := by
  show (Int.repr (Int.ofNat n)).toList = _
  exact Nat.toList_repr

/-! ### One line -/

private theorem spellsMembers_compact {members : List (String × Json)}
    (h : ∀ m ∈ members, Spells m.2 (compactChars m.2)) :
    ∃ body, compactMembers members = body ++ ['}'] ∧ SpellsMembers false members body := by
  induction members with
  | nil => exact ⟨[], by rw [compactMembers]; rfl, .nil blank_nil⟩
  | cons m members ih =>
      obtain ⟨name, value⟩ := m
      obtain ⟨body, hbody, hspells⟩ := ih fun m hm => h m (List.mem_cons_of_mem _ hm)
      refine ⟨_, ?_, .cons ⟨[], [], blank_nil, blank_nil, rfl⟩ blank_nil blank_nil
        (h _ List.mem_cons_self) hspells⟩
      rw [compactMembers, hbody]
      simp

private theorem spells_compact_object {members : List (String × Json)}
    (h : ∀ m ∈ members, Spells m.2 (compactChars m.2)) :
    Spells (.object members) (compactChars (.object members)) := by
  cases members with
  | nil =>
      rw [compactChars]
      have hnil : SpellsMembers true [] [] := .nil blank_nil
      exact .object hnil
  | cons m members =>
      obtain ⟨name, value⟩ := m
      obtain ⟨body, hbody, hspells⟩ :=
        spellsMembers_compact fun m hm => h m (List.mem_cons_of_mem _ hm)
      have hsep : Separates true [] := blank_nil
      have hobject : Spells (.object ((name, value) :: members)) _ :=
        .object (.cons hsep blank_nil blank_nil (h _ List.mem_cons_self) hspells)
      rw [compactChars, hbody]
      simpa using hobject

/-- **The compact form of a value is one of its texts.** -/
theorem Writable.spells_compact {j : Json} (h : Writable j) : Spells j (compactChars j) := by
  induction h with
  | null =>
      rw [compactChars]
      exact .null
  | bool b =>
      cases b with
      | true =>
          rw [compactChars]
          exact .yes
      | false =>
          rw [compactChars]
          exact .no
  | @count n hn =>
      rw [Json.ofNat, compactChars, number_chars]
      exact .count hn
  | string s =>
      rw [compactChars]
      exact .string s
  | object _ ih => exact spells_compact_object ih

/-! ### Indented -/

private theorem blank_newLine (level : Nat) : Blank (newLine level) := by
  intro c hc
  rcases List.mem_cons.mp hc with rfl | hc
  · rfl
  · rw [List.eq_of_mem_replicate hc]
    rfl

private theorem blank_space : Blank [' '] := by
  intro c hc
  rw [List.mem_singleton.mp hc]
  rfl

private theorem spellsMembers_pretty {members : List (String × Json)} (level : Nat)
    (h : ∀ m ∈ members, Spells m.2 (prettyChars (level + 1) m.2)) :
    ∃ body, prettyMembers level members = body ++ ['}'] ∧ SpellsMembers false members body := by
  induction members with
  | nil => exact ⟨newLine level, by rw [prettyMembers], .nil (blank_newLine level)⟩
  | cons m members ih =>
      obtain ⟨name, value⟩ := m
      obtain ⟨body, hbody, hspells⟩ := ih fun m hm => h m (List.mem_cons_of_mem _ hm)
      refine ⟨_, ?_, .cons ⟨[], _, blank_nil, blank_newLine (level + 1), rfl⟩ blank_nil blank_space
        (h _ List.mem_cons_self) hspells⟩
      rw [prettyMembers, hbody]
      simp

private theorem spells_pretty_object {members : List (String × Json)} (level : Nat)
    (h : ∀ m ∈ members, Spells m.2 (prettyChars (level + 1) m.2)) :
    Spells (.object members) (prettyChars level (.object members)) := by
  cases members with
  | nil =>
      rw [prettyChars]
      have hnil : SpellsMembers true [] [] := .nil blank_nil
      exact .object hnil
  | cons m members =>
      obtain ⟨name, value⟩ := m
      obtain ⟨body, hbody, hspells⟩ :=
        spellsMembers_pretty level fun m hm => h m (List.mem_cons_of_mem _ hm)
      have hsep : Separates true (newLine (level + 1)) := blank_newLine (level + 1)
      have hobject : Spells (.object ((name, value) :: members)) _ :=
        .object (.cons hsep blank_nil blank_space (h _ List.mem_cons_self) hspells)
      rw [prettyChars, hbody]
      simpa using hobject

/-- **The indented form of a value is one of its texts**, at every level. -/
theorem Writable.spells_pretty {j : Json} (h : Writable j) (level : Nat) :
    Spells j (prettyChars level j) := by
  induction h generalizing level with
  | null =>
      rw [prettyChars]
      exact .null
  | bool b =>
      cases b with
      | true =>
          rw [prettyChars]
          exact .yes
      | false =>
          rw [prettyChars]
          exact .no
  | @count n hn =>
      rw [Json.ofNat, prettyChars, number_chars]
      exact .count hn
  | string s =>
      rw [prettyChars]
      exact .string s
  | object _ ih => exact spells_pretty_object level fun m hm => ih m hm (level + 1)

/-! ### Reading -/

namespace Wire

variable {w : Wire α} {j : Json} {a : α}

/-- A text is read as a value, wherever it comes from. -/
structure ReadsText (w : Wire α) (text : String) (a : α) : Prop where
  ofString : w.ofString text = .ok a
  ofBytes : w.ofBytes (Utf8.encode text) = .ok a
  ofStream : w.ofStream (Utf8.encode text) = .ok a

/-- A value is read off both forms in which a JSON value is written. -/
structure ReadsBack (w : Wire α) (j : Json) (a : α) : Prop where
  compact : w.ReadsText j.compact a
  pretty : w.ReadsText j.pretty a

/-- A text of a value is read as what the value is taken for. -/
theorem Takes.readsText (h : w.Takes j a) {chars : List Char} (hchars : Spells j chars) :
    w.ReadsText (String.ofList chars) a := by
  have hreads : Reads w.read chars a [] := h.text chars hchars [] [] blank_nil trivial
  have hpieces : Utf8.pieces (String.ofList chars) = chars.map .char := by
    rw [Utf8.pieces, String.toList_ofList]
  have hdecoded : Utf8.decode (Utf8.encode (String.ofList chars)) = chars.map .char := by
    rw [Utf8.decode_encode, hpieces]
  exact ⟨Reads.runAll hpieces hreads, Reads.runAll hdecoded hreads, Reads.runAll hdecoded hreads⟩

/-- **What a value is taken for is read back from what is written for it.** -/
theorem Takes.readsBack (h : w.Takes j a) (hj : Writable j) : w.ReadsBack j a :=
  ⟨h.readsText hj.spells_compact, h.readsText (hj.spells_pretty 0)⟩

end Wire

end ParameterManager.Json
