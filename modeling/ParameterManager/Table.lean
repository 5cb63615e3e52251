/-
Finite maps with text keys.

The entries are kept in ascending order of their keys, so a table has one
representation: two tables with the same entries are equal.  `insert` replaces, `get?`
reads, and the order is part of the type.
-/

namespace ParameterManager

/-- Puts an entry in its place, replacing the one with the same key. -/
def insertEntry {α : Type} (key : String) (value : α) : List (String × α) → List (String × α)
  | [] => [(key, value)]
  | (k, v) :: rest =>
    if key < k then (key, value) :: (k, v) :: rest
    else if k < key then (k, v) :: insertEntry key value rest
    else (key, value) :: rest

/-- The value of the first entry with a key. -/
def lookupEntry {α : Type} (key : String) : List (String × α) → Option α
  | [] => none
  | (k, v) :: rest => if k = key then some v else lookupEntry key rest

/-- Ascending keys, each one once. -/
def Ascending {α : Type} (entries : List (String × α)) : Prop :=
  entries.Pairwise fun a b => a.1 < b.1

/-! ### Order of keys -/

theorem key_eq_of_not_lt {a b : String} (h : ¬a < b) (h' : ¬b < a) : a = b :=
  String.le_antisymm (String.not_lt.mp h') (String.not_lt.mp h)

/-- What the keys of a table and a new key have in common, they keep after insertion. -/
theorem insertEntry_all {α : Type} {p : String → Prop} {key : String} {value : α} (hkey : p key) :
    ∀ {entries : List (String × α)}, (∀ e ∈ entries, p e.1) →
      ∀ e ∈ insertEntry key value entries, p e.1 := by
  intro entries
  induction entries with
  | nil => simp [insertEntry, hkey]
  | cons head rest ih =>
    intro h e he
    obtain ⟨k, v⟩ := head
    have hrest : ∀ e ∈ rest, p e.1 := fun e he => h e (List.mem_cons_of_mem _ he)
    unfold insertEntry at he
    split at he
    · rcases List.mem_cons.mp he with rfl | he
      · exact hkey
      · exact h e he
    · split at he
      · rcases List.mem_cons.mp he with rfl | he
        · exact h _ List.mem_cons_self
        · exact ih hrest e he
      · rcases List.mem_cons.mp he with rfl | he
        · exact hkey
        · exact hrest e he

theorem Ascending.insertEntry {α : Type} (key : String) (value : α) {entries : List (String × α)}
    (h : Ascending entries) : Ascending (insertEntry key value entries) := by
  induction entries with
  | nil => simp [ParameterManager.insertEntry, Ascending]
  | cons head rest ih =>
    obtain ⟨k, v⟩ := head
    have hhead : ∀ e ∈ rest, k < e.1 := (List.pairwise_cons.mp h).1
    have hrest : Ascending rest := (List.pairwise_cons.mp h).2
    unfold ParameterManager.insertEntry
    split
    next hlt =>
      refine List.pairwise_cons.mpr ⟨fun e he => ?_, h⟩
      rcases List.mem_cons.mp he with rfl | he
      · exact hlt
      · exact String.lt_trans hlt (hhead e he)
    next hnlt =>
      split
      next hgt => exact List.pairwise_cons.mpr ⟨insertEntry_all hgt hhead, ih hrest⟩
      next hngt =>
        obtain rfl := key_eq_of_not_lt hnlt hngt
        exact List.pairwise_cons.mpr ⟨hhead, hrest⟩

/-- Inserting changes the value of its own key only. -/
theorem lookupEntry_insertEntry {α : Type} (key : String) (value : α) (k : String)
    (entries : List (String × α)) :
    lookupEntry k (insertEntry key value entries) =
      if k = key then some value else lookupEntry k entries := by
  induction entries with
  | nil => simp [insertEntry, lookupEntry, eq_comm]
  | cons head rest ih =>
    obtain ⟨k', v⟩ := head
    unfold insertEntry
    split
    · simp [lookupEntry, eq_comm]
    next hnlt =>
      split
      next hgt =>
        simp only [lookupEntry, ih]
        by_cases hk : k' = k
        · subst hk
          have : k' ≠ key := fun h => String.lt_irrefl _ (h ▸ hgt)
          simp [this]
        · simp [hk]
      next hngt =>
        obtain rfl := key_eq_of_not_lt hnlt hngt
        by_cases hk : key = k <;> simp [lookupEntry, hk, eq_comm]

/-! ### The type -/

/-- A finite map from texts to values. -/
structure Table (α : Type) where
  entries : List (String × α)
  ascending : Ascending entries

namespace Table

variable {α : Type}

@[ext] theorem ext {s t : Table α} (h : s.entries = t.entries) : s = t := by
  cases s; cases t; simp_all

/-- The table without entries. -/
def empty : Table α := ⟨[], List.Pairwise.nil⟩

instance : Inhabited (Table α) := ⟨empty⟩

instance [DecidableEq α] : DecidableEq (Table α) := fun s t =>
  decidable_of_iff (s.entries = t.entries) ⟨ext, fun h => h ▸ rfl⟩

/-- The table with one entry set. -/
def insert (t : Table α) (key : String) (value : α) : Table α :=
  ⟨insertEntry key value t.entries, t.ascending.insertEntry key value⟩

/-- The value of a key. -/
def get? (t : Table α) (key : String) : Option α := lookupEntry key t.entries

/-- The table of some entries, a later one replacing an earlier one of the same key. -/
def ofList (entries : List (String × α)) : Table α :=
  entries.foldl (fun t e => t.insert e.1 e.2) empty

/-- How many entries a table has. -/
def size (t : Table α) : Nat := t.entries.length

@[simp] theorem get?_empty (key : String) : (empty : Table α).get? key = none := rfl

@[simp] theorem get?_insert (t : Table α) (key : String) (value : α) (k : String) :
    (t.insert key value).get? k = if k = key then some value else t.get? k :=
  lookupEntry_insertEntry key value k t.entries

end Table

end ParameterManager
