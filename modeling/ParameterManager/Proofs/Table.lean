/-
Building a table from a list of entries.

Entries whose keys are all different come out in another order at most.  There is only one
order in which they ascend, and so a table is made of its entries in whatever order they
are given.
-/
import ParameterManager.Table

namespace ParameterManager

variable {α : Type}

/-- The entries of a list, each put in its place among some others. -/
def insertEntries (acc entries : List (String × α)) : List (String × α) :=
  entries.foldl (fun es e => insertEntry e.1 e.2 es) acc

/-! ### Different keys -/

private theorem insertEntry_perm {key : String} {value : α} {entries : List (String × α)}
    (h : ∀ e ∈ entries, e.1 ≠ key) :
    (insertEntry key value entries).Perm ((key, value) :: entries) := by
  induction entries with
  | nil => exact .refl _
  | cons e entries ih =>
      unfold insertEntry
      split
      · exact .refl _
      split
      · exact ((ih fun d hd => h d (List.mem_cons_of_mem _ hd)).cons e).trans (.swap _ _ _)
      · next hnlt hngt => exact absurd (key_eq_of_not_lt hngt hnlt) (h e List.mem_cons_self)

/-- **Entries of different keys are put into another order at most.** -/
theorem insertEntries_perm (acc entries : List (String × α))
    (h : ((acc ++ entries).map (·.1)).Nodup) :
    (insertEntries acc entries).Perm (acc ++ entries) := by
  induction entries generalizing acc with
  | nil =>
      rw [List.append_nil]
      exact .refl _
  | cons e entries ih =>
      have hacc : ∀ d ∈ acc, d.1 ≠ e.1 := by
        rw [List.map_append, List.nodup_append] at h
        intro d hd
        exact h.2.2 d.1 (List.mem_map_of_mem hd) e.1 (by simp)
      have hone : (insertEntry e.1 e.2 acc).Perm (e :: acc) := insertEntry_perm hacc
      have hmove : (insertEntry e.1 e.2 acc ++ entries).Perm (acc ++ e :: entries) :=
        (hone.append_right entries).trans List.perm_middle.symm
      show (insertEntries (insertEntry e.1 e.2 acc) entries).Perm _
      exact (ih _ ((hmove.map _).nodup_iff.mpr h)).trans hmove

/-- The only entry with a key is found. -/
theorem lookupEntry_of_mem {key : String} {value : α} {entries : List (String × α)}
    (h : (key, value) ∈ entries) (hnodup : (entries.map (·.1)).Nodup) :
    lookupEntry key entries = some value := by
  induction entries with
  | nil => exact absurd h List.not_mem_nil
  | cons e entries ih =>
      obtain ⟨hnot, hrest⟩ := List.nodup_cons.mp hnodup
      rcases List.mem_cons.mp h with rfl | hmem
      · exact if_pos rfl
      · have hne : e.1 ≠ key := by
          rintro rfl
          exact hnot (List.mem_map.mpr ⟨_, hmem, rfl⟩)
        rw [lookupEntry, if_neg hne, ih hmem hrest]

/-! ### Any order -/

private theorem ascending_insertEntries {acc : List (String × α)} (entries : List (String × α))
    (h : Ascending acc) : Ascending (insertEntries acc entries) := by
  induction entries generalizing acc with
  | nil => exact h
  | cons e entries ih => exact ih (h.insertEntry e.1 e.2)

/-- The keys of ascending entries are all different. -/
theorem Ascending.nodup {entries : List (String × α)} (h : Ascending entries) :
    (entries.map (·.1)).Nodup :=
  List.pairwise_map.mpr (List.Pairwise.imp String.ne_of_lt h)

/-- Entries that ascend in some order are put into that order. -/
theorem insertEntries_of_perm {entries others : List (String × α)} (hperm : entries.Perm others)
    (h : Ascending others) : insertEntries [] entries = others := by
  have hnodup : (entries.map (·.1)).Nodup := (hperm.map _).nodup_iff.mpr h.nodup
  have hothers : (insertEntries [] entries).Perm others :=
    (insertEntries_perm [] entries hnodup).trans hperm
  have hascending : Ascending (insertEntries [] entries) :=
    ascending_insertEntries entries List.Pairwise.nil
  -- two ascending lists of the same entries are the same list
  refine hothers.eq_of_pairwise ?_ hascending h
  intro d e _ _ hlt hgt
  exact (String.lt_asymm hlt hgt).elim

/-! ### Tables -/

namespace Table

private theorem entries_foldl_insert (entries : List (String × α)) (t : Table α) :
    (entries.foldl (fun t e => t.insert e.1 e.2) t).entries = insertEntries t.entries entries := by
  induction entries generalizing t with
  | nil => rfl
  | cons e entries ih =>
      rw [List.foldl_cons, ih]
      rfl

/-- **A table is made of its own entries**, in any order. -/
theorem ofList_of_perm {t : Table α} {entries : List (String × α)} (h : entries.Perm t.entries) :
    ofList entries = t := by
  refine Table.ext ?_
  rw [ofList, entries_foldl_insert]
  exact insertEntries_of_perm h t.ascending

private theorem get?_foldl_insert (entries : List (String × α)) (t : Table α) (key : String) :
    (entries.foldl (fun t e => t.insert e.1 e.2) t).get? key
      = ((entries.reverse.find? fun e => e.1 = key).map (·.2)).or (t.get? key) := by
  induction entries generalizing t with
  | nil => rfl
  | cons e entries ih =>
      rw [List.foldl_cons, ih, List.reverse_cons, List.find?_append, get?_insert]
      cases entries.reverse.find? fun e => e.1 = key with
      | some d => rfl
      | none =>
          by_cases he : e.1 = key
          · simp [he]
          · simp [he, Ne.symm he]

/-- **Of several entries of one key the last one counts.** -/
theorem get?_ofList (entries : List (String × α)) (key : String) :
    (ofList entries).get? key = (entries.reverse.find? fun e => e.1 = key).map (·.2) := by
  rw [ofList, get?_foldl_insert, get?_empty, Option.or_none]

end Table

end ParameterManager
