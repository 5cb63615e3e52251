/-
Where a name leads in a tree that changes.

A walk looks at the directories on its way and at what stands at its end.  So a name still
leads where it has led if nothing is taken away, and it leads to what is put at its end.  The
converse needs a name that never goes up: on its way there are only the directories above its
end, and in a closed tree those are there if the end is.  A name that does go up may lead to
a file of old through a directory that is new.
-/
import ParameterManager.FileTree.Basic

namespace ParameterManager.FileTree

variable {t t' t'' : FileTree} {place q : List Bytes} {node : FileNode} {parts : List Bytes}
  {s : Spot} {p : FilePath}

/-! ### What stands at a place -/

theorem node?_root (t : FileTree) : t.node? [] = some .directory := if_pos rfl

private theorem lookup_filter_ne {entries : List (List Bytes × FileNode)} (h : q ≠ place) :
    (entries.filter (·.1 ≠ place)).lookup q = entries.lookup q := by
  induction entries with
  | nil => rfl
  | cons e rest ih =>
      by_cases he : e.1 = place
      · have hne : (q == e.1) = false := by simp [he, h]
        rw [List.filter_cons_of_neg (by simp [he]), ih, List.lookup_cons, hne]
      · rw [List.filter_cons_of_pos (by simp [he]), List.lookup_cons, List.lookup_cons, ih]

theorem ne_root (h : t.node? q ≠ some .directory) : q ≠ [] := by
  rintro rfl
  exact h t.node?_root

/-- Nothing changes but what is put. -/
theorem node?_put (hplace : place ≠ []) (node : FileNode) (q : List Bytes) :
    (t.put place node).node? q = if q = place then some node else t.node? q := by
  unfold node? put
  by_cases hq : q = place
  · simp [hq, hplace]
  · have hne : (q == place) = false := by simp [hq]
    rw [if_neg hq, List.lookup_cons, hne]
    split
    · rfl
    · exact lookup_filter_ne hq

/-! ### Ways -/

/-- A part of a name that is itself the name of something. -/
structure IsName (part : Bytes) : Prop where
  nonempty : part ≠ []
  noDot : part ≠ [FilePath.dot]
  noUp : part ≠ [FilePath.dot, FilePath.dot]
  short : part.length ≤ maxPart

/-- The parts of a name lead from a place to a spot, one step for each part. -/
inductive Leads (t : FileTree) : List Bytes → List Bytes → Spot → Prop
  | done (place : List Bytes) : Leads t place [] (.found place)
  | stay {place part rest s} (dir : t.node? place = some .directory)
      (dot : part = [] ∨ part = [FilePath.dot]) (next : Leads t place rest s) :
      Leads t place (part :: rest) s
  | up {place part rest s} (dir : t.node? place = some .directory)
      (dots : part = [FilePath.dot, FilePath.dot]) (next : Leads t place.dropLast rest s) :
      Leads t place (part :: rest) s
  | enter {place part rest s} (dir : t.node? place = some .directory) (name : IsName part)
      (there : t.node? (place ++ [part]) ≠ none) (next : Leads t (place ++ [part]) rest s) :
      Leads t place (part :: rest) s
  | miss {place part rest} (dir : t.node? place = some .directory) (name : IsName part)
      (missing : t.node? (place ++ [part]) = none) (last : ∀ r ∈ rest, r = []) :
      Leads t place (part :: rest) (.absent (place ++ [part]))

theorem leads_of_walk (h : t.walk place parts = .ok s) : t.Leads place parts s := by
  induction parts generalizing place with
  | nil =>
      obtain rfl := Except.ok.inj h
      exact .done place
  | cons part rest ih =>
      unfold walk at h
      split at h
      · simp at h
      next hdir =>
      replace hdir := Decidable.not_not.mp hdir
      split at h
      · next hdot => exact .stay hdir hdot (ih h)
      next hdot =>
      split at h
      · next hdots => exact .up hdir hdots (ih h)
      next hdots =>
      split at h
      · simp at h
      next hshort =>
      have hname : IsName part :=
        ⟨fun h => hdot (.inl h), fun h => hdot (.inr h), hdots, Nat.le_of_not_lt hshort⟩
      split at h
      · next hthere => exact .enter hdir hname (Option.isSome_iff_ne_none.mp hthere) (ih h)
      next hthere =>
      split at h
      · next hlast =>
        obtain rfl := Except.ok.inj h
        exact .miss hdir hname (by simpa using hthere) (by simpa using hlast)
      · simp at h

theorem Leads.walk (h : t.Leads place parts s) : t.walk place parts = .ok s := by
  induction h with
  | done place => rfl
  | stay dir dot next ih =>
      rw [FileTree.walk, if_neg (Decidable.not_not.mpr dir), if_pos dot, ih]
  | up dir dots next ih =>
      subst dots
      rw [FileTree.walk, if_neg (Decidable.not_not.mpr dir), if_neg (by decide), if_pos rfl, ih]
  | enter dir name there next ih =>
      rw [FileTree.walk, if_neg (Decidable.not_not.mpr dir),
        if_neg (not_or.mpr ⟨name.nonempty, name.noDot⟩), if_neg name.noUp,
        if_neg (Nat.not_lt.mpr name.short), if_pos (Option.isSome_iff_ne_none.mpr there), ih]
  | miss dir name missing last =>
      rw [FileTree.walk, if_neg (Decidable.not_not.mpr dir),
        if_neg (not_or.mpr ⟨name.nonempty, name.noDot⟩), if_neg name.noUp,
        if_neg (Nat.not_lt.mpr name.short), if_neg (by simp [missing]),
        if_pos (by simpa using last)]

/-- A name that can be walked leads from where it starts to its spot. -/
theorem spot_eq_ok : t.spot p = .ok s ↔
    (p.bytes.contains 0 = false ∧ p.bytes ≠ [] ∧ p.bytes.length ≤ maxName) ∧
      t.Leads (if p.isAbsolute then [] else t.start) p.parts s := by
  unfold spot
  constructor
  · intro h
    split at h
    · simp at h
    next hnul =>
    split at h
    · simp at h
    next hempty =>
    split at h
    · simp at h
    next hlong =>
    split at h
    · next s' hwalk =>
      obtain rfl := Except.ok.inj h
      exact ⟨⟨by simpa using hnul, hempty, Nat.le_of_not_lt hlong⟩, leads_of_walk hwalk⟩
    · simp at h
  · rintro ⟨⟨hnul, hempty, hlong⟩, hleads⟩
    rw [if_neg (by simpa using hnul), if_neg hempty, if_neg (Nat.not_lt.mpr hlong), hleads.walk]

theorem isThere_iff : t.isThere p = true ↔ ∃ q, t.spot p = .ok (.found q) := by
  unfold isThere
  constructor
  · intro h
    split at h
    · next q hspot => exact ⟨q, hspot⟩
    · simp at h
  · rintro ⟨q, hspot⟩
    rw [hspot]

/-! ### Trees that lose nothing -/

/-- A tree has all that another one has, where that has it. -/
structure Keeps (t t' : FileTree) : Prop where
  start : t'.start = t.start
  node : ∀ {q node}, t.node? q = some node → t'.node? q = some node

theorem Keeps.refl (t : FileTree) : t.Keeps t := ⟨rfl, id⟩

theorem Keeps.trans (h : t.Keeps t') (h' : t'.Keeps t'') : t.Keeps t'' :=
  ⟨h'.start.trans h.start, fun hq => h'.node (h.node hq)⟩

theorem Keeps.ne_none (h : t.Keeps t') (hq : t.node? q ≠ none) : t'.node? q ≠ none := by
  obtain ⟨node, hnode⟩ := Option.ne_none_iff_exists'.mp hq
  rw [h.node hnode]
  simp

theorem keeps_put (h : t.node? q = none) (node : FileNode) : t.Keeps (t.put q node) := by
  refine ⟨rfl, ?_⟩
  intro q' node' hq'
  have hne : q' ≠ q := by
    rintro rfl
    rw [h] at hq'
    simp at hq'
  have hroot : q ≠ [] := ne_root (t := t) (by simp [h])
  rw [node?_put hroot, if_neg hne, hq']

theorem Keeps.leads (h : t.Keeps t') (hleads : t.Leads place parts (.found q)) :
    t'.Leads place parts (.found q) := by
  generalize hs : Spot.found q = s at hleads
  induction hleads with
  | done place => exact .done place
  | stay dir dot next ih => exact .stay (h.node dir) dot (ih hs)
  | up dir dots next ih => exact .up (h.node dir) dots (ih hs)
  | enter dir name there next ih => exact .enter (h.node dir) name (h.ne_none there) (ih hs)
  | miss dir name missing last => simp at hs

/-- A name leads where it has led. -/
theorem Keeps.spot (h : t.Keeps t') (hspot : t.spot p = .ok (.found q)) :
    t'.spot p = .ok (.found q) := by
  obtain ⟨hname, hleads⟩ := spot_eq_ok.mp hspot
  rw [← h.start] at hleads
  exact spot_eq_ok.mpr ⟨hname, h.leads hleads⟩

/-! ### Ends of ways -/

theorem Leads.absent (h : t.Leads place parts (.absent q)) : t.node? q = none := by
  generalize hs : Spot.absent q = s at h
  induction h with
  | done place => simp at hs
  | stay dir dot next ih => exact ih hs
  | up dir dots next ih => exact ih hs
  | enter dir name there next ih => exact ih hs
  | miss dir name missing last =>
      obtain rfl := Spot.absent.inj hs
      exact missing

/-- Slashes after the name of a directory lead nowhere else. -/
private theorem leads_slashes (hdir : t.node? place = some .directory)
    (hparts : ∀ r ∈ parts, r = []) : t.Leads place parts (.found place) := by
  induction parts with
  | nil => exact .done place
  | cons part rest ih =>
      exact .stay hdir (.inl (hparts part (by simp))) (ih fun r hr => hparts r (by simp [hr]))

/-- What is put where something is missing is found there, if it is a directory or its name
does not end in a slash. -/
theorem Leads.put (h : t.Leads place parts (.absent q))
    (hend : node = .directory ∨ parts.getLast? ≠ some []) :
    (t.put q node).Leads place parts (.found q) := by
  have hkeeps : t.Keeps (t.put q node) := keeps_put h.absent node
  have hthere : (t.put q node).node? q = some node := by
    rw [node?_put (ne_root (t := t) (by simp [h.absent])), if_pos rfl]
  generalize hs : Spot.absent q = s at h
  have hrest : ∀ {part : Bytes} {rest : List Bytes},
      node = .directory ∨ (part :: rest).getLast? ≠ some [] →
        node = .directory ∨ rest.getLast? ≠ some [] := by
    intro part rest hend
    refine hend.imp_right fun hne hlast => hne ?_
    simp [List.getLast?_cons, hlast]
  induction h with
  | done place => simp at hs
  | stay dir dot next ih => exact .stay (hkeeps.node dir) dot (ih (hrest hend) hs)
  | up dir dots next ih => exact .up (hkeeps.node dir) dots (ih (hrest hend) hs)
  | enter dir name there next ih =>
      exact .enter (hkeeps.node dir) name (hkeeps.ne_none there) (ih (hrest hend) hs)
  | @miss place part rest dir name missing last =>
      obtain rfl := Spot.absent.inj hs
      refine .enter (hkeeps.node dir) name (by rw [hthere]; simp) ?_
      rcases hrest hend with rfl | hslash
      · exact leads_slashes hthere last
      · cases hlast : rest.getLast? with
        | none =>
            rw [List.getLast?_eq_none_iff.mp hlast]
            exact .done _
        | some r =>
            rw [hlast, last r (List.mem_of_getLast? hlast)] at hslash
            exact absurd rfl hslash

/-- Names lead to the same places in trees that differ in what files hold. -/
theorem Leads.congr (hdir : ∀ q, t.node? q = some .directory → t'.node? q = some .directory)
    (hnone : ∀ q, t'.node? q = none ↔ t.node? q = none) (h : t.Leads place parts s) :
    t'.Leads place parts s := by
  induction h with
  | done place => exact .done place
  | stay dir dot next ih => exact .stay (hdir _ dir) dot ih
  | up dir dots next ih => exact .up (hdir _ dir) dots ih
  | enter dir name there next ih => exact .enter (hdir _ dir) name (mt (hnone _).mp there) ih
  | miss dir name missing last => exact .miss (hdir _ dir) name ((hnone _).mpr missing) last

/-! ### Closed trees -/

/-- Whatever is in a tree is in a directory. -/
def IsClosed (t : FileTree) : Prop :=
  ∀ q part, t.node? (q ++ [part]) ≠ none → t.node? q = some .directory

/-- All places above something are directories. -/
theorem IsClosed.above (h : t.IsClosed) {more : List Bytes} (hmore : more ≠ [])
    (hq : t.node? (place ++ more) ≠ none) : t.node? place = some .directory := by
  induction more generalizing place with
  | nil => exact absurd rfl hmore
  | cons part rest ih =>
      rw [List.append_cons] at hq
      by_cases hrest : rest = []
      · rw [hrest, List.append_nil] at hq
        exact h place part hq
      · refine h place part ?_
        rw [ih hrest hq]
        simp

/-- A name that never goes up leads to a place below the one where it starts. -/
theorem Leads.isBelow (h : t.Leads place parts (.found q))
    (hup : [FilePath.dot, FilePath.dot] ∉ parts) : ∃ more, q = place ++ more := by
  generalize hs : Spot.found q = s at h
  induction h with
  | done place => exact ⟨[], by rw [Spot.found.inj hs, List.append_nil]⟩
  | stay dir dot next ih => exact ih (fun h => hup (.tail _ h)) hs
  | up dir dots next ih => exact absurd (by simp [dots]) hup
  | @enter place part rest s dir name there next ih =>
      obtain ⟨more, rfl⟩ := ih (fun h => hup (.tail _ h)) hs
      exact ⟨part :: more, by rw [List.append_assoc, List.singleton_append]⟩
  | miss dir name missing last => simp at hs

/-- **What has been there is found without new directories**, in a closed tree and under a name
that never goes up. -/
theorem Keeps.leads_back (h : t.Keeps t') (hclosed : t.IsClosed)
    (hleads : t'.Leads place parts (.found q)) (hup : [FilePath.dot, FilePath.dot] ∉ parts)
    (hq : t.node? q ≠ none) : t.Leads place parts (.found q) := by
  have hdir : ∀ {place more}, t'.node? place = some .directory → q = place ++ more →
      t.node? place = some .directory := by
    intro place more hdir hqm
    by_cases hmore : more = []
    · rw [hmore, List.append_nil] at hqm
      obtain ⟨node, hnode⟩ := Option.ne_none_iff_exists'.mp hq
      rw [← hqm, hnode, ← h.node hnode, hqm, hdir]
    · exact hclosed.above hmore (hqm ▸ hq)
  generalize hs : Spot.found q = s at hleads
  induction hleads with
  | done place => exact .done place
  | @stay place part rest s dir dot next ih =>
      subst hs
      obtain ⟨more, hbelow⟩ := next.isBelow fun h => hup (.tail _ h)
      exact .stay (hdir dir hbelow) dot (ih (fun h => hup (.tail _ h)) rfl)
  | up dir dots next ih => exact absurd (by simp [dots]) hup
  | @enter place part rest s dir name there next ih =>
      subst hs
      obtain ⟨more, hbelow⟩ := next.isBelow fun h => hup (.tail _ h)
      have hbelow' : q = place ++ part :: more := by simpa using hbelow
      refine .enter (hdir dir hbelow') name ?_ (ih (fun h => hup (.tail _ h)) rfl)
      by_cases hmore : more = []
      · rw [hmore, List.append_nil] at hbelow
        exact hbelow ▸ hq
      · rw [hclosed.above hmore (hbelow ▸ hq)]
        simp
  | miss dir name missing last => simp at hs

end ParameterManager.FileTree
