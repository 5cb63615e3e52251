/-
What an operation changes in a tree.

Directories are made only where nothing was, and only where a name or one of its parents leads;
this is so of those, too, that are left behind by a failure.  Writing a file changes what is at
the end of its name, and the name leads there afterwards.  Nothing else changes.
-/
import Mathlib.Data.List.TakeWhile
import ParameterManager.Proofs.FileTree.Walk
import ParameterManager.Proofs.Text.Basic

namespace ParameterManager

/-- A name is another one, or that of a parent of it. -/
inductive FilePath.StandsOver (a : FilePath) : FilePath → Prop
  | self : a.StandsOver a
  | parent {p parent : FilePath} (up : p.parent? = some parent) (next : a.StandsOver parent) :
      a.StandsOver p

namespace FileTree

variable {t t' t'' : FileTree} {p parent : FilePath} {q : List Bytes} {node : FileNode}
  {content : Bytes}

/-! ### Directories -/

/-- A tree has all that another one has, and besides only directories that a name or its parents
lead to. -/
structure Makes (p : FilePath) (t t' : FileTree) : Prop where
  keeps : t.Keeps t'
  made : ∀ q node, t.node? q = none → t'.node? q = some node →
    node = .directory ∧ ∃ a, a.StandsOver p ∧ t'.spot a = .ok (.found q)

theorem Makes.refl (p : FilePath) (t : FileTree) : Makes p t t :=
  ⟨.refl t, fun q node hq hnode => by rw [hq] at hnode; simp at hnode⟩

/-- What is made for a parent is made for the name. -/
theorem Makes.trans (h : Makes parent t t') (hparent : p.parent? = some parent)
    (h' : Makes p t' t'') : Makes p t t'' := by
  refine ⟨h.keeps.trans h'.keeps, ?_⟩
  intro q node hq hnode
  cases hq' : t'.node? q with
  | none => exact h'.made q node hq' hnode
  | some node' =>
      obtain ⟨rfl, a, ha, hspot⟩ := h.made q node' hq hq'
      rw [h'.keeps.node hq'] at hnode
      exact ⟨(Option.some.inj hnode).symm, a, .parent hparent ha, h'.keeps.spot hspot⟩

/-- What is put where a name leads is found under the name. -/
theorem spot_put (h : t.spot p = .ok (.absent q))
    (hend : node = .directory ∨ p.parts.getLast? ≠ some []) :
    (t.put q node).spot p = .ok (.found q) := by
  obtain ⟨hname, hleads⟩ := spot_eq_ok.mp h
  exact spot_eq_ok.mpr ⟨hname, hleads.put hend⟩

theorem absent_of_spot (h : t.spot p = .ok (.absent q)) : t.node? q = none :=
  (spot_eq_ok.mp h).2.absent

theorem makes_createDirectory (h : t.createDirectory p = .ok t') : Makes p t t' := by
  unfold createDirectory at h
  split at h
  · simp at h
  · next q hspot =>
    obtain rfl := Except.ok.inj h
    have hnone := absent_of_spot hspot
    refine ⟨keeps_put hnone _, ?_⟩
    intro q' node hq' hnode
    rw [node?_put (ne_root (t := t) (by simp [hnone]))] at hnode
    split at hnode
    · next hplace =>
      subst hplace
      exact ⟨(Option.some.inj hnode).symm, p, .self, spot_put hspot (.inl rfl)⟩
    · rw [hq'] at hnode
      simp at hnode
  · simp at h

/-- **Only missing directories are made**, whether all of them can be made or not.  By induction
on the parents. -/
theorem makes_createDirectoriesWithin (fuel : Nat) (t : FileTree) (p : FilePath) :
    Makes p t (createDirectoriesWithin fuel t p).1 := by
  fun_induction createDirectoriesWithin fuel t p with
  | case1 => exact .refl _ _
  | case2 _ _ _ _ _ hmade => exact makes_createDirectory hmade
  | case3 _ _ _ _ _ hparent _ _ hparents _ ih =>
      rw [hparents] at ih
      exact ih.trans hparent (.refl _ _)
  | case4 _ _ _ _ _ hparent _ hparents _ hmade _ ih =>
      rw [hparents] at ih
      exact ih.trans hparent (makes_createDirectory hmade)
  | case5 _ _ _ _ _ hparent _ hparents _ _ _ ih =>
      rw [hparents] at ih
      exact ih.trans hparent (.refl _ _)
  | case6 => exact .refl _ _
  | case7 => exact .refl _ _

theorem makes_createDirectories (t : FileTree) (p : FilePath) :
    Makes p t (t.createDirectories p).1 :=
  makes_createDirectoriesWithin _ t p

/-! ### Files -/

/-- The last part of a name that does not end in a slash is not empty. -/
theorem getLast?_parts (hempty : p.bytes ≠ []) (hslash : hasTrailingSlash p = false) :
    p.parts.getLast? ≠ some [] := by
  obtain ⟨bs, b, hbytes⟩ := (List.eq_nil_or_concat p.bytes).resolve_left hempty
  have hb : b ≠ FilePath.slash := by simpa [hasTrailingSlash, hbytes] using hslash
  obtain ⟨front, last, hparts⟩ := Text.splitOn_concat hb bs
  simp [FilePath.parts, hbytes, hparts]

/-- A tree in which a file has been written, by what its name has led to before. -/
inductive Writes (p : FilePath) (content : Bytes) (t : FileTree) : FileTree → Prop
  | new {q : List Bytes} (spot : t.spot p = .ok (.absent q)) :
      Writes p content t (t.put q (.file content))
  | replaced {q : List Bytes} {old : Bytes} (spot : t.spot p = .ok (.found q))
      (node : t.node? q = some (.file old)) : Writes p content t (t.put q (.file content))
  | sunk {q : List Bytes} (spot : t.spot p = .ok (.found q)) (node : t.node? q = some .sink) :
      Writes p content t t

theorem writeFile_ok (hslash : hasTrailingSlash p = false) :
    t.writeFile p content = .ok t' ↔ Writes p content t t' := by
  unfold writeFile
  rw [if_neg (by simp [hslash])]
  constructor
  · intro h
    split at h
    · next q hspot =>
      split at h
      · next old hnode =>
        obtain rfl := Except.ok.inj h
        exact .replaced hspot hnode
      · next hnode =>
        obtain rfl := Except.ok.inj h
        exact .sunk hspot hnode
      · simp at h
    · next q hspot =>
      obtain rfl := Except.ok.inj h
      exact .new hspot
    · simp at h
  · rintro (⟨hspot⟩ | ⟨hspot, hnode⟩ | ⟨hspot, hnode⟩)
    · rw [hspot]
    · rw [hspot]
      simp only [hnode]
    · rw [hspot]
      simp only [hnode]

private theorem walk_of_empty {parts : List Bytes} (h : ∀ part ∈ parts, part = []) :
    t.walk [] parts = .ok (.found []) := by
  induction parts with
  | nil => rfl
  | cons part parts ih =>
      rw [walk, if_neg (by simp [node?_root]), if_pos (.inl (h part List.mem_cons_self)),
        ih fun d hd => h d (List.mem_cons_of_mem _ hd)]

private theorem splitOn_replicate (n : Nat) (b : UInt8) :
    ∀ part ∈ (List.replicate n b).splitOn b, part = [] := by
  induction n with
  | zero => simp
  | succ n ih =>
      have hsplit := List.splitOn_append_cons_self_of_not_mem (List.not_mem_nil : b ∉ [])
        (List.replicate n b)
      rw [List.nil_append] at hsplit
      rw [List.replicate_succ, hsplit]
      exact List.forall_mem_cons.mpr ⟨rfl, ih⟩

/-- A name of slashes alone leads to the root. -/
theorem spot_slashes (hslash : hasTrailingSlash p = true) (hall : dropTrailingSlashes p = ⟨[]⟩)
    {s : Spot} (h : t.spot p = .ok s) : s = .found [] := by
  have hdrop : p.bytes.reverse.dropWhile (· = FilePath.slash) = [] := by
    simpa [dropTrailingSlashes] using hall
  have hbytes : p.bytes = List.replicate p.bytes.length FilePath.slash := by
    refine List.eq_replicate_iff.mpr ⟨rfl, fun b hb => ?_⟩
    simpa using List.dropWhile_eq_nil_iff.mp hdrop b (List.mem_reverse.mpr hb)
  have habsolute : p.isAbsolute = true := by
    cases hcase : p.bytes with
    | nil => simp [hasTrailingSlash, hcase] at hslash
    | cons b bs =>
        have hb : b = FilePath.slash := by
          rw [hcase] at hbytes
          simp only [List.length_cons, List.replicate_succ, List.cons.injEq] at hbytes
          exact hbytes.1
        simp [FilePath.isAbsolute, hcase, hb]
  obtain ⟨-, hleads⟩ := spot_eq_ok.mp h
  have hwalk := hleads.walk
  rw [if_pos habsolute, FilePath.parts, hbytes, walk_of_empty (splitOn_replicate _ _)] at hwalk
  exact (Except.ok.inj hwalk).symm

/-- What is written has no slash at its end. -/
theorem hasTrailingSlash_of_writeFile (h : t.writeFile p content = .ok t') :
    hasTrailingSlash p = false := by
  refine Bool.eq_false_iff.mpr fun hslash => ?_
  unfold writeFile at h
  split at h
  · split at h <;> simp at h
  · next hcond =>
    have hall : dropTrailingSlashes p = ⟨[]⟩ := by simpa [hslash] using hcond
    split at h
    · next q hspot =>
      obtain rfl := Spot.found.inj (spot_slashes hslash hall hspot)
      simp [node?_root] at h
    · next q hspot => simpa using spot_slashes hslash hall hspot
    · simp at h

/-- **A file is written exactly where its name leads**, which does not end in a slash. -/
theorem writeFile_ok_iff : t.writeFile p content = .ok t' ↔
    hasTrailingSlash p = false ∧ Writes p content t t' :=
  ⟨fun h =>
    have hslash := hasTrailingSlash_of_writeFile h
    ⟨hslash, (writeFile_ok hslash).mp h⟩,
  fun ⟨hslash, h⟩ => (writeFile_ok hslash).mpr h⟩

/-- A file can be written under a name: it does not end in a slash, and leads to something that
is no directory, or to nothing in a directory. -/
def IsWritable (t : FileTree) (p : FilePath) : Prop :=
  hasTrailingSlash p = false ∧ ((∃ q, t.spot p = .ok (.absent q)) ∨
    ∃ q node, t.spot p = .ok (.found q) ∧ t.node? q = some node ∧ node ≠ .directory)

/-- Whether a file can be written does not depend on what is written. -/
theorem writeFile_isOk_iff : (∃ t', t.writeFile p content = .ok t') ↔ t.IsWritable p := by
  simp only [writeFile_ok_iff, IsWritable, exists_and_left]
  refine and_congr_right fun _ => ⟨?_, ?_⟩
  · rintro ⟨_, ⟨hspot⟩ | ⟨hspot, hnode⟩ | ⟨hspot, hnode⟩⟩
    · exact .inl ⟨_, hspot⟩
    · exact .inr ⟨_, hspot, _, hnode, by simp⟩
    · exact .inr ⟨_, hspot, _, hnode, by simp⟩
  · rintro (⟨q, hspot⟩ | ⟨q, hspot, node, hnode, hdir⟩)
    · exact ⟨_, .new hspot⟩
    · cases node with
      | file old => exact ⟨_, .replaced hspot hnode⟩
      | directory => exact absurd rfl hdir
      | sink => exact ⟨_, .sunk hspot hnode⟩

/-- Why a file cannot be written does not depend on what is written. -/
theorem writeFile_error {first : Bytes} {e : FileError} (h : t.writeFile p first = .error e)
    (content : Bytes) : t.writeFile p content = .error e := by
  unfold writeFile at h ⊢
  split
  · next hcond => rwa [if_pos hcond] at h
  · next hcond =>
    rw [if_neg hcond] at h
    cases hspot : t.spot p with
    | error _ => rwa [hspot] at h
    | ok s =>
        rw [hspot] at h
        cases s with
        | absent q => simp at h
        | found q =>
            simp only at h ⊢
            cases hnode : t.node? q with
            | none => rwa [hnode] at h
            | some node =>
                rw [hnode] at h
                cases node with
                | file old => simp at h
                | directory => exact h
                | sink => simp at h

/-- Putting a file in the place of a file does not change where names lead. -/
theorem spot_put_file {old : Bytes} {s : Spot} (hq : t.node? q = some (.file old))
    (h : t.spot p = .ok s) : (t.put q (.file content)).spot p = .ok s := by
  obtain ⟨hname, hleads⟩ := spot_eq_ok.mp h
  have hroot : q ≠ [] := ne_root (t := t) (by simp [hq])
  refine spot_eq_ok.mpr ⟨hname, hleads.congr ?_ ?_⟩
  · intro q' hdir
    have hne : q' ≠ q := by
      rintro rfl
      rw [hdir] at hq
      simp at hq
    rw [node?_put hroot, if_neg hne, hdir]
  · intro q'
    rw [node?_put hroot]
    split
    · next hplace => simp [hplace, hq]
    · rfl

theorem put_put (t : FileTree) (q : List Bytes) (node node' : FileNode) :
    (t.put q node).put q node' = t.put q node' := by
  simp [put, List.filter_filter]

/-- A file that has just been put where its name leads is replaced. -/
private theorem writes_put {first : Bytes} (hroot : q ≠ [])
    (hspot : (t.put q (.file first)).spot p = .ok (.found q)) (content : Bytes) :
    Writes p content (t.put q (.file first)) (t.put q (.file content)) := by
  have hnode : (t.put q (.file first)).node? q = some (.file first) := by
    rw [node?_put hroot, if_pos rfl]
  have hwrites : Writes p content (t.put q (.file first))
      ((t.put q (.file first)).put q (.file content)) := .replaced hspot hnode
  rwa [put_put] at hwrites

/-- What is written first is not there any more when something else has been written. -/
theorem writeFile_again {opened : FileTree} {first : Bytes}
    (h : t.writeFile p first = .ok opened) (content : Bytes) :
    ∃ after, t.writeFile p content = .ok after ∧ opened.writeFile p content = .ok after := by
  obtain ⟨hslash, hwrites⟩ := writeFile_ok_iff.mp h
  simp only [writeFile_ok hslash]
  cases hwrites with
  | @new q spot =>
      have hlast := getLast?_parts (spot_eq_ok.mp spot).1.2.1 hslash
      have hroot : q ≠ [] := ne_root (t := t) (by simp [absent_of_spot spot])
      exact ⟨_, .new spot, writes_put hroot (spot_put spot (.inr hlast)) content⟩
  | @replaced q old spot node =>
      have hroot : q ≠ [] := ne_root (t := t) (by simp [node])
      exact ⟨_, .replaced spot node, writes_put hroot (spot_put_file node spot) content⟩
  | sunk spot node => exact ⟨_, .sunk spot node, .sunk spot node⟩

namespace Writes

/-- Names lead where they have led. -/
theorem spot (h : Writes p content t t') {a : FilePath} (ha : t.spot a = .ok (.found q)) :
    t'.spot a = .ok (.found q) := by
  cases h with
  | new spot => exact (keeps_put (absent_of_spot spot) _).spot ha
  | replaced spot node => exact spot_put_file node ha
  | sunk spot node => exact ha

/-- What was there is kept, unless it is the file that is written. -/
theorem kept (h : Writes p content t t') (hq : t.node? q = some node) :
    t'.node? q = some node ∨ ∃ old, node = .file old ∧ t.spot p = .ok (.found q) ∧
      t'.node? q = some (.file content) := by
  cases h with
  | new spot => exact .inl ((keeps_put (absent_of_spot spot) _).node hq)
  | @replaced q' old spot file =>
      have hroot : q' ≠ [] := ne_root (t := t) (by simp [file])
      by_cases hplace : q = q'
      · subst hplace
        obtain rfl := Option.some.inj (hq.symm.trans file)
        exact .inr ⟨old, rfl, spot, by rw [node?_put hroot, if_pos rfl]⟩
      · exact .inl (by rw [node?_put hroot, if_neg hplace, hq])
  | sunk spot node => exact .inl hq

/-- A file that has been written is found, with what was written if it can hold anything. -/
theorem found (h : Writes p content t t') (hslash : hasTrailingSlash p = false) :
    ∃ q, t'.spot p = .ok (.found q) ∧
      (t'.node? q = some (.file content) ∨ (t.node? q = some .sink ∧ t' = t)) := by
  cases h with
  | @new q spot =>
      obtain ⟨⟨-, hempty, -⟩, -⟩ := spot_eq_ok.mp spot
      have hroot : q ≠ [] := ne_root (t := t) (by simp [absent_of_spot spot])
      refine ⟨q, spot_put spot (.inr (getLast?_parts hempty hslash)), .inl ?_⟩
      rw [node?_put hroot, if_pos rfl]
  | @replaced q old spot node =>
      refine ⟨q, spot_put_file node spot, .inl ?_⟩
      rw [node?_put (ne_root (t := t) (by simp [node])), if_pos rfl]
  | @sunk q spot node => exact ⟨q, spot, .inr ⟨node, rfl⟩⟩

/-- What is new is the file. -/
theorem created (h : Writes p content t t') (hslash : hasTrailingSlash p = false)
    (hq : t.node? q = none) (hnode : t'.node? q = some node) :
    node = .file content ∧ t'.spot p = .ok (.found q) := by
  cases h with
  | @new q' spot =>
      have hroot : q' ≠ [] := ne_root (t := t) (by simp [absent_of_spot spot])
      have hspot : (t.put q' (.file content)).spot p = .ok (.found q') :=
        spot_put spot (.inr (getLast?_parts (spot_eq_ok.mp spot).1.2.1 hslash))
      rw [node?_put hroot] at hnode
      split at hnode
      · next hplace => exact ⟨(Option.some.inj hnode).symm, hplace ▸ hspot⟩
      · rw [hq] at hnode
        simp at hnode
  | @replaced q' old spot file =>
      rw [node?_put (ne_root (t := t) (by simp [file]))] at hnode
      split at hnode
      · next hplace =>
        rw [hplace, file] at hq
        simp at hq
      · rw [hq] at hnode
        simp at hnode
  | sunk spot node =>
      rw [hq] at hnode
      simp at hnode

/-- Nothing changes but what the name leads to. -/
theorem others (h : Writes p content t t') (hslash : hasTrailingSlash p = false)
    (hq : t'.spot p ≠ .ok (.found q)) : t'.node? q = t.node? q := by
  cases hnode : t.node? q with
  | some node =>
      rcases h.kept hnode with hkept | ⟨-, -, hspot, -⟩
      · exact hkept
      · exact absurd (h.spot hspot) hq
  | none =>
      rw [Option.eq_none_iff_forall_ne_some]
      exact fun node hnew => hq (h.created hslash hnode hnew).2

/-- Names start where they have started. -/
theorem start (h : Writes p content t t') : t'.start = t.start := by
  cases h <;> rfl

end Writes

end FileTree

end ParameterManager
