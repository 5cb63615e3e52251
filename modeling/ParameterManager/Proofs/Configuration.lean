/-
Where a configuration comes from, and what looking for it does to the files.

The first source that says something is used: the argument, the variable of the environment, or
a home directory.  A file that is named has to be there; only the one at home is written, with
the default configuration, if its name leads to nothing.  What is new afterwards is this file
and the directories to it.

What is old is not always kept.  A name that goes up again out of a directory which is missing
leads to nothing, whatever stands at its end.  Once the directory is made it does lead there,
and the file that was hidden in this way is written over.  It is said here exactly when this
happens, and that it takes a name that goes up.
-/
import ParameterManager.CommandLine.Run
import ParameterManager.Proofs.FileTree.Change

namespace ParameterManager

/-! ### Sources -/

/-- What says where the configuration is. -/
inductive ConfSource
  | argument (p : FilePath)
  | environment (p : FilePath)
  | home (p : FilePath)

namespace ConfSource

/-- The home directories that the environment knows, the one that is used in front. -/
def homes (env : Environment) : List FilePath :=
  env.home.toList.map FilePath.mk ++ env.userProfile.toList.map FilePath.mk ++
    (env.homeDrive.toList.flatMap fun drive =>
      env.homePath.toList.map fun path => FilePath.join ⟨drive⟩ ⟨path⟩)

/-- The sources that say something, the one that is used in front. -/
def inOrder (env : Environment) (arg : Option FilePath) : List ConfSource :=
  arg.toList.map argument ++
    ((env.conf.bind Utf8.text?).toList.map fun name => environment (.ofString name)) ++
    (homes env).map fun directory => home (directory.join ClientConf.homeFile)

/-- The file that a source names, if that has to be there. -/
def named? : ConfSource → Option FilePath
  | argument p => some p
  | environment p => some p
  | home _ => none

theorem homeDirectory?_eq (env : Environment) : env.homeDirectory? = (homes env).head? := by
  obtain ⟨_, home, profile, drive, path, _⟩ := env
  cases home <;> cases profile <;> cases drive <;> cases path <;> rfl

end ConfSource

namespace ClientConf

variable {t : FileTree} {p : FilePath} {q : List Bytes}

/-- **The first source decides** where the configuration is. -/
theorem location?_eq (t : FileTree) (env : Environment) (arg : Option FilePath) :
    location? t env arg =
      match (ConfSource.inOrder env arg).head? with
      | some (.argument p) =>
        if t.isThere p then .ok p
        else .error (.configuration s!"Configuration file {p.quoted} from CLI arg does not exist")
      | some (.environment p) =>
        if t.isThere p then .ok p
        else .error (.configuration
          s!"Configuration file {p.quoted} specified in {confVariable} environment variable does not exist")
      | some (.home p) => .ok p
      | none => .error (.notSupported "unable to determine the home folder") := by
  unfold location? ConfSource.inOrder
  cases arg with
  | some p => rfl
  | none =>
      cases env.conf.bind Utf8.text? with
      | some name => rfl
      | none =>
          rw [ConfSource.homeDirectory?_eq]
          cases ConfSource.homes env with
          | nil => rfl
          | cons directory rest => rfl

/-- Finds the configuration and reads it, or writes it. -/
def start (files : FileTree) (env : Environment) (arg : Option FilePath) :
    FileTree × ClientResult ClientConf :=
  match location? files env arg with
  | .error e => (files, .error e)
  | .ok p => load files p

/-! ### Reading and writing -/

/-- The configuration that the file of a name holds. -/
def stored (t : FileTree) (p : FilePath) : ClientResult ClientConf :=
  readJson wire t p "Unable to read configuration file" "Error while parsing configuration file"

/-- What a file with the default configuration holds. -/
def defaultFile : Bytes :=
  Utf8.encode (Json.object [("parameter_manager_url", .string defaultUrl)]).pretty

theorem load_of_isThere (h : t.isThere p = true) : load t p = (t, stored t p) := by
  unfold load
  rw [if_pos h]
  rfl

/-- A file holds the configuration that its bytes are read as. -/
theorem stored_file {content : Bytes} {c : ClientConf} (hspot : t.spot p = .ok (.found q))
    (hnode : t.node? q = some (.file content)) (hread : wire.ofStream content = .ok c) :
    stored t p = .ok c := by
  have hopen : t.openFile p = .ok (.bytes content) := by
    unfold FileTree.openFile
    rw [hspot]
    simp only [hnode]
  unfold stored readJson
  rw [hopen]
  simp only [withContext, bind, Except.bind, hread]

/-- The default configuration is read as what it is. -/
theorem stored_default (hspot : t.spot p = .ok (.found q))
    (hnode : t.node? q = some (.file defaultFile)) : stored t p = .ok default := by
  have hread : (wire.ofStream defaultFile).toOption = some default := by decide +kernel
  cases hdefault : wire.ofStream defaultFile with
  | ok c =>
      rw [hdefault] at hread
      exact stored_file hspot hnode (hdefault.trans (congrArg Except.ok (Option.some.inj hread)))
  | error e => simp [hdefault, Except.toOption] at hread

theorem save_default (t : FileTree) (p : FilePath) : save t default p =
    withContext .other FileError.message s!"Unable to write configuration to file {p.quoted}"
      (t.writeFile p defaultFile) := rfl

end ClientConf

/-! ### Names that hide files -/

/-- Something that is no directory stands where a name leads to nothing, and the name comes to
lead there once the directories above it have been made. -/
structure FileTree.Hides (t : FileTree) (p : FilePath) (q : List Bytes) (content : FileNode) :
    Prop where
  absent : t.isThere p = false
  node : t.node? q = some content
  noDirectory : content ≠ .directory
  shown : ∃ parent made, p.parent? = some parent ∧ t.createDirectories parent = (made, .ok ()) ∧
    made.spot p = .ok (.found q)

namespace FileTree

variable {t made : FileTree} {p parent : FilePath} {q : List Bytes} {node : FileNode}

private theorem makes_of_eq {result : Except FileError Unit}
    (h : t.createDirectories parent = (made, result)) : Makes parent t made := by
  have hmakes := makes_createDirectories t parent
  rwa [h] at hmakes

/-- What stood where a name comes to lead, if it is no directory, had been hidden. -/
theorem hides_of_made (habsent : t.isThere p = false) (hparent : p.parent? = some parent)
    (hmade : t.createDirectories parent = (made, .ok ())) (hspot : made.spot p = .ok (.found q))
    (hnode : made.node? q = some node) (hdir : node ≠ .directory) : t.Hides p q node := by
  have hmakes := makes_of_eq hmade
  refine ⟨habsent, ?_, hdir, parent, made, hparent, hmade, hspot⟩
  cases hold : t.node? q with
  | none => exact absurd (hmakes.made q node hold hnode).1 hdir
  | some old => rw [← hnode, hmakes.keeps.node hold]

/-- **Only a name that goes up hides anything**, in a closed tree. -/
theorem not_hides (hclosed : t.IsClosed) (hup : [FilePath.dot, FilePath.dot] ∉ p.parts)
    (q : List Bytes) (node : FileNode) : ¬t.Hides p q node := by
  rintro ⟨habsent, hnode, -, parent, made, -, hmade, hspot⟩
  have hkeeps := (makes_of_eq hmade).keeps
  obtain ⟨hname, hleads⟩ := spot_eq_ok.mp hspot
  rw [hkeeps.start] at hleads
  have hback := hkeeps.leads_back hclosed hleads hup (by simp [hnode])
  rw [isThere_iff.mpr ⟨q, spot_eq_ok.mpr ⟨hname, hback⟩⟩] at habsent
  simp at habsent

end FileTree

namespace ClientConf

open FileTree (Writes writeFile_ok)

variable {t : FileTree} {env : Environment} {arg : Option FilePath} {p : FilePath}
  {q : List Bytes} {node : FileNode}

/-! ### A configuration that is not there -/

/-- What comes of a name that leads to nothing: the files afterwards, and the configuration. -/
inductive Initialises (t : FileTree) (p : FilePath) : FileTree × ClientResult ClientConf → Prop
  | orphan {e : ClientError} (top : p.parent? = none) : Initialises t p (t, .error e)
  | stopped {parent : FilePath} {made : FileTree} {result : Except FileError Unit} {e : ClientError}
      (under : p.parent? = some parent) (dirs : t.createDirectories parent = (made, result))
      (failed : result = .ok () → ∀ after, ¬Writes p defaultFile made after) :
      Initialises t p (made, .error e)
  | written {parent : FilePath} {made after : FileTree} (under : p.parent? = some parent)
      (dirs : t.createDirectories parent = (made, .ok ()))
      (writes : Writes p defaultFile made after) :
      Initialises t p (after, .ok default)

theorem initialises_load (hslash : FileTree.hasTrailingSlash p = false)
    (h : t.isThere p = false) : Initialises t p (load t p) := by
  unfold load
  rw [if_neg (by simp [h])]
  split
  · next htop => exact .orphan htop
  · next parent hunder =>
    split
    · next made e hdirs => exact .stopped hunder hdirs fun hok => by simp at hok
    · next made hdirs =>
      rw [save_default]
      cases hwrite : made.writeFile p defaultFile with
      | ok after => exact .written hunder hdirs ((writeFile_ok hslash).mp hwrite)
      | error e =>
          refine .stopped hunder hdirs fun _ after hwrites => ?_
          rw [(writeFile_ok hslash).mpr hwrites] at hwrite
          simp at hwrite

namespace Initialises

variable {done : FileTree × ClientResult ClientConf}

/-- What was there is kept, unless it was a hidden file. -/
theorem kept (h : Initialises t p done) (habsent : t.isThere p = false)
    (hq : t.node? q = some node) : done.1.node? q = some node ∨
      ∃ old, node = .file old ∧ t.Hides p q node ∧ done.1.node? q = some (.file defaultFile) := by
  cases h with
  | orphan top => exact .inl hq
  | stopped under dirs failed => exact .inl ((FileTree.makes_of_eq dirs).keeps.node hq)
  | written under dirs writes =>
      have hmade := (FileTree.makes_of_eq dirs).keeps.node hq
      refine (writes.kept hmade).imp_right ?_
      rintro ⟨old, rfl, hspot, hfile⟩
      exact ⟨old, rfl, FileTree.hides_of_made habsent under dirs hspot hmade (by simp), hfile⟩

/-- A hidden file is written over. -/
theorem overwritten {old : Bytes} (h : Initialises t p done) (hides : t.Hides p q (.file old)) :
    done.1.node? q = some (.file defaultFile) ∧ done.2 = .ok default := by
  obtain ⟨-, hq, -, parent, made, hparent, hmade, hspot⟩ := hides
  have hfile := (FileTree.makes_of_eq hmade).keeps.node hq
  cases h with
  | orphan top =>
      rw [hparent] at top
      simp at top
  | stopped under dirs failed =>
      obtain rfl := Option.some.inj (hparent.symm.trans under)
      obtain ⟨rfl, rfl⟩ := Prod.mk.inj (hmade.symm.trans dirs)
      exact absurd (.replaced hspot hfile) (failed rfl _)
  | written under dirs writes =>
      obtain rfl := Option.some.inj (hparent.symm.trans under)
      obtain ⟨rfl, -⟩ := Prod.mk.inj (hmade.symm.trans dirs)
      refine ⟨?_, rfl⟩
      cases writes with
      | new spot =>
          rw [hspot] at spot
          simp at spot
      | replaced spot file =>
          rw [hspot] at spot
          obtain rfl := Spot.found.inj (Except.ok.inj spot)
          rw [FileTree.node?_put (FileTree.ne_root (by rw [file]; simp)), if_pos rfl]
      | sunk spot sink =>
          rw [hspot] at spot
          obtain rfl := Spot.found.inj (Except.ok.inj spot)
          rw [hfile] at sink
          simp at sink

/-- What is new is the file, or a directory to it. -/
theorem created (h : Initialises t p done) (hslash : FileTree.hasTrailingSlash p = false)
    (hq : t.node? q = none) (hnode : done.1.node? q = some node) :
    (node = .file defaultFile ∧ done.1.spot p = .ok (.found q)) ∨
      (node = .directory ∧ ∃ parent a, p.parent? = some parent ∧ a.StandsOver parent ∧
        done.1.spot a = .ok (.found q)) := by
  cases h with
  | orphan top =>
      rw [hq] at hnode
      simp at hnode
  | @stopped parent made result e under dirs failed =>
      obtain ⟨hdir, a, ha, hspot⟩ := (FileTree.makes_of_eq dirs).made q node hq hnode
      exact .inr ⟨hdir, parent, a, under, ha, hspot⟩
  | @written parent made after under dirs writes =>
      cases hmade : made.node? q with
      | none => exact .inl (writes.created hslash hmade hnode)
      | some node' =>
          obtain ⟨rfl, a, ha, hspot⟩ := (FileTree.makes_of_eq dirs).made q node' hq hmade
          have hdir : node = .directory := by
            rcases writes.kept hmade with hkept | ⟨old, hfile, -⟩
            · exact Option.some.inj (hnode.symm.trans hkept)
            · simp at hfile
          exact .inr ⟨hdir, parent, a, under, ha, writes.spot hspot⟩

/-- A configuration that has been written is found the next time, unless what took it keeps
nothing. -/
theorem again (h : Initialises t p done) (hslash : FileTree.hasTrailingSlash p = false)
    (habsent : t.isThere p = false) {c : ClientConf} (hc : done.2 = .ok c) :
    c = default ∧ ((∃ q, t.Hides p q .sink) ∨
      (done.1.isThere p = true ∧ stored done.1 p = .ok default)) := by
  cases h with
  | orphan top => simp at hc
  | stopped under dirs failed => simp at hc
  | @written parent made after under dirs writes =>
      refine ⟨(Except.ok.inj hc).symm, ?_⟩
      obtain ⟨q, hspot, hfile | ⟨hsink, rfl⟩⟩ := writes.found hslash
      · exact .inr ⟨FileTree.isThere_iff.mpr ⟨q, hspot⟩, stored_default hspot hfile⟩
      · exact .inl ⟨q, FileTree.hides_of_made habsent under dirs hspot hsink (by simp)⟩

end Initialises

/-! ### Whole starts -/

/-- The file at home does not end in a slash. -/
theorem hasTrailingSlash_homeFile (directory : FilePath) :
    FileTree.hasTrailingSlash (directory.join homeFile) = false := by
  have hlast : ∀ front : Bytes, FileTree.hasTrailingSlash ⟨front ++ homeFile.bytes⟩ = false := by
    intro front
    have hend : homeFile.bytes.getLast? = some 0x6E := by decide +kernel
    rw [FileTree.hasTrailingSlash, List.getLast?_append, hend]
    rfl
  have hrelative : homeFile.isAbsolute = false := by decide +kernel
  unfold FilePath.join
  rw [hrelative, if_neg (by simp)]
  split
  · exact hlast _
  · rw [List.append_cons]
    exact hlast _

/-- A command starts so, and puts the endpoint of its command line into what it has found. -/
theorem configure_start (i : Invocation) (env : Environment) (files : FileTree) :
    (i.configure env files).1 = (start files env i.conf).1 ∧
      (i.configure env files).2.toOption =
        (start files env i.conf).2.toOption.map fun c => { c with url := i.url.getD c.url } := by
  unfold Invocation.configure start
  cases location? files env i.conf with
  | error e => exact ⟨rfl, rfl⟩
  | ok p =>
      refine ⟨rfl, ?_⟩
      simp only
      cases (load files p).2 with
      | error e => rfl
      | ok c => rfl

/-- The file at home decides, its name leads to nothing, and so it hides what stands at a place. -/
def IsHidden (files : FileTree) (env : Environment) (arg : Option FilePath) (q : List Bytes)
    (content : FileNode) : Prop :=
  ∃ p, (ConfSource.inOrder env arg).head? = some (.home p) ∧ files.Hides p q content

/-- What comes of looking for a configuration: the files afterwards, and what is found. -/
structure Starts (files : FileTree) (env : Environment) (arg : Option FilePath) (after : FileTree)
    (result : ClientResult ClientConf) : Prop where
  /-- Nothing says where to look. -/
  homeless : ConfSource.inOrder env arg = [] →
    after = files ∧ result = .error (.notSupported "unable to determine the home folder")
  /-- A file that is named is read, and it is an error if it is not there. -/
  named : ∀ source p, (ConfSource.inOrder env arg).head? = some source → source.named? = some p →
    after = files ∧ (files.isThere p = true → result = stored files p) ∧
      (files.isThere p = false → ∃ text, result = .error (.configuration text))
  /-- The file at home is read if it is there. -/
  home : ∀ p, (ConfSource.inOrder env arg).head? = some (.home p) → files.isThere p = true →
    after = files ∧ result = stored files p
  /-- Otherwise it stands for the default configuration. -/
  initial : ∀ p c, (ConfSource.inOrder env arg).head? = some (.home p) →
    files.isThere p = false → result = .ok c → c = default
  /-- What was there is kept, but for a hidden file. -/
  kept : ∀ q node, files.node? q = some node → after.node? q = some node ∨
    ∃ old, node = .file old ∧ IsHidden files env arg q (.file old)
  /-- A hidden file is written over. -/
  overwritten : ∀ q old, IsHidden files env arg q (.file old) →
    after.node? q = some (.file defaultFile) ∧ result = .ok default
  /-- What is new is the file at home, or a directory on the way to it. -/
  created : ∀ q node, files.node? q = none → after.node? q = some node →
    ∃ p, (ConfSource.inOrder env arg).head? = some (.home p) ∧ files.isThere p = false ∧
      ((node = .file defaultFile ∧ after.spot p = .ok (.found q)) ∨
        (node = .directory ∧ ∃ parent a, p.parent? = some parent ∧ a.StandsOver parent ∧
          after.spot a = .ok (.found q)))
  /-- What is found is found again, and nothing changes then; only what keeps nothing of what is
  written to it can be hidden and show up. -/
  again : ∀ c, result = .ok c →
    (∃ q, IsHidden files env arg q .sink) ∨ start after env arg = (after, .ok c)
  /-- Nothing is hidden in a closed tree from a name that does not go up. -/
  unhidden : files.IsClosed →
    (∀ p, (ConfSource.inOrder env arg).head? = some (.home p) →
      [FilePath.dot, FilePath.dot] ∉ p.parts) → ∀ q node, ¬IsHidden files env arg q node

theorem start_named {source : ConfSource}
    (hfirst : (ConfSource.inOrder env arg).head? = some source) (hp : source.named? = some p) :
    (t.isThere p = true → start t env arg = (t, stored t p)) ∧
      (t.isThere p = false → ∃ text, start t env arg = (t, .error (.configuration text))) := by
  unfold start
  rw [location?_eq, hfirst]
  cases source with
  | argument name =>
      obtain rfl := Option.some.inj hp
      refine ⟨fun h => ?_, fun h => ?_⟩
      · simp only [h, if_true, load_of_isThere]
      · simp only [h, Bool.false_eq_true, if_false]
        exact ⟨_, rfl⟩
  | environment name =>
      obtain rfl := Option.some.inj hp
      refine ⟨fun h => ?_, fun h => ?_⟩
      · simp only [h, if_true, load_of_isThere]
      · simp only [h, Bool.false_eq_true, if_false]
        exact ⟨_, rfl⟩
  | home name => simp [ConfSource.named?] at hp

theorem start_home (hfirst : (ConfSource.inOrder env arg).head? = some (.home p)) :
    start t env arg = load t p := by
  unfold start
  rw [location?_eq, hfirst]

theorem start_nowhere (hfirst : ConfSource.inOrder env arg = []) : start t env arg =
    (t, .error (.notSupported "unable to determine the home folder")) := by
  unfold start
  rw [location?_eq, hfirst]
  rfl

/-- The file at home is the one in a home directory. -/
theorem hasTrailingSlash_of_home (hfirst : (ConfSource.inOrder env arg).head? = some (.home p)) :
    FileTree.hasTrailingSlash p = false := by
  have hmem := List.mem_of_mem_head? hfirst
  simp only [ConfSource.inOrder, List.mem_append, List.mem_map, reduceCtorEq, and_false, exists_false,
    false_or, ConfSource.home.injEq] at hmem
  obtain ⟨directory, -, rfl⟩ := hmem
  exact hasTrailingSlash_homeFile directory

/-- Only a file at home that is not there makes a start change anything. -/
theorem start_cases (files : FileTree) (env : Environment) (arg : Option FilePath) :
    (start files env arg).1 = files ∨
      ∃ p, (ConfSource.inOrder env arg).head? = some (.home p) ∧ files.isThere p = false ∧
        Initialises files p (start files env arg) := by
  cases hfirst : (ConfSource.inOrder env arg).head? with
  | none => exact .inl (by rw [start_nowhere (List.head?_eq_none_iff.mp hfirst)])
  | some source =>
      cases hnamed : source.named? with
      | some p =>
          obtain ⟨hread, hmissing⟩ := start_named (t := files) hfirst hnamed
          cases hthere : files.isThere p with
          | true => exact .inl (by rw [hread hthere])
          | false =>
              obtain ⟨text, hstart⟩ := hmissing hthere
              exact .inl (by rw [hstart])
      | none =>
          cases source with
          | argument p => simp [ConfSource.named?] at hnamed
          | environment p => simp [ConfSource.named?] at hnamed
          | home p =>
              rw [start_home hfirst]
              cases hthere : files.isThere p with
              | true => exact .inl (by rw [load_of_isThere hthere])
              | false =>
                  exact .inr ⟨p, rfl, hthere,
                    initialises_load (hasTrailingSlash_of_home hfirst) hthere⟩

/-- **A start keeps the files, but for one that is hidden.**

Whatever the files, the environment and the argument are, the first source that says something
decides.  A file that it names is read or missed, and all files stay as they are.  The file at
home is written with the default configuration if its name leads to nothing; then this file and
directories on the way to it are all that is new.  What is old is kept, and found again in the
same way, unless the name at home goes up and a file stands where it comes to lead once its
directories are made: exactly such a file is written over. -/
theorem start_keeps_files (files : FileTree) (env : Environment) (arg : Option FilePath) :
    Starts files env arg (start files env arg).1 (start files env arg).2 ∧
      ∀ i : Invocation, i.conf = arg → (i.configure env files).1 = (start files env arg).1 := by
  refine ⟨?_, fun i hi => hi ▸ (configure_start i env files).1⟩
  have hcases := start_cases files env arg
  exact {
    homeless := fun hnone => by
      rw [start_nowhere hnone]
      exact ⟨rfl, rfl⟩
    named := by
      intro source p hfirst hnamed
      obtain ⟨hread, hmissing⟩ := start_named (t := files) hfirst hnamed
      cases hthere : files.isThere p with
      | true =>
          rw [hread hthere]
          exact ⟨rfl, fun _ => rfl, fun h => by simp at h⟩
      | false =>
          obtain ⟨text, hstart⟩ := hmissing hthere
          rw [hstart]
          exact ⟨rfl, fun h => by simp at h, fun _ => ⟨text, rfl⟩⟩
    home := by
      intro p hfirst hthere
      rw [start_home hfirst, load_of_isThere hthere]
      exact ⟨rfl, rfl⟩
    initial := by
      intro p c hfirst habsent hc
      rw [start_home hfirst] at hc
      have hslash := hasTrailingSlash_of_home hfirst
      exact ((initialises_load hslash habsent).again hslash habsent hc).1
    kept := by
      intro q node hq
      rcases hcases with hidle | ⟨p, hfirst, habsent, hdone⟩
      · exact .inl (by rw [hidle, hq])
      · refine (hdone.kept habsent hq).imp_right ?_
        rintro ⟨old, rfl, hides, -⟩
        exact ⟨old, rfl, p, hfirst, hides⟩
    overwritten := by
      rintro q old ⟨p, hfirst, hides⟩
      rw [start_home hfirst]
      exact (initialises_load (hasTrailingSlash_of_home hfirst) hides.absent).overwritten hides
    created := by
      intro q node hq hnode
      rcases hcases with hidle | ⟨p, hfirst, habsent, hdone⟩
      · rw [hidle, hq] at hnode
        simp at hnode
      · exact ⟨p, hfirst, habsent,
          hdone.created (hasTrailingSlash_of_home hfirst) hq hnode⟩
    again := by
      intro c hc
      rcases hcases with hidle | ⟨p, hfirst, habsent, hdone⟩
      · exact .inr (Prod.ext (by rw [hidle, hidle]) (by rw [hidle, hc]))
      · obtain ⟨rfl, ⟨q, hides⟩ | ⟨hthere, hstored⟩⟩ :=
          hdone.again (hasTrailingSlash_of_home hfirst) habsent hc
        · exact .inl ⟨q, p, hfirst, hides⟩
        · exact .inr (by rw [start_home hfirst, load_of_isThere hthere, hstored])
    unhidden := by
      rintro hclosed hup q node ⟨p, hfirst, hides⟩
      exact FileTree.not_hides hclosed (hup p hfirst) q node hides }

-- a home that goes out of a missing directory hides the configuration that is there
example :
    let old := FileNode.file (Utf8.encode "\x7b\"parameter_manager_url\":\"http://localhost\"\x7d")
    let place := [Utf8.encode ".cosmian", Utf8.encode "pmctl.json"]
    let files : FileTree :=
      { entries := [([Utf8.encode ".cosmian"], .directory), (place, old)], start := [] }
    let done := start files { home := some (Utf8.encode "x/..") } none
    files.node? place = some old ∧ done.1.node? place = some (.file defaultFile) ∧
      done.2.toOption = some default := by
  decide +kernel

end ClientConf

end ParameterManager
