/-
What comes of saving a configuration.

A configuration is made of its address and of at most four other members, and what is written of
it is read as the same configuration again, whatever the texts in it are.  Only the name of the key
file need not be a text; then nothing can be written.

The text is complete before the file is touched.  This is seen in the steps of which saving
consists, where opening the file for writing leaves it empty: only the first two steps can
fail, and neither has changed anything then.  So a file that was there is lost to nothing but the
new configuration.
-/
import ParameterManager.Proofs.Configuration
import ParameterManager.Proofs.Json.Record
import ParameterManager.Proofs.Json.Written

namespace ParameterManager

open Json (Field Record Wire Writable orderedMembers orderedMembers_append)

/-- A name leads to something that keeps nothing of what is written to it. -/
def FileTree.LeadsToSink (t : FileTree) (p : FilePath) : Prop :=
  ∃ q, t.spot p = .ok (.found q) ∧ t.node? q = some .sink

namespace ClientConf

/-! ### What is written -/

/-- The time limit is a count of sixty-four bits. -/
def Fits (c : ClientConf) : Prop := ∀ n, c.timeoutSecs = some n → n < 2 ^ 64

/-- The name of the key file is a text, if there is one. -/
def KeyIsText (c : ClientConf) : Prop := ∃ key? : Option String, c.keyPath = key?.map .ofString

/-- The members that are written if the key file has some text for its name. -/
def members (c : ClientConf) (key? : Option String) : List (String × Json) :=
  memberOf "accept_invalid_certs" .bool (if c.acceptInvalidCerts then some true else none) ++
    ("parameter_manager_url", .string c.url) :: (memberOf "access_token" .string c.accessToken ++
      memberOf "service_account_key_path" .string key? ++
      memberOf "timeout_secs" .ofNat c.timeoutSecs)

variable {c : ClientConf} {key? : Option String} {j : Json}

/-- **A configuration is written exactly if the name of its key file is a text.** -/
theorem toJson?_eq_some_iff : c.toJson? = some j ↔
    ∃ key? : Option String, c.keyPath = key?.map .ofString ∧ j = .object (c.members key?) := by
  have hmembers : ∀ key? : Option String, c.members key? =
      (if c.acceptInvalidCerts then [("accept_invalid_certs", .bool true)] else []) ++
        [("parameter_manager_url", .string c.url)] ++
        (c.accessToken.toList.map fun s => ("access_token", .string s)) ++
        (key?.toList.map fun s => ("service_account_key_path", .string s)) ++
        (c.timeoutSecs.toList.map fun n => ("timeout_secs", .ofNat n)) := by
    intro key?
    cases h : c.acceptInvalidCerts <;> simp [members, memberOf, h]
  unfold toJson?
  cases hpath : c.keyPath with
  | none =>
      constructor
      · intro h
        exact ⟨none, rfl, (Option.some.inj h).symm.trans (by rw [hmembers]; rfl)⟩
      · rintro ⟨key?, hkey, rfl⟩
        obtain rfl := Option.map_eq_none_iff.mp hkey.symm
        rw [hmembers]
        rfl
  | some p =>
      constructor
      · intro h
        cases htext : p.text? with
        | none => simp [htext] at h
        | some s =>
            have hp : p = .ofString s := by
              rw [FilePath.ofString, Utf8.encode_of_text? htext]
            refine ⟨some s, congrArg some hp, ?_⟩
            rw [hmembers]
            simpa [htext] using h.symm
      · rintro ⟨key?, hkey, rfl⟩
        obtain ⟨s, rfl, rfl⟩ := Option.map_eq_some_iff.mp hkey.symm
        have htext : (FilePath.ofString s).text? = some s := Utf8.text?_encode s
        rw [hmembers]
        simp [htext]

theorem toJson?_isSome_iff : (∃ j, c.toJson? = some j) ↔ c.KeyIsText := by
  simp only [toJson?_eq_some_iff]
  constructor
  · rintro ⟨_, key?, hkey, -⟩
    exact ⟨key?, hkey⟩
  · rintro ⟨key?, hkey⟩
    exact ⟨_, key?, hkey, rfl⟩

/-! ### What is read -/

private theorem independent : record.Independent := by
  simp only [Record.Independent, record, List.pairwise_cons, List.mem_cons, List.not_mem_nil,
    or_false, forall_eq_or_imp, forall_eq, false_imp_iff, implies_true, List.Pairwise.nil, and_true]
  and_intros <;> exact Record.commute_of fun _ _ _ => rfl

/-- A name of a file that is a text is read as the name. -/
private theorem takes_some_path (s : String) :
    (Wire.optional pathWire).Takes (.string s) (some (.ofString s)) :=
  ((Wire.takes_text _ s).map FilePath.ofString).optional (by simp)

/-- A configuration is taken for itself. -/
theorem takes_members (hc : c.Fits) (hkey : c.keyPath = key?.map .ofString) :
    wire.Takes (.object (c.members key?)) c := by
  have hcertsField : record.field? "accept_invalid_certs" = some (.of "accept_invalid_certs"
    .defaulted .flag fun v c => { c with acceptInvalidCerts := v }) := rfl
  have hurlField : record.field? "parameter_manager_url" = some (.of "parameter_manager_url"
    .required .string fun v c => { c with url := v }) := rfl
  have htokenField : record.field? "access_token" = some (.of "access_token" .optional
    (.optional .string) fun v c => { c with accessToken := v }) := rfl
  have hkeyField : record.field? "service_account_key_path" = some (.of "service_account_key_path"
    .optional (.optional pathWire) fun v c => { c with keyPath := v }) := rfl
  have htimeoutField : record.field? "timeout_secs" = some (.of "timeout_secs" .optional
    (.optional (.count 64)) fun v c => { c with timeoutSecs := v }) := rfl
  have hcerts : ∀ b, (if c.acceptInvalidCerts then some true else none) = some b →
      Wire.flag.Takes (.bool b) (id b) := fun b _ => Wire.takes_flag b
  have htimeout : ∀ n, c.timeoutSecs = some n →
      (Wire.optional (.count 64)).Takes (.ofNat n) (some n) :=
    fun n hn => (Wire.takes_count (hc n hn)).optional (by simp [Json.ofNat])
  have hknown : ∀ d ∈ c.members key?, record.Knows d := by
    intro d hd
    simp only [members, List.mem_cons, List.mem_append] at hd
    rcases hd with hd | rfl | ((hd | hd) | hd)
    · exact Record.knows_memberOf_of hcertsField hcerts hd
    · exact Record.knows_of hurlField (Wire.takes_string c.url)
    · exact Record.knows_memberOf htokenField Wire.takes_some_string hd
    · exact Record.knows_memberOf_of hkeyField (fun s _ => takes_some_path s) hd
    · exact Record.knows_memberOf_of htimeoutField htimeout hd
  have hnodup : ((c.members key?).map (·.1)).Nodup := by
    have hall : ["accept_invalid_certs", "parameter_manager_url", "access_token",
      "service_account_key_path", "timeout_secs"].Nodup := by decide
    refine hall.sublist ?_
    simp only [members, List.map_append, List.map_cons]
    exact (Record.names_memberOf _).append ((((Record.names_memberOf _).append
      (Record.names_memberOf _)).append (Record.names_memberOf _)).cons_cons _)
  have hcertsSet : record.changed (orderedMembers (memberOf "accept_invalid_certs" Json.bool
      (if c.acceptInvalidCerts then some true else none))) record.initial
        = { url := "", acceptInvalidCerts := c.acceptInvalidCerts } := by
    rw [Record.changed_memberOf_of hcertsField hcerts]
    cases c.acceptInvalidCerts <;> rfl
  have htakes := Record.takes_object independent hknown hnodup (by
    intro f hf hreq
    simp only [record, List.mem_cons, List.not_mem_nil, or_false] at hf
    rcases hf with rfl | rfl | rfl | rfl | rfl <;> simp [Field.of, members] at hreq ⊢)
  rw [members, orderedMembers_append, Record.changed_append, hcertsSet,
    Record.changed_cons hurlField (Wire.takes_string c.url)] at htakes
  simp only [orderedMembers_append, Record.changed_append] at htakes
  rw [Record.changed_memberOf htokenField Wire.takes_some_string _ rfl,
    Record.changed_memberOf_of hkeyField fun s _ => takes_some_path s,
    Record.changed_memberOf_of htimeoutField htimeout] at htakes
  obtain ⟨certs, url, token, keyPath, timeout⟩ := c
  obtain rfl : keyPath = key?.map .ofString := hkey
  cases key? <;> cases timeout <;> exact htakes

private theorem writable_members (hc : c.Fits) : Writable (.object (c.members key?)) := by
  refine .object fun d hd => ?_
  simp only [members, memberOf, List.mem_cons, List.mem_append, List.mem_map,
    Option.mem_toList] at hd
  rcases hd with ⟨b, -, rfl⟩ | rfl | ((⟨s, -, rfl⟩ | ⟨s, -, rfl⟩) | ⟨n, hn, rfl⟩)
  · exact .bool b
  · exact .string c.url
  · exact .string s
  · exact .string s
  · have hmax : 2 ^ 64 - 1 ≤ Json.maxSignificand := by decide
    have hlt := hc n hn
    exact .count (by omega)

/-- **A configuration is read back** from the text that is written for it. -/
theorem ofStream_pretty (hc : c.Fits) (hj : c.toJson? = some j) :
    wire.ofStream (Utf8.encode j.pretty) = .ok c := by
  obtain ⟨key?, hkey, rfl⟩ := toJson?_eq_some_iff.mp hj
  exact ((takes_members hc hkey).readsBack (writable_members hc)).pretty.ofStream

/-! ### Steps -/

/-- One step of saving, and the files that it leaves behind. -/
def writeStep (t : FileTree) (p : FilePath) (content : Bytes) : FileTree × ClientResult Unit :=
  match withContext .other FileError.message s!"Unable to write configuration to file {p.quoted}"
      (t.writeFile p content) with
  | .ok t' => (t', .ok ())
  | .error e => (t, .error e)

/-- Saving in steps, each of which leaves behind what it has done.  The file is opened for writing
before it is written, and then it is empty. -/
def saveInSteps (t : FileTree) (c : ClientConf) (p : FilePath) : FileTree × ClientResult Unit :=
  match c.toJson? with
  | none => (t, .error (.other
      s!"Unable to serialize configuration {c.debug}: path contains invalid UTF-8 characters"))
  | some j =>
    match writeStep t p [] with
    | (opened, .error e) => (opened, .error e)
    | (opened, .ok ()) => writeStep opened p (Utf8.encode j.pretty)

variable {t after : FileTree} {p : FilePath}

theorem save_ok_iff : save t c p = .ok after ↔
    ∃ j, c.toJson? = some j ∧ t.writeFile p (Utf8.encode j.pretty) = .ok after := by
  unfold save
  cases c.toJson? with
  | none => simp
  | some j =>
      simp only [Option.some.injEq, exists_eq_left']
      cases t.writeFile p (Utf8.encode j.pretty) <;> simp [withContext]

/-- **Saving is complete or leaves everything as it was**, although it is made of steps: what can
fail comes before what changes a file. -/
theorem saveInSteps_eq (t : FileTree) (c : ClientConf) (p : FilePath) : saveInSteps t c p =
    match save t c p with
    | .ok after => (after, .ok ())
    | .error e => (t, .error e) := by
  unfold saveInSteps save
  cases c.toJson? with
  | none => rfl
  | some j =>
      simp only [writeStep]
      cases hopened : t.writeFile p [] with
      | ok opened =>
          obtain ⟨after, hafter, hagain⟩ :=
            FileTree.writeFile_again hopened (Utf8.encode j.pretty)
          simp only [hafter, hagain, withContext]
      | error e =>
          simp only [FileTree.writeFile_error hopened, withContext]

/-! ### Everything -/

/-- What comes of saving a configuration to the file of a name: the files afterwards, and whether
it is saved. -/
structure Saves (t : FileTree) (c : ClientConf) (p : FilePath) (after : FileTree)
    (result : ClientResult Unit) : Prop where
  /-- It is saved exactly if it can be written and the file can. -/
  ok_iff : result = .ok () ↔ c.KeyIsText ∧ t.IsWritable p
  /-- If it is not saved, all files are what they were. -/
  unchanged : ∀ e, result = .error e → after = t
  /-- What is loaded is what has been saved, and loading changes nothing. -/
  loaded : result = .ok () → ¬t.LeadsToSink p → load after p = (after, .ok c)
  /-- Nothing has changed but the file. -/
  others : ∀ q, after.spot p ≠ .ok (.found q) → after.node? q = t.node? q
  start : after.start = t.start

theorem save_isOk_iff : (∃ after, save t c p = .ok after) ↔ c.KeyIsText ∧ t.IsWritable p := by
  simp only [save_ok_iff]
  constructor
  · rintro ⟨after, j, hj, hwrite⟩
    exact ⟨toJson?_isSome_iff.mp ⟨j, hj⟩, FileTree.writeFile_isOk_iff.mp ⟨after, hwrite⟩⟩
  · rintro ⟨hkey, hwritable⟩
    obtain ⟨j, hj⟩ := toJson?_isSome_iff.mpr hkey
    obtain ⟨after, hwrite⟩ := FileTree.writeFile_isOk_iff.mpr hwritable
    exact ⟨after, j, hj, hwrite⟩

/-- **A configuration that is saved is loaded as it is, and one that is not leaves all files as
they were.** -/
theorem save_is_complete (t : FileTree) {c : ClientConf} (hc : c.Fits) (p : FilePath) :
    Saves t c p (saveInSteps t c p).1 (saveInSteps t c p).2 ∧
      save t c p = (saveInSteps t c p).2.map fun _ => (saveInSteps t c p).1 := by
  have hsteps := saveInSteps_eq t c p
  cases hsave : save t c p with
  | error e =>
      rw [hsave] at hsteps
      simp only [hsteps]
      have hfails : ¬(c.KeyIsText ∧ t.IsWritable p) := by
        rw [← save_isOk_iff]
        rintro ⟨after, hok⟩
        simp [hsave] at hok
      exact ⟨{
        ok_iff := by simp [hfails]
        unchanged := fun _ _ => rfl
        loaded := fun h => by simp at h
        others := fun _ _ => rfl
        start := rfl }, rfl⟩
  | ok after =>
      rw [hsave] at hsteps
      simp only [hsteps]
      obtain ⟨j, hj, hwrite⟩ := save_ok_iff.mp hsave
      obtain ⟨hslash, hwrites⟩ := FileTree.writeFile_ok_iff.mp hwrite
      exact ⟨{
        ok_iff := by simp [save_isOk_iff.mp ⟨after, hsave⟩]
        unchanged := fun e he => by simp at he
        loaded := by
          intro _ hsink
          obtain ⟨q, hspot, hfile | ⟨hq, rfl⟩⟩ := hwrites.found hslash
          · rw [load_of_isThere (FileTree.isThere_iff.mpr ⟨q, hspot⟩),
              stored_file hspot hfile (ofStream_pretty hc hj)]
          · exact absurd ⟨q, hspot, hq⟩ hsink
        others := fun q hq => hwrites.others hslash hq
        start := hwrites.start }, rfl⟩

/-- A file is written over with a configuration that has everything, and loaded. -/
theorem saved_over_old_file :
    let place := [Utf8.encode "pmctl.json"]
    let t : FileTree := { entries := [(place, .file (Utf8.encode "old"))], start := [] }
    let c : ClientConf :=
      { acceptInvalidCerts := true, url := "http://localhost/\"", accessToken := some "a\nb",
        keyPath := some (.ofString "clé.json"), timeoutSecs := some (2 ^ 64 - 1) }
    let p := FilePath.ofString "pmctl.json"
    c.Fits ∧ ∃ after, save t c p = .ok after ∧ load after p = (after, .ok c) := by
  intro place t c p
  have hc : c.Fits := by
    rintro n ⟨⟩
    decide
  have hspot : t.spot p = .ok (.found place) := by decide +kernel
  have hnode : t.node? place = some (.file (Utf8.encode "old")) := by decide +kernel
  have hslash : FileTree.hasTrailingSlash p = false := by decide +kernel
  have hsink : ¬t.LeadsToSink p := by
    rintro ⟨q, hq, hsink⟩
    obtain rfl := Spot.found.inj (Except.ok.inj (hspot.symm.trans hq))
    simp [hnode] at hsink
  obtain ⟨hsaves, hsave⟩ := save_is_complete t hc p
  have hok := hsaves.ok_iff.mpr
    ⟨⟨some "clé.json", rfl⟩, hslash, .inr ⟨place, _, hspot, hnode, by simp⟩⟩
  rw [hok] at hsave
  exact ⟨hc, _, hsave, hsaves.loaded hok hsink⟩

-- a key file whose name is no text stops the saving before the file is opened
example :
    let place := [Utf8.encode "pmctl.json"]
    let t : FileTree := { entries := [(place, .file (Utf8.encode "old"))], start := [] }
    let done := saveInSteps t { url := "u", keyPath := some ⟨[0xFF]⟩ } (.ofString "pmctl.json")
    done.1.node? place = some (.file (Utf8.encode "old")) ∧ done.2.toOption = none := by
  decide +kernel

end ClientConf

end ParameterManager
