/-
A list of updates, from the caller to the store and back.

Between the two stand a payload and a mask, JSON on both sides, a query, and the walk of the
registry over the paths it finds in it.  None of that shows in the end: the stored parameter
is the one before with the updates made one after the other, and that is what the caller
gets.

What can go wrong is the size.  An address has a greatest length that a client sends, and a
body has one that a registry reads; a call that is too long fails, and nothing has happened.
-/
import ParameterManager.Proofs.Registry.Calls
import ParameterManager.Proofs.Registry.History
import ParameterManager.Proofs.Registry.Limits
import ParameterManager.Proofs.Update

namespace ParameterManager

namespace Registry

variable {port : UInt16}

/-! ### The mask, as it arrives -/

/-- The registry finds in the mask the fields that were updated. -/
theorem paths_received (n : ParameterName) (us : List ParameterUpdate) :
    (received (.ofUpdates n us)).paths
      = (UpdateRequest.ofUpdates n us).mask.paths.map FieldMask.camelPath :=
  UpdateRequest.split_queryValue n us

theorem name_received {n : ParameterName} (hn : n.IsPlain) (us : List ParameterUpdate) :
    (received (.ofUpdates n us)).name = n.display := by
  show n.stripped.display = n.display
  rw [hn.stripped_eq]

/-- What the registry makes of the updates, if the name is stored and there are any. -/
theorem outcome_received {n : ParameterName} (hn : n.IsPlain) {us : List ParameterUpdate}
    (hne : us ≠ []) {ps : Table Parameter} {stored : Parameter}
    (hstored : ps.get? n.display = some stored) :
    outcome ps (received (.ofUpdates n us)) = .ok (us.foldl ParameterUpdate.apply stored) := by
  have hpaths := paths_received n us
  have hname := name_received hn us
  obtain ⟨p, hp⟩ : ∃ p, patch (UpdateRequest.ofUpdates n us).parameter stored
      (received (.ofUpdates n us)).paths = .ok p := by
    refine patch_ok ?_
    intro path hpath
    rw [hpaths] at hpath
    obtain ⟨u, -, rfl⟩ := UpdateRequest.mem_camelPaths.mp hpath
    exact ⟨u.field, rfl⟩
  have hpatched := isPatched_of_patch hp
  rw [hpaths] at hpatched
  rw [hpatched.unique (UpdateRequest.isPatched_foldl n us stored)] at hp
  refine outcome_eq_ok.mpr ⟨_, stored, Parameter.ofValue_ordered _, ?_, hname ▸ hstored, hp⟩
  rw [hpaths]
  simpa using UpdateRequest.mask_ne_nil hne

/-- What the registry makes of updates that do not exist, or that are of no stored name. -/
theorem outcome_received_error {n : ParameterName} (hn : n.IsPlain)
    {us : List ParameterUpdate} {ps : Table Parameter} (h : us = [] ∨ ps.get? n.display = none) :
    ∃ e, outcome ps (received (.ofUpdates n us)) = .error e := by
  cases hout : outcome ps (received (.ofUpdates n us)) with
  | error e => exact ⟨e, rfl⟩
  | ok p =>
      exfalso
      obtain ⟨_, stored, -, hpaths, hstored, -⟩ := outcome_eq_ok.mp hout
      rcases h with rfl | hnone
      · rw [paths_received] at hpaths
        exact hpaths rfl
      · rw [name_received hn, hnone] at hstored
        simp at hstored

/-! ### From end to end -/

/-- An update is small enough: its address can be sent, and its body is read. -/
structure Fits (port : UInt16) (u : UpdateRequest) : Prop where
  address : Message.isShort (updateUrl port u) = true
  body : ¬IsTooLong u

/-- A change of a plain name reaches the registry if it is small enough. -/
theorem reaches_iff {u : UpdateRequest} (hn : u.name.IsPlain) :
    Reaches port u ↔ Fits port u := by
  constructor
  · exact fun h => ⟨h.short, h.fits⟩
  · exact fun h => ⟨by rw [hn.stripped_eq]; exact hn, h.address, h.body⟩

/-- A client makes a list of updates: it is made from the configuration of the registry, and
sends one request. -/
def runUpdates (port : UInt16) (files : FileTree) (now : Nat) (n : ParameterName)
    (us : List ParameterUpdate) (r : Registry) : ClientResult Parameter × Registry :=
  Remote.run (localParty port) (do
    let client ← Client.ofConf (clientConf (Url.localText port)) files now
    client.update (.ofUpdates n us)) r

private theorem runUpdates_eq (files : FileTree) (now : Nat) (n : ParameterName)
    (us : List ParameterUpdate) (r : Registry) : runUpdates port files now n us r
      = Remote.run (localParty port) ((localClient port).update (.ofUpdates n us)) r := by
  rw [runUpdates, ofConf_local, Remote.run_bind, Remote.run_pure]

/-- **Updates have exactly the effect of being made one after the other.**

Of a stored name, a list of updates that is not empty and not too large gives the stored
parameter with all of them made in their order, to the caller as well as to the store; the
last update of a field decides it, everything else of the parameter is as it was, and so is
every other entry.  Of a name that is not stored, or without any update, the call is refused
and changes no parameter, and a call that is too large fails without a trace. -/
theorem updates_made_in_order (port : UInt16) (files : FileTree) (now : Nat) (r : Registry)
    (n : ParameterName) (us : List ParameterUpdate) (hn : n.IsPlain) :
    (Fits port (.ofUpdates n us) → us ≠ [] → ∀ stored, r.parameters.get? n.display = some stored →
      ∃ p, p = us.foldl ParameterUpdate.apply stored ∧
        (runUpdates port files now n us r).1 = .ok p ∧
        (runUpdates port files now n us r).2.parameters.get? n.display = some p ∧
        (∀ name, name ≠ n.display → (runUpdates port files now n us r).2.parameters.get? name
          = r.parameters.get? name) ∧
        p.SameOutside stored ∧
        (∀ f : MaskField, (∀ u ∈ us, u.field ≠ f) → f.get p = f.get stored) ∧
        ∀ before u after, us = before ++ u :: after → (∀ v ∈ after, v.field ≠ u.field) →
          u.field.get p = u.field.get (u.apply stored)) ∧
    (Fits port (.ofUpdates n us) → us = [] ∨ r.parameters.get? n.display = none →
      (∃ text, (runUpdates port files now n us r).1 = .error (.requestFailed text)) ∧
        (runUpdates port files now n us r).2.parameters = r.parameters) ∧
    (¬Fits port (.ofUpdates n us) →
      ∃ e, runUpdates port files now n us r = (.error e, r)) := by
  simp only [runUpdates_eq]
  refine ⟨?_, ?_, ?_⟩
  · intro hfits hne stored hstored
    have hout := outcome_received hn hne hstored
    have hafter : (r.receive (received (.ofUpdates n us))).2.parameters
        = r.parameters.insert n.display (us.foldl ParameterUpdate.apply stored) := by
      rw [parameters_receive, Registry.apply, hout, name_received hn]
    rw [run_update_reaching ((reaches_iff hn).mpr hfits) r, hout, hafter]
    refine ⟨_, rfl, rfl, ?_, fun name hother => ?_, UpdateRequest.sameOutside_foldl us stored,
      fun f hf => UpdateRequest.get_foldl_of_not_mem hf stored, ?_⟩
    · rw [Table.get?_insert, if_pos rfl]
    · rw [Table.get?_insert, if_neg hother]
    · rintro before u after rfl hlast
      exact UpdateRequest.get_foldl_last hlast stored stored
  · intro hfits hnone
    obtain ⟨e, hout⟩ := outcome_received_error hn hnone
    rw [run_update_reaching ((reaches_iff hn).mpr hfits) r, hout]
    refine ⟨⟨_, rfl⟩, ?_⟩
    rw [parameters_receive, Registry.apply, hout]
  · intro hfits
    exact run_update_failing (fun hr => hfits ((reaches_iff hn).mp hr)) r

theorem key_removed_in_order :
    let n := ParameterName.global "alpha" "db"
    let us := [ParameterUpdate.kmsKey (some "new"), .kmsKey none]
    n.IsPlain ∧ Fits 8080 (.ofUpdates n us) ∧
      (runUpdates 8080 default 0 n us (.ofList [{ name := n.display, kmsKey := some "old" }])).1
        = .ok { name := n.display } := by
  intro n us
  have hn : n.IsPlain := ⟨by decide, by decide, by decide⟩
  have hfits : Fits 8080 (.ofUpdates n us) := ⟨by decide +kernel, by decide +kernel⟩
  have hstored : (ofList [{ name := n.display, kmsKey := some "old" }]).parameters.get? n.display
      = some { name := n.display, kmsKey := some "old" } := by
    rw [get?_ofList, seed?]
    simp
  obtain ⟨p, rfl, hok, -⟩ :=
    (updates_made_in_order 8080 default 0 _ n us hn).1 hfits (by simp [us]) _ hstored
  exact ⟨hn, hfits, hok⟩

/-! ### Too large calls -/

/-- **Not every update is made.**  A stored parameter is left as it is if its name is so long
that the address cannot be sent, or the new key so long that the body is not read. -/
theorem large_updates_not_made :
    (let n := ParameterName.global "alpha" (percents 21845)
      let us := [ParameterUpdate.format .yaml]
      n.IsPlain ∧
        (ofList [{ name := n.display }]).parameters.get? n.display = some { name := n.display } ∧
        (runUpdates 8080 default 0 n us (.ofList [{ name := n.display }])).1
          ≠ .ok (us.foldl ParameterUpdate.apply { name := n.display })) ∧
    (let n := ParameterName.global "alpha" "db"
      let us := [ParameterUpdate.kmsKey (some (percents 2097153))]
      n.IsPlain ∧
        (ofList [{ name := n.display }]).parameters.get? n.display = some { name := n.display } ∧
        (runUpdates 8080 default 0 n us (.ofList [{ name := n.display }])).1
          ≠ .ok (us.foldl ParameterUpdate.apply { name := n.display })) := by
  have hstored : ∀ n : ParameterName,
      (ofList [{ name := n.display }]).parameters.get? n.display = some { name := n.display } := by
    intro n
    rw [get?_ofList, seed?]
    simp
  have hrun : ∀ (n : ParameterName) (us : List ParameterUpdate), n.IsPlain →
      ¬Fits 8080 (.ofUpdates n us) →
      (runUpdates 8080 default 0 n us (.ofList [{ name := n.display }])).1
        ≠ .ok (us.foldl ParameterUpdate.apply { name := n.display }) := by
    intro n us hn hfits
    obtain ⟨e, hrun⟩ := run_update_failing (fun h => hfits ((reaches_iff hn).mp h))
      (.ofList [{ name := n.display }])
    rw [runUpdates_eq, hrun]
    simp
  refine ⟨?_, ?_⟩
  · intro n us
    have hn : n.IsPlain := ⟨by decide, by decide, isPlain_percents (by decide)⟩
    exact ⟨hn, hstored n, hrun n us hn fun h => not_isShort_percents (by decide) hn rfl h.address⟩
  · intro n us
    have hn : n.IsPlain := ⟨by decide, by decide, by decide⟩
    refine ⟨hn, hstored n, hrun n us hn fun h => h.body (isTooLong_of_key rfl ?_)⟩
    rw [percents, String.toList_ofList, List.length_replicate]
    decide

end Registry

end ParameterManager
