/-
The log of updates tells all.

An update is put into the log before it is known what becomes of it, and the parameters are
changed by another part of the state.  The two are kept in step: a request puts one entry into
the log exactly if it asks for an update, and it changes the parameters exactly as that entry
says.  What an entry says is told here by a rule of its own, `Ruling`, not by the function that
decides an update, so that replaying a log means something without a registry.

The step lemma is about one request, and everything else follows from it by induction on the
requests.
-/
import ParameterManager.Proofs.Registry.Decision
import ParameterManager.Proofs.Registry.History

namespace ParameterManager.Registry

open MaskField (IsUnknown)

/-! ### The rule of an update -/

/-- An update is accepted: its body is a parameter, its mask names something, its name is
stored, and each part of its mask names a field. -/
structure Accepted (ps : Table Parameter) (u : ReceivedUpdate) (delta stored : Parameter) :
    Prop where
  body : Parameter.wire.ofValue u.body = .ok delta
  masked : ∃ part ∈ MaskField.parts u.mask, part ≠ ""
  stored : ps.get? u.name = some stored
  known : ∀ part ∈ MaskField.parts u.mask, ¬IsUnknown part

/-- What an update makes of some parameters. -/
inductive Ruling (ps : Table Parameter) (u : ReceivedUpdate) : Table Parameter → Prop
  /-- An accepted update takes the fields that its mask names. -/
  | made {delta stored : Parameter} (h : Accepted ps u delta stored) :
      Ruling ps u (ps.insert u.name (stored.taking delta (MaskField.parts u.mask)))
  /-- Any other one is passed over. -/
  | skipped (h : ∀ delta stored, ¬Accepted ps u delta stored) : Ruling ps u ps

/-- What some updates, one after the other, make of some parameters. -/
inductive Replay : Table Parameter → List ReceivedUpdate → Table Parameter → Prop
  | nil (ps : Table Parameter) : Replay ps [] ps
  | cons {ps next final : Table Parameter} {u : ReceivedUpdate} {us : List ReceivedUpdate}
      (h : Ruling ps u next) (rest : Replay next us final) : Replay ps (u :: us) final

section

variable {ps ps' : Table Parameter} {u : ReceivedUpdate} {delta stored : Parameter}

theorem Accepted.outcome_eq (h : Accepted ps u delta stored) :
    outcome ps u = .ok (stored.taking delta (MaskField.parts u.mask)) :=
  outcome_patched h.body h.masked h.stored h.known

/-- An update that comes to a parameter is accepted. -/
theorem accepted_of_outcome {p : Parameter} (h : outcome ps u = .ok p) :
    ∃ delta stored, Accepted ps u delta stored := by
  obtain ⟨delta, stored, hdelta, hpaths, hstored, _⟩ := outcome_eq_ok.mp h
  obtain ⟨path, hpath⟩ := List.exists_mem_of_ne_nil _ hpaths
  exact ⟨delta, stored, hdelta, ⟨path, ReceivedUpdate.mem_paths.mp hpath⟩, hstored,
    known_of_outcome h⟩

theorem Accepted.apply_eq (h : Accepted ps u delta stored) :
    apply ps u = ps.insert u.name (stored.taking delta (MaskField.parts u.mask)) := by
  rw [apply, h.outcome_eq]

theorem apply_skipped (h : ∀ delta stored, ¬Accepted ps u delta stored) : apply ps u = ps := by
  unfold apply
  split
  · next p hout =>
    obtain ⟨delta, stored, haccepted⟩ := accepted_of_outcome hout
    exact absurd haccepted (h delta stored)
  · rfl

/-- **A registry decides an update by the rule.** -/
theorem ruling_iff : Ruling ps u ps' ↔ ps' = apply ps u := by
  constructor
  · intro h
    cases h with
    | made h => exact h.apply_eq.symm
    | skipped h => exact (apply_skipped h).symm
  · rintro rfl
    by_cases h : ∃ delta stored, Accepted ps u delta stored
    · obtain ⟨delta, stored, haccepted⟩ := h
      rw [haccepted.apply_eq]
      exact .made haccepted
    · have hskipped : ∀ delta stored, ¬Accepted ps u delta stored := by
        intro delta stored haccepted
        exact h ⟨delta, stored, haccepted⟩
      rw [apply_skipped hskipped]
      exact .skipped hskipped

theorem replay_iff {us : List ReceivedUpdate} : Replay ps us ps' ↔ ps' = us.foldl apply ps := by
  induction us generalizing ps with
  | nil =>
      constructor
      · rintro ⟨⟩
        rfl
      · rintro rfl
        exact .nil _
  | cons u us ih =>
      constructor
      · intro h
        cases h with
        | cons hu hrest =>
            obtain rfl := ruling_iff.mp hu
            exact ih.mp hrest
      · intro h
        exact .cons (ruling_iff.mpr rfl) (ih.mpr h)

end

/-! ### One request -/

/-- The entry that a request puts into the log, if it asks for an update. -/
def entryOf? (q : Request) : Option ReceivedUpdate :=
  match Route.ofRequest? q with
  | some (.update n) => (updateOf n q).toOption
  | _ => none

theorem entryOf?_eq_some {q : Request} {u : ReceivedUpdate} :
    entryOf? q = some u ↔ ∃ n mask body, AsksFor q n mask body ∧ u = ⟨n.display, mask, body⟩ := by
  constructor
  · intro h
    unfold entryOf? at h
    split at h
    · next n hroute =>
      cases hupdate : updateOf n q with
      | error response => simp [hupdate, Except.toOption] at h
      | ok v =>
          obtain ⟨mask, body, hmask, hbody, hauth, hv⟩ := updateOf_eq_ok.mp hupdate
          have huv : v = u := by simpa [hupdate, Except.toOption] using h
          exact ⟨n, mask, body, ⟨hroute, hmask, hbody, hauth⟩, huv ▸ hv⟩
    · simp at h
  · rintro ⟨n, mask, body, h, rfl⟩
    have hupdate : updateOf n q = .ok ⟨n.display, mask, body⟩ :=
      updateOf_eq_ok.mpr ⟨mask, body, h.mask, h.body, h.authorized, rfl⟩
    simp [entryOf?, h.route, hupdate, Except.toOption]

/-- **A request is logged exactly if it asks for an update, and does what its entry says.** -/
theorem handle_logs (r : Registry) (q : Request) :
    (r.handle q).2.updates = r.updates ++ (entryOf? q).toList ∧
      (r.handle q).2.parameters = (entryOf? q).toList.foldl apply r.parameters := by
  cases hentry : entryOf? q with
  | some u =>
      obtain ⟨n, mask, body, hasks, rfl⟩ := entryOf?_eq_some.mp hentry
      rw [handle_asked hasks]
      exact ⟨rfl, rfl⟩
  | none =>
      have hsame : (r.handle q).2 = r := by
        unfold handle
        unfold entryOf? at hentry
        split
        · rfl
        · rfl
        · split
          · rfl
          · rfl
        · next n hroute =>
          cases hupdate : updateOf n q with
          | error response => rfl
          | ok u => simp [hroute, hupdate, Except.toOption] at hentry
      simp [hsame]

/-! ### Runs -/

namespace History

variable (h : History)

/-- **Requests one after the other leave their entries in the log**, and what the entries make
of the parameters. -/
theorem foldl_serve_logs (qs : List Request) :
    (qs.foldl serve h).registry.updates = h.registry.updates ++ qs.filterMap entryOf? ∧
      (qs.foldl serve h).registry.parameters
        = (qs.filterMap entryOf?).foldl apply h.registry.parameters := by
  induction qs generalizing h with
  | nil => simp
  | cons q qs ih =>
      obtain ⟨hupdates, hparameters⟩ := ih (h.serve q)
      obtain ⟨hlogged, happlied⟩ := handle_logs h.registry q
      have hupdates' : (h.serve q).registry.updates = _ := hlogged
      have hparameters' : (h.serve q).registry.parameters = _ := happlied
      rw [List.foldl_cons, hupdates, hparameters, hupdates', hparameters']
      cases hentry : entryOf? q with
      | none => simp [hentry]
      | some u => simp [hentry]

end History

/-- A parameter that a request changes has an entry that explains it. -/
theorem explained {r : Registry} {q : Request} {name : String}
    (h : (r.handle q).2.parameters.get? name ≠ r.parameters.get? name) :
    ∃ u delta stored, (r.handle q).2.updates = r.updates ++ [u] ∧ u.name = name ∧
      Accepted r.parameters u delta stored ∧
      (r.handle q).2.parameters.get? name
        = some (stored.taking delta (MaskField.parts u.mask)) := by
  obtain ⟨hupdates, hparameters⟩ := handle_logs r q
  rw [hparameters] at h ⊢
  rw [hupdates]
  cases hentry : entryOf? q with
  | none => simp [hentry] at h
  | some u =>
      simp only [hentry, Option.toList_some, List.foldl_cons, List.foldl_nil] at h ⊢
      by_cases haccepted : ∃ delta stored, Accepted r.parameters u delta stored
      · obtain ⟨delta, stored, haccepted⟩ := haccepted
        rw [haccepted.apply_eq, Table.get?_insert] at h ⊢
        by_cases hname : name = u.name
        · exact ⟨u, delta, stored, rfl, hname.symm, haccepted, by rw [if_pos hname]⟩
        · simp [if_neg hname] at h
      · have hskipped : ∀ delta stored, ¬Accepted r.parameters u delta stored := by
          intro delta stored hacc
          exact haccepted ⟨delta, stored, hacc⟩
        simp [apply_skipped hskipped] at h

/-- **The log of updates is complete.**

After any requests, the log has one entry for each request that asked for an update, and no
other, in the order in which they were processed: such a request leads to the entry of a name,
its mask and its body can be read, and it carries the token.  Replaying the log on the seed by
the rule of an update, entries that are rejected being passed over, gives the parameters that
the registry holds, and nothing else.  And whatever a further request changes, it leaves an
entry that explains the change. -/
theorem log_is_complete (ps : List Parameter) (qs : List Request) :
    let r := (History.ofRequests ps qs).registry
    r.updates = qs.filterMap entryOf? ∧
    (∀ q u, entryOf? q = some u ↔
      ∃ n mask body, AsksFor q n mask body ∧ u = ⟨n.display, mask, body⟩) ∧
    (∀ t, Replay (ofList ps).parameters r.updates t ↔ t = r.parameters) ∧
    ∀ q name, (r.handle q).2.parameters.get? name ≠ r.parameters.get? name →
      ∃ u delta stored, (r.handle q).2.updates = r.updates ++ [u] ∧ u.name = name ∧
        Accepted r.parameters u delta stored ∧
        (r.handle q).2.parameters.get? name
          = some (stored.taking delta (MaskField.parts u.mask)) := by
  intro r
  obtain ⟨hupdates, hparameters⟩ := (History.start ps).foldl_serve_logs qs
  have hlog : r.updates = qs.filterMap entryOf? := by
    rw [show r.updates = _ from hupdates]
    rfl
  refine ⟨hlog, fun q u => entryOf?_eq_some, ?_, fun q name => explained⟩
  intro t
  have hreplayed : r.parameters = (qs.filterMap entryOf?).foldl apply (ofList ps).parameters :=
    hparameters
  rw [replay_iff, hlog, hreplayed]

end ParameterManager.Registry
