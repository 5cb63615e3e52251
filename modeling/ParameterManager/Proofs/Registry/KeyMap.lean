/-
Operations as the operations of a map of keys.

All that the operations do to a registry, and all that they tell of it, can be told of a map
from names to optional keys: a change sets or clears the key of a name that is in the map, and
a read gives it back.  Names come from the seed and stay, and so does everything else of a
parameter, so a stored parameter is its seed with the key that the map has for its name.

That is the invariant, `Tracks`.  It holds of a seeded registry, every operation keeps it and
answers by it, and so it holds after any number of operations.  An operation that is too large
to be sent or read fails and is left out of the map.
-/
import ParameterManager.Proofs.Registry.Confinement
import ParameterManager.Proofs.Registry.Update
import ParameterManager.Proofs.Sink

namespace ParameterManager

namespace Registry

variable {port : UInt16}

/-! ### Operations that are small enough -/

instance (u : UpdateRequest) : Decidable (Fits port u) :=
  decidable_of_iff (Message.isShort (updateUrl port u) = true ∧ ¬IsTooLong u)
    ⟨fun h => ⟨h.1, h.2⟩, fun h => ⟨h.address, h.body⟩⟩

namespace KeyCall

/-- An operation is small enough: its address can be sent, and its body is read. -/
def Fits (port : UInt16) (n : ParameterName) : KeyCall → Prop
  | get => Message.isShort (n.localUrl port) = true
  | change k => Registry.Fits port (k.request n)

instance (n : ParameterName) (call : KeyCall) : Decidable (call.Fits port n) :=
  match call with
  | get => inferInstanceAs (Decidable (_ = true))
  | change k => inferInstanceAs (Decidable (Registry.Fits port (k.request n)))

theorem arrives_iff {n : ParameterName} (hn : n.IsPlain) (call : KeyCall) :
    call.Arrives port n ↔ call.Fits port n := by
  cases call with
  | get => exact ⟨fun h => h.2, fun h => ⟨hn.stripped_eq.symm ▸ hn, h⟩⟩
  | change k => exact reaches_iff (by rw [KeyChange.name_request]; exact hn)

end KeyCall

/-! ### Operations one after the other -/

/-- An operation, and the identifiers it is asked for. -/
structure KeyStep where
  call : KeyCall
  project : String
  parameter : String

namespace KeyStep

def name (step : KeyStep) : ParameterName := .global step.project step.parameter

/-- The operation, made with a client of the registry and a sink. -/
def operate (port : UInt16) (files : FileTree) (now : Nat) (step : KeyStep) (s : Sink)
    (r : Registry) : (ClientResult Parameter × Sink) × Registry :=
  Registry.operate port files now step.call s step.project step.parameter r

theorem room?_operate (files : FileTree) (now : Nat) (step : KeyStep) {s : Sink}
    (hs : s.room? = none) (r : Registry) :
    (step.operate port files now s r).1.2.room? = none := by
  obtain ⟨call, project, parameter⟩ := step
  cases call with
  | get =>
      simp only [operate, operate_get, hs]
  | change k =>
      simp only [operate, operate_change]
      exact Operation.room?_report hs _ _

end KeyStep

/-- The sink and the registry after some operations. -/
def operateAll (port : UInt16) (files : FileTree) (now : Nat) (steps : List KeyStep)
    (state : Sink × Registry) : Sink × Registry :=
  steps.foldl (fun state step =>
    let done := step.operate port files now state.1 state.2
    (done.1.2, done.2)) state

/-! ### Maps of keys -/

/-- What is known of names: nothing, or that they are stored with an optional key. -/
abbrev KeyMap := String → Option (Option String)

namespace KeyMap

/-- The keys of a seed. -/
def ofSeed (ps : List Parameter) : KeyMap := fun name => (seed? ps name).map (·.kmsKey)

/-- The map with another key for a name that is in it. -/
def set (m : KeyMap) (name : String) (key? : Option String) : KeyMap := fun other =>
  if other = name then (m other).map fun _ => key? else m other

/-- The map after an operation on a name. -/
def after (m : KeyMap) (name : String) : KeyCall → KeyMap
  | .get => m
  | .change k => m.set name k.key?

/-- The map after some operations, of which those count that are small enough. -/
def afterAll (port : UInt16) (m : KeyMap) (steps : List KeyStep) : KeyMap :=
  steps.foldl (fun m step =>
    if step.call.Fits port step.name then m.after step.name.display step.call else m) m

/-- What is not in a map is not put there. -/
theorem set_of_unknown {m : KeyMap} {name : String} (h : m name = none) (key? : Option String) :
    m.set name key? = m := by
  funext other
  unfold set
  split
  · next heq => rw [heq, h]; rfl
  · rfl

end KeyMap

/-! ### The invariant -/

/-- A registry holds the names of a seed, each with its seed but for the key, which is the one
of the map. -/
structure Tracks (ps : List Parameter) (m : KeyMap) (r : Registry) : Prop where
  unknown : ∀ name, seed? ps name = none → m name = none ∧ r.parameters.get? name = none
  known : ∀ name seed, seed? ps name = some seed → ∃ key?, m name = some key? ∧
    r.parameters.get? name = some { seed with kmsKey := key? }

theorem tracks_ofList (ps : List Parameter) : Tracks ps (.ofSeed ps) (ofList ps) where
  unknown name h := by
    rw [KeyMap.ofSeed, get?_ofList, h]
    exact ⟨rfl, rfl⟩
  known name seed h := by
    rw [KeyMap.ofSeed, get?_ofList, h]
    exact ⟨seed.kmsKey, rfl, rfl⟩

namespace Tracks

variable {ps : List Parameter} {m : KeyMap} {r r' : Registry}

theorem of_parameters (h : Tracks ps m r) (heq : r'.parameters = r.parameters) :
    Tracks ps m r' where
  unknown name hseed := heq ▸ h.unknown name hseed
  known name seed hseed := heq ▸ h.known name seed hseed

/-- A name that is not in the map is not stored. -/
theorem get?_of_unknown (h : Tracks ps m r) {name : String} (hm : m name = none) :
    r.parameters.get? name = none := by
  cases hseed : seed? ps name with
  | none => exact (h.unknown name hseed).2
  | some seed =>
      obtain ⟨key?, hkey, -⟩ := h.known name seed hseed
      rw [hm] at hkey
      simp at hkey

/-- A name that is in the map is stored as its seed with the key of the map. -/
theorem get?_of_known (h : Tracks ps m r) {name : String} {key? : Option String}
    (hm : m name = some key?) : ∃ seed, seed? ps name = some seed ∧ seed.name = name ∧
      r.parameters.get? name = some { seed with kmsKey := key? } := by
  cases hseed : seed? ps name with
  | none =>
      rw [(h.unknown name hseed).1] at hm
      simp at hm
  | some seed =>
      obtain ⟨key, hkey, hstored⟩ := h.known name seed hseed
      obtain rfl := Option.some.inj (hm.symm.trans hkey)
      exact ⟨seed, rfl, name_of_seed? hseed, hstored⟩

/-- A key that is put into the entry of a stored name is put into the map. -/
theorem set (h : Tracks ps m r) {name : String} {seed : Parameter} {key? : Option String}
    (hseed : seed? ps name = some seed)
    (heq : r'.parameters = r.parameters.insert name { seed with kmsKey := key? }) :
    Tracks ps (m.set name key?) r' where
  unknown other hother := by
    have hne : other ≠ name := by
      rintro rfl
      rw [hseed] at hother
      simp at hother
    rw [heq, Table.get?_insert, if_neg hne, KeyMap.set, if_neg hne]
    exact h.unknown other hother
  known other seed' hother := by
    rw [heq, Table.get?_insert, KeyMap.set]
    by_cases hne : other = name
    · subst hne
      obtain ⟨key, hkey, -⟩ := h.known other seed hseed
      obtain rfl := Option.some.inj (hseed.symm.trans hother)
      rw [if_pos rfl, if_pos rfl, hkey]
      exact ⟨key?, rfl, rfl⟩
    · rw [if_neg hne, if_neg hne]
      exact h.known other seed' hother

end Tracks

/-! ### One operation -/

section

variable {ps : List Parameter} {m : KeyMap} {r : Registry} {n : ParameterName}

private theorem called_get (hn : n.IsPlain) (hshort : Message.isShort (n.localUrl port) = true) :
    called port .get n r = (resultOf (Route.pathOf n.addressed) (r.find n.display), r) := by
  have hrun := run_get_reaching (hn.stripped_eq.symm ▸ hn) hshort r
  rw [hn.stripped_eq] at hrun
  exact hrun

private theorem called_change {k : KeyChange} (hn : n.IsPlain)
    (hfits : Registry.Fits port (k.request n)) :
    called port (.change k) n r
      = (resultOf (Route.pathOf n.addressed)
            (outcome r.parameters (received (.ofUpdates n [.kmsKey k.key?]))),
          (r.receive (received (.ofUpdates n [.kmsKey k.key?]))).2) := by
  have hreaches : Reaches port (k.request n) :=
    (reaches_iff (by rw [KeyChange.name_request]; exact hn)).mpr hfits
  rw [called, KeyCall.ask, run_update_reaching hreaches, KeyChange.name_request,
    KeyChange.request_eq]

/-- A read of a stored name gives back what is stored. -/
private theorem called_get_stored (hn : n.IsPlain)
    (hshort : Message.isShort (n.localUrl port) = true) {p : Parameter}
    (hp : r.parameters.get? n.display = some p) : called port .get n r = (.ok p, r) := by
  have hfind : r.find n.display = .ok p := by
    unfold find
    rw [hp]
  rw [called_get hn hshort, hfind, resultOf]

private theorem called_get_unknown (hn : n.IsPlain)
    (hshort : Message.isShort (n.localUrl port) = true) (h : r.parameters.get? n.display = none) :
    ∃ text, called port .get n r = (.error (.requestFailed text), r) := by
  have hfind : r.find n.display = .error (.unknownName n.display) := by
    unfold find
    rw [h]
  rw [called_get hn hshort, hfind, resultOf]
  exact ⟨_, rfl⟩

/-- A change of a stored name gives back what is stored with the key it leaves, and that is what
is stored from then on. -/
private theorem called_change_stored {k : KeyChange} (hn : n.IsPlain)
    (hfits : Registry.Fits port (k.request n)) {p : Parameter}
    (hp : r.parameters.get? n.display = some p) :
    (called port (.change k) n r).1 = .ok { p with kmsKey := k.key? } ∧
      (called port (.change k) n r).2.parameters
        = r.parameters.insert n.display { p with kmsKey := k.key? } := by
  have hout := outcome_received hn (List.cons_ne_nil (.kmsKey k.key?) []) hp
  rw [called_change hn hfits, parameters_receive, apply, hout, name_received hn]
  exact ⟨rfl, rfl⟩

private theorem called_change_unknown {k : KeyChange} (hn : n.IsPlain)
    (hfits : Registry.Fits port (k.request n)) (h : r.parameters.get? n.display = none) :
    (∃ text, (called port (.change k) n r).1 = .error (.requestFailed text)) ∧
      (called port (.change k) n r).2.parameters = r.parameters := by
  obtain ⟨e, hout⟩ : ∃ e,
      outcome r.parameters (received (.ofUpdates n [.kmsKey k.key?])) = .error e :=
    outcome_received_error hn (Or.inr h)
  rw [called_change hn hfits, parameters_receive, apply, hout]
  exact ⟨⟨_, rfl⟩, rfl⟩

end

/-! ### Every operation keeps the invariant -/

section

variable {ps : List Parameter} {m : KeyMap} {r : Registry} {step : KeyStep} {s : Sink}

/-- An operation leads to a registry that the map after it tells of. -/
theorem Tracks.after_call {n : ParameterName} {call : KeyCall} (h : Tracks ps m r) (hn : n.IsPlain)
    (hfits : call.Fits port n) :
    Tracks ps (m.after n.display call) (called port call n r).2 := by
  cases call with
  | get =>
      rw [called_get hn hfits]
      exact h
  | change k =>
      cases hm : m n.display with
      | none =>
          obtain ⟨-, hsame⟩ := called_change_unknown hn hfits (h.get?_of_unknown hm)
          rw [KeyMap.after, KeyMap.set_of_unknown hm]
          exact h.of_parameters hsame
      | some key? =>
          obtain ⟨seed, hseed, -, hstored⟩ := h.get?_of_known hm
          obtain ⟨-, hset⟩ := called_change_stored hn hfits hstored
          exact h.set hseed hset

theorem Tracks.after_operation (h : Tracks ps m r) (hn : step.name.IsPlain) (files : FileTree)
    (now : Nat) (s : Sink) :
    Tracks ps (if step.call.Fits port step.name then m.after step.name.display step.call else m)
      (step.operate port files now s r).2 := by
  unfold KeyStep.operate
  by_cases hfits : step.call.Fits port step.name
  · rw [if_pos hfits, snd_operate]
    exact h.after_call hn hfits
  · obtain ⟨e, hfail⟩ := operate_failing files now s (mt (step.call.arrives_iff hn).mp hfits) r
    rw [if_neg hfits, hfail]
    exact h

/-- **After any operations a registry holds what the map of keys tells.** -/
theorem Tracks.after_all {steps : List KeyStep} (hn : ∀ step ∈ steps, step.name.IsPlain)
    (files : FileTree) (now : Nat) (h : Tracks ps m r) (hs : s.room? = none) :
    Tracks ps (m.afterAll port steps) (operateAll port files now steps (s, r)).2 ∧
      (operateAll port files now steps (s, r)).1.room? = none := by
  induction steps generalizing m r s with
  | nil => exact ⟨h, hs⟩
  | cons step steps ih =>
      exact ih (fun d hd => hn d (List.mem_cons_of_mem _ hd))
        (h.after_operation (hn step List.mem_cons_self) files now s)
        (step.room?_operate files now hs r)

/-- What an operation gives back, and the sink after it, are told by the map before it. -/
structure Answers (ps : List Parameter) (m : KeyMap) (call : KeyCall) (name : String) (s : Sink)
    (done : ClientResult Parameter × Sink) : Prop where
  /-- A name that is not in the map is refused, and nothing is written. -/
  unknown : m name = none → ∃ text,
    (call = .get → done = (.error (.getParameter (.requestFailed text)), s)) ∧
    ∀ k, call = .change k → done = (.error (.updateParameter (.requestFailed text)), s)
  /-- A read gives the key of the map. -/
  get : ∀ key?, m name = some key? → call = .get → ∃ seed, seed? ps name = some seed ∧
    done = (.ok { seed with kmsKey := key? }, s)
  set : ∀ key?, m name = some key? → ∀ key, call = .change (.set key) → ∃ seed,
    seed? ps name = some seed ∧ done = (.ok { seed with kmsKey := some key },
      s.appended s!"Updated parameter {name} with kms_key {key}\n")
  clear : ∀ key?, m name = some key? → call = .change .clear → ∃ seed,
    seed? ps name = some seed ∧ done = (.ok { seed with kmsKey := none },
      s.appended s!"Removed kms_key for parameter {name}\n")

private theorem answers_get {n : ParameterName} (h : Tracks ps m r) (hn : n.IsPlain)
    (hshort : Message.isShort (n.localUrl port) = true) :
    Answers ps m .get n.display s ((called port .get n r).1.mapError .getParameter, s) where
  unknown hm := by
    obtain ⟨text, hcalled⟩ := called_get_unknown hn hshort (h.get?_of_unknown hm)
    refine ⟨text, fun _ => ?_, fun k hk => by simp at hk⟩
    rw [hcalled]
    rfl
  get key? hm _ := by
    obtain ⟨seed, hseed, -, hstored⟩ := h.get?_of_known hm
    refine ⟨seed, hseed, ?_⟩
    rw [called_get_stored hn hshort hstored]
    rfl
  set _ _ key hcall := by simp at hcall
  clear _ _ hcall := by simp at hcall

/-- A change of a name in the map is reported with its line. -/
private theorem report_known {n : ParameterName} {k : KeyChange} (h : Tracks ps m r)
    (hn : n.IsPlain) (hfits : Fits port (k.request n)) (hs : s.room? = none)
    {key? : Option String} (hm : m n.display = some key?) {text : String}
    (hline : ∀ p : Parameter, p.name = n.display → p.kmsKey = k.key? → k.line p = .ok text) :
    ∃ seed, seed? ps n.display = some seed ∧
      Operation.report s k.line ((called port (.change k) n r).1.mapError .updateParameter)
        = (.ok { seed with kmsKey := k.key? }, s.appended text) := by
  obtain ⟨seed, hseed, hname, hstored⟩ := h.get?_of_known hm
  obtain ⟨hok, -⟩ := called_change_stored hn hfits hstored
  refine ⟨seed, hseed, ?_⟩
  rw [hok]
  exact Operation.report_unbounded hs (hline _ hname rfl)

private theorem answers_change {n : ParameterName} {k : KeyChange} (h : Tracks ps m r)
    (hn : n.IsPlain) (hfits : Fits port (k.request n)) (hs : s.room? = none) :
    Answers ps m (.change k) n.display s (Operation.report s k.line
      ((called port (.change k) n r).1.mapError .updateParameter)) where
  unknown hm := by
    obtain ⟨⟨text, hcalled⟩, -⟩ := called_change_unknown hn hfits (h.get?_of_unknown hm)
    refine ⟨text, fun hcall => by simp at hcall, fun _ _ => ?_⟩
    rw [hcalled]
    rfl
  get _ _ hcall := by simp at hcall
  set key? hm key hcall := by
    obtain rfl := KeyCall.change.inj hcall
    refine report_known h hn hfits hs hm ?_
    intro p hname hkey
    rw [KeyChange.line_set hkey, hname]
  clear key? hm hcall := by
    obtain rfl := KeyCall.change.inj hcall
    refine report_known h hn hfits hs hm ?_
    intro p hname _
    rw [KeyChange.line_clear, hname]

/-- **An operation answers by the map.** -/
theorem Tracks.answers (h : Tracks ps m r) (hn : step.name.IsPlain)
    (hfits : step.call.Fits port step.name) (files : FileTree) (now : Nat) (hs : s.room? = none) :
    Answers ps m step.call step.name.display s (step.operate port files now s r).1 := by
  obtain ⟨call, project, parameter⟩ := step
  simp only [KeyStep.name, KeyStep.operate] at hn hfits ⊢
  cases call with
  | get =>
      simp only [operate_get]
      exact answers_get h hn hfits
  | change k =>
      simp only [operate_change]
      exact answers_change h hn hfits hs

end

/-- **The operations on keys are those of a map of keys.**

After any operations on plain names, made with one sink that takes everything, a registry holds
what it was seeded with, but for the keys, which are those of the map that the same operations
have been made on.  What any further operation gives back and writes is told by this map: a
read gives the key that it has, a change sets or clears it and writes its line, and a name that
is not in it is refused without a word.  An operation that is too large fails and does nothing. -/
theorem operations_refine_key_map (port : UInt16) (files : FileTree) (now : Nat)
    (ps : List Parameter) {steps : List KeyStep} (hn : ∀ step ∈ steps, step.name.IsPlain)
    {s : Sink} (hs : s.room? = none) :
    let m := (KeyMap.ofSeed ps).afterAll port steps
    let state := operateAll port files now steps (s, ofList ps)
    Tracks ps m state.2 ∧
      ∀ step : KeyStep, step.name.IsPlain →
        (step.call.Fits port step.name → Answers ps m step.call step.name.display state.1
          (step.operate port files now state.1 state.2).1) ∧
        (¬step.call.Fits port step.name →
          ∃ e, step.operate port files now state.1 state.2 = ((.error e, state.1), state.2)) := by
  intro m state
  obtain ⟨htracks, hroom⟩ : Tracks ps m state.2 ∧ state.1.room? = none :=
    (tracks_ofList ps).after_all hn files now hs
  refine ⟨htracks, fun step hstep => ⟨fun hfits => ?_, fun hfits => ?_⟩⟩
  · exact htracks.answers hstep hfits files now hroom
  · exact operate_failing files now state.1 (mt (step.call.arrives_iff hstep).mp hfits) state.2

/-- A key is set and cleared, with a change of an unknown name in between, and then a read finds
that there is none. -/
theorem cleared_key_is_read :
    let seed : Parameter := { name := "projects/p/locations/global/parameters/db",
                              kmsKey := some "old", format := some .yaml }
    let steps : List KeyStep := [⟨.change (.set ""), "p", "db"⟩, ⟨.change (.set "k"), "p", "a/b"⟩,
      ⟨.change .clear, "p", "db"⟩]
    let state := operateAll 8080 default 0 steps ({}, ofList [seed])
    (∀ step ∈ steps, step.name.IsPlain) ∧
      ((KeyStep.mk .get "p" "db").operate 8080 default 0 state.1 state.2).1
        = (.ok { seed with kmsKey := none }, state.1) := by
  intro seed steps state
  have hplain : ∀ step ∈ steps, step.name.IsPlain := by
    simp only [steps, List.forall_mem_cons, List.not_mem_nil, false_imp_iff, implies_true, and_true]
    exact ⟨⟨by decide, by decide, by decide⟩, ⟨by decide, by decide, by decide⟩,
      ⟨by decide, by decide, by decide⟩⟩
  have hmap : (KeyMap.ofSeed [seed]).afterAll 8080 steps "projects/p/locations/global/parameters/db"
      = some none := by decide +kernel
  have hseed : seed? [seed] "projects/p/locations/global/parameters/db" = some seed := by
    decide +kernel
  obtain ⟨-, hnext⟩ := operations_refine_key_map 8080 default 0 [seed] hplain (s := {}) rfl
  obtain ⟨hanswers, -⟩ := hnext ⟨.get, "p", "db"⟩ ⟨by decide, by decide, by decide⟩
  obtain ⟨found, hfound, hdone⟩ := (hanswers (by decide +kernel)).get none hmap rfl
  obtain rfl := Option.some.inj (hfound.symm.trans hseed)
  exact ⟨hplain, hdone⟩

end Registry

end ParameterManager
