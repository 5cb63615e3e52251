/-
What an operation may touch.

An operation is asked for two identifiers, and it should concern the entry of their name
and nothing else.  It concerns the entry of the name without the characters that addresses
leave out, which is the same unless there are such characters.  If there are, an identifier
stands for another one, and an operation may reach an entry it was not asked for: the last
theorem says exactly when.
-/
import ParameterManager.Proofs.Operation
import ParameterManager.Proofs.Registry.Calls
import ParameterManager.Proofs.Registry.History

namespace ParameterManager

/-! ### Names -/

namespace ParameterName

private theorem length_strip_le (s : String) : (Url.strip s).toList.length ≤ s.toList.length := by
  rw [Url.strip, String.toList_ofList]
  exact List.length_filter_le _ _

private theorem strip_eq_of_length {s : String}
    (h : (Url.strip s).toList.length = s.toList.length) :
    Url.strip s = s := by
  rw [Url.strip, String.toList_ofList] at h
  refine Url.strip_eq_self ?_
  intro c hc
  simpa using List.length_filter_eq_length_iff.mp h c hc

/-- A name is shown as another one if characters of it are left out. -/
theorem stripped_display_ne {n : ParameterName} (h : n.stripped ≠ n) :
    n.stripped.display ≠ n.display := by
  intro heq
  have hlength := congrArg (fun s : String => s.toList.length) heq
  simp only [display, parent, stripped, toString, String.toList_append,
    List.length_append] at hlength
  have h1 := length_strip_le n.project
  have h2 := length_strip_le n.location
  have h3 := length_strip_le n.parameter
  refine h ?_
  rw [stripped, strip_eq_of_length (s := n.project) (by omega),
    strip_eq_of_length (s := n.location) (by omega),
    strip_eq_of_length (s := n.parameter) (by omega)]

private theorem strip_eq_iff {s : String} :
    Url.strip s = s ↔ ∀ c ∈ s.toList, Url.isLeftOut c = false :=
  ⟨fun h _ hc => Url.strip_isLeftOut (h.symm ▸ hc), Url.strip_eq_self⟩

/-- Characters of a name of the global location are left out if they are in an identifier. -/
theorem stripped_global_ne_iff {project parameter : String} :
    (global project parameter).stripped ≠ global project parameter ↔
      ∃ c ∈ project.toList ++ parameter.toList, Url.isLeftOut c = true := by
  have hlocation : Url.IsPlain globalLocation := by decide
  have hsame : (global project parameter).stripped = global project parameter ↔
      ∀ c ∈ project.toList ++ parameter.toList, Url.isLeftOut c = false := by
    simp only [stripped, global, mk.injEq, strip_eq_iff, List.forall_mem_append]
    exact ⟨fun h => ⟨h.1, h.2.2⟩, fun h => ⟨h.1, hlocation.noneLeftOut, h.2⟩⟩
  rw [ne_eq, hsame]
  simp

end ParameterName

namespace Registry

variable {port : UInt16}

/-! ### Operations -/

/-- An operation on a parameter of the global location. -/
inductive KeyCall
  | get
  | change (change : KeyChange)

namespace KeyCall

def perform {m : Type → Type} [Monad m] (c : Connector m) (s : Sink) (project parameter : String) :
    KeyCall → m (ClientResult Parameter × Sink)
  | get => do
    let answer ← Operation.get c project parameter
    pure (answer, s)
  | change k => k.perform c s project parameter

/-- The call that an operation makes. -/
def ask (c : Client) (n : ParameterName) : KeyCall → Remote Parameter
  | get => c.get n
  | change k => c.update (k.request n)

/-- The call of an operation reaches the registry. -/
def Arrives (port : UInt16) (n : ParameterName) : KeyCall → Prop
  | get => n.stripped.IsPlain ∧ Message.isShort (n.localUrl port) = true
  | change k => Reaches port (k.request n)

end KeyCall

/-- An operation on a registry on this machine, with the token that it accepts: what is given
back, what is written, and the registry after it. -/
def operate (port : UInt16) (files : FileTree) (now : Nat) (call : KeyCall) (s : Sink)
    (project parameter : String) (r : Registry) : (ClientResult Parameter × Sink) × Registry :=
  Exchange.run (localParty port)
    (call.perform ((clientConf (Url.localText port)).connector files now) s project parameter) r

/-- What the call of an operation comes to. -/
def called (port : UInt16) (call : KeyCall) (n : ParameterName) (r : Registry) :
    ClientResult Parameter × Registry :=
  Remote.run (localParty port) (call.ask (localClient port) n) r

theorem operate_get (files : FileTree) (now : Nat) (s : Sink) (project parameter : String)
    (r : Registry) :
    operate port files now .get s project parameter r
      = (((called port .get (.global project parameter) r).1.mapError .getParameter, s),
          (called port .get (.global project parameter) r).2) := by
  have hperform : ∀ c : Connector Exchange, KeyCall.get.perform c s project parameter
      = Operation.call c .getParameter (·.get (.global project parameter)) >>= fun answer =>
        pure (answer, s) := fun _ => rfl
  have hget : (localClient port).service.get (.global project parameter)
      = ExceptT.run (KeyCall.get.ask (localClient port) (.global project parameter)) := rfl
  rw [operate, hperform, Exchange.run_bind_apply, Operation.run_call, ofConf_local,
    Remote.run_pure]
  dsimp only
  rw [hget, Exchange.run_pure_apply, called, Remote.run]

theorem operate_change (files : FileTree) (now : Nat) (k : KeyChange) (s : Sink)
    (project parameter : String) (r : Registry) :
    operate port files now (.change k) s project parameter r
      = (Operation.report s k.line
            ((called port (.change k) (.global project parameter) r).1.mapError .updateParameter),
          (called port (.change k) (.global project parameter) r).2) := by
  rw [operate, KeyCall.perform, KeyChange.run_perform, ofConf_local, Remote.run_pure]
  rfl

/-! ### One entry -/

/-- What was done concerns the entry of one name: no other is returned, changed or logged. -/
structure Confined (name : String) (r : Registry) (result : ClientResult Parameter)
    (r' : Registry) : Prop where
  returned : ∀ p, result = .ok p → r'.parameters.get? name = some p
  unchanged : ∀ other, other ≠ name → r'.parameters.get? other = r.parameters.get? other
  logged : ∃ us, r'.updates = r.updates ++ us ∧ ∀ u ∈ us, u.name = name

private theorem confined_error (name : String) (r : Registry) (e : ClientError) :
    Confined name r (.error e) r where
  returned p h := by simp at h
  unchanged _ _ := rfl
  logged := ⟨[], (List.append_nil _).symm, fun u hu => absurd hu List.not_mem_nil⟩

private theorem confined_get (n : ParameterName) (r : Registry) :
    Confined n.stripped.display r (called port .get n r).1 (called port .get n r).2 := by
  unfold called KeyCall.ask
  by_cases hreach : n.stripped.IsPlain ∧ Message.isShort (n.localUrl port) = true
  · rw [run_get_reaching hreach.1 hreach.2]
    refine ⟨fun p hp => ?_, fun _ _ => rfl, [], (List.append_nil _).symm, fun u hu =>
      absurd hu List.not_mem_nil⟩
    unfold find at hp
    split at hp
    · next stored hstored =>
      obtain rfl := Except.ok.inj hp
      exact hstored
    · simp [resultOf] at hp
  · obtain ⟨e, hrun⟩ := run_get_failing hreach r
    rw [hrun]
    exact confined_error _ r e

/-- An update concerns the entry of its name, whether it succeeds or not. -/
private theorem confined_receive (path : String) (r : Registry) (u : ReceivedUpdate) :
    Confined u.name r (resultOf path (outcome r.parameters u)) (r.receive u).2 := by
  have hlogged : ∃ us, (r.receive u).2.updates = r.updates ++ us ∧ ∀ v ∈ us, v.name = u.name :=
    ⟨[u], rfl, by simp⟩
  cases hout : outcome r.parameters u with
  | error e =>
      refine ⟨?_, ?_, hlogged⟩
      · intro p hp
        simp [resultOf] at hp
      · intro other _
        rw [parameters_receive, apply, hout]
  | ok q =>
      have hafter : (r.receive u).2.parameters = r.parameters.insert u.name q := by
        rw [parameters_receive, apply, hout]
      refine ⟨?_, ?_, hlogged⟩
      · intro p hp
        obtain rfl := Except.ok.inj hp
        rw [hafter, Table.get?_insert, if_pos rfl]
      · intro other hother
        rw [hafter, Table.get?_insert, if_neg hother]

private theorem confined_change (k : KeyChange) (n : ParameterName) (r : Registry) :
    Confined n.stripped.display r (called port (.change k) n r).1
      (called port (.change k) n r).2 := by
  unfold called KeyCall.ask
  simp only
  by_cases hreach : Reaches port (k.request n)
  · have hname : (received (k.request n)).name = n.stripped.display := by
      show (k.request n).name.stripped.display = _
      rw [KeyChange.name_request]
    rw [run_update_reaching hreach, ← hname]
    exact confined_receive _ r _
  · obtain ⟨e, hrun⟩ := run_update_failing hreach r
    rw [hrun]
    exact confined_error _ r e

private theorem confined_called (port : UInt16) (call : KeyCall) (n : ParameterName)
    (r : Registry) :
    Confined n.stripped.display r (called port call n r).1 (called port call n r).2 := by
  cases call with
  | get => exact confined_get n r
  | change k => exact confined_change k n r

/-- What gives back no more than something confined is confined. -/
private theorem Confined.of_ok {name : String} {r r' : Registry}
    {result result' : ClientResult Parameter}
    (h : Confined name r result r') (hok : ∀ p, result' = .ok p → result = .ok p) :
    Confined name r result' r' where
  returned p hp := h.returned p (hok p hp)
  unchanged := h.unchanged
  logged := h.logged

/-- **An operation concerns the entry of the stripped name only.** -/
theorem confined_operate (files : FileTree) (now : Nat) (call : KeyCall) (s : Sink)
    (project parameter : String) (r : Registry) :
    Confined (ParameterName.global project parameter).stripped.display r
      (operate port files now call s project parameter r).1.1
      (operate port files now call s project parameter r).2 := by
  have hcalled := confined_called port call (.global project parameter) r
  cases call with
  | get =>
      rw [operate_get]
      generalize called port .get (.global project parameter) r = answer at hcalled ⊢
      exact hcalled.of_ok fun _ => Operation.ok_of_mapError
  | change k =>
      rw [operate_change]
      generalize called port (.change k) (.global project parameter) r = answer at hcalled ⊢
      exact hcalled.of_ok fun _ h => Operation.ok_of_mapError (Operation.report_ok h)

/-! ### Entries that are touched -/

/-- An entry is touched: what is stored under a name is given back, or changed, or an update
of it is logged. -/
def Touches (name : String) (r : Registry) (result : ClientResult Parameter)
    (r' : Registry) : Prop :=
  (∃ p, r.parameters.get? name = some p) ∧
    ((∃ p, result = .ok p ∧ r'.parameters.get? name = some p) ∨
      r'.parameters.get? name ≠ r.parameters.get? name ∨
      ∃ us, r'.updates = r.updates ++ us ∧ ∃ u ∈ us, u.name = name)

/-- What is confined to an entry touches no other one. -/
private theorem Confined.eq_of_touches {name other : String} {r r' : Registry}
    {result : ClientResult Parameter} (h : Confined name r result r')
    (hnames : ∀ name p, r'.parameters.get? name = some p → p.name = name)
    (ht : Touches other r result r') : other = name := by
  rcases ht.2 with ⟨p, hok, hother⟩ | hchanged | ⟨us, hus, u, hu, rfl⟩
  · exact (hnames _ _ hother).symm.trans (hnames _ _ (h.returned p hok))
  · exact Decidable.byContradiction fun hne => hchanged (h.unchanged other hne)
  · obtain ⟨vs, hvs, hall⟩ := h.logged
    exact hall u (List.append_cancel_left (hus.symm.trans hvs) ▸ hu)

private theorem not_touches_error (other : String) (r : Registry) (e : ClientError) :
    ¬Touches other r (.error e) r := by
  rintro ⟨-, ⟨p, hok, -⟩ | hchanged | ⟨us, hus, u, hu, -⟩⟩
  · simp at hok
  · exact hchanged rfl
  · rw [List.self_eq_append_right.mp hus] at hu
    exact List.not_mem_nil hu

/-! ### Which operations touch an entry -/

private theorem called_failing {call : KeyCall} {n : ParameterName} (h : ¬call.Arrives port n)
    (r : Registry) : ∃ e, called port call n r = (.error e, r) := by
  cases call with
  | get => exact run_get_failing h r
  | change k => exact run_update_failing h r

/-- An operation whose call does not reach the registry fails, and leaves no trace. -/
theorem operate_failing (files : FileTree) (now : Nat) {call : KeyCall} (s : Sink)
    {project parameter : String} (h : ¬call.Arrives port (.global project parameter))
    (r : Registry) :
    ∃ e, operate port files now call s project parameter r = ((.error e, s), r) := by
  obtain ⟨e, hcalled⟩ := called_failing h r
  cases call with
  | get => exact ⟨_, by rw [operate_get, hcalled]; rfl⟩
  | change k => exact ⟨_, by rw [operate_change, hcalled]; rfl⟩

/-- An operation that arrives touches the entry of the stripped name, if there is one: a read
gives it back, and a change is logged even if it is refused. -/
private theorem touches_of_arrives (files : FileTree) (now : Nat) {call : KeyCall} (s : Sink)
    {project parameter : String} (h : call.Arrives port (.global project parameter)) {r : Registry}
    {stored : Parameter}
    (hstored : r.parameters.get? (ParameterName.global project parameter).stripped.display
      = some stored) :
    Touches (ParameterName.global project parameter).stripped.display r
      (operate port files now call s project parameter r).1.1
      (operate port files now call s project parameter r).2 := by
  refine ⟨⟨stored, hstored⟩, ?_⟩
  cases call with
  | get =>
      have hfind : r.find (ParameterName.global project parameter).stripped.display
          = .ok stored := by
        unfold find
        rw [hstored]
      have hcalled : called port .get (.global project parameter) r = (.ok stored, r) := by
        have hrun := run_get_reaching h.1 h.2 r
        rw [hfind] at hrun
        exact hrun
      rw [operate_get, hcalled]
      exact Or.inl ⟨stored, rfl, hstored⟩
  | change k =>
      have hcalled : (called port (.change k) (.global project parameter) r).2
          = (r.receive (received (k.request (.global project parameter)))).2 := by
        have hrun := congrArg Prod.snd (run_update_reaching h r)
        exact hrun
      rw [operate_change]
      simp only [hcalled]
      refine Or.inr (Or.inr ⟨[received (k.request (.global project parameter))], rfl, _,
        List.mem_singleton_self _, ?_⟩)
      show (k.request _).name.stripped.display = _
      rw [KeyChange.name_request]

/-! ### Reachable registries -/

private theorem registry_handle (ps : List Parameter) (qs : List Request) (q : Request) :
    ((History.ofRequests ps qs).registry.handle q).2
      = (History.ofRequests ps (qs ++ [q])).registry := by
  rw [History.ofRequests, History.ofRequests, List.foldl_append]
  rfl

/-- An operation is one request at most, so it leaves a registry that requests lead to. -/
private theorem reachable_called (port : UInt16) (call : KeyCall) (n : ParameterName)
    (ps : List Parameter) (qs : List Request) :
    ∃ qs', (called port call n (History.ofRequests ps qs).registry).2
      = (History.ofRequests ps qs').registry := by
  unfold called
  cases call with
  | get =>
      simp only [KeyCall.ask, run_get]
      split
      · exact ⟨_, registry_handle ps qs _⟩
      · exact ⟨qs, rfl⟩
  | change k =>
      simp only [KeyCall.ask, run_update]
      split
      · exact ⟨_, registry_handle ps qs _⟩
      · exact ⟨qs, rfl⟩

/-- The registry after an operation is the one after its call. -/
theorem snd_operate (files : FileTree) (now : Nat) (call : KeyCall) (s : Sink)
    (project parameter : String) (r : Registry) :
    (operate port files now call s project parameter r).2
      = (called port call (.global project parameter) r).2 := by
  cases call with
  | get => rw [operate_get]
  | change k => rw [operate_change]

/-- What is stored after an operation stands under its own name. -/
private theorem name_of_operate (files : FileTree) (now : Nat) (call : KeyCall) (s : Sink)
    (project parameter : String) (ps : List Parameter) (qs : List Request) {name : String}
    {p : Parameter}
    (h : (operate port files now call s project parameter
      (History.ofRequests ps qs).registry).2.parameters.get? name = some p) : p.name = name := by
  obtain ⟨qs', hqs⟩ := reachable_called port call (.global project parameter) ps qs
  rw [snd_operate, hqs] at h
  exact ((faithful_ofRequests ps qs').entry h).1

/-- **An operation touches the entry that its identifiers name, unless some character of them
is left out.**

Of any registry that requests have led to, an operation concerns the entry of the stripped
name and no other.  It touches an entry of another name than it was asked for exactly if a
tab or a line break is left out of an identifier, something is stored under the name without
such characters, and the call arrives. -/
theorem operations_confined (port : UInt16) (files : FileTree) (now : Nat) (ps : List Parameter)
    (qs : List Request) (call : KeyCall) (s : Sink) (project parameter : String) :
    let r := (History.ofRequests ps qs).registry
    let n := ParameterName.global project parameter
    let done := operate port files now call s project parameter r
    Confined n.stripped.display r done.1.1 done.2 ∧
    ((∃ other, other ≠ n.display ∧ Touches other r done.1.1 done.2) ↔
      (∃ c ∈ project.toList ++ parameter.toList, Url.isLeftOut c = true) ∧
        (∃ p, r.parameters.get? n.stripped.display = some p) ∧ call.Arrives port n) := by
  intro r n done
  have hconfined : Confined n.stripped.display r done.1.1 done.2 :=
    confined_operate files now call s project parameter r
  refine ⟨hconfined, ?_, ?_⟩
  · rintro ⟨other, hother, htouches⟩
    have harrives : call.Arrives port n := by
      refine Classical.byContradiction ?_
      intro hnot
      obtain ⟨e, hdone⟩ := operate_failing files now s hnot r
      have hdone' : done = ((.error e, s), r) := hdone
      rw [hdone'] at htouches
      exact not_touches_error other r e htouches
    have hnames : ∀ name p, done.2.parameters.get? name = some p → p.name = name :=
      fun name p => name_of_operate files now call s project parameter ps qs
    have heq := hconfined.eq_of_touches hnames htouches
    rw [← ParameterName.stripped_global_ne_iff]
    refine ⟨fun hsame => hother ?_, heq ▸ htouches.1, harrives⟩
    rw [heq, hsame]
  · rintro ⟨hleft, ⟨stored, hstored⟩, harrives⟩
    refine ⟨n.stripped.display, ?_, touches_of_arrives files now s harrives hstored⟩
    exact ParameterName.stripped_display_ne (ParameterName.stripped_global_ne_iff.mpr hleft)

/-- A tab in an identifier is enough to be given another parameter than was asked for. -/
theorem tab_reaches_another :
    let stored : Parameter := { name := "projects/p/locations/global/parameters/db" }
    let done := operate 8080 default 0 .get {} "p" "d\tb" (ofList [stored])
    done.1.1.toOption = some stored ∧ stored.name ≠ (ParameterName.global "p" "d\tb").display := by
  decide +kernel

end Registry

end ParameterManager
