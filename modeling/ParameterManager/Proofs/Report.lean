/-
What a change was that is reported as done.

A change is reported when a response in the end is a success that says what a parameter is.
The client does not look at what the response is an answer to.  If the change has been sent
on, it may be an answer to a read, or to a change of something else; here it is said exactly
when it is not.
-/
import ParameterManager.Proofs.Http.Delivery
import ParameterManager.Proofs.Operation
import ParameterManager.Proofs.Url.Form

namespace ParameterManager

/-! ### Changes, as they are sent -/

/-- An address has the mask of a change of the key in its query. -/
def HasKeyMask (u : Url) : Prop :=
  ("updateMask", "kmsKey") ∈ Form.decode (Utf8.encode (u.query.getD ""))

/-- A message asks for a change of the key. -/
structure KeyChange.IsAskedBy (change : KeyChange) (n : ParameterName) (m : Message) : Prop where
  method : m.method = "PATCH"
  body : m.body = Utf8.encode (change.request n).parameter.toJson.compact
  mask : HasKeyMask m.url

namespace Url

theorem mem_query_appendPair (u : Url) (name value : String) :
    (name, value) ∈ Form.decode (Utf8.encode ((u.appendPair name value).query.getD "")) := by
  have hpair : (name, value) ∈ Form.decode (Utf8.encode (Form.encode [(name, value)])) := by
    rw [Form.decode_encode]
    exact List.mem_singleton_self _
  unfold appendPair
  simp only [Option.getD_some]
  split
  · exact hpair
  · next q _ _ =>
    have hsplit : Utf8.encode (q ++ "&" ++ Form.encode [(name, value)])
        = Utf8.encode q ++ 0x26 :: Utf8.encode (Form.encode [(name, value)]) := by
      have hampersand : Utf8.encodeChars "&".toList = [0x26] := by decide +kernel
      simp only [Utf8.encode, String.toList_append, Utf8.encodeChars_append, List.append_assoc,
        hampersand, List.singleton_append]
    rw [hsplit, Form.decode_append]
    exact List.mem_append_right _ hpair
  · exact hpair

end Url

namespace KeyChange

theorem queryValue_request (n : ParameterName) (change : KeyChange) :
    (change.request n).mask.queryValue = "kmsKey" := by
  have hmask : (change.request n).mask = ⟨["kms_key"]⟩ := by
    cases change with
    | set key => rfl
    | clear => rfl
  have hvalue : (⟨["kms_key"]⟩ : FieldMask).queryValue = "kmsKey" := by decide +kernel
  rw [hmask, hvalue]

theorem query_ofUrl (method : String) (u : Url) : (Message.ofUrl method u).url.query = u.query := by
  unfold Message.ofUrl
  split
  · rfl
  · rfl

theorem method_ofUrl (method : String) (u : Url) : (Message.ofUrl method u).method = method := by
  unfold Message.ofUrl
  split
  · rfl
  · rfl

theorem isAskedBy_updateMessage {c : Client} {n : ParameterName} {u : Url} (change : KeyChange)
    (h : Client.maskedResource c.serverUrl (change.request n) = .ok u) :
    change.IsAskedBy n (c.updateMessage u (change.request n)) where
  method := method_ofUrl "PATCH" u
  body := by simp only [Client.updateMessage, Message.withBody]
  mask := by
    have hquery : (c.updateMessage u (change.request n)).url.query = u.query :=
      query_ofUrl "PATCH" u
    unfold Client.maskedResource at h
    cases hresource : Client.resource c.serverUrl (change.request n).name with
    | error e =>
        rw [hresource] at h
        simp [Except.map] at h
    | ok v =>
        rw [hresource] at h
        simp only [Except.map, Except.ok.injEq] at h
        rw [HasKeyMask, hquery, ← h, queryValue_request]
        exact v.mem_query_appendPair Client.maskName "kmsKey"

/-- The last message of a delivery asks for the change that the first one has asked for, if
the method was kept all the way and the mask is in the last address. -/
theorem isAskedBy_last_iff {change : KeyChange} {n : ParameterName} {d : Delivery}
    (h : change.IsAskedBy n d.first) :
    change.IsAskedBy n d.last ↔
      (∀ hop ∈ d.hops, hop.2.status.keepsMethod = true) ∧ HasKeyMask d.last.url := by
  constructor
  · intro hlast
    refine ⟨?_, hlast.mask⟩
    intro hop hmem
    by_cases hkeeps : hop.2.status.keepsMethod = true
    · exact hkeeps
    · have hhead : d.first.method ≠ "HEAD" := by rw [h.method]; decide
      have hget := (d.chain.dropped hhead ⟨hop, hmem, Bool.eq_false_iff.mpr hkeeps⟩).1
      rw [hlast.method] at hget
      exact absurd hget (by decide)
  · rintro ⟨hkeep, hmask⟩
    obtain ⟨hmethod, hbody⟩ := d.chain.kept hkeep
    exact ⟨hmethod.trans h.method, hbody.trans h.body, hmask⟩

end KeyChange

/-! ### Calls -/

section

variable {σ : Type} {party : Exchange.Party σ} {s s' : σ × Transcript} {p : Parameter}

/-- A response is taken for a parameter exactly if it is a success that says what the parameter
is. -/
theorem Client.ofResponse_eq_ok_iff {path : String} {r : Response} :
    Client.ofResponse path r = .ok p ↔
      r.status.isSuccess = true ∧ Parameter.wire.ofString r.text = .ok p := by
  unfold Client.ofResponse
  split
  · next hsuccess => cases Parameter.wire.ofString r.text <;> simp [hsuccess]
  · next hfailure => simp [hfailure]

/-- A change that succeeds is a delivery of its message. -/
theorem Client.run_update_ok {c : Client} {u : UpdateRequest}
    (h : Remote.run party.logged (c.update u) s = (.ok p, s')) :
    ∃ (place : Url) (d : Delivery), Client.maskedResource c.serverUrl u = .ok place ∧
      d.first = c.updateMessage place u ∧ s'.2 = d.transcript ++ s.2 ∧
      d.response.status.isSuccess = true ∧ Parameter.wire.ofString d.response.text = .ok p := by
  cases hplace : Client.maskedResource c.serverUrl u with
  | error e =>
      rw [Client.update, Remote.run_bind, Remote.run_ofResult, hplace] at h
      simp at h
  | ok place =>
      rw [Client.update, Remote.run_ofResult_bind hplace, Remote.run_bind] at h
      rcases hsend : Remote.run party.logged (c.updateMessage place u).send s with ⟨e | r, s₁⟩
      · rw [hsend] at h
        simp at h
      · rw [hsend] at h
        obtain ⟨hresponse, rfl⟩ := Prod.mk.inj h
        obtain ⟨d, hfirst, rfl, hlog⟩ := Message.run_send_ok hsend
        obtain ⟨hsuccess, hread⟩ := Client.ofResponse_eq_ok_iff.mp hresponse
        exact ⟨place, d, rfl, hfirst, hlog, hsuccess, hread⟩

end

/-! ### Reports -/

/-- A parameter was read from the response of a delivery, which is the last of a transcript.
The delivery began as the change that was to be made, and it ended as the same one exactly if
every hop kept the method and the last address has the mask; a hop that did not keep the
method made it a read without a body. -/
structure KeyChange.IsDelivered (change : KeyChange) (n : ParameterName) (t : Transcript)
    (p : Parameter) (d : Delivery) : Prop where
  logged : ∃ earlier, t = d.transcript ++ earlier
  success : d.response.status.isSuccess = true
  decoded : Parameter.wire.ofString d.response.text = .ok p
  first : change.IsAskedBy n d.first
  last_iff : change.IsAskedBy n d.last ↔
    (∀ hop ∈ d.hops, hop.2.status.keepsMethod = true) ∧ HasKeyMask d.last.url
  dropped : (∃ hop ∈ d.hops, hop.2.status.keepsMethod = false) →
    d.last.method = "GET" ∧ d.last.body = []

private theorem isDelivered_of_update {σ : Type} {party : Exchange.Party σ} {s s' : σ × Transcript}
    {c : Client} {n : ParameterName} {change : KeyChange} {p : Parameter}
    (h : Remote.run party.logged (c.update (change.request n)) s = (.ok p, s')) :
    ∃ d, change.IsDelivered n s'.2 p d := by
  obtain ⟨place, d, hplace, hfirst, hlog, hsuccess, hread⟩ := Client.run_update_ok h
  have hasked : change.IsAskedBy n d.first := hfirst ▸ change.isAskedBy_updateMessage hplace
  have hhead : d.first.method ≠ "HEAD" := by
    rw [hasked.method]
    decide
  exact ⟨d, ⟨s.2, hlog⟩, hsuccess, hread, hasked, KeyChange.isAskedBy_last_iff hasked,
    d.chain.dropped hhead⟩

/-- **A change that is reported has been delivered, though not always as the change it was.**

Whoever answers, and whatever the answers are: if an operation that changes a key gives back
a parameter, or writes anything, then the parameter was read from the success at the end of
a delivery that began as this change.  What this success is the answer to is still the change
exactly if all redirects on the way kept the method and the last address has the mask; so it
is if there were none.  After any other redirect it is the answer to a read without a body. -/
theorem reported_change_delivered {σ : Type} (party : Exchange.Party σ) (conf : ClientConf)
    (files : FileTree) (now : Nat) (sink : Sink) (project parameter : String)
    (change : KeyChange) (s : σ) :
    let n := ParameterName.global project parameter
    let operation := change.perform (conf.connector files now) sink project parameter
    let done := Exchange.run party operation s
    let t := Exchange.transcript party operation s
    (∀ p, done.1.1 = .ok p → ∃ d, change.IsDelivered n t p d) ∧
    (done.1.2 ≠ sink → ∃ p d, change.IsDelivered n t p d) := by
  intro n operation done t
  have hdone : done.1 = (Exchange.run party.logged operation (s, [])).1 :=
    (Exchange.run_logged party operation s []).1.symm
  have ht : t = (Exchange.run party.logged operation (s, [])).2.2 := rfl
  have hrun : Exchange.run party.logged operation (s, []) = _ :=
    change.run_perform party.logged conf files now sink project parameter (s, [])
  rw [hdone, ht, hrun]
  rcases Remote.run party.logged (Client.ofConf conf files now) (s, []) with ⟨e | c, s₁⟩
  · exact ⟨fun p hp => by simp at hp, fun hne => absurd rfl hne⟩
  · simp only
    rcases hcall : Remote.run party.logged (c.update (change.request n)) s₁ with ⟨answer, s₂⟩
    refine ⟨?_, ?_⟩
    · intro p hp
      obtain rfl := Operation.ok_of_mapError (Operation.report_ok hp)
      exact isDelivered_of_update hcall
    · intro hne
      obtain ⟨p, hp⟩ := Operation.ok_of_report_ne hne
      obtain rfl := Operation.ok_of_mapError hp
      exact ⟨p, isDelivered_of_update hcall⟩

/-- Answers that send a message to another place, where a parameter is shown. -/
def movingScript (shown : Parameter) : Script where
  responses := [{ status := ⟨302⟩, location := some (Utf8.encode "/elsewhere") },
    { status := .ok, body := Utf8.encode shown.toJson.compact }]

/-- A change that is moved is reported as done, with a key that nobody has set. -/
theorem moved_change_reported :
    let shown : Parameter := { name := "db", kmsKey := some "old" }
    let conf : ClientConf := { url := "http://localhost", accessToken := some "token" }
    let operation := (KeyChange.set "new").perform (conf.connector default 0) {} "p" "db"
    let done := Exchange.run Script.answer operation (movingScript shown)
    done.1.1.toOption = some shown ∧ done.1.2.written ≠ [] ∧
      done.2.requests.map (·.method) = ["PATCH", "GET"] := by
  decide +kernel

end ParameterManager
