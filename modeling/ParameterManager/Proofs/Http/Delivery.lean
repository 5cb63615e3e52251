/-
How a message came to its response.

A response may send a message on, and then the next response answers another message: one
without a body, perhaps, or one for another address.  A `Delivery` has all the messages and
responses from the first to the last, so it tells what the response in the end is an answer
to.  What is left of the first message in the last depends on the statuses on the way.
-/
import ParameterManager.Proofs.Http.Agent

namespace ParameterManager

/-! ### Keeping a log -/

/-- Requests with what each of them was answered, the latest first. -/
abbrev Transcript := List (Request × Option Response)

/-- A party that keeps a transcript. -/
def Exchange.Party.logged {σ : Type} (party : Party σ) : Party (σ × Transcript) :=
  fun origin request s =>
    let answer := party origin request s.1
    (answer.1, answer.2, (request, answer.1) :: s.2)

namespace Exchange

variable {α σ : Type}

/-- What a computation asks a party, and what it is answered. -/
def transcript (party : Party σ) (x : Exchange α) (s : σ) : Transcript :=
  (run party.logged x (s, [])).2.2

/-- Whether there is a transcript makes no difference. -/
theorem run_logged (party : Party σ) (x : Exchange α) (s : σ) (log : Transcript) :
    (run party.logged x (s, log)).1 = (run party x s).1 ∧
      (run party.logged x (s, log)).2.1 = (run party x s).2 := by
  induction x generalizing s log with
  | done a => exact ⟨rfl, rfl⟩
  | ask origin request next ih => exact ih (party origin request s).1 (party origin request s).2 _

end Exchange

/-! ### Chains -/

namespace Message

/-- A message is sent on from hop to hop, until a response sends it nowhere else. -/
inductive Chain : Message → List (Message × Response) → Message → Response → Prop
  | here {m : Message} {response : Response} (h : m.redirected? response = none) :
      Chain m [] m response
  | on {m next last : Message} {hop response : Response} {hops : List (Message × Response)}
      (h : m.redirected? hop = some next) (rest : Chain next hops last response) :
      Chain m ((m, hop) :: hops) last response

/-- A message that is sent on has what the status of the hop leaves of it. -/
theorem of_redirected? {m next : Message} {hop : Response} (h : m.redirected? hop = some next) :
    (hop.status.keepsMethod = true → next.method = m.method ∧ next.body = m.body) ∧
      (hop.status.keepsMethod = false →
        next.method = m.withoutBody.method ∧ next.body = []) := by
  have hmoved : ∀ (k : Message) (u : Url), (k.movedTo u).method = k.method ∧
      (k.movedTo u).body = k.body := by
    intro k u
    unfold movedTo
    split
    · exact ⟨rfl, rfl⟩
    · exact ⟨rfl, rfl⟩
  unfold redirected? at h
  split at h
  · obtain ⟨u, -, rfl⟩ := Option.map_eq_some_iff.mp h
    refine ⟨?_, ?_⟩
    · intro hkeeps
      rw [if_pos hkeeps]
      exact hmoved m u
    · intro hdrops
      rw [if_neg (by rw [hdrops]; exact Bool.false_ne_true)]
      exact hmoved m.withoutBody u
  · simp at h

namespace Chain

variable {m last : Message} {hops : List (Message × Response)} {response : Response}

/-- Hops that keep the method bring the first method and body to the end. -/
theorem kept (h : Chain m hops last response) (hkeep : ∀ d ∈ hops, d.2.status.keepsMethod = true) :
    last.method = m.method ∧ last.body = m.body := by
  induction h with
  | here => exact ⟨rfl, rfl⟩
  | on hon _ ih =>
      obtain ⟨hmethod, hbody⟩ := (of_redirected? hon).1 (hkeep _ List.mem_cons_self)
      obtain ⟨hlast, hlast'⟩ := ih fun d hd => hkeep d (List.mem_cons_of_mem _ hd)
      exact ⟨hlast.trans hmethod, hlast'.trans hbody⟩

/-- What asks and changes nothing stays so. -/
theorem emptied (h : Chain m hops last response) (hmethod : m.method = "GET")
    (hbody : m.body = []) :
    last.method = "GET" ∧ last.body = [] := by
  induction h with
  | here => exact ⟨hmethod, hbody⟩
  | @on m next last hop _ _ hon _ ih =>
      cases hkeeps : hop.status.keepsMethod with
      | true =>
          obtain ⟨hnext, hnext'⟩ := (of_redirected? hon).1 hkeeps
          exact ih (hnext.trans hmethod) (hnext'.trans hbody)
      | false =>
          obtain ⟨hnext, hnext'⟩ := (of_redirected? hon).2 hkeeps
          refine ih (hnext.trans ?_) hnext'
          rw [withoutBody, if_pos (Or.inl hmethod), hmethod]

/-- One hop that does not keep the method makes a change a read, up to the end. -/
theorem dropped (h : Chain m hops last response) (hmethod : m.method ≠ "HEAD")
    (hdrop : ∃ d ∈ hops, d.2.status.keepsMethod = false) :
    last.method = "GET" ∧ last.body = [] := by
  induction h with
  | here =>
      obtain ⟨d, hd, -⟩ := hdrop
      exact absurd hd List.not_mem_nil
  | @on m next last hop _ _ hon rest ih =>
      cases hkeeps : hop.status.keepsMethod with
      | true =>
          obtain ⟨hnext, -⟩ := (of_redirected? hon).1 hkeeps
          obtain ⟨d, hd, hdrops⟩ := hdrop
          rcases List.mem_cons.mp hd with rfl | hd
          · rw [hkeeps] at hdrops
            exact absurd hdrops.symm Bool.false_ne_true
          · exact ih (hnext ▸ hmethod) ⟨d, hd, hdrops⟩
      | false =>
          obtain ⟨hnext, hnext'⟩ := (of_redirected? hon).2 hkeeps
          refine rest.emptied (hnext.trans ?_) hnext'
          rw [withoutBody]
          split
          · next hsafe => exact hsafe.resolve_right hmethod
          · rfl

end Chain

end Message

/-! ### Deliveries -/

/-- The messages that a message is sent as, with the responses to them. -/
structure Delivery where
  first : Message
  /-- The messages that were sent on, and the responses that did it. -/
  hops : List (Message × Response)
  /-- The message that got the response in the end. -/
  last : Message
  response : Response
  chain : first.Chain hops last response

namespace Delivery

/-- What a delivery leaves in a transcript. -/
def transcript (d : Delivery) : Transcript :=
  (d.last.request, some d.response) :: (d.hops.map fun h => (h.1.request, some h.2)).reverse

/-- A delivery that begins one hop earlier. -/
def after (d : Delivery) {m : Message} {hop : Response} (h : m.redirected? hop = some d.first) :
    Delivery := ⟨m, (m, hop) :: d.hops, d.last, d.response, .on h d.chain⟩

theorem transcript_after (d : Delivery) {m : Message} {hop : Response}
    (h : m.redirected? hop = some d.first) :
    (d.after h).transcript = d.transcript ++ [(m.request, some hop)] := by
  simp [after, transcript]

end Delivery

/-! ### Sending -/

namespace Message

variable {σ : Type} {party : Exchange.Party σ} {response : Response} {s s' : σ}
  {log log' : Transcript}

/-- What a party that keeps a transcript adds to it. -/
theorem log_of_asked {origin : Origin} {q : Request} {answer : Option Response} {s₁ : σ × Transcript}
    (h : party.logged origin q (s, log) = (answer, s₁)) : s₁.2 = (q, answer) :: log := by
  obtain ⟨rfl, rfl⟩ := Prod.mk.inj h
  rfl

/-- **A response in the end comes from a delivery, all of which is in the transcript.** -/
theorem run_follow_ok (n : Nat) {m : Message}
    (h : Remote.run party.logged (follow n m) (s, log) = (.ok response, (s', log'))) :
    ∃ d : Delivery, d.first = m ∧ d.response = response ∧ log' = d.transcript ++ log := by
  induction n generalizing m s log with
  | zero =>
      have hround : RoundEnds _ (fun _ => Remote.ofResult (.error .transport)) _ _ _ :=
        roundEnds_of_run h
      cases hround with
      | here _ asked stays =>
          exact ⟨⟨m, [], m, response, .here stays⟩, rfl, rfl, log_of_asked asked⟩
      | on _ _ _ rest =>
          rw [Remote.run_ofResult] at rest
          simp at rest
  | succ n ih =>
      have hround : RoundEnds party.logged (follow n) m (s, log) _ := roundEnds_of_run h
      cases hround with
      | here _ asked stays =>
          exact ⟨⟨m, [], m, response, .here stays⟩, rfl, rfl, log_of_asked asked⟩
      | @on _ answer next s₁ _ _ asked moved rest =>
          obtain ⟨s₁, log₁⟩ := s₁
          obtain rfl : log₁ = _ := log_of_asked asked
          obtain ⟨d, rfl, hresponse, hlog⟩ := ih rest
          refine ⟨d.after moved, rfl, hresponse, ?_⟩
          rw [hlog, d.transcript_after, List.append_assoc]
          rfl

theorem run_send_ok {m : Message}
    (h : Remote.run party.logged m.send (s, log) = (.ok response, (s', log'))) :
    ∃ d : Delivery, d.first = m ∧ d.response = response ∧ log' = d.transcript ++ log := by
  unfold send at h
  split at h
  · exact run_follow_ok _ h
  · rw [Remote.run_ofResult] at h
    simp at h

end Message

end ParameterManager
