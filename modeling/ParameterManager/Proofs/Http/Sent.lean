/-
What a computation sends, and what it comes to.

A computation is described by three things at once: the requests that it sends, in order and
with the places they are sent to, what it gives back, and the state in which it leaves the
party that answers.  `Does` holds them together, so that a computation made of parts is
described by the descriptions of its parts.

A message that is not sent on is one request, if it can be sent at all.
-/
import ParameterManager.Proofs.Http.Delivery

namespace ParameterManager

/-- What a computation comes to can be compared. -/
instance decidableEqExcept {ε α : Type} [DecidableEq ε] [DecidableEq α] :
    DecidableEq (Except ε α)
  | .ok a, .ok b => decidable_of_iff (a = b) (by simp)
  | .error e, .error e' => decidable_of_iff (e = e') (by simp)
  | .ok _, .error _ => isFalse (by simp)
  | .error _, .ok _ => isFalse (by simp)

/-- A response sends a message on to another place, if that place can be read. -/
def Response.SendsOn (r : Response) : Prop := r.status.isRedirect = true ∧ r.location ≠ none

instance (r : Response) : Decidable r.SendsOn := inferInstanceAs (Decidable (_ ∧ _))

/-! ### Requests in order -/

/-- A request, where it was sent, and what came back. -/
structure Sent where
  origin : Origin
  request : Request
  answer : Option Response

namespace Exchange

variable {α β σ : Type}

/-- The requests that a computation sends to a party in a state. -/
def sent (party : Party σ) : Exchange α → σ → List Sent
  | done _, _ => []
  | ask origin request next, s =>
    ⟨origin, request, (party origin request s).1⟩ ::
      sent party (next (party origin request s).1) (party origin request s).2

/-- A computation that goes on sends what its first part sends, and then what follows. -/
theorem sent_bind (party : Party σ) (x : Exchange α) (f : α → Exchange β) (s : σ) :
    sent party (x >>= f) s
      = sent party x s ++ sent party (f (run party x s).1) (run party x s).2 := by
  induction x generalizing s with
  | done a => rfl
  | ask origin request next ih =>
      show _ :: sent party (next _ >>= f) _ = _
      rw [ih]
      rfl

/-- Parts of a computation may be put together in any order. -/
theorem bind_assoc (x : Exchange α) (f : α → Exchange β) {γ : Type} (g : β → Exchange γ) :
    x >>= f >>= g = x >>= fun a => f a >>= g := by
  induction x with
  | done a => rfl
  | ask origin request next ih => exact congrArg (ask origin request) (funext ih)

/-- A transcript has the same requests, the latest first. -/
theorem transcript_eq_sent (party : Party σ) (x : Exchange α) (s : σ) :
    transcript party x s = ((sent party x s).map fun d => (d.request, d.answer)).reverse := by
  have hlog : ∀ (s : σ) (log : Transcript), (run party.logged x (s, log)).2.2
      = ((sent party x s).map fun d => (d.request, d.answer)).reverse ++ log := by
    induction x with
    | done a => intro s log; rfl
    | ask origin request next ih =>
        intro s log
        have hstep : (run party.logged (ask origin request next) (s, log)).2.2
            = (run party.logged (next (party origin request s).1) ((party origin request s).2,
              (request, (party origin request s).1) :: log)).2.2 := rfl
        rw [hstep, ih]
        simp [sent]
  have hall := hlog s []
  rw [List.append_nil] at hall
  exact hall

/-- A script has seen the requests that were sent to it. -/
theorem requests_run_script (x : Exchange α) (s : Script) :
    (run Script.answer x s).2.requests
      = s.requests ++ (sent Script.answer x s).map (·.request) := by
  induction x generalizing s with
  | done a => exact (List.append_nil _).symm
  | ask origin request next ih =>
      have hseen : (Script.answer origin request s).2.requests = s.requests ++ [request] := by
        unfold Script.answer Script.requests
        split
        · simp
        · simp
      have hstep : (run Script.answer (ask origin request next) s).2.requests
          = (run Script.answer (next (Script.answer origin request s).1)
            (Script.answer origin request s).2).2.requests := rfl
      rw [hstep, ih, hseen]
      simp [sent]

/-- What a script answers is in its list, or comes after its end. -/
theorem answer_of_script {x : Exchange α} {s : Script} {d : Sent}
    (h : d ∈ sent Script.answer x s) :
    ∃ r, d.answer = some r ∧ (r ∈ s.responses ∨ r = Script.exhausted) := by
  induction x generalizing s with
  | done a => simp [sent] at h
  | ask origin request next ih =>
      obtain ⟨responses, seen⟩ := s
      cases responses with
      | nil =>
          rcases List.mem_cons.mp h with rfl | h
          · exact ⟨_, rfl, Or.inr rfl⟩
          · obtain ⟨r, hr, hmem⟩ := ih _ h
            exact ⟨r, hr, hmem⟩
      | cons response responses =>
          rcases List.mem_cons.mp h with rfl | h
          · exact ⟨response, rfl, Or.inl List.mem_cons_self⟩
          · obtain ⟨r, hr, hmem⟩ := ih _ h
            exact ⟨r, hr, hmem.imp_left (List.mem_cons_of_mem _)⟩

/-- What a computation sends to a party in a state, what it gives back, and the state after. -/
structure Does (party : Party σ) (x : Exchange α) (s : σ) (sent : List Sent) (a : α) (s' : σ) :
    Prop where
  sent : Exchange.sent party x s = sent
  run : run party x s = (a, s')

namespace Does

variable {party : Party σ} {x : Exchange α} {f : α → Exchange β} {s s' s'' : σ}
  {d d' : List Sent} {a : α} {b : β}

theorem pure (a : α) (s : σ) : Does party (Pure.pure a) s [] a s := ⟨rfl, rfl⟩

theorem bind (hx : Does party x s d a s') (hf : Does party (f a) s' d' b s'') :
    Does party (x >>= f) s (d ++ d') b s'' where
  sent := by rw [sent_bind, hx.sent, hx.run, hf.sent]
  run := by rw [run_bind_apply, hx.run, hf.run]

theorem value (h : Does party x s d a s') : (Exchange.run party x s).1 = a := congrArg Prod.fst h.run

/-- A request is sent, and what follows is what its answer leads to. -/
theorem ask {origin : Origin} {q : Request} {next : Option Response → Exchange α}
    (h : Does party (next (party origin q s).1) (party origin q s).2 d a s') :
    Does party (.ask origin q next) s (⟨origin, q, (party origin q s).1⟩ :: d) a s' :=
  ⟨congrArg (List.cons _) h.sent, h.run⟩

/-- Every computation does something. -/
theorem self (party : Party σ) (x : Exchange α) (s : σ) :
    Does party x s (Exchange.sent party x s) (Exchange.run party x s).1
      (Exchange.run party x s).2 := ⟨rfl, rfl⟩

end Does

/-- Nothing that a computation sends is sent on. -/
def Stays (party : Party σ) (x : Exchange α) (s : σ) : Prop :=
  ∀ d ∈ sent party x s, ∀ r, d.answer = some r → ¬r.SendsOn

namespace Stays

variable {party : Party σ} {x : Exchange α} {f : α → Exchange β} {s s' : σ} {d : List Sent} {a : α}

theorem left (h : Stays party (x >>= f) s) : Stays party x s := by
  intro d hd
  rw [Stays, sent_bind] at h
  exact h d (List.mem_append_left _ hd)

theorem right (h : Stays party (x >>= f) s) (hx : Does party x s d a s') :
    Stays party (f a) s' := by
  intro d hd
  rw [Stays, sent_bind, hx.run] at h
  exact h d (List.mem_append_right _ hd)

end Stays

end Exchange

/-! ### Computations that may fail -/

namespace Remote

variable {α β σ : Type} {party : Exchange.Party σ} {x : Remote α} {f : α → Remote β}
  {s s' s'' : σ} {d d' : List Sent} {r : ClientResult β} {e : ClientError} {a : α}

/-- What a computation that may fail sends, and what it comes to. -/
abbrev Does (party : Exchange.Party σ) (x : Remote α) (s : σ) (sent : List Sent)
    (result : ClientResult α) (s' : σ) : Prop :=
  Exchange.Does party (ExceptT.run x) s sent result s'

/-- Nothing that a computation that may fail sends is sent on. -/
abbrev Stays (party : Exchange.Party σ) (x : Remote α) (s : σ) : Prop :=
  Exchange.Stays party (ExceptT.run x) s

theorem Stays.first (h : Stays party (x >>= f) s) : Stays party x s :=
  Exchange.Stays.left (f := ExceptT.bindCont f) h

theorem does_pure (a : α) (s : σ) : Does party (pure a) s [] (.ok a) s := ⟨rfl, rfl⟩

theorem does_ofResult (result : ClientResult α) (s : σ) :
    Does party (ofResult result) s [] result s := ⟨rfl, rfl⟩

theorem does_bind (hx : Does party x s d (.ok a) s') (hf : Does party (f a) s' d' r s'') :
    Does party (x >>= f) s (d ++ d') r s'' :=
  Exchange.Does.bind (f := ExceptT.bindCont f) hx hf

/-- What follows a failure is not done. -/
theorem does_bind_error (hx : Does party x s d (.error e) s') :
    Does party (x >>= f) s d (.error e) s' := by
  have hstop : Exchange.Does party (ExceptT.bindCont f (.error e)) s' [] (.error e) s' :=
    Exchange.Does.pure _ _
  have hboth := Exchange.Does.bind (f := ExceptT.bindCont f) hx hstop
  rw [List.append_nil] at hboth
  exact hboth

/-- What is known is not computed again. -/
theorem ofResult_bind {x : ClientResult α} (h : x = .ok a) (f : α → Remote β) :
    ofResult x >>= f = f a := by
  rw [h]
  rfl

theorem does_ofResult_error {x : ClientResult α} (h : x = .error e) (s : σ) :
    Does party (ofResult x >>= f) s [] (.error e) s := by
  rw [h]
  exact does_bind_error (does_ofResult _ s)

end Remote

/-! ### Messages -/

namespace Message

variable {σ : Type} {party : Exchange.Party σ} {m : Message} {origin : Origin} {s : σ}

theorem redirected?_of_not_sendsOn {r : Response} (h : ¬r.SendsOn) (m : Message) :
    m.redirected? r = none := by
  unfold redirected?
  split
  · next hredirect =>
    have hplace : r.location = none := Decidable.byContradiction fun hne => h ⟨hredirect, hne⟩
    simp [nextUrl?, hplace]
  · rfl

/-- Where a message is sent, if it can be sent: its address is one of the web with a host, a URI
and not too long, and its headers hold no control characters. -/
def destination? (m : Message) : Option Origin := if m.isSendable then m.origin? else none

/-- The result of a message that was answered. -/
def answered : Option Response → ClientResult Response
  | none => .error .transport
  | some r => .ok r

private theorem does_round_nowhere {again : Message → Remote Response} (h : m.origin? = none)
    (s : σ) : Remote.Does party (round again m) s [] (.error .transport) s := by
  unfold round
  rw [h]
  exact ⟨rfl, rfl⟩

private theorem does_round {again : Message → Remote Response} (h : m.origin? = some origin)
    (hstay : ∀ r, (party origin m.request s).1 = some r → ¬r.SendsOn) :
    Remote.Does party (round again m) s [⟨origin, m.request, (party origin m.request s).1⟩]
      (answered (party origin m.request s).1) (party origin m.request s).2 := by
  unfold round
  rw [h]
  refine Exchange.Does.ask ?_
  cases hanswer : (party origin m.request s).1 with
  | none => exact ⟨rfl, rfl⟩
  | some r =>
      simp only [redirected?_of_not_sendsOn (hstay r hanswer) m]
      exact ⟨rfl, rfl⟩

private theorem sent_round_cons {again : Message → Remote Response} (h : m.origin? = some origin)
    (s : σ) : ∃ more, Exchange.sent party (ExceptT.run (round again m)) s
      = ⟨origin, m.request, (party origin m.request s).1⟩ :: more := by
  unfold round
  rw [h]
  exact ⟨_, rfl⟩

private theorem send_eq (h : m.isSendable = true) : m.send = round (follow 8) m := by
  unfold send
  rw [if_pos h]
  rfl

theorem does_send_nowhere (h : m.destination? = none) (s : σ) :
    Remote.Does party m.send s [] (.error .transport) s := by
  unfold destination? at h
  by_cases hsendable : m.isSendable = true
  · rw [if_pos hsendable] at h
    rw [send_eq hsendable]
    exact does_round_nowhere h s
  · unfold send
    rw [if_neg hsendable]
    exact Remote.does_ofResult _ s

private theorem of_destination? (h : m.destination? = some origin) :
    m.isSendable = true ∧ m.origin? = some origin := by
  unfold destination? at h
  split at h
  · next hsendable => exact ⟨hsendable, h⟩
  · simp at h

/-- The first request of a message is its own, whatever comes of it. -/
theorem sent_send_cons (party : Exchange.Party σ) (h : m.destination? = some origin) (s : σ) :
    ∃ more, Exchange.sent party (ExceptT.run m.send) s
      = ⟨origin, m.request, (party origin m.request s).1⟩ :: more := by
  obtain ⟨hsendable, horigin⟩ := of_destination? h
  rw [send_eq hsendable]
  exact sent_round_cons horigin s

/-- A message that is not sent on by its first answer is one request. -/
theorem does_send_here (h : m.destination? = some origin)
    (hstay : ∀ r, (party origin m.request s).1 = some r → ¬r.SendsOn) :
    Remote.Does party m.send s [⟨origin, m.request, (party origin m.request s).1⟩]
      (answered (party origin m.request s).1) (party origin m.request s).2 := by
  obtain ⟨hsendable, horigin⟩ := of_destination? h
  rw [send_eq hsendable]
  exact does_round horigin hstay

/-- **A message that is not sent on is one request.** -/
theorem does_send (h : m.destination? = some origin)
    (hstay : Remote.Stays party m.send s) :
    Remote.Does party m.send s [⟨origin, m.request, (party origin m.request s).1⟩]
      (answered (party origin m.request s).1) (party origin m.request s).2 := by
  obtain ⟨more, hsent⟩ := sent_send_cons party h s
  refine does_send_here h fun r hr => ?_
  exact hstay ⟨origin, m.request, _⟩ (hsent ▸ List.mem_cons_self) r hr

/-- A message that is read when it is answered. -/
theorem does_send_then {α : Type} {read : Response → ClientResult α}
    (h : m.destination? = some origin)
    (hstay : Remote.Stays party (m.send >>= fun r => Remote.ofResult (read r)) s) :
    Remote.Does party (m.send >>= fun r => Remote.ofResult (read r)) s
      [⟨origin, m.request, (party origin m.request s).1⟩]
      (answered (party origin m.request s).1 >>= read) (party origin m.request s).2 := by
  have hsend := does_send h hstay.first
  cases hanswer : (party origin m.request s).1 with
  | none =>
      rw [hanswer] at hsend
      exact Remote.does_bind_error hsend
  | some r =>
      rw [hanswer] at hsend
      exact Remote.does_bind hsend (Remote.does_ofResult (read r) _)

end Message

end ParameterManager
