/-
How a message comes to no response.

A message that can be sent is followed from place to place.  It strays if it is sent on to a
place that is nowhere, if it is not answered somewhere, or if it is sent on once too often; and
there is no other way for it to fail.  So where every request is answered, and none is sent on
too often or to nowhere, the response in the end is heard.
-/
import ParameterManager.Proofs.Http.Delivery

namespace ParameterManager.Message

/-- Why a message that may be sent on a number of times comes to no response, and what is heard
until then. -/
inductive Strays : Nat → Message → Transcript → Prop
  /-- There is no place to send it to. -/
  | nowhere {n : Nat} {m : Message} (place : m.origin? = none) : Strays n m []
  /-- It is sent, and there is no answer. -/
  | unanswered {n : Nat} {m : Message} {origin : Origin} (place : m.origin? = some origin) :
      Strays n m [(m.request, none)]
  /-- It is sent on, and may not be. -/
  | tooOften {m next : Message} {hop : Response} (moved : m.redirected? hop = some next) :
      Strays 0 m [(m.request, some hop)]
  /-- It is sent on, and strays from there. -/
  | later {n : Nat} {m next : Message} {hop : Response} {t : Transcript}
      (moved : m.redirected? hop = some next) (rest : Strays n next t) :
      Strays (n + 1) m (t ++ [(m.request, some hop)])

/-- A message is lost, with what is heard until then: it cannot be sent, or it strays. -/
inductive Lost (m : Message) : Transcript → Prop
  | unsendable (sendable : m.isSendable = false) : Lost m []
  | strays {t : Transcript} (sendable : m.isSendable = true) (strays : Strays maxRedirects m t) :
      Lost m t

variable {σ : Type} {party : Exchange.Party σ} {m : Message} {s s' : σ} {log log' : Transcript}
  {e : ClientError}

/-- **A message that fails has strayed**, and what was heard is in the transcript. -/
theorem run_follow_strays (n : Nat)
    (h : Remote.run party.logged (follow n m) (s, log) = (.error e, (s', log'))) :
    ∃ t, Strays n m t ∧ log' = t ++ log := by
  induction n generalizing m s log with
  | zero =>
      have hround : RoundEnds _ (fun _ => Remote.ofResult (.error .transport)) _ _ _ :=
        roundEnds_of_run h
      cases hround with
      | nowhere place => exact ⟨[], .nowhere place, rfl⟩
      | unanswered place asked => exact ⟨_, .unanswered place, log_of_asked asked⟩
      | on _ asked moved rest =>
          rw [Remote.run_ofResult] at rest
          obtain rfl := (Prod.mk.inj rest).2
          exact ⟨_, .tooOften moved, log_of_asked asked⟩
  | succ n ih =>
      have hround : RoundEnds party.logged (follow n) m (s, log) _ := roundEnds_of_run h
      cases hround with
      | nowhere place => exact ⟨[], .nowhere place, rfl⟩
      | unanswered place asked => exact ⟨_, .unanswered place, log_of_asked asked⟩
      | @on _ answer next s₁ _ _ asked moved rest =>
          obtain ⟨s₁, log₁⟩ := s₁
          obtain rfl : log₁ = _ := log_of_asked asked
          obtain ⟨t, hstrays, rfl⟩ := ih rest
          exact ⟨_, .later moved hstrays, by rw [List.append_assoc]; rfl⟩

theorem run_send_lost
    (h : Remote.run party.logged m.send (s, log) = (.error e, (s', log'))) :
    ∃ t, m.Lost t ∧ log' = t ++ log := by
  unfold send at h
  split at h
  · next hsendable =>
    obtain ⟨t, hstrays, hlog⟩ := run_follow_strays _ h
    exact ⟨t, .strays hsendable hstrays, hlog⟩
  · next hsendable =>
    rw [Remote.run_ofResult] at h
    exact ⟨[], .unsendable (Bool.eq_false_iff.mpr hsendable), (congrArg (·.2.2) h).symm⟩

end ParameterManager.Message
