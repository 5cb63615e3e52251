/-
Following a message from one place to the next.

One round asks one question and looks at one answer.  `RoundEnds` tells everything that can
become of it, so that what holds of a whole chain of redirects is an induction on the number
of rounds.
-/
import ParameterManager.Proofs.Http.Remote

namespace ParameterManager.Message

variable {σ : Type} {party : Exchange.Party σ} {m : Message} {again : Message → Remote Response}
  {s : σ}

/-! ### One round -/

/-- How a round ends, and in which state it leaves the party. -/
inductive RoundEnds (party : Exchange.Party σ) (again : Message → Remote Response) (m : Message)
    (s : σ) : ClientResult Response × σ → Prop
  /-- There is no place to send the message to. -/
  | nowhere (place : m.origin? = none) : RoundEnds party again m s (.error .transport, s)
  /-- It is not answered. -/
  | unanswered {origin : Origin} {s' : σ} (place : m.origin? = some origin)
      (asked : party origin m.request s = (none, s')) :
      RoundEnds party again m s (.error .transport, s')
  /-- It is answered, and not sent on. -/
  | here {origin : Origin} {answer : Response} {s' : σ} (place : m.origin? = some origin)
      (asked : party origin m.request s = (some answer, s')) (stays : m.redirected? answer = none) :
      RoundEnds party again m s (.ok answer, s')
  /-- It is sent on. -/
  | on {origin : Origin} {answer : Response} {next : Message} {s' : σ}
      {result : ClientResult Response × σ} (place : m.origin? = some origin)
      (asked : party origin m.request s = (some answer, s'))
      (moved : m.redirected? answer = some next) (rest : Remote.run party (again next) s' = result) :
      RoundEnds party again m s result

theorem roundEnds (party : Exchange.Party σ) (again : Message → Remote Response) (m : Message)
    (s : σ) : RoundEnds party again m s (Remote.run party (round again m) s) := by
  unfold round
  cases hplace : m.origin? with
  | none => exact .nowhere hplace
  | some origin =>
      rw [Remote.run_ask]
      rcases hasked : party origin m.request s with ⟨_ | answer, s'⟩
      · exact .unanswered hplace hasked
      · cases hmoved : m.redirected? answer with
        | none =>
            simp only [hmoved]
            exact .here hplace hasked hmoved
        | some next =>
            simp only [hmoved]
            exact .on hplace hasked hmoved rfl

theorem roundEnds_of_run {result : ClientResult Response × σ}
    (h : Remote.run party (round again m) s = result) : RoundEnds party again m s result :=
  h ▸ roundEnds party again m s

/-! ### Failures -/

/-- What fails in a round is the transport, or what goes on after it. -/
theorem run_round_error {e : ClientError}
    (hagain : ∀ next s, (Remote.run party (again next) s).1 = .error e → e = .transport)
    (h : (Remote.run party (round again m) s).1 = .error e) : e = .transport := by
  have hround := roundEnds party again m s
  generalize Remote.run party (round again m) s = result at h hround
  cases hround with
  | nowhere => exact (Except.error.inj h).symm
  | unanswered => exact (Except.error.inj h).symm
  | here => simp at h
  | on _ _ _ rest => exact hagain _ _ (rest ▸ h)

theorem run_follow_error (n : Nat) {e : ClientError}
    (h : (Remote.run party (follow n m) s).1 = .error e) : e = .transport := by
  induction n generalizing m s with
  | zero =>
      refine run_round_error (fun next s hnext => ?_) h
      rw [Remote.run_ofResult] at hnext
      exact (Except.error.inj hnext).symm
  | succ n ih => exact run_round_error (fun next s hnext => ih hnext) h

/-- **A message fails in the transport only.** -/
theorem run_send_error {e : ClientError} (h : (Remote.run party m.send s).1 = .error e) :
    e = .transport := by
  unfold send at h
  split at h
  · exact run_follow_error _ h
  · exact (Except.error.inj h).symm

end ParameterManager.Message
