/-
What an operation comes to.

An operation makes a client and one call, so it is run by running the one after the other.
Nothing is reported that the service has not answered: a parameter that comes back is the
one of the answer, and a line that is written is about it.
-/
import ParameterManager.Client
import ParameterManager.Proofs.Http.Remote

namespace ParameterManager

/-! ### Changes of a key -/

inductive KeyChange
  | set (key : String)
  | clear

namespace KeyChange

variable {m : Type → Type} [Monad m]

def request (n : ParameterName) : KeyChange → UpdateRequest
  | set key => .setKmsKey n key
  | clear => .clearKmsKey n

theorem name_request (n : ParameterName) (change : KeyChange) : (change.request n).name = n := by
  cases change with
  | set key => rfl
  | clear => rfl

/-- The key that a change leaves behind. -/
def key? : KeyChange → Option String
  | set key => some key
  | clear => none

theorem request_eq (n : ParameterName) (change : KeyChange) :
    change.request n = .ofUpdates n [.kmsKey change.key?] := by
  cases change with
  | set key => rfl
  | clear => rfl

def line : KeyChange → Parameter → ClientResult String
  | set _ => Operation.updatedLine
  | clear => Operation.removedLine

theorem line_set {p : Parameter} {key : String} (h : p.kmsKey = some key) :
    (set key).line p = .ok s!"Updated parameter {p.name} with kms_key {key}\n" := by
  simp only [line, Operation.updatedLine, h]

theorem line_set_missing {p : Parameter} {key : String} (h : p.kmsKey = none) :
    (set key).line p = .error (.missingKmsKey p.name) := by
  simp only [line, Operation.updatedLine, h]

theorem line_clear (p : Parameter) :
    clear.line p = .ok s!"Removed kms_key for parameter {p.name}\n" := by
  simp only [line, Operation.removedLine]

def perform (c : Connector m) (s : Sink) (project parameter : String) :
    KeyChange → m (ClientResult Parameter × Sink)
  | set key => Operation.updateKmsKey c s project parameter key
  | clear => Operation.removeKmsKey c s project parameter

/-- Each change is one call with its request, reported with its line. -/
theorem perform_eq (c : Connector m) (s : Sink) (project parameter : String) (change : KeyChange) :
    change.perform c s project parameter = (do
      let answer ← Operation.call c .updateParameter
        (·.update (change.request (.global project parameter)))
      pure (Operation.report s change.line answer)) := by
  cases change with
  | set key => rfl
  | clear => rfl

end KeyChange

namespace Operation

variable {σ : Type} {party : Exchange.Party σ}

/-! ### Calls -/

/-- An operation makes its client, and then its call if there is one. -/
theorem run_call (conf : ClientConf) (files : FileTree) (now : Nat)
    (wrap : ClientError → ClientError)
    (ask : Service Exchange → Exchange (ClientResult Parameter)) (s : σ) :
    Exchange.run party (call (conf.connector files now) wrap ask) s =
      match Remote.run party (Client.ofConf conf files now) s with
      | (.error e, s') => (.error (.clientInitialization e), s')
      | (.ok client, s') =>
        ((Exchange.run party (ask client.service) s').1.mapError wrap,
          (Exchange.run party (ask client.service) s').2) := by
  have hconnect : Exchange.run party (conf.connector files now).connect s =
      match Remote.run party (Client.ofConf conf files now) s with
      | (.error e, s') => (.error e, s')
      | (.ok client, s') => (.ok client.service, s') := by
    rw [ClientConf.connector, Exchange.run_bind_apply]
    unfold Remote.run
    generalize Exchange.run party (ExceptT.run (Client.ofConf conf files now)) s = result
    rcases result with ⟨e | client, s'⟩
    · rfl
    · rfl
  rw [call, Exchange.run_bind_apply, hconnect]
  generalize Remote.run party (Client.ofConf conf files now) s = result
  rcases result with ⟨e | client, s'⟩
  · rfl
  · simp only [Exchange.run_bind_apply]
    rfl

theorem ok_of_mapError {answer : ClientResult Parameter} {wrap : ClientError → ClientError}
    {p : Parameter} (h : answer.mapError wrap = .ok p) : answer = .ok p := by
  cases answer with
  | ok q => exact h
  | error e =>
      have herror : (.error (wrap e) : ClientResult Parameter) = .ok p := h
      simp at herror

/-! ### Reports -/

/-- What is reported as done has been answered. -/
theorem report_ok {s : Sink} {line : Parameter → ClientResult String}
    {answer : ClientResult Parameter} {p : Parameter} (h : (report s line answer).1 = .ok p) :
    answer = .ok p := by
  unfold report at h
  split at h
  · simp at h
  · split at h
    · simp at h
    · split at h
      · exact h
      · simp at h

/-- A line is written about an answer only. -/
theorem ok_of_report_ne {s : Sink} {line : Parameter → ClientResult String}
    {answer : ClientResult Parameter} (h : (report s line answer).2 ≠ s) : ∃ p, answer = .ok p := by
  cases answer with
  | ok p => exact ⟨p, rfl⟩
  | error e => exact absurd rfl h

end Operation

/-- A change reports what its call gives back, if it has made a client. -/
theorem KeyChange.run_perform {σ : Type} (party : Exchange.Party σ) (conf : ClientConf)
    (files : FileTree) (now : Nat) (sink : Sink) (project parameter : String)
    (change : KeyChange) (s : σ) :
    Exchange.run party (change.perform (conf.connector files now) sink project parameter) s =
      match Remote.run party (Client.ofConf conf files now) s with
      | (.error e, s') => ((.error (.clientInitialization e), sink), s')
      | (.ok c, s') =>
        let called := Remote.run party (c.update (change.request (.global project parameter))) s'
        (Operation.report sink change.line (called.1.mapError .updateParameter), called.2) := by
  rw [perform_eq, Exchange.run_bind_apply, Operation.run_call, Exchange.run_pure_apply]
  rcases Remote.run party (Client.ofConf conf files now) s with ⟨e | c, s'⟩
  · rfl
  · rfl

end ParameterManager
