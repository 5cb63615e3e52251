/-
What an operation does, whatever comes of it.

An operation is run on services of which nothing is known: a connection may fail, a call may
fail, and an answer may be any parameter.  The log then shows one connection, one call if
there was a service to call, and the service given up again.  What is returned follows from
the answer, and for a change from what its sink takes of the line.
-/
import ParameterManager.Rehearsal
import ParameterManager.Proofs.Operation
import ParameterManager.Proofs.Sink

namespace ParameterManager

/-! ### Services of any behaviour -/

/-- What comes of a connection and of a call on it, whatever that is. -/
structure ServiceBehaviour where
  connectError? : Option ClientError
  get : ParameterName → ClientResult Parameter
  update : UpdateRequest → ClientResult Parameter

open ServicePlan (Rehearsal note)

namespace ServiceBehaviour

def service (b : ServiceBehaviour) : Service Rehearsal where
  get name := do
    note (.got name)
    pure (b.get name)
  update request := do
    note (.updated request)
    pure (b.update request)
  release := note .released

def connector (b : ServiceBehaviour) : Connector Rehearsal where
  connect := do
    note .connected
    match b.connectError? with
    | some e => pure (.error e)
    | none => pure (.ok b.service)

end ServiceBehaviour

/-- What a plan makes of a connection and of a call. -/
def ServicePlan.behaviour (plan : ServicePlan) : ServiceBehaviour where
  connectError? := plan.connectError?
  get name := plan.outcome { name := name.display }
  update request := plan.outcome { name := request.name.display, kmsKey := request.parameter.kmsKey }

/-- Services that follow a plan are services of its behaviour. -/
theorem ServicePlan.connector_eq (plan : ServicePlan) : plan.connector = plan.behaviour.connector :=
  rfl

namespace Operation

variable (b : ServiceBehaviour) (log : List ServiceEvent)

/-- A call is made on a service that is given up afterwards, or there is no service. -/
theorem run_rehearsed (wrap : ClientError → ClientError)
    (ask : Service Rehearsal → Rehearsal (ClientResult Parameter)) {answer : ClientResult Parameter}
    {event : ServiceEvent} (hask : ∀ log, (ask b.service).run log = (answer, log ++ [event])) :
    (call b.connector wrap ask).run log =
      match b.connectError? with
      | some e => (.error (.clientInitialization e), log ++ [.connected])
      | none => (answer.mapError wrap, log ++ [.connected, event, .released]) := by
  have hconnect : b.connector.connect.run log =
      (match b.connectError? with
        | some e => .error e
        | none => .ok b.service, log ++ [.connected]) := by
    unfold ServiceBehaviour.connector
    cases b.connectError? with
    | some e => rfl
    | none => rfl
  rw [call, StateT.run_bind, hconnect]
  cases b.connectError? with
  | some e => rfl
  | none =>
      have hsteps : log ++ [.connected] ++ [event] ++ [.released] =
          log ++ [.connected, event, .released] := by
        simp only [List.append_assoc, List.cons_append, List.nil_append]
      show StateT.run (do
        let answer ← ask b.service
        b.service.release
        pure (answer.mapError wrap)) (log ++ [.connected]) = _
      rw [StateT.run_bind, hask]
      exact Prod.ext rfl hsteps

end Operation

/-! ### Outcomes -/

/-- What is returned about a parameter whose line is written, and what the sink has of the
line: what there was room for, however the line was cut into pieces. -/
structure Sink.Took (s : Sink) (text : String) (p : Parameter)
    (done : ClientResult Parameter × Sink) : Prop where
  whole : s.Holds (Utf8.encode text) → done.1 = .ok p
  cut : ¬s.Holds (Utf8.encode text) → done.1 = .error s.refusal.error
  written : done.2.written = s.written ++ s.fitting (Utf8.encode text)
  inPieces : ∀ pieces, pieces.flatten = Utf8.encode text → (s.writePieces pieces).2 = done.2

/-- What is returned of a change, and its sink afterwards, by the answer to its call. -/
structure KeyChange.Settles (change : KeyChange) (s : Sink) (answer : ClientResult Parameter)
    (done : ClientResult Parameter × Sink) : Prop where
  failed : ∀ e, answer = .error e → done = (.error (.updateParameter e), s)
  /-- A key was to be set, and the answer shows none. -/
  keyless : ∀ p key, answer = .ok p → change = .set key → p.kmsKey = none →
    done = (.error (.missingKmsKey p.name), s)
  /-- The line has the key of the answer, not the one that was to be set. -/
  set : ∀ p key shown, answer = .ok p → change = .set key → p.kmsKey = some shown →
    s.Took s!"Updated parameter {p.name} with kms_key {shown}\n" p done
  cleared : ∀ p, answer = .ok p → change = .clear →
    s.Took s!"Removed kms_key for parameter {p.name}\n" p done

namespace Operation

theorem took_report {s : Sink} {line : Parameter → ClientResult String} {p : Parameter}
    {text : String} (h : line p = .ok text) : s.Took text p (report s line (.ok p)) := by
  rw [report_of_line h]
  exact {
    whole := fun hroom => by rw [Sink.write_of_holds hroom]; rfl
    cut := fun hroom => by rw [Sink.write_of_not_holds hroom]; rfl
    written := rfl
    inPieces := fun pieces hpieces => by rw [Sink.writePieces_eq, Sink.snd_write, hpieces] }

/-- A change is settled by what is reported of its answer. -/
theorem settles_report (change : KeyChange) (s : Sink) (answer : ClientResult Parameter) :
    change.Settles s answer (report s change.line (answer.mapError .updateParameter)) where
  failed e h := by subst h; rfl
  keyless p key h hchange hkey := by
    subst h hchange
    exact report_of_line_error (KeyChange.line_set_missing hkey)
  set p key shown h hchange hkey := by
    subst h hchange
    exact took_report (KeyChange.line_set hkey)
  cleared p h hchange := by
    subst h hchange
    exact took_report (KeyChange.line_clear p)

/-- A change asks for its field alone, and its payload has the name and the key if there is
one. -/
theorem request_of_change (n : ParameterName) (change : KeyChange) :
    change.request n =
      { name := n
        parameter := { name := n.display, kmsKey := change.key? }
        mask := ⟨["kms_key"]⟩ } := by
  rw [KeyChange.request_eq]
  rfl

/-- **An operation is one connection and one call, given up on every way out.**  Without a
service nothing is called, given up or written.  Otherwise a read asks for its name and a change
for the key of its name and nothing else; what is returned is the answer or the failure of that
very call, and a change has its line written as far as the sink takes it. -/
theorem one_call_each (b : ServiceBehaviour) (project parameter : String)
    (log : List ServiceEvent) :
    (get b.connector project parameter).run log =
      (match b.connectError? with
        | some e => (.error (.clientInitialization e), log ++ [.connected])
        | none =>
          ((b.get (.global project parameter)).mapError .getParameter,
            log ++ [.connected, .got (.global project parameter), .released])) ∧
    ∀ (change : KeyChange) (s : Sink), ∃ done,
      let n := ParameterName.global project parameter
      let request : UpdateRequest :=
        { name := n
          parameter := { name := n.display, kmsKey := change.key? }
          mask := ⟨["kms_key"]⟩ }
      (change.perform b.connector s project parameter).run log =
        (match b.connectError? with
          | some e => ((.error (.clientInitialization e), s), log ++ [.connected])
          | none => (done, log ++ [.connected, .updated request, .released])) ∧
      request.parameter.members =
        ("name", .string n.display) :: memberOf "kmsKey" .string change.key? ∧
      change.Settles s (b.update request) done := by
  refine ⟨run_rehearsed b log .getParameter (·.get (.global project parameter)) fun log => rfl,
    fun change s => ⟨_, ?_, rfl, settles_report change s _⟩⟩
  have hcall := run_rehearsed b log .updateParameter
    (·.update (change.request (.global project parameter))) fun log => rfl
  rw [KeyChange.perform_eq, StateT.run_bind, hcall, request_of_change]
  cases b.connectError? with
  | some e => rfl
  | none => rfl

end Operation

/-! ### Changes that fail -/

/-- The line about a change is cut short: the change has been made, and its sink has room for a
part of the line, but not for all of it. -/
structure KeyChange.IsCut (change : KeyChange) (b : ServiceBehaviour) (n : ParameterName) (s : Sink)
    (text : String) (room : Nat) : Prop where
  connected : b.connectError? = none
  made : ∃ p, b.update (change.request n) = .ok p ∧ change.line p = .ok text
  bound : s.room? = some room
  notNone : 0 < room
  notAll : room < (Utf8.encode text).length

namespace Operation

private theorem perform_rehearsed (b : ServiceBehaviour) (project parameter : String)
    (change : KeyChange) (s : Sink) (log : List ServiceEvent) :
    ((change.perform b.connector s project parameter).run log).1 =
      match b.connectError? with
      | some e => (.error (.clientInitialization e), s)
      | none => report s change.line
          ((b.update (change.request (.global project parameter))).mapError .updateParameter) := by
  have hcall := run_rehearsed b log .updateParameter
    (·.update (change.request (.global project parameter))) fun log => rfl
  rw [KeyChange.perform_eq, StateT.run_bind, hcall]
  cases b.connectError? with
  | some e => rfl
  | none => rfl

/-- A report that fails and has written something is of a line that did not fit. -/
private theorem cut_of_report {s : Sink} {line : Parameter → ClientResult String}
    {answer : ClientResult Parameter} {e : ClientError} (he : (report s line answer).1 = .error e)
    (hwritten : (report s line answer).2.written ≠ s.written) :
    ∃ p text room, answer = .ok p ∧ line p = .ok text ∧ s.room? = some room ∧ 0 < room ∧
      room < (Utf8.encode text).length := by
  obtain ⟨p, rfl⟩ := ok_of_report_ne fun h => hwritten (congrArg Sink.written h)
  cases hline : line p with
  | error e' =>
      rw [report_of_line_error hline] at hwritten
      exact absurd rfl hwritten
  | ok text =>
      rw [report_of_line hline] at he hwritten
      have hcut : ¬s.Holds (Utf8.encode text) := by
        intro hholds
        rw [Sink.write_of_holds hholds] at he
        simp [Except.map] at he
      obtain ⟨room, hroom, hlt⟩ := Sink.room?_of_not_holds hcut
      refine ⟨p, text, room, rfl, hline, hroom, Nat.pos_of_ne_zero ?_, hlt⟩
      rintro rfl
      exact hwritten (by simp [Sink.filled, Sink.fitting, hroom])

/-- What becomes of a change whose line is cut short. -/
private theorem cut_change {b : ServiceBehaviour} {project parameter : String} {change : KeyChange}
    {s : Sink} {text : String} {room : Nat}
    (h : change.IsCut b (.global project parameter) s text room) (log : List ServiceEvent) :
    ((change.perform b.connector s project parameter).run log).1 =
      (.error s.refusal.error, s.filled (Utf8.encode text)) ∧
      s.fitting (Utf8.encode text) = (Utf8.encode text).take room := by
  obtain ⟨p, hanswer, hline⟩ := h.made
  have hcut : ¬s.Holds (Utf8.encode text) := fun hholds =>
    Nat.not_le_of_lt h.notAll (hholds room h.bound)
  have hreport := report_of_line (s := s) hline
  rw [Sink.write_of_not_holds hcut] at hreport
  rw [perform_rehearsed, h.connected, hanswer]
  exact ⟨hreport, by simp only [Sink.fitting, h.bound]⟩

/-- **A change that fails has written nothing, unless its line was cut short.**  If it was, the
change is reported as failed though it has been made, and the sink has the beginning of the
line. -/
theorem failed_change_writes_nothing (b : ServiceBehaviour) (project parameter : String)
    (change : KeyChange) (s : Sink) (log : List ServiceEvent) :
    let n := ParameterName.global project parameter
    let done := ((change.perform b.connector s project parameter).run log).1
    (∀ e, done.1 = .error e →
      (done.2.written ≠ s.written ↔ ∃ text room, change.IsCut b n s text room)) ∧
    ∀ text room, change.IsCut b n s text room → done.1 = .error s.refusal.error ∧
      done.2.written = s.written ++ (Utf8.encode text).take room := by
  intro n done
  have hcut : ∀ text room, change.IsCut b n s text room → done.1 = .error s.refusal.error ∧
      done.2.written = s.written ++ (Utf8.encode text).take room := by
    intro text room h
    obtain ⟨hdone, hfitting⟩ := cut_change h log
    rw [show done = _ from hdone, ← hfitting]
    exact ⟨rfl, rfl⟩
  refine ⟨fun e he => ⟨fun hwritten => ?_, ?_⟩, hcut⟩
  · have hdone : done = _ := perform_rehearsed b project parameter change s log
    rw [hdone] at he hwritten
    cases hconnect : b.connectError? with
    | some e' =>
        rw [hconnect] at hwritten
        exact absurd rfl hwritten
    | none =>
        rw [hconnect] at he hwritten
        obtain ⟨p, text, room, hanswer, hline, hroom, hpos, hlt⟩ := cut_of_report he hwritten
        exact ⟨text, room, hconnect, ⟨p, ok_of_mapError hanswer, hline⟩, hroom, hpos, hlt⟩
  · rintro ⟨text, room, h⟩ hsame
    have hnone := List.append_right_eq_self.mp ((hcut text room h).2.symm.trans hsame)
    rcases List.take_eq_nil_iff.mp hnone with hroom | htext
    · exact absurd hroom (Nat.ne_of_gt h.notNone)
    · have hlt := h.notAll
      rw [htext] at hlt
      exact absurd hlt (Nat.not_lt_zero room)

-- a sink that is full after the first word keeps it, and the change is no success
example :
    let b : ServiceBehaviour :=
      { connectError? := none
        get := fun n => .ok { name := n.display }
        update := fun r => .ok r.parameter }
    let s : Sink := { room? := some 7 }
    let done := (((KeyChange.set "key").perform b.connector s "p" "db").run []).1
    done.1.toOption = none ∧ done.2.written = Utf8.encode "Updated" := by
  decide +kernel

end Operation

end ParameterManager
