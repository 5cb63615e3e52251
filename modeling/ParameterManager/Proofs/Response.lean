/-
What a call makes of the response in the end.

The class of the status decides first.  Of a success the body has to be a parameter, and nothing
else will do.  Of everything else the body is never a result, even if it is a parameter: it is
looked at for a report of the service, and shown as it is if it is none.  So the service is heard
in either case, and its words stand at the end of the error.

Which bodies are read is said in two ways: by the readers themselves, which settles every body,
and by the texts of parameters and of reports, which are read whatever blanks they have and in
whatever order their members stand.
-/
import ParameterManager.Proofs.Http.Lost
import ParameterManager.Proofs.Report
import ParameterManager.Proofs.RoundTrip
import ParameterManager.Proofs.Registry.Verdict

namespace ParameterManager

open Json (Spells)

/-! ### One response -/

/-- What was asked has been done. -/
def Response.IsSuccess (r : Response) : Prop := 200 ≤ r.status.code ∧ r.status.code < 300

/-- The kind of error that a report names, or the status of the response that it came with. -/
def ApiError.kindOr (e : ApiError) (s : Status) : String :=
  if e.status = "" then s.text else e.status

/-- What a call gives is settled by a response to the address of a path. -/
structure Response.Settles (path : String) (r : Response) (result : ClientResult Parameter) :
    Prop where
  /-- A parameter is given exactly if it is the body of a success. -/
  ok_iff : ∀ p, result = .ok p ↔ r.IsSuccess ∧ Parameter.wire.ofString r.text = .ok p
  /-- Every other body of a success is an error of the answer, behind the path. -/
  failed_iff : (∃ text, result = .error (.responseFailed text)) ↔
    r.IsSuccess ∧ ∀ p, Parameter.wire.ofString r.text ≠ .ok p
  failed_path : ∀ text, result = .error (.responseFailed text) →
    ∃ reason : String, text = s!"{path}: {reason}"
  /-- Everything that is no success is an error of the request, whatever its body is. -/
  refused_iff : (∃ text, result = .error (.requestFailed text)) ↔ ¬r.IsSuccess
  /-- It has the report of the service, -/
  reported : ¬r.IsSuccess → ∀ e, ApiError.wire.ofString r.text = .ok e →
    result = .error (.requestFailed s!"{path}: {e.kindOr r.status}: {e.message}")
  /-- or the body if that is no report, -/
  unreported : ¬r.IsSuccess → (∀ e, ApiError.wire.ofString r.text ≠ .ok e) → r.text ≠ "" →
    result = .error (.requestFailed s!"{path}: {r.status.text} {r.text}")
  /-- or what is to be said of the status if there is no body. -/
  bare : ¬r.IsSuccess → r.text = "" →
    result = .error (.requestFailed s!"{path}: {Client.statusText r.status}")
  /-- A success without a body is no parameter. -/
  empty : r.IsSuccess → r.text = "" → result = .error (.responseFailed
    s!"{path}: EOF while parsing a value at line 1 column 0")
  /-- Every text of a parameter is the body of one. -/
  parameter : r.IsSuccess → ∀ p j, p.IsWrittenAs j → Spells j r.text.toList → result = .ok p
  /-- Every text of a report is one, and the status stands in where it names no kind of error. -/
  report : ¬r.IsSuccess → ∀ code? message status?,
    ApiError.IsReport code? message status? r.text → (∀ n, code? = some n → n < 2 ^ 16) →
    let kind := if status?.getD "" = "" then r.status.text else status?.getD ""
    result = .error (.requestFailed s!"{path}: {kind}: {message}")
  /-- What the service has said stands at the end. -/
  kept : ∀ text, result = .error (.requestFailed text) → ∃ front, text = front ++
    match ApiError.wire.ofString r.text with
    | .ok e => e.message
    | .error _ => r.text

namespace Client

variable {path : String} {r : Response}

theorem isSuccess_iff : r.status.isSuccess = true ↔ r.IsSuccess := by
  simp [Status.isSuccess, Response.IsSuccess]

/-! #### Successes -/

theorem ofResponse_success (h : r.IsSuccess) : ofResponse path r =
    match Parameter.wire.ofString r.text with
    | .ok p => .ok p
    | .error e => .error (.responseFailed s!"{path}: {e.message}") :=
  if_pos (isSuccess_iff.mpr h)

/-! #### Refusals -/

theorem ofResponse_failure (h : ¬r.IsSuccess) :
    ofResponse path r = .error (.requestFailed (refusal path r)) := by
  rw [ofResponse, if_neg (mt isSuccess_iff.mp h)]

theorem refusal_reported {e : ApiError} (h : ApiError.wire.ofString r.text = .ok e) :
    refusal path r = s!"{path}: {e.kindOr r.status}: {e.message}" := by
  simp only [refusal, h, ApiError.kindOr, String.isEmpty_iff]

theorem refusal_unreported (h : ∀ e, ApiError.wire.ofString r.text ≠ .ok e) (hne : r.text ≠ "") :
    refusal path r = s!"{path}: {r.status.text} {r.text}" := by
  unfold refusal
  cases hread : ApiError.wire.ofString r.text with
  | ok e => exact absurd hread (h e)
  | error _ => simp only [String.isEmpty_iff, if_neg hne]

theorem refusal_bare (h : r.text = "") : refusal path r = s!"{path}: {statusText r.status}" := by
  have hread : (ApiError.wire.ofString "").toOption = none := by decide +kernel
  unfold refusal
  rw [h]
  cases hempty : ApiError.wire.ofString "" with
  | ok e => simp [hempty, Except.toOption] at hread
  | error _ => rfl

/-- **What the service has said stands at the end** of a refusal. -/
theorem refusal_kept (path : String) (r : Response) : ∃ front, refusal path r = front ++
    match ApiError.wire.ofString r.text with
    | .ok e => e.message
    | .error _ => r.text := by
  cases hread : ApiError.wire.ofString r.text with
  | ok e => exact ⟨_, refusal_reported hread⟩
  | error e =>
      by_cases hempty : r.text = ""
      · exact ⟨_, (refusal_bare hempty).trans (by rw [hempty, String.append_empty])⟩
      · exact ⟨_, refusal_unreported (fun e' he' => by simp [hread] at he') hempty⟩

/-! #### Both -/

private theorem settles_success (h : r.IsSuccess) : r.Settles path (ofResponse path r) where
  ok_iff p := by rw [ofResponse_eq_ok_iff, isSuccess_iff]
  failed_iff := by
    rw [ofResponse_success h]
    cases Parameter.wire.ofString r.text <;> simp [h]
  failed_path text htext := by
    rw [ofResponse_success h] at htext
    cases hread : Parameter.wire.ofString r.text with
    | ok p => simp [hread] at htext
    | error e =>
        rw [hread] at htext
        exact ⟨e.message, (ClientError.responseFailed.inj (Except.error.inj htext)).symm⟩
  refused_iff := by
    rw [ofResponse_success h]
    cases Parameter.wire.ofString r.text <;> simp [h]
  reported hfailure := absurd h hfailure
  unreported hfailure := absurd h hfailure
  bare hfailure := absurd h hfailure
  empty _ hempty := by
    have hread : (match Parameter.wire.ofString "" with
        | .ok _ => ""
        | .error e => e.message) = "EOF while parsing a value at line 1 column 0" := by
      decide +kernel
    rw [ofResponse_success h, hempty]
    cases hnone : Parameter.wire.ofString "" with
    | ok p => simp [hnone] at hread
    | error e =>
        have htext : s!"{path}: EOF while parsing a value at line 1 column 0"
            = path ++ (": " ++ "EOF while parsing a value at line 1 column 0") := rfl
        rw [hnone] at hread
        rw [htext, ← String.append_assoc, ← hread]
        rfl
  parameter _ p j hwritten hspells := by
    obtain ⟨write, hwrite, rfl⟩ := hwritten
    have hread := ((p.takes_membersWith hwrite).readsText hspells).ofString
    rw [String.ofList_toList] at hread
    rw [ofResponse_success h, hread]
  report hfailure := absurd h hfailure
  kept text htext := by
    rw [ofResponse_success h] at htext
    cases hread : Parameter.wire.ofString r.text <;> simp [hread] at htext

private theorem settles_failure (h : ¬r.IsSuccess) : r.Settles path (ofResponse path r) where
  ok_iff p := by rw [ofResponse_eq_ok_iff, isSuccess_iff]
  failed_iff := by simp [ofResponse_failure h, h]
  failed_path text htext := by simp [ofResponse_failure h] at htext
  refused_iff := by simp [ofResponse_failure h, h]
  reported _ e he := by rw [ofResponse_failure h, refusal_reported he]
  unreported _ he hne := by rw [ofResponse_failure h, refusal_unreported he hne]
  bare _ hempty := by rw [ofResponse_failure h, refusal_bare hempty]
  empty hsuccess := absurd hsuccess h
  parameter hsuccess := absurd hsuccess h
  report _ code? message status? hreport hcode := by
    rw [ofResponse_failure h, refusal_reported (ApiError.ofString_of_isReport hreport hcode)]
    rfl
  kept text htext := by
    rw [ofResponse_failure h] at htext
    obtain rfl := ClientError.requestFailed.inj (Except.error.inj htext)
    exact refusal_kept path r

/-- **A response settles what is made of it.** -/
theorem settles_ofResponse (path : String) (r : Response) : r.Settles path (ofResponse path r) := by
  by_cases h : r.IsSuccess
  · exact settles_success h
  · exact settles_failure h

-- a parameter is no result of a refusal, and a report needs a code that fits
example :
    let refused (code : Nat) (body : String) :=
      ofResponse "/p" { status := ⟨code⟩, body := Utf8.encode body }
    let report (code : String) :=
      "\x7b\"error\":\x7b\"code\":" ++ code ++ ",\"message\":\"m\"\x7d\x7d"
    refused 403 "\x7b\"name\":\"n\"\x7d"
        = .error (.requestFailed "/p: 403 Forbidden \x7b\"name\":\"n\"\x7d") ∧
      refused 429 (report "65535") = .error (.requestFailed "/p: 429 Too Many Requests: m") ∧
      refused 404 (report "65536")
        = .error (.requestFailed ("/p: 404 Not Found " ++ report "65536")) := by
  decide +kernel

end Client

/-! ### Calls -/

section Calls

variable {σ : Type} {party : Exchange.Party σ} {c : Client} {s : σ} {call : Registry.Call}

/-- The address of a call below an endpoint. -/
def Registry.Call.address (serverUrl : String) : Registry.Call → ClientResult Url
  | get n => Client.resource serverUrl n
  | update u => Client.maskedResource serverUrl u

/-- The message of a call to an address. -/
def Registry.Call.message (c : Client) (place : Url) : Registry.Call → Message
  | get _ => c.getMessage place
  | update u => c.updateMessage place u

theorem Registry.Call.make_eq (c : Client) (call : Registry.Call) :
    call.make c = Remote.ofResult (call.address c.serverUrl) >>= fun place =>
      (call.message c place).send >>= fun r =>
        Remote.ofResult (Client.ofResponse place.pathText r) := by
  cases call with
  | get n => rfl
  | update u => rfl

/-- How a call ends: there is no address for it, or its message is lost, or the message gets a
response in the end, which is the last thing that is heard and settles what the call gives. -/
inductive Client.Ends (party : Exchange.Party σ) (c : Client) (call : Registry.Call) (s : σ)
    (result : ClientResult Parameter) (t : Transcript) : Prop
  | nowhere {e : ClientError} (address : call.address c.serverUrl = .error e)
      (fails : result = .error e) (silent : t = [])
  | lost {place : Url} (address : call.address c.serverUrl = .ok place)
      (unanswered : (Remote.run party (call.message c place).send s).1 = .error .transport)
      (why : (call.message c place).Lost t) (fails : result = .error .transport)
  | answered {place : Url} (d : Delivery) (address : call.address c.serverUrl = .ok place)
      (heard : (Remote.run party (call.message c place).send s).1 = .ok d.response)
      (first : d.first = call.message c place) (last : t = d.transcript)
      (settles : d.response.Settles place.pathText result)

/-- **The response in the end settles what a call gives**, whatever its status and its body are and
however the message came to it. -/
theorem response_settles_call (party : Exchange.Party σ) (c : Client) (call : Registry.Call)
    (s : σ) : c.Ends party call s (Exchange.run party (ExceptT.run (call.make c)) s).1
      (Exchange.transcript party (ExceptT.run (call.make c)) s) := by
  have hresult := (Exchange.run_logged party (ExceptT.run (call.make c)) s []).1
  rw [← hresult]
  show c.Ends party call s (Remote.run party.logged (call.make c) (s, [])).1
    (Remote.run party.logged (call.make c) (s, [])).2.2
  rw [call.make_eq c]
  cases haddress : call.address c.serverUrl with
  | error e => exact .nowhere haddress rfl rfl
  | ok place =>
      have hunlogged :=
        (Exchange.run_logged party (ExceptT.run (call.message c place).send) s []).1.symm
      rw [Remote.run_ofResult_bind rfl, Remote.run_bind]
      rcases hsend : Remote.run party.logged (call.message c place).send (s, [])
        with ⟨e | r, s', log⟩
      · obtain rfl := Message.run_send_error (congrArg Prod.fst hsend)
        obtain ⟨t, hlost, rfl⟩ := Message.run_send_lost hsend
        rw [List.append_nil]
        exact .lost haddress (hunlogged.trans (congrArg Prod.fst hsend)) hlost rfl
      · obtain ⟨d, hfirst, rfl, hlog⟩ := Message.run_send_ok hsend
        rw [List.append_nil] at hlog
        exact .answered d haddress (hunlogged.trans (congrArg Prod.fst hsend)) hfirst hlog
          (Client.settles_ofResponse place.pathText d.response)

end Calls

/-- A refusal at the place that a call was sent on to is what the call gives, with the path of the
first place. -/
theorem moved_refusal_heard :
    let c : Client := ⟨"http://localhost", "token"⟩
    let call : Registry.Call := .get (.global "p" "db")
    let script : Script := { responses := [
      { status := ⟨307⟩, location := some (Utf8.encode "/moved") },
      { status := ⟨403⟩, body := Utf8.encode "no" }] }
    let result := (Exchange.run Script.answer (ExceptT.run (call.make c)) script).1
    let heard := Exchange.transcript Script.answer (ExceptT.run (call.make c)) script
    c.Ends Script.answer call script result heard ∧
      result = .error (.requestFailed
        "/v1/projects/p/locations/global/parameters/db: 403 Forbidden no") ∧
      heard.map (·.1.target) = ["/moved", "/v1/projects/p/locations/global/parameters/db"] :=
  ⟨response_settles_call Script.answer _ _ _, by decide +kernel, by decide +kernel⟩

end ParameterManager
