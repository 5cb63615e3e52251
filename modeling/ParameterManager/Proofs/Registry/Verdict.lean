/-
What a registry says to the calls of a client, and how the client takes it.

A call is a read or a change, with whatever token the client has.  Its verdict is what the
registry makes of it: nothing without the right token, and otherwise the parameter or the
reason why there is none.  The verdict is what is answered, unless the body of a change is
too long to be looked at.

A reason travels as the text of a report, and the client reads the report off it again.  So
the error of the client has the status and the message of the reason, with the path of the
request before them.  An answer that is the report of some reason cannot be that of another
one, for a report can be read in one way only.
-/
import ParameterManager.Proofs.ApiError
import ParameterManager.Proofs.Registry.Calls
import ParameterManager.Proofs.Registry.Secrecy

namespace ParameterManager.Registry

/-! ### Reports as responses -/

/-- The error of the client that a rejection becomes. -/
def rejectionOf (path : String) (e : ApiError) : ClientError :=
  .requestFailed s!"{path}: {e.status}: {e.message}"

private theorem text_errorResponse {e : ApiError} (h : (⟨e.code⟩ : Status).isBodiless = false) :
    (errorResponse e).text = e.toJson.compact := text_jsonResponse h _

/-- **The client reads the report off a response**, whatever its message is. -/
theorem ofResponse_errorResponse (path : String) {e : ApiError} (hcode : (⟨e.code⟩ : Status) ∈ refusals)
    (hstatus : e.status ≠ "") :
    Client.ofResponse path (errorResponse e) = .error (rejectionOf path e) := by
  have hall : ∀ s ∈ refusals, s.code < 2 ^ 16 ∧ s.isBodiless = false := by decide
  obtain ⟨hfits, hbodiless⟩ := hall _ hcode
  have hread : ApiError.wire.ofString (errorResponse e).text = .ok e := by
    rw [text_errorResponse hbodiless]
    exact (ApiError.readsBack hfits).compact.ofString
  have hempty : ¬e.status.isEmpty = true := by simpa using hstatus
  rw [ofResponse_refused path hcode, Client.refusal, hread]
  simp only [if_neg hempty, rejectionOf]

private theorem encode_injective {s t : String} (h : Utf8.encode s = Utf8.encode t) : s = t := by
  rw [← Utf8.lossy_encode s, h, Utf8.lossy_encode]

private theorem compact_of_jsonResponse {status status' : Status} {j j' : Json}
    (h : jsonResponse status j = jsonResponse status' j') :
    status = status' ∧ j.compact = j'.compact := by
  rw [jsonResponse, jsonResponse, Response.mk.injEq] at h
  exact ⟨h.1, encode_injective h.2.2.2⟩

/-- A report can be read in one way only. -/
theorem errorResponse_injective {e e' : ApiError} (hfits : e.Fits)
    (h : errorResponse e = errorResponse e') : e = e' := by
  obtain ⟨hstatus, htext⟩ := compact_of_jsonResponse h
  have hcode : e.code = e'.code := congrArg Status.code hstatus
  have hfits' : e'.Fits := by
    show e'.code < 2 ^ 16
    rw [← hcode]
    exact hfits
  have hread := (ApiError.readsBack hfits).compact.ofString
  rw [htext, (ApiError.readsBack hfits').compact.ofString] at hread
  exact (Except.ok.inj hread).symm

/-- A parameter is no report: their first members have other names. -/
theorem errorResponse_ne_parameter (e : ApiError) (p : Parameter) :
    errorResponse e ≠ jsonResponse .ok p.toJson := by
  intro h
  have hchars := congrArg String.toList (compact_of_jsonResponse h).2
  rw [Json.compact, Json.compact, String.toList_ofList, String.toList_ofList, ApiError.toJson,
    Parameter.toJson, Parameter.members, Json.compactChars, Json.compactChars] at hchars
  have hthird : some 'e' = some 'n' := congrArg (fun cs : List Char => cs[2]?) hchars
  simp at hthird

private theorem errorResponse_ne_text (e : ApiError) (status : Status) (text : String) :
    errorResponse e ≠ textResponse status text := by
  intro h
  rw [errorResponse, jsonResponse, textResponse, Response.mk.injEq] at h
  have hne : ¬some (Utf8.encode Client.jsonType)
      = some (Utf8.encode "text/plain; charset=utf-8") := by decide +kernel
  exact hne h.2.1

/-! ### Calls -/

/-- A call on a registry. -/
inductive Call
  | get (n : ParameterName)
  | update (u : UpdateRequest)

namespace Call

def name : Call → ParameterName
  | get n => n
  | update u => u.name

/-- Makes a call with a client. -/
def make (c : Client) : Call → Remote Parameter
  | get n => c.get n
  | update u => c.update u

/-- The request of a call with a token, as it arrives. -/
def request (token : String) : Call → Request
  | get n => carrying token (getRequest n)
  | update u => carrying token (updateRequest u)

/-- The address that a call is sent to. -/
def url (port : UInt16) : Call → Url
  | get n => n.localUrl port
  | update u => updateUrl port u

/-- The body of a call is not too long to be looked at. -/
def Fits : Call → Prop
  | get _ => True
  | update u => ¬IsTooLong u

instance (call : Call) : Decidable call.Fits := by
  cases call with
  | get n => exact inferInstanceAs (Decidable True)
  | update u => exact inferInstanceAs (Decidable (¬_))

/-- What a registry makes of a call with the right token. -/
def granted (r : Registry) : Call → Except ApiError Parameter
  | get n => r.find n.display
  | update u => outcome r.parameters (received u)

/-- What a registry makes of a call. -/
def verdict (r : Registry) (token : String) (call : Call) : Except ApiError Parameter :=
  if isAuthorized (call.request token) then call.granted r else .error .unauthenticated

variable {port : UInt16} {r : Registry} {token : String} {call : Call} {e : ApiError}

/-! ### Verdicts -/

theorem verdict_authorized (h : isAuthorized (call.request token) = true) (r : Registry) :
    call.verdict r token = call.granted r := if_pos h

theorem verdict_unauthorized (h : ¬isAuthorized (call.request token) = true) (r : Registry) :
    call.verdict r token = .error .unauthenticated := if_neg h

/-- A call is rejected without the token, for what it is, or for its name. -/
theorem rejected_of_verdict (h : call.verdict r token = .error e) :
    e = .unauthenticated ∨ (∃ message, e = .invalidArgument message) ∨
      ∃ name, e = .unknownName name := by
  unfold verdict at h
  split at h
  · refine Or.inr ?_
    cases call with
    | get n =>
        simp only [granted, find] at h
        split at h
        · simp at h
        · exact Or.inr ⟨_, (Except.error.inj h).symm⟩
    | update u => exact (refused_of_outcome h).imp_right fun hname => ⟨_, hname⟩
  · exact Or.inl (Except.error.inj h).symm

theorem code_of_verdict (h : call.verdict r token = .error e) :
    e.code ∈ [400, 401, 404] ∧ e.status ≠ "" := by
  rcases rejected_of_verdict h with rfl | ⟨message, rfl⟩ | ⟨name, rfl⟩
  · exact ⟨by decide, by decide⟩
  · exact ⟨List.mem_cons_self, by simp [ApiError.invalidArgument]⟩
  · exact ⟨by simp [ApiError.unknownName], by simp [ApiError.unknownName]⟩

theorem refused_of_verdict (h : call.verdict r token = .error e) :
    (⟨e.code⟩ : Status) ∈ refusals := by
  have hall : ∀ code ∈ [400, 401, 404], (⟨code⟩ : Status) ∈ refusals := by decide
  exact hall _ (code_of_verdict h).1

/-- The client takes a verdict for what it is. -/
theorem ofResponse_verdict (path : String) :
    Client.ofResponse path (resultResponse (call.verdict r token))
      = (call.verdict r token).mapError (rejectionOf path) := by
  cases hverdict : call.verdict r token with
  | ok p => exact ofResponse_ok path p
  | error e =>
      exact ofResponse_errorResponse path (refused_of_verdict hverdict) (code_of_verdict hverdict).2

/-! ### Answers -/

/-- The route that a call takes. -/
def route : Call → Route
  | get n => .get n
  | update u => .update u.name

theorem ofRequest?_request (hname : call.name.IsPlain) (token : String) :
    Route.ofRequest? (call.request token) = some call.route := by
  cases call with
  | get n =>
      have hplain : n.IsPlain := hname
      rw [request, route_carrying, ofRequest?_get,
        nameOf?_plain (hplain.stripped_eq.symm ▸ hplain), hplain.stripped_eq]
      rfl
  | update u =>
      have hplain : u.name.IsPlain := hname
      rw [request, route_carrying, ofRequest?_update,
        nameOf?_plain (hplain.stripped_eq.symm ▸ hplain), hplain.stripped_eq]
      rfl

private theorem maskOf_request (u : UpdateRequest) (token : String) :
    maskOf ((update u).request token) = .ok (some u.mask.queryValue) := by
  rw [request, maskOf_carrying, maskOf_update]

private theorem jsonBody_request {u : UpdateRequest} (hfits : (update u).Fits) (token : String) :
    jsonBody ((update u).request token) = .ok (Json.ordered u.parameter.toJson) := by
  rw [request, jsonBody_carrying, jsonBody_update hfits]

private theorem updateOf_request {u : UpdateRequest} (hname : u.name.IsPlain)
    (hfits : (update u).Fits) (hauth : isAuthorized ((update u).request token) = true) :
    updateOf u.name ((update u).request token) = .ok (received u) := by
  have hreceived : ({ name := u.name.display, mask := some u.mask.queryValue
                      body := Json.ordered u.parameter.toJson } : ReceivedUpdate)
      = received u := by rw [received, hname.stripped_eq]
  rw [updateOf_of_ok (maskOf_request u token) (jsonBody_request hfits token), if_pos hauth,
    hreceived]

/-- **A registry answers a call with its verdict.** -/
theorem handle_request (hname : call.name.IsPlain) (hfits : call.Fits) (r : Registry)
    (token : String) :
    (r.handle (call.request token)).1 = resultResponse (call.verdict r token) := by
  have hroute := ofRequest?_request hname token
  by_cases hauth : isAuthorized (call.request token) = true
  · rw [verdict_authorized hauth]
    cases call with
    | get n =>
        rw [route] at hroute
        simp only [handle, hroute, if_pos hauth, granted]
    | update u =>
        rw [route] at hroute
        simp only [handle, hroute, updateOf_request hname hfits hauth, granted]
        rfl
  · rw [verdict_unauthorized hauth]
    cases call with
    | get n => exact handle_get_unauthorized (Bool.eq_false_iff.mpr hauth) hroute r
    | update u =>
        exact handle_update_unauthorized (Bool.eq_false_iff.mpr hauth) hroute
          (maskOf_request u token) (jsonBody_request hfits token) r

/-- A change that is too long is told so. -/
theorem handle_request_long (hname : call.name.IsPlain) (hlong : ¬call.Fits) (r : Registry)
    (token : String) :
    ∃ text, (r.handle (call.request token)).1 = textResponse .payloadTooLarge text := by
  have hroute := ofRequest?_request hname token
  cases call with
  | get n => exact absurd trivial hlong
  | update u =>
      obtain ⟨text, hbody⟩ := jsonBody_tooLong (Decidable.not_not.mp hlong)
      rw [← jsonBody_carrying token] at hbody
      rw [route] at hroute
      refine ⟨text, ?_⟩
      simp only [handle, hroute]
      rw [updateOf_of_body (maskOf_request u token) hbody]

/-- An answer that is a report is the verdict. -/
theorem verdict_of_errorResponse (hname : call.name.IsPlain)
    (h : (r.handle (call.request token)).1 = errorResponse e) : call.verdict r token = .error e := by
  by_cases hfits : call.Fits
  · rw [handle_request hname hfits] at h
    cases hverdict : call.verdict r token with
    | ok p =>
        rw [hverdict] at h
        exact absurd h.symm (errorResponse_ne_parameter e p)
    | error e' =>
        rw [hverdict] at h
        have hall : ∀ code ∈ [400, 401, 404], code < 2 ^ 16 := by decide
        have hsame : e' = e := errorResponse_injective (hall _ (code_of_verdict hverdict).1) h
        rw [hsame]
  · obtain ⟨text, htext⟩ := handle_request_long hname hfits r token
    rw [htext] at h
    exact absurd h.symm (errorResponse_ne_text e _ text)

/-- An answer that is a success is that of a parameter. -/
theorem verdict_of_success (hname : call.name.IsPlain)
    (h : (r.handle (call.request token)).1.status.isSuccess = true) :
    call.Fits ∧ ∃ p, call.verdict r token = .ok p := by
  by_cases hfits : call.Fits
  · refine ⟨hfits, ?_⟩
    rw [handle_request hname hfits] at h
    cases hverdict : call.verdict r token with
    | ok p => exact ⟨p, rfl⟩
    | error e =>
        rw [hverdict] at h
        have hall : ∀ s ∈ refusals, ¬s.isSuccess = true := by decide
        exact absurd h (hall _ (refused_of_verdict hverdict))
  · obtain ⟨text, htext⟩ := handle_request_long hname hfits r token
    rw [htext] at h
    exact absurd h Bool.false_ne_true

/-! ### Making calls -/

/-- A call is one request, if its address is not too long, and its answer is what is read. -/
theorem does_make (htoken : IsHeaderText token)
    (hshort : Message.isShort (call.url port) = true) (r : Registry) :
    Remote.Does (localParty port) (call.make (tokenClient port token)) r
      [⟨Url.localOrigin port, call.request token, some (r.handle (call.request token)).1⟩]
      (Client.ofResponse (Route.pathOf call.name.addressed) (r.handle (call.request token)).1)
      (r.handle (call.request token)).2 := by
  cases call with
  | get n => exact does_get htoken hshort r
  | update u => exact does_update htoken hshort r

theorem does_make_long (htoken : IsHeaderText token)
    (hlong : ¬Message.isShort (call.url port) = true) (r : Registry) :
    Remote.Does (localParty port) (call.make (tokenClient port token)) r [] (.error .transport) r := by
  cases call with
  | get n => exact does_get_long htoken hlong r
  | update u => exact does_update_long htoken hlong r

end Call

end ParameterManager.Registry
