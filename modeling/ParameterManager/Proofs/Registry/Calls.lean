/-
What a call to a registry on this machine comes to.

A call reaches the registry if the identifiers make up a whole path and nothing is too
long; then it reads or updates the entry of the name without what addresses leave out.
Otherwise it fails and nothing has happened.  Both calls are decided here by these two
cases, so nothing later has to look at an address, a query or a body again.
-/
import ParameterManager.Proofs.Registry.Local

namespace ParameterManager.Registry

variable {port : UInt16}

/-! ### Answers, as the client takes them -/

/-- The result that the client makes of what became of a request. -/
def resultOf (path : String) : Except ApiError Parameter → ClientResult Parameter
  | .ok p => .ok p
  | .error e => .error (.requestFailed (Client.refusal path (errorResponse e)))

theorem ofResponse_ok (path : String) (p : Parameter) :
    Client.ofResponse path (jsonResponse .ok p.toJson) = .ok p := by
  have hsuccess : (jsonResponse .ok p.toJson).status.isSuccess = true := rfl
  rw [Client.ofResponse, if_pos hsuccess, ofString_jsonResponse]

/-- A refusal is an error of the client. -/
theorem ofResponse_refused (path : String) {response : Response} (h : response.status ∈ refusals) :
    Client.ofResponse path response = .error (.requestFailed (Client.refusal path response)) := by
  have hall : ∀ s ∈ refusals, ¬s.isSuccess = true := by decide
  rw [Client.ofResponse, if_neg (hall _ h)]

private theorem ofResponse_result (path : String) {result : Except ApiError Parameter}
    (h : ∀ e, result = .error e → e.code = 400 ∨ e.code = 404) :
    Client.ofResponse path (resultResponse result) = resultOf path result := by
  cases result with
  | ok p => exact ofResponse_ok path p
  | error e => exact ofResponse_refused path (status_of_refusal (h e rfl))

/-! ### Requests, as the registry takes them -/

private theorem isAuthorized_token {q : Request}
    (h : q.authorization = [Message.bearer accessToken]) : isAuthorized q = true := by
  have htoken : trimmed (Message.bearer accessToken) = Message.bearer accessToken := by
    decide +kernel
  rw [isAuthorized, h]
  show (some (trimmed (Message.bearer accessToken)) == some (Message.bearer accessToken)) = true
  rw [htoken]
  exact beq_self_eq_true _

theorem maskOf_update (u : UpdateRequest) :
    maskOf (updateRequest u) = .ok (some u.mask.queryValue) := by
  have hquery : (Route.splitTarget (updateRequest u).target).2.getD "" = maskQuery u := by
    show (Route.splitTarget (Route.pathOf u.name.addressed ++ "?" ++ maskQuery u)).2.getD "" = _
    rw [maskQuery, splitTarget_form]
    rfl
  have hpairs : Form.decode (Utf8.encode (maskQuery u)) = [(Client.maskName, u.mask.queryValue)] :=
    Form.decode_encode _
  have hlookup : [(Client.maskName, u.mask.queryValue)].lookup Client.maskName
      = some u.mask.queryValue := by simp
  have honce : checkOnce [Client.maskName] [(Client.maskName, u.mask.queryValue)] = .ok () := by
    simp [checkOnce, duplicate?]
  simp only [maskOf, hquery, hpairs, honce, bind, Except.bind, hlookup]

/-- The body of a change is too long to be read. -/
def IsTooLong (u : UpdateRequest) : Prop := maxJson < (updateRequest u).body.length

instance (u : UpdateRequest) : Decidable (IsTooLong u) := inferInstanceAs (Decidable (_ < _))

private theorem isJson_update (u : UpdateRequest) :
    (mediaType? (updateRequest u)).any MediaType.isJson = true := by
  have htype : (MediaType.ofHeader? (trimmed (Utf8.encode Client.jsonType))).any MediaType.isJson
      = true := by decide +kernel
  exact htype

theorem jsonBody_update {u : UpdateRequest} (h : ¬IsTooLong u) :
    jsonBody (updateRequest u) = .ok (Json.ordered u.parameter.toJson) := by
  unfold IsTooLong at h
  have hread : Json.Wire.any.ofBytes (updateRequest u).body
      = .ok (Json.ordered u.parameter.toJson) := by
    rw [body_updateRequest]
    exact u.parameter.any_ofBytes_compact
  rw [jsonBody, isJson_update, Bool.not_true, if_neg Bool.false_ne_true, if_neg h, hread]

theorem jsonBody_tooLong {u : UpdateRequest} (h : IsTooLong u) :
    ∃ text, jsonBody (updateRequest u) = .error (textResponse .payloadTooLarge text) := by
  unfold IsTooLong at h
  rw [jsonBody, isJson_update, Bool.not_true, if_neg Bool.false_ne_true, if_pos h]
  exact ⟨_, rfl⟩

theorem parameters_receive (r : Registry) (u : ReceivedUpdate) :
    (r.receive u).2.parameters = apply r.parameters u := rfl

/-- The update that a change arrives as. -/
def received (u : UpdateRequest) : ReceivedUpdate where
  name := u.name.stripped.display
  mask := some u.mask.queryValue
  body := Json.ordered u.parameter.toJson

private theorem updateOf_update {u : UpdateRequest} (h : ¬IsTooLong u) :
    updateOf u.name.stripped (updateRequest u) = .ok (received u) :=
  updateOf_eq_ok.mpr ⟨_, _, maskOf_update u, jsonBody_update h, isAuthorized_token rfl, rfl⟩

private theorem updateOf_tooLong {u : UpdateRequest} (h : IsTooLong u) (n : ParameterName) :
    ∃ response, updateOf n (updateRequest u) = .error response := by
  obtain ⟨text, hbody⟩ := jsonBody_tooLong h
  cases hupdate : updateOf n (updateRequest u) with
  | error response => exact ⟨response, rfl⟩
  | ok v =>
      obtain ⟨_, _, _, hok, -⟩ := updateOf_eq_ok.mp hupdate
      rw [hbody] at hok
      simp at hok

/-! ### Routes -/

theorem nameOf?_plain {n : ParameterName} (h : n.stripped.IsPlain) :
    Route.nameOf? (Route.pathOf n.addressed) = some n.stripped :=
  ParameterName.nameOf?_addressed.mpr ⟨rfl, h⟩

private theorem nameOf?_not_plain {n : ParameterName} (h : ¬n.stripped.IsPlain) :
    Route.nameOf? (Route.pathOf n.addressed) = none := by
  cases hname : Route.nameOf? (Route.pathOf n.addressed) with
  | none => rfl
  | some m => exact absurd (ParameterName.nameOf?_addressed.mp hname).2 h

private theorem handle_nowhere {q : Request} (h : Route.ofRequest? q = none) (r : Registry) :
    r.handle q = (.empty .notFound, r) := by
  unfold handle
  rw [h]

private theorem notFound_refused : (Response.empty .notFound).status ∈ refusals := by decide

/-! ### Reads -/

/-- **A read that reaches the registry shows the entry of the stripped name.** -/
theorem run_get_reaching {n : ParameterName} (hplain : n.stripped.IsPlain)
    (hshort : Message.isShort (n.localUrl port) = true) (r : Registry) :
    Remote.run (localParty port) ((localClient port).get n) r
      = (resultOf (Route.pathOf n.addressed) (r.find n.stripped.display), r) := by
  have hroute : Route.ofRequest? (getRequest n) = some (.get n.stripped) := by
    rw [ofRequest?_get, nameOf?_plain hplain]
    rfl
  have hhandle : r.handle (getRequest n) = (resultResponse (r.find n.stripped.display), r) := by
    unfold handle
    rw [hroute]
    exact if_pos (isAuthorized_token rfl)
  rw [run_get, if_pos hshort, hhandle, ofResponse_result]
  intro e he
  unfold find at he
  split at he
  · simp at he
  · obtain rfl := Except.error.inj he
    exact Or.inr rfl

/-- A read that does not reach the registry fails. -/
theorem run_get_failing {n : ParameterName}
    (h : ¬(n.stripped.IsPlain ∧ Message.isShort (n.localUrl port) = true)) (r : Registry) :
    ∃ e, Remote.run (localParty port) ((localClient port).get n) r = (.error e, r) := by
  rw [run_get]
  by_cases hshort : Message.isShort (n.localUrl port) = true
  · have hroute : Route.ofRequest? (getRequest n) = none := by
      rw [ofRequest?_get, nameOf?_not_plain fun hplain => h ⟨hplain, hshort⟩]
      rfl
    rw [if_pos hshort, handle_nowhere hroute, ofResponse_refused _ notFound_refused]
    exact ⟨_, rfl⟩
  · rw [if_neg hshort]
    exact ⟨_, rfl⟩

/-! ### Changes -/

/-- A change reaches the registry: its identifiers make up a whole path, and neither its
address nor its body is too long. -/
structure Reaches (port : UInt16) (u : UpdateRequest) : Prop where
  plain : u.name.stripped.IsPlain
  short : Message.isShort (updateUrl port u) = true
  fits : ¬IsTooLong u

/-- **A change that reaches the registry is received as an update of the stripped name.** -/
theorem run_update_reaching {u : UpdateRequest} (h : Reaches port u) (r : Registry) :
    Remote.run (localParty port) ((localClient port).update u) r
      = (resultOf (Route.pathOf u.name.addressed) (outcome r.parameters (received u)),
        (r.receive (received u)).2) := by
  have hroute : Route.ofRequest? (updateRequest u) = some (.update u.name.stripped) := by
    rw [ofRequest?_update, nameOf?_plain h.plain]
    rfl
  have hhandle : r.handle (updateRequest u)
      = (resultResponse (outcome r.parameters (received u)), (r.receive (received u)).2) := by
    unfold handle
    rw [hroute]
    simp only [updateOf_update h.fits]
    rfl
  rw [run_update, if_pos h.short, hhandle, ofResponse_result]
  exact fun e => code_of_outcome

/-- A change that does not reach the registry fails, and leaves no trace. -/
theorem run_update_failing {u : UpdateRequest} (h : ¬Reaches port u) (r : Registry) :
    ∃ e, Remote.run (localParty port) ((localClient port).update u) r = (.error e, r) := by
  rw [run_update]
  by_cases hshort : Message.isShort (updateUrl port u) = true
  · rw [if_pos hshort]
    by_cases hplain : u.name.stripped.IsPlain
    · have hlong : IsTooLong u := Decidable.byContradiction fun hfits => h ⟨hplain, hshort, hfits⟩
      obtain ⟨response, hresponse⟩ := updateOf_tooLong hlong u.name.stripped
      have hroute : Route.ofRequest? (updateRequest u) = some (.update u.name.stripped) := by
        rw [ofRequest?_update, nameOf?_plain hplain]
        rfl
      have hhandle : r.handle (updateRequest u) = (response, r) := by
        unfold handle
        rw [hroute]
        simp only [hresponse]
      rw [hhandle, ofResponse_refused _ (status_of_updateOf hresponse)]
      exact ⟨_, rfl⟩
    · have hroute : Route.ofRequest? (updateRequest u) = none := by
        rw [ofRequest?_update, nameOf?_not_plain hplain]
        rfl
      rw [handle_nowhere hroute, ofResponse_refused _ notFound_refused]
      exact ⟨_, rfl⟩
  · rw [if_neg hshort]
    exact ⟨_, rfl⟩

end ParameterManager.Registry
