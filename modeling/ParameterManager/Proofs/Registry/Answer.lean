/-
What a registry can answer, and what it can do.

A request is read, or it grants a token, or it is refused, or it writes: `Step` lists the
four cases with everything that is known in each of them.  A request that is answered
with a success on the path of a parameter was a read or a write, and the answer is the
parameter; all other requests leave the parameters alone.
-/
import ParameterManager.Proofs.Parameter
import ParameterManager.Proofs.Registry.Patch
import ParameterManager.Registry.Handler

namespace ParameterManager.Registry

/-! ### Responses that are read back -/

private theorem named?_jsonType : Charset.named? (some (Utf8.encode Client.jsonType)) = none := by
  decide +kernel

private theorem marked?_brace (bs : Bytes) : Charset.marked? (0x7B :: bs) = none := rfl

/-- The text of a response with an object is the compact form of the object. -/
theorem text_jsonResponse {status : Status} (h : status.isBodiless = false)
    (members : List (String × Json)) :
    (jsonResponse status (.object members)).text = (Json.object members).compact := by
  have hbrace : ∃ cs, Json.compactChars (.object members) = '{' :: cs := by
    cases members with
    | nil => exact ⟨['}'], by rw [Json.compactChars]⟩
    | cons m members => exact ⟨_, by rw [Json.compactChars]; rfl⟩
  obtain ⟨cs, hcs⟩ := hbrace
  have hbody : (jsonResponse status (.object members)).body = 0x7B :: Utf8.encodeChars cs := by
    show Utf8.encodeChars (String.ofList (Json.compactChars (.object members))).toList = _
    rw [String.toList_ofList, hcs]
    rfl
  have hcontent : (jsonResponse status (.object members)).content
      = (jsonResponse status (.object members)).body := by
    show (if status.isBodiless then [] else _) = _
    rw [h]
    rfl
  rw [Response.text, hcontent, Charset.textOf, hbody, marked?_brace]
  show ((Charset.named? (some (Utf8.encode Client.jsonType))).getD .utf8).decode _ = _
  rw [named?_jsonType, ← hbody]
  exact Utf8.lossy_encode _

/-- **A response with a parameter is read as that parameter.** -/
theorem ofString_jsonResponse (p : Parameter) :
    Parameter.wire.ofString (jsonResponse .ok p.toJson).text = .ok p := by
  rw [Parameter.toJson, text_jsonResponse rfl]
  exact p.ofString_compact

/-! ### Updates that requests carry -/

/-- The update that a request carries, whether the request is accepted or not, and the
parameter in its body. -/
def carried? (q : Request) : Option (ReceivedUpdate × Parameter) :=
  match Route.ofRequest? q, maskOf q, jsonBody q with
  | some (.update n), .ok mask, .ok body =>
    match Parameter.wire.ofValue body with
    | .ok delta => some ({ name := n.display, mask, body }, delta)
    | .error _ => none
  | _, _, _ => none

private theorem updateOf_of_mask {n : ParameterName} {q : Request} {cause : Json.Cause}
    (h : maskOf q = .error cause) :
    ∃ text, updateOf n q = .error (textResponse .badRequest text) := by
  refine ⟨s!"Query deserialize error: {cause.message}", ?_⟩
  rw [updateOf, h]
  rfl

theorem updateOf_of_body {n : ParameterName} {q : Request} {mask : Option String}
    {response : Response} (h : maskOf q = .ok mask) (hbody : jsonBody q = .error response) :
    updateOf n q = .error response := by
  rw [updateOf, h, hbody]
  rfl

theorem updateOf_of_ok {n : ParameterName} {q : Request} {mask : Option String}
    {body : Json} (h : maskOf q = .ok mask) (hbody : jsonBody q = .ok body) :
    updateOf n q = if isAuthorized q then .ok { name := n.display, mask, body }
      else .error (errorResponse .unauthenticated) := by
  rw [updateOf, h, hbody]
  rfl

theorem updateOf_eq_ok {n : ParameterName} {q : Request} {u : ReceivedUpdate} :
    updateOf n q = .ok u ↔ ∃ mask body, maskOf q = .ok mask ∧ jsonBody q = .ok body ∧
      isAuthorized q = true ∧ u = { name := n.display, mask, body } := by
  cases hmask : maskOf q with
  | error cause =>
      obtain ⟨text, h⟩ := updateOf_of_mask hmask (n := n)
      simp [h]
  | ok mask =>
      cases hbody : jsonBody q with
      | error response => simp [updateOf_of_body hmask hbody]
      | ok body =>
          rw [updateOf_of_ok hmask hbody]
          by_cases hauth : isAuthorized q = true
          · simp [hauth, eq_comm]
          · simp [hauth]

def refusals : List Status := [.badRequest, .unauthorized, .notFound, .payloadTooLarge]

private theorem status_textResponse {status : Status} (h : status ∈ refusals) (text : String) :
    (textResponse status text).status ∈ refusals := h

private theorem status_of_jsonBody {q : Request} {response : Response}
    (h : jsonBody q = .error response) : response.status ∈ refusals := by
  unfold jsonBody at h
  split at h
  · obtain rfl := Except.error.inj h
    exact status_textResponse (by decide) _
  split at h
  · obtain rfl := Except.error.inj h
    exact status_textResponse (by decide) _
  split at h
  · simp at h
  · obtain rfl := Except.error.inj h
    exact status_textResponse (by decide) _

theorem status_of_updateOf {n : ParameterName} {q : Request} {response : Response}
    (h : updateOf n q = .error response) : response.status ∈ refusals := by
  cases hmask : maskOf q with
  | error cause =>
      obtain ⟨text, hupdate⟩ := updateOf_of_mask hmask (n := n)
      obtain rfl := Except.error.inj (hupdate.symm.trans h)
      exact status_textResponse (by decide) _
  | ok mask =>
      cases hbody : jsonBody q with
      | error response' =>
          obtain rfl := Except.error.inj ((updateOf_of_body hmask hbody).symm.trans h)
          exact status_of_jsonBody hbody
      | ok body =>
          rw [updateOf_of_ok hmask hbody] at h
          split at h
          · simp at h
          · obtain rfl := Except.error.inj h
            decide

/-! ### Steps -/

/-- What a request may come to: its response, and the registry after it. -/
inductive Step (r : Registry) (q : Request) : Response × Registry → Prop
  /-- The parameter of the name is shown. -/
  | read {n : ParameterName} {p : Parameter} : Route.ofRequest? q = some (.get n) →
    isAuthorized q = true → r.parameters.get? n.display = some p →
    Step r q (jsonResponse .ok p.toJson, r)
  /-- A token is asked for. -/
  | token : Route.ofRequest? q = some .token → Step r q (grant q, r)
  /-- Nothing comes of it. -/
  | refused {response : Response} {r' : Registry} : response.status ∈ refusals →
    r'.parameters = r.parameters → Step r q (response, r')
  /-- The parameter of the name is patched and shown. -/
  | written {n : ParameterName} {u : ReceivedUpdate} {delta stored p : Parameter} :
    Route.ofRequest? q = some (.update n) → isAuthorized q = true → carried? q = some (u, delta) →
    u.name = n.display → u.paths ≠ [] → r.parameters.get? n.display = some stored →
    IsPatched delta stored u.paths p →
    Step r q (jsonResponse .ok p.toJson,
      { parameters := r.parameters.insert n.display p, updates := r.updates ++ [u] })

theorem status_of_refusal {e : ApiError} (h : e.code = 400 ∨ e.code = 404) :
    (resultResponse (.error e)).status ∈ refusals := by
  show (⟨e.code⟩ : Status) ∈ refusals
  rcases h with h | h
  · rw [h]
    decide
  · rw [h]
    decide

/-- **A registry does one of these steps for every request.** -/
theorem handle_step (r : Registry) (q : Request) : Step r q (r.handle q) := by
  unfold handle
  split
  · exact .refused (by decide) rfl
  · next hroute => exact .token hroute
  · next n hroute =>
    by_cases hauth : isAuthorized q = true
    · rw [if_pos hauth]
      unfold find
      split
      · next p hp => exact .read hroute hauth hp
      · exact .refused (status_of_refusal (Or.inr rfl)) rfl
    · rw [if_neg hauth]
      exact .refused (by decide) rfl
  · next n hroute =>
    split
    · next response h => exact .refused (status_of_updateOf h) rfl
    · next u h =>
      obtain ⟨mask, body, hmask, hbody, hauth, hu⟩ := updateOf_eq_ok.mp h
      show Step r q (resultResponse (outcome r.parameters u), _)
      cases hout : outcome r.parameters u with
      | error e =>
          refine .refused (status_of_refusal (code_of_outcome hout)) ?_
          show apply r.parameters u = r.parameters
          rw [apply, hout]
      | ok p =>
          obtain ⟨delta, stored, hdelta, hpaths, hstored, hpatch⟩ := outcome_eq_ok.mp hout
          have hname : u.name = n.display := by rw [hu]
          have hcarried : carried? q = some (u, delta) := by
            have hdelta' : Parameter.wire.ofValue body = .ok delta := by rw [← hdelta, hu]
            simp only [carried?, hroute, hmask, hbody, hdelta', hu]
          have happly : apply r.parameters u = r.parameters.insert n.display p := by
            rw [apply, hout, hname]
          rw [happly]
          exact .written hroute hauth hcarried hname hpaths (hname ▸ hstored)
            (isPatched_of_patch hpatch)

end ParameterManager.Registry
