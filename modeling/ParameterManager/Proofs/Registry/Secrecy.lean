/-
What a request without the token learns, and what it does.

It learns what it could have known before, and it does nothing: its response depends on the
request alone, whatever the registry holds, and the registry is afterwards what it was.  Where
a request leads, and whether its query and its body can be read, is found out before the token
is looked at, so this is not to be seen from the check of the token alone.

A request that does nothing can be left out.  So whatever comes later is answered as if it had
not been made, which is the same thing said of whole runs.
-/
import ParameterManager.Proofs.Registry.History

namespace ParameterManager.Registry

/-! ### One request -/

theorem isAuthorized_eq_false {q : Request}
    (h : q.authorization.head?.map trimmed ≠ some (Message.bearer accessToken)) :
    isAuthorized q = false := by
  simpa [isAuthorized] using h

/-- A request without the token asks for no update, however its query and its body are read. -/
theorem updateOf_unauthorized {q : Request} (h : isAuthorized q = false) (n : ParameterName) :
    ∃ response, updateOf n q = .error response := by
  cases hupdate : updateOf n q with
  | error response => exact ⟨response, rfl⟩
  | ok u =>
      obtain ⟨_, _, _, _, hauth, _⟩ := updateOf_eq_ok.mp hupdate
      rw [h] at hauth
      simp at hauth

/-- **The response to a request without the token is the same in all states**, and each state
stays as it is. -/
theorem handle_unauthorized {q : Request} (h : isAuthorized q = false) :
    ∃ response, ∀ r : Registry, r.handle q = (response, r) := by
  cases hroute : Route.ofRequest? q with
  | none => exact ⟨.empty .notFound, fun r => by simp only [handle, hroute]⟩
  | some route =>
      cases route with
      | token => exact ⟨grant q, fun r => by simp only [handle, hroute]⟩
      | get n =>
          refine ⟨errorResponse .unauthenticated, ?_⟩
          intro r
          simp [handle, hroute, h]
      | update n =>
          obtain ⟨response, hupdate⟩ := updateOf_unauthorized h n
          exact ⟨response, fun r => by simp only [handle, hroute, hupdate]⟩

/-- A request for a parameter is told no more than that it has no token. -/
theorem handle_get_unauthorized {q : Request} (h : isAuthorized q = false) {n : ParameterName}
    (hroute : Route.ofRequest? q = some (.get n)) (r : Registry) :
    (r.handle q).1 = errorResponse .unauthenticated := by
  simp [handle, hroute, h]

/-- So is a change that can be read. -/
theorem handle_update_unauthorized {q : Request} (h : isAuthorized q = false) {n : ParameterName}
    {mask : Option String} {body : Json} (hroute : Route.ofRequest? q = some (.update n))
    (hmask : maskOf q = .ok mask) (hbody : jsonBody q = .ok body) (r : Registry) :
    (r.handle q).1 = errorResponse .unauthenticated := by
  have hupdate : updateOf n q = .error (errorResponse .unauthenticated) := by
    rw [updateOf, hmask, hbody, h]
    rfl
  simp only [handle, hroute, hupdate]

/-! ### Runs -/

namespace History

/-- Two histories of one registry are continued alike. -/
theorem foldl_serve_congr {h h' : History} (hsame : h.registry = h'.registry)
    (later : List Request) :
    (later.foldl serve h).registry = (later.foldl serve h').registry ∧
      ∃ answered, (later.foldl serve h).log = answered ++ h.log ∧
        (later.foldl serve h').log = answered ++ h'.log := by
  induction later generalizing h h' with
  | nil => exact ⟨hsame, [], rfl, rfl⟩
  | cons q later ih =>
      have hnext : (h.serve q).registry = (h'.serve q).registry := by
        simp only [serve, hsame]
      obtain ⟨hregistry, answered, hlog, hlog'⟩ := ih hnext
      refine ⟨hregistry, answered ++ [⟨q, (h.registry.handle q).1⟩], ?_, ?_⟩
      · rw [List.foldl_cons, hlog]
        simp [serve]
      · rw [List.foldl_cons, hlog']
        simp [serve, hsame]

end History

/-- **A request without the token reveals nothing and changes nothing.**

Its response is the same in every two states, and each of them is left exactly as it was, the
log of updates included.  On the path of a parameter it is told that it has no token, whether
there is such a parameter or not.  And so it can be left out of any run: what comes after it
ends in the same registry, and has the same answers. -/
theorem unauthorized_reveals_nothing {q : Request}
    (h : q.authorization.head?.map trimmed ≠ some (Message.bearer accessToken)) :
    (∀ r r' : Registry,
      (r.handle q).1 = (r'.handle q).1 ∧ (r.handle q).2 = r ∧ (r'.handle q).2 = r') ∧
    (∀ n (r : Registry), Route.ofRequest? q = some (.get n) →
      (r.handle q).1 = errorResponse .unauthenticated) ∧
    (∀ n mask body (r : Registry), Route.ofRequest? q = some (.update n) →
      maskOf q = .ok mask → jsonBody q = .ok body →
      (r.handle q).1 = errorResponse .unauthenticated) ∧
    ∀ (past : History) (later : List Request), ∃ answered response,
      (later.foldl History.serve (past.serve q)).registry
        = (later.foldl History.serve past).registry ∧
      (later.foldl History.serve past).log = answered ++ past.log ∧
      (later.foldl History.serve (past.serve q)).log = answered ++ ⟨q, response⟩ :: past.log := by
  have hauth := isAuthorized_eq_false h
  obtain ⟨response, hresponse⟩ := handle_unauthorized hauth
  refine ⟨?_, ?_, ?_, ?_⟩
  · intro r r'
    simp [hresponse]
  · intro n r hroute
    exact handle_get_unauthorized hauth hroute r
  · intro n mask body r hroute hmask hbody
    exact handle_update_unauthorized hauth hroute hmask hbody r
  · intro past later
    have hsame : (past.serve q).registry = past.registry := by simp [History.serve, hresponse]
    obtain ⟨hregistry, answered, hlog, hlog'⟩ := History.foldl_serve_congr hsame later
    refine ⟨answered, response, hregistry, hlog', ?_⟩
    rw [hlog]
    simp [History.serve, hresponse]

/-- A change with the token in its second header only is refused alike by a registry that holds
the parameter and by one that does not. -/
theorem second_header_refused :
    let stored : Parameter := { name := "projects/p/locations/global/parameters/db" }
    let q : Request := {
      method := "PATCH"
      target := "/v1/projects/p/locations/global/parameters/db?updateMask=kmsKey"
      authorization := [Utf8.encode "Basic dTpw", Message.bearer accessToken]
      contentType := [Utf8.encode Client.jsonType]
      body := Utf8.encode "\x7b\"name\":\"\",\"kmsKey\":\"k\"\x7d" }
    q.authorization.head?.map trimmed ≠ some (Message.bearer accessToken) ∧
      ((ofList [stored]).handle q).1 = ((ofList []).handle q).1 ∧
      ((ofList [stored]).handle q).2 = ofList [stored] ∧ ((ofList []).handle q).2 = ofList [] := by
  intro stored q
  have hheader : q.authorization.head?.map trimmed ≠ some (Message.bearer accessToken) := by
    decide +kernel
  exact ⟨hheader, (unauthorized_reveals_nothing hheader).1 _ _⟩

end ParameterManager.Registry
