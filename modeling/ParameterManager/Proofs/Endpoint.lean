/-
What is found out of an endpoint when a client is made, and what only when it is called.

A client is made if its endpoint is an address.  What is asked later are addresses below that
of the endpoint, and there are two kinds of endpoints without any: those whose path cannot be
extended, and those whose authority is spoilt by what is put after it.  Each has an error of
its own, and a call comes to it if and only if the endpoint is of that kind; the name that is
asked for plays no part.
-/
import ParameterManager.Proofs.Credential
import ParameterManager.Proofs.Url.Interface

namespace ParameterManager.Client

variable {α σ : Type} {party : Exchange.Party σ} {conf : ClientConf} {files : FileTree}
  {now : Nat} {s s' : σ} {c : Client} {serverUrl : String}

/-- A result has an error of an endpoint exactly where the endpoint has it. -/
structure Blames (serverUrl : String) (result : ClientResult α) : Prop where
  configuration : (∃ text, result = .error (.configuration text)) ↔
    Url.HasOpaqueInterface serverUrl
  url : (∃ e, result = .error (.url e)) ↔ Url.HasSpoiltAuthority serverUrl

/-- There are addresses below an endpoint. -/
def IsUsable (serverUrl : String) : Prop :=
  ¬Url.HasOpaqueInterface serverUrl ∧ ¬Url.HasSpoiltAuthority serverUrl

/-! ### Addresses -/

/-- An address below an endpoint is got, or what keeps it from being got is the endpoint. -/
inductive IsResource (serverUrl : String) : ClientResult Url → Prop
  | usable {u : Url} (h : IsUsable serverUrl) : IsResource serverUrl (.ok u)
  | opaquePath (h : Url.HasOpaqueInterface serverUrl) :
      IsResource serverUrl (.error (.configuration s!"{serverUrl} cannot be used as a base URL"))
  | spoilt {e : UrlError} (h : Url.HasSpoiltAuthority serverUrl) :
      IsResource serverUrl (.error (.url e))

/-- **What comes of an address below an endpoint follows from the endpoint.** -/
theorem isResource (h : ∃ u, Url.parse serverUrl = .ok u) (n : ParameterName) :
    IsResource serverUrl (resource serverUrl n) := by
  have hinterface := Url.parse_interface h
  unfold resource
  cases hparse : Url.parse (serverUrl ++ "/" ++ apiVersion) with
  | error e =>
      rw [hparse] at hinterface
      have hspoilt : Url.HasSpoiltAuthority serverUrl :=
        Classical.not_not.mp fun hfit => by simpa using hinterface.mpr hfit
      exact .spoilt hspoilt
  | ok u =>
      have hpath := Url.path_interface hparse h
      have hfit := hinterface.mp ⟨u, hparse⟩
      have hmade : (Except.ok u : Except UrlError Url).mapError ClientError.url = .ok u := rfl
      rw [hmade]
      dsimp only [bind, Except.bind]
      unfold Url.extend?
      cases hu : u.path with
      | opaqueText text => exact .opaquePath (hpath.mp ⟨text, hu⟩)
      | segments list =>
          have hopen : ¬Url.HasOpaqueInterface serverUrl := by
            rw [← hpath, hu]
            simp
          exact .usable ⟨hopen, hfit⟩

theorem IsResource.map {result : ClientResult Url} (h : IsResource serverUrl result)
    (f : Url → Url) : IsResource serverUrl (result.map f) := by
  cases h with
  | usable h => exact .usable h
  | opaquePath h => exact .opaquePath h
  | spoilt h => exact .spoilt h

theorem IsResource.ok_iff {result : ClientResult Url} (h : IsResource serverUrl result) :
    (∃ u, result = .ok u) ↔ IsUsable serverUrl := by
  cases h with
  | usable h => simp [h]
  | opaquePath h => exact iff_of_false (by simp) fun husable => husable.1 h
  | spoilt h => exact iff_of_false (by simp) fun husable => husable.2 h

/-! ### Calls -/

/-- Whatever else goes wrong below a usable endpoint is not put down to it. -/
theorem Blames.of_usable {result : ClientResult α} (h : IsUsable serverUrl)
    (hother : ∀ e, result = .error e → (∀ text, e ≠ .configuration text) ∧ ∀ u, e ≠ .url u) :
    Blames serverUrl result where
  configuration := by
    refine iff_of_false ?_ h.1
    rintro ⟨text, htext⟩
    exact (hother _ htext).1 text rfl
  url := by
    refine iff_of_false ?_ h.2
    rintro ⟨u, hu⟩
    exact (hother _ hu).2 u rfl

private theorem ofResponse_error {path : String} {r : Response} {e : ClientError}
    (h : ofResponse path r = .error e) :
    (∀ text, e ≠ .configuration text) ∧ ∀ u, e ≠ .url u := by
  unfold ofResponse at h
  split at h
  · split at h
    · simp at h
    · rw [← Except.error.inj h]
      simp
  · rw [← Except.error.inj h]
    simp

/-- A call has an error of the endpoint if its address has one. -/
theorem blames_call {result : ClientResult Url} (h : IsResource serverUrl result)
    (message : Url → Message) (s : σ) :
    Blames serverUrl (Remote.run party (do
      let u ← Remote.ofResult result
      let response ← (message u).send
      Remote.ofResult (ofResponse u.pathText response)) s).1 := by
  rw [Remote.run_bind, Remote.run_ofResult]
  cases h with
  | opaquePath h => exact ⟨by simp [h], by simp [h.not_spoilt]⟩
  | spoilt h => exact ⟨by simpa using fun hpath => hpath.not_spoilt h, by simp [h]⟩
  | @usable u h =>
      refine .of_usable h fun e he => ?_
      simp only [Remote.run_bind] at he
      rcases hsend : Remote.run party (message u).send s with ⟨e' | response, s'⟩
      · rw [hsend] at he
        have htransport := Message.run_send_error (congrArg Prod.fst hsend)
        obtain rfl : e' = e := Except.error.inj he
        rw [htransport]
        simp
      · rw [hsend] at he
        exact ofResponse_error he

/-! ### Making a client -/

/-- A client is made for an endpoint that is an address, without the slashes at its end. -/
theorem run_ofConf_ok (h : Remote.run party (ofConf conf files now) s = (.ok c, s')) :
    conf.HasEndpoint ∧ c.serverUrl = dropSlashes conf.url := by
  cases hparse : Url.parse (dropSlashes conf.url) with
  | error e =>
      have hunready : conf.IsUnready files now (.url e) := .endpoint hparse
      have hnone := h.symm.trans (ClientConf.does_ofConf_unready hunready s).run
      simp at hnone
  | ok u =>
      have haddress : conf.HasEndpoint := ⟨u, hparse⟩
      refine ⟨haddress, ?_⟩
      rw [ClientConf.ofConf_eq haddress, Remote.run_bind] at h
      split at h
      · rw [Remote.run_pure] at h
        obtain rfl := Except.ok.inj (congrArg Prod.fst h)
        rfl
      · simp at h

/-- What becomes of all that is asked of a client. -/
structure Follows (serverUrl : String) (c : Client) : Prop where
  resource : ∀ n, (∃ u, Client.resource c.serverUrl n = .ok u) ↔ IsUsable serverUrl
  maskedResource : ∀ r, (∃ u, Client.maskedResource c.serverUrl r = .ok u) ↔ IsUsable serverUrl
  get : ∀ {σ : Type} (party : Exchange.Party σ) (s : σ) (n : ParameterName),
    Blames serverUrl (Remote.run party (c.get n) s).1
  update : ∀ {σ : Type} (party : Exchange.Party σ) (s : σ) (r : UpdateRequest),
    Blames serverUrl (Remote.run party (c.update r) s).1

/-- **What is not found out of an endpoint when a client is made.** -/
theorem calls_follow_endpoint (h : Remote.run party (ofConf conf files now) s = (.ok c, s')) :
    Follows (dropSlashes conf.url) c := by
  obtain ⟨haddress, hurl⟩ := run_ofConf_ok h
  have hresource := isResource haddress
  constructor
  · intro n
    rw [hurl]
    exact (hresource n).ok_iff
  · intro r
    rw [hurl]
    exact ((hresource r.name).map _).ok_iff
  · intro σ party s n
    unfold get
    rw [hurl]
    exact blames_call (hresource n) c.getMessage s
  · intro σ party s r
    unfold update
    rw [hurl]
    exact blames_call ((hresource r.name).map _) (fun u => c.updateMessage u r) s

/-- The address of a mailbox makes a client, and what is asked of it fails for the endpoint. -/
theorem mailbox_found_out_late :
    let conf : ClientConf := { url := "mailto:x", accessToken := some "token" }
    let client : Client := ⟨"mailto:x", "token"⟩
    let script : Script := ⟨[], []⟩
    Remote.run Script.answer (ofConf conf { entries := [], start := [] } 0) script
      = (.ok client, script) ∧
    ∃ text, (Remote.run Script.answer (client.get (.global "project" "parameter")) script).1
      = .error (.configuration text) := by
  intro conf client script
  have hurl : dropSlashes conf.url = "mailto:x" := by decide
  have hscheme : Url.splitScheme? (Url.clean "mailto:x") = some ("mailto", ['x']) := by decide
  have haddress : conf.HasEndpoint := by
    unfold ClientConf.HasEndpoint Url.parse
    rw [hurl, hscheme]
    exact (Url.parseScheme_other (by decide)).mpr (by simp)
  have hmade : Remote.run Script.answer (ofConf conf { entries := [], start := [] } 0) script
      = (.ok client, script) := by
    rw [ClientConf.ofConf_of_hasToken ⟨haddress, rfl⟩, Remote.run_pure, ClientConf.client, hurl]
  have hcalls :=
    (calls_follow_endpoint hmade).get Script.answer script (.global "project" "parameter")
  rw [hurl] at hcalls
  exact ⟨hmade, hcalls.configuration.mpr (by decide)⟩

end ParameterManager.Client
