/-
A client and a registry on the same machine.

A call of the client is one request, which the registry answers and never sends on.  So a
call comes to one step of the registry, unless the address is too long to be sent, and
then it comes to nothing.  What the request looks like when it arrives is computed here:
its route, its mask, its body and its token, which may be any that a header can hold.
-/
import ParameterManager.Proofs.Http.Header
import ParameterManager.Proofs.Http.Sent
import ParameterManager.Proofs.Http.Uri
import ParameterManager.Proofs.Registry.Answer
import ParameterManager.Proofs.Registry.Reach

namespace ParameterManager

/-- The address of a parameter of a registry on this machine. -/
def ParameterName.localUrl (port : UInt16) (n : ParameterName) : Url :=
  Url.localUrl port (n.addressed.map Url.written)

namespace Registry

/-- A client of a registry on this machine, with some token. -/
def tokenClient (port : UInt16) (token : String) : Client := ⟨Url.localText port, token⟩

/-- A client of a registry on this machine, with the token that the registry accepts. -/
def localClient (port : UInt16) : Client := ⟨Url.localText port, accessToken⟩

/-- A registry that is reached on this machine, at one port. -/
def localParty (port : UInt16) : Exchange.Party Registry := .located (Url.localOrigin port) party

variable {port : UInt16}

/-! ### Addresses -/

/-- The address of a parameter is found. -/
theorem resource_local (n : ParameterName) :
    Client.resource (Url.localText port) n = .ok (n.localUrl port) := by
  have hwritten : ["v1"].map Url.written = ["v1"] := by decide
  have hpath := Url.foldl_pushSegment_written n.segments ["v1"]
  rw [hwritten] at hpath
  have hextend : (Url.localUrl port ["v1"]).extend? n.segments = some (n.localUrl port) := by
    show some ({ Url.localUrl port ["v1"] with
      path := .segments (n.segments.foldl Url.pushSegment ["v1"]) } : Url) = _
    rw [hpath]
    rfl
  have hbase : (Url.parse (Url.localText port ++ "/" ++ Client.apiVersion)).mapError ClientError.url
      = .ok (Url.localUrl port ["v1"]) := by
    rw [Url.parse_localText_version]
    rfl
  simp only [Client.resource, hbase, bind, Except.bind, hextend]

/-- A target of a path, and of the pairs of a query if there are any, is looked at whole. -/
private theorem takeWhile_pathOf (names : List String) {tail : List Char}
    (htail : ∀ c ∈ tail, c ≠ '#') :
    ((Route.pathOf names).toList ++ tail).takeWhile (· ≠ '#') = (Route.pathOf names).toList ++ tail := by
  have hpath : ∀ c ∈ (Route.pathOf names).toList, decide (c ≠ '#') = true :=
    fun c hc => decide_eq_true fun h => absurd (Uri.isPathChar_of_written (h ▸ hc)) (by decide)
  have hwhole : tail.takeWhile (· ≠ '#') = tail := by
    induction tail with
    | nil => rfl
    | cons c tail ih =>
        rw [List.takeWhile_cons_of_pos (by simpa using htail c List.mem_cons_self),
          ih fun d hd => htail d (List.mem_cons_of_mem _ hd)]
  rw [List.takeWhile_append_of_pos hpath, hwhole]

private theorem ne_question_of_mem {names : List String} :
    ∀ c ∈ (Route.pathOf names).toList, decide (c ≠ '?') = true :=
  fun _ hc => decide_eq_true fun h => Route.question_not_mem_pathOf names (h ▸ hc)

/-- A path is split off whole, with nothing after it. -/
theorem splitTarget_path (names : List String) :
    Route.splitTarget (Route.pathOf names) = (Route.pathOf names, none) := by
  have hchars : (Route.pathOf names).toList = (Route.pathOf names).toList ++ [] :=
    (List.append_nil _).symm
  rw [Route.splitTarget, hchars, takeWhile_pathOf names (by simp)]
  simp only [List.takeWhile_append_of_pos ne_question_of_mem,
    List.dropWhile_append_of_pos ne_question_of_mem]
  simp

/-- So it is with the pairs of a query after it. -/
theorem splitTarget_form (names : List String) (pairs : List (String × String)) :
    Route.splitTarget (Route.pathOf names ++ "?" ++ Form.encode pairs)
      = (Route.pathOf names, some (Form.encode pairs)) := by
  have hchars : (Route.pathOf names ++ "?" ++ Form.encode pairs).toList
      = (Route.pathOf names).toList ++ '?' :: (Form.encode pairs).toList := by simp
  have htail : ∀ c ∈ '?' :: (Form.encode pairs).toList, c ≠ '#' := by
    intro c hc heq
    rcases List.mem_cons.mp hc with hc | hc
    · exact absurd (heq.symm.trans hc) (by decide)
    · exact absurd (Uri.isQueryChar_of_form (heq ▸ hc)) (by decide)
  rw [Route.splitTarget, hchars, takeWhile_pathOf names htail]
  simp only [List.takeWhile_append_of_pos ne_question_of_mem,
    List.dropWhile_append_of_pos ne_question_of_mem]
  simp

/-! ### Connecting -/

/-- The configuration of a registry on this machine makes its client, and asks nothing. -/
theorem ofConf_local (files : FileTree) (now : Nat) :
    Client.ofConf (clientConf (Url.localText port)) files now = pure (localClient port) := by
  have hslashes : Client.dropSlashes (clientConf (Url.localText port)).url = Url.localText port :=
    Url.dropSlashes_localText port
  have htoken : (clientConf (Url.localText port)).resolveToken files now = pure accessToken := rfl
  simp only [Client.ofConf, hslashes, Url.parse_localText, htoken]
  rfl

/-! ### Sending -/

private theorem decoded?_empty : Message.decoded? "" = some "" := by decide +kernel

/-- Nobody's name is in the address of a registry on this machine. -/
theorem ofUrl_local (method : String) {u : Url} (huser : u.username = "")
    (hpassword : u.password = none) : Message.ofUrl method u = { method, url := u } := by
  have hnone : Message.user? u = none := by
    simp [Message.user?, huser, hpassword, decoded?_empty]
  unfold Message.ofUrl
  rw [hnone]
  split
  · next heq => simp at heq
  · rfl

/-- A message for a registry on this machine, with a token that a header can hold. -/
structure IsLocal (port : UInt16) (m : Message) : Prop where
  url : ∃ (names : List String) (query : Option String),
    m.url = { Url.localUrl port (names.map Url.written) with query } ∧
      ∀ q, query = some q → ∃ pairs, q = Form.encode pairs
  headers : m.authorization.all (·.all Message.isHeaderByte) = true

private theorem origin?_local {m : Message} (h : IsLocal port m) :
    m.origin? = some (Url.localOrigin port) := by
  obtain ⟨names, query, hurl, -⟩ := h.url
  have hport : (if port.toNat = 80 then none else some port.toNat).getD 80 = port.toNat := by
    split
    · next h80 => exact h80.symm
    · rfl
  have horigin : m.origin? = some ⟨false, Url.loopback,
      (if port.toNat = 80 then none else some port.toNat).getD 80⟩ := by
    rw [Message.origin?, hurl]
    rfl
  rw [horigin, hport]
  rfl

theorem destination?_local {m : Message} (h : IsLocal port m) :
    m.destination? = if Message.isShort m.url then some (Url.localOrigin port) else none := by
  obtain ⟨names, query, hurl, hquery⟩ := h.url
  have hweb : m.url.isWeb = true := by rw [hurl]; rfl
  have haddress : Message.isAddress m.url = Message.isShort m.url := by
    rw [hurl]
    exact Message.isAddress_local port names hquery
  have hsendable : m.isSendable = Message.isShort m.url := by
    rw [Message.isSendable, hweb, haddress, h.headers, Bool.true_and, Bool.and_true]
  rw [Message.destination?, hsendable, origin?_local h]

/-- A request is answered by the registry. -/
theorem localParty_home (q : Request) (r : Registry) :
    localParty port (Url.localOrigin port) q r = (some (r.handle q).1, (r.handle q).2) := by
  show (if Url.localOrigin port = Url.localOrigin port then party _ q else pure none) r = _
  rw [if_pos rfl]
  rfl

/-- **A message to a registry on this machine is one request to it.** -/
theorem does_send {m : Message} (h : IsLocal port m) (hshort : Message.isShort m.url = true)
    (r : Registry) (hanswer : (r.handle m.request).1.status.isRedirect = false) :
    Remote.Does (localParty port) m.send r
      [⟨Url.localOrigin port, m.request, some (r.handle m.request).1⟩]
      (.ok (r.handle m.request).1) (r.handle m.request).2 := by
  have hplace : m.destination? = some (Url.localOrigin port) := by
    rw [destination?_local h, if_pos hshort]
  have hstay : ∀ response,
      (localParty port (Url.localOrigin port) m.request r).1 = some response →
        ¬response.SendsOn := by
    intro response hresponse hon
    rw [localParty_home] at hresponse
    rw [← Option.some.inj hresponse, Response.SendsOn, hanswer] at hon
    exact Bool.false_ne_true hon.1
  have hdoes := Message.does_send_here hplace hstay
  rw [localParty_home] at hdoes
  exact hdoes

/-- A message whose address is too long is not sent. -/
theorem does_send_long {m : Message} (h : IsLocal port m) (hlong : ¬Message.isShort m.url = true)
    (r : Registry) : Remote.Does (localParty port) m.send r [] (.error .transport) r := by
  refine Message.does_send_nowhere ?_ r
  rw [destination?_local h, if_neg hlong]

/-! ### Requests -/

/-- The request for a parameter, as it arrives. -/
def getRequest (n : ParameterName) : Request where
  method := "GET"
  target := Route.pathOf n.addressed
  authorization := [Message.bearer accessToken]

/-- The query of a request that changes a parameter. -/
def maskQuery (u : UpdateRequest) : String := Form.encode [(Client.maskName, u.mask.queryValue)]

/-- The request that changes a parameter, as it arrives. -/
def updateRequest (u : UpdateRequest) : Request where
  method := "PATCH"
  target := Route.pathOf u.name.addressed ++ "?" ++ maskQuery u
  authorization := [Message.bearer accessToken]
  contentType := [Utf8.encode Client.jsonType]
  body := Utf8.encode u.parameter.toJson.compact

theorem body_updateRequest (u : UpdateRequest) :
    (updateRequest u).body = Utf8.encode u.parameter.toJson.compact := by
  simp only [updateRequest]

/-- The address that a change is sent to. -/
def updateUrl (port : UInt16) (u : UpdateRequest) : Url :=
  { u.name.localUrl port with query := some (maskQuery u) }

/-- A request with another token. -/
def carrying (token : String) (q : Request) : Request :=
  { q with authorization := [Message.bearer token] }

section

variable {token : String} (htoken : IsHeaderText token)

include htoken

private theorem headers_of_isHeaderText :
    [Message.bearer token].all (·.all Message.isHeaderByte) = true := by
  rw [List.all_cons, htoken.bearer]
  rfl

private theorem getMessage_local (port : UInt16) (n : ParameterName) :
    IsLocal port ((tokenClient port token).getMessage (n.localUrl port)) ∧
      ((tokenClient port token).getMessage (n.localUrl port)).url = n.localUrl port ∧
      ((tokenClient port token).getMessage (n.localUrl port)).request
        = carrying token (getRequest n) := by
  unfold Client.getMessage
  rw [ofUrl_local "GET" rfl rfl]
  exact ⟨⟨⟨n.addressed, none, rfl, by simp⟩, headers_of_isHeaderText htoken⟩, rfl, rfl⟩

private theorem updateMessage_local (port : UInt16) (u : UpdateRequest) :
    IsLocal port ((tokenClient port token).updateMessage (updateUrl port u) u) ∧
      ((tokenClient port token).updateMessage (updateUrl port u) u).url = updateUrl port u ∧
      ((tokenClient port token).updateMessage (updateUrl port u) u).request
        = carrying token (updateRequest u) := by
  have htarget : (updateUrl port u).target
      = Route.pathOf u.name.addressed ++ "?" ++ maskQuery u := rfl
  unfold Client.updateMessage
  rw [ofUrl_local "PATCH" rfl rfl]
  refine ⟨⟨⟨u.name.addressed, some (maskQuery u), rfl, ?_⟩, headers_of_isHeaderText htoken⟩, rfl, ?_⟩
  · rintro q ⟨⟩
    exact ⟨_, rfl⟩
  simp only [Message.request, Message.withBody, Message.withToken, htarget, tokenClient,
    List.nil_append, carrying, updateRequest]

end

private theorem maskedResource_local (u : UpdateRequest) :
    Client.maskedResource (Url.localText port) u = .ok (updateUrl port u) := by
  rw [Client.maskedResource, resource_local]
  rfl

/-! ### Routes -/

theorem ofRequest?_get (n : ParameterName) :
    Route.ofRequest? (getRequest n) = (Route.nameOf? (Route.pathOf n.addressed)).map .get := by
  simp only [Route.ofRequest?, getRequest, splitTarget_path, if_true]

theorem ofRequest?_update (u : UpdateRequest) :
    Route.ofRequest? (updateRequest u)
      = (Route.nameOf? (Route.pathOf u.name.addressed)).map .update := by
  have hne : ("PATCH" : String) ≠ "GET" := by decide
  simp only [Route.ofRequest?, updateRequest, maskQuery, splitTarget_form, if_neg hne, if_true]

/-- What is no request for a token is never sent on. -/
private theorem isRedirect_handle {q : Request} (h : Route.ofRequest? q ≠ some .token)
    (r : Registry) :
    (r.handle q).1.status.isRedirect = false := by
  have hstep := handle_step r q
  generalize r.handle q = result at hstep
  cases hstep with
  | read _ _ _ => rfl
  | token hroute => exact absurd hroute h
  | refused hstatus _ =>
      have hall : ∀ s ∈ refusals, s.isRedirect = false := by decide
      exact hall _ hstatus
  | written _ _ _ _ _ _ _ => rfl

private theorem map_ne_token {name? : Option ParameterName} {f : ParameterName → Route}
    (h : ∀ n, f n ≠ .token) : name?.map f ≠ some .token := by
  cases name? with
  | none => simp
  | some n => simpa using h n

/-! The token of a request is not looked at before the rest of it. -/

theorem route_carrying (token : String) (q : Request) :
    Route.ofRequest? (carrying token q) = Route.ofRequest? q := rfl

theorem maskOf_carrying (token : String) (q : Request) : maskOf (carrying token q) = maskOf q := rfl

theorem jsonBody_carrying (token : String) (q : Request) :
    jsonBody (carrying token q) = jsonBody q := rfl

/-! ### Calls -/

section

variable {address : ClientResult Url} {m : Url → Message} {u : Url}

private theorem pathText_local (port : UInt16) (n : ParameterName) :
    (n.localUrl port).pathText = Route.pathOf n.addressed := rfl

private theorem pathText_update (port : UInt16) (u : UpdateRequest) :
    (updateUrl port u).pathText = Route.pathOf u.name.addressed := rfl

private theorem get_eq (c : Client) (n : ParameterName) :
    c.get n = Remote.ofResult (Client.resource c.serverUrl n) >>= fun u =>
      (c.getMessage u).send >>= fun response =>
        Remote.ofResult (Client.ofResponse u.pathText response) := rfl

private theorem update_eq (c : Client) (u : UpdateRequest) :
    c.update u = Remote.ofResult (Client.maskedResource c.serverUrl u) >>= fun v =>
      (c.updateMessage v u).send >>= fun response =>
        Remote.ofResult (Client.ofResponse v.pathText response) := rfl

/-- A call that sends a message to its address, and reads the answer. -/
private theorem does_call {q : Request} {r : Registry} (hu : address = .ok u)
    (hlocal : IsLocal port (m u)) (hrequest : (m u).request = q)
    (hshort : Message.isShort (m u).url = true)
    (hredirect : (r.handle q).1.status.isRedirect = false) :
    Remote.Does (localParty port) (Remote.ofResult address >>= fun u =>
        (m u).send >>= fun response =>
          Remote.ofResult (Client.ofResponse u.pathText response)) r
      [⟨Url.localOrigin port, q, some (r.handle q).1⟩]
      (Client.ofResponse u.pathText (r.handle q).1) (r.handle q).2 := by
  have hsend := does_send hlocal hshort r (hrequest.symm ▸ hredirect)
  rw [hrequest] at hsend
  rw [Remote.ofResult_bind hu]
  exact Remote.does_bind hsend (Remote.does_ofResult _ _)

private theorem does_call_long (hu : address = .ok u) (hlocal : IsLocal port (m u))
    (hlong : ¬Message.isShort (m u).url = true) (r : Registry) :
    Remote.Does (localParty port) (Remote.ofResult address >>= fun u =>
        (m u).send >>= fun response =>
          Remote.ofResult (Client.ofResponse u.pathText response)) r [] (.error .transport) r := by
  rw [Remote.ofResult_bind hu]
  exact Remote.does_bind_error (does_send_long hlocal hlong r)

end

section

variable {token : String} (htoken : IsHeaderText token)

include htoken

/-- **A read is one request.** -/
theorem does_get {n : ParameterName} (hshort : Message.isShort (n.localUrl port) = true)
    (r : Registry) :
    Remote.Does (localParty port) ((tokenClient port token).get n) r
      [⟨Url.localOrigin port, carrying token (getRequest n),
        some (r.handle (carrying token (getRequest n))).1⟩]
      (Client.ofResponse (Route.pathOf n.addressed) (r.handle (carrying token (getRequest n))).1)
      (r.handle (carrying token (getRequest n))).2 := by
  obtain ⟨hlocal, hurl, hrequest⟩ := getMessage_local htoken port n
  have hredirect := isRedirect_handle (q := carrying token (getRequest n))
    (by rw [route_carrying, ofRequest?_get]; exact map_ne_token fun _ => by simp) r
  rw [get_eq, ← pathText_local port n]
  exact does_call (m := (tokenClient port token).getMessage) (resource_local n) hlocal hrequest
    (by rw [hurl]; exact hshort) hredirect

theorem does_get_long {n : ParameterName} (hlong : ¬Message.isShort (n.localUrl port) = true)
    (r : Registry) :
    Remote.Does (localParty port) ((tokenClient port token).get n) r [] (.error .transport) r := by
  obtain ⟨hlocal, hurl, -⟩ := getMessage_local htoken port n
  rw [get_eq]
  exact does_call_long (m := (tokenClient port token).getMessage) (resource_local n) hlocal
    (by rw [hurl]; exact hlong) r

/-- **A change is one request.** -/
theorem does_update {u : UpdateRequest} (hshort : Message.isShort (updateUrl port u) = true)
    (r : Registry) :
    Remote.Does (localParty port) ((tokenClient port token).update u) r
      [⟨Url.localOrigin port, carrying token (updateRequest u),
        some (r.handle (carrying token (updateRequest u))).1⟩]
      (Client.ofResponse (Route.pathOf u.name.addressed)
        (r.handle (carrying token (updateRequest u))).1)
      (r.handle (carrying token (updateRequest u))).2 := by
  obtain ⟨hlocal, hurl, hrequest⟩ := updateMessage_local htoken port u
  have hredirect := isRedirect_handle (q := carrying token (updateRequest u))
    (by rw [route_carrying, ofRequest?_update]; exact map_ne_token fun _ => by simp) r
  rw [update_eq, ← pathText_update port u]
  exact does_call (m := fun v => (tokenClient port token).updateMessage v u)
    (maskedResource_local u) hlocal hrequest (by rw [hurl]; exact hshort) hredirect

theorem does_update_long {u : UpdateRequest} (hlong : ¬Message.isShort (updateUrl port u) = true)
    (r : Registry) :
    Remote.Does (localParty port) ((tokenClient port token).update u) r [] (.error .transport) r := by
  obtain ⟨hlocal, hurl, -⟩ := updateMessage_local htoken port u
  rw [update_eq]
  exact does_call_long (m := fun v => (tokenClient port token).updateMessage v u)
    (maskedResource_local u) hlocal (by rw [hurl]; exact hlong) r

end

theorem isHeaderText_accessToken : IsHeaderText accessToken := by decide +kernel

private theorem carrying_getRequest (n : ParameterName) :
    carrying accessToken (getRequest n) = getRequest n := by
  simp only [carrying, getRequest]

private theorem carrying_updateRequest (u : UpdateRequest) :
    carrying accessToken (updateRequest u) = updateRequest u := by
  simp only [carrying, updateRequest]

/-- What a read with the right token comes to. -/
theorem run_get (n : ParameterName) (r : Registry) :
    Remote.run (localParty port) ((localClient port).get n) r =
      if Message.isShort (n.localUrl port) then
        (Client.ofResponse (Route.pathOf n.addressed) (r.handle (getRequest n)).1,
          (r.handle (getRequest n)).2)
      else (.error .transport, r) := by
  by_cases hshort : Message.isShort (n.localUrl port) = true
  · have hdoes := does_get isHeaderText_accessToken hshort r
    rw [carrying_getRequest] at hdoes
    rw [if_pos hshort]
    exact hdoes.run
  · rw [if_neg hshort]
    exact (does_get_long isHeaderText_accessToken hshort r).run

/-- What a change with the right token comes to. -/
theorem run_update (u : UpdateRequest) (r : Registry) :
    Remote.run (localParty port) ((localClient port).update u) r =
      if Message.isShort (updateUrl port u) then
        (Client.ofResponse (Route.pathOf u.name.addressed) (r.handle (updateRequest u)).1,
          (r.handle (updateRequest u)).2)
      else (.error .transport, r) := by
  by_cases hshort : Message.isShort (updateUrl port u) = true
  · have hdoes := does_update isHeaderText_accessToken hshort r
    rw [carrying_updateRequest] at hdoes
    rw [if_pos hshort]
    exact hdoes.run
  · rw [if_neg hshort]
    exact (does_update_long isHeaderText_accessToken hshort r).run

end Registry

end ParameterManager
