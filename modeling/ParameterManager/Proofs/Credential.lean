/-
What an operation sends for its credentials.

A configuration with a token sends nothing to get one, and one with an account sends one
message, which trades an assertion; all that can be wrong before that is found out without a
message.  Only then the call is made, which is one message with the token.  So what is sent
follows from what the configuration holds, what the file of the account holds, and what the
endpoint of the account answers.

Each way in which no token is got has its error here, and each of these errors comes back as
that of a client that could not be made.
-/
import ParameterManager.Proofs.Http.Sent
import ParameterManager.Proofs.Report

namespace ParameterManager

/-! ### Files of accounts -/

/-- The file of a name is not that of an account that can be used. -/
inductive ServiceAccount.IsUnusable (files : FileTree) (p : FilePath) : ClientError → Prop
  | unreadable {e : FileError} (h : files.openFile p = .error e) :
      IsUnusable files p (.other s!"Unable to read service account key {p.quoted}: {e.message}")
  | directory (h : files.openFile p = .ok .directory) :
      IsUnusable files p (.other
        s!"Error while parsing service account key {p.quoted}: {OsError.isDirectory.message}")
  | malformed {content : Bytes} {e : Json.Error} (h : files.openFile p = .ok (.bytes content))
      (hread : ServiceAccount.wire.ofStream content = .error e) :
      IsUnusable files p (.other
        s!"Error while parsing service account key {p.quoted}: {e.message}")
  | foreign {content : Bytes} {a : ServiceAccount} (h : files.openFile p = .ok (.bytes content))
      (hread : ServiceAccount.wire.ofStream content = .ok a) (hkind : a.kind ≠ "service_account") :
      IsUnusable files p (.configuration
        s!"{p.quoted} is a {a.kind} key, not a service_account key")

namespace ServiceAccount

variable {files : FileTree} {p : FilePath}

private theorem load_eq (files : FileTree) (p : FilePath) :
    load files p = match files.openFile p with
      | .error e =>
        .error (.other s!"Unable to read service account key {p.quoted}: {e.message}")
      | .ok .directory => .error (.other
          s!"Error while parsing service account key {p.quoted}: {OsError.isDirectory.message}")
      | .ok (.bytes content) =>
        match wire.ofStream content with
        | .error e =>
          .error (.other s!"Error while parsing service account key {p.quoted}: {e.message}")
        | .ok a =>
          if a.kind = "service_account" then .ok a
          else .error (.configuration
            s!"{p.quoted} is a {a.kind} key, not a service_account key") := by
  unfold load ClientConf.readJson
  cases files.openFile p with
  | error e => rfl
  | ok opened =>
      cases opened with
      | directory => rfl
      | bytes content =>
          simp only [withContext, bind, Except.bind]
          cases wire.ofStream content with
          | error e => rfl
          | ok a => rfl

/-- **An account is loaded unless its file is unusable.** -/
theorem load_eq_error {e : ClientError} : load files p = .error e ↔ IsUnusable files p e := by
  rw [load_eq]
  constructor
  · intro h
    split at h
    · next hopen => exact Except.error.inj h ▸ .unreadable hopen
    · next hopen => exact Except.error.inj h ▸ .directory hopen
    · next hopen =>
      split at h
      · next hread => exact Except.error.inj h ▸ .malformed hopen hread
      · next hread =>
        split at h
        · simp at h
        · next hkind => exact Except.error.inj h ▸ .foreign hopen hread hkind
  · intro h
    cases h with
    | unreadable hopen => simp only [hopen]
    | directory hopen => simp only [hopen]
    | malformed hopen hread => simp only [hopen, hread]
    | foreign hopen hread hkind => simp only [hopen, hread, if_neg hkind]

/-- The file of a name describes an account. -/
def IsIn (a : ServiceAccount) (files : FileTree) (p : FilePath) : Prop :=
  ∃ content, files.openFile p = .ok (.bytes content) ∧ wire.ofStream content = .ok a

theorem IsIn.load {a : ServiceAccount} (h : a.IsIn files p) (hkind : a.kind = "service_account") :
    load files p = .ok a := by
  obtain ⟨content, hopen, hread⟩ := h
  rw [load_eq]
  simp only [hopen, hread, if_pos hkind]

end ServiceAccount

/-! ### What a configuration holds -/

/-- The private key of an account can sign what is to be signed. -/
def ServiceAccount.CanSign (a : ServiceAccount) (now : Nat) : Prop :=
  ∃ key signature, Rsa.ofPem? a.privateKey = some key ∧
    Rsa.sign? key (Utf8.encodeChars (Assertion.signed a now)) = some signature

theorem Assertion.create_of_canSign {a : ServiceAccount} {now : Nat} (h : a.CanSign now) :
    ∃ assertion, Assertion.create a now = .ok assertion := by
  obtain ⟨key, signature, hkey, hsign⟩ := h
  refine ⟨String.ofList (signed a now ++ '.' :: Base64.urlSafe.encode signature), ?_⟩
  simp only [create, hkey, hsign]

theorem Assertion.create_of_not_canSign {a : ServiceAccount} {now : Nat} (h : ¬a.CanSign now) :
    Assertion.create a now = .error (.jwt "Invalid private key") := by
  unfold create
  split
  · rfl
  · next key hkey =>
    simp only
    split
    · rfl
    · next signature hsign => exact absurd ⟨key, signature, hkey, hsign⟩ h

namespace ClientConf

variable {c : ClientConf} {files : FileTree} {now : Nat}

/-- A configuration with another token. -/
def withToken (c : ClientConf) (token : String) : ClientConf :=
  { c with accessToken := some token }

/-- A configuration with the file of an account, and no token. -/
def withAccount (c : ClientConf) (path : FilePath) : ClientConf :=
  { c with accessToken := none, keyPath := some path }

/-- The endpoint of a configuration is an address. -/
def HasEndpoint (c : ClientConf) : Prop := ∃ u, Url.parse (Client.dropSlashes c.url) = .ok u

/-- A configuration gets no token, and asks nobody for one. -/
inductive IsUnready (c : ClientConf) (files : FileTree) (now : Nat) : ClientError → Prop
  | endpoint {e : UrlError} (h : Url.parse (Client.dropSlashes c.url) = .error e) :
      IsUnready c files now (.url e)
  | unset (h : c.HasEndpoint) (htoken : c.accessToken = none) (hkey : c.keyPath = none) :
      IsUnready c files now (.configuration
        "no credentials: set either access_token or service_account_key_path")
  | keyFile {p : FilePath} {e : ClientError} (h : c.HasEndpoint) (htoken : c.accessToken = none)
      (hkey : c.keyPath = some p) (hfile : ServiceAccount.IsUnusable files p e) :
      IsUnready c files now e
  | privateKey {p : FilePath} {a : ServiceAccount} (h : c.HasEndpoint)
      (htoken : c.accessToken = none) (hkey : c.keyPath = some p)
      (hload : ServiceAccount.load files p = .ok a) (hsign : ¬a.CanSign now) :
      IsUnready c files now (.jwt "Invalid private key")

/-- A configuration holds a token. -/
structure HasToken (c : ClientConf) (token : String) : Prop where
  endpoint : c.HasEndpoint
  token : c.accessToken = some token

/-- A configuration holds no token, but the file of an account, which signs an assertion. -/
structure HasAccount (c : ClientConf) (files : FileTree) (now : Nat) (a : ServiceAccount)
    (assertion : String) : Prop where
  endpoint : c.HasEndpoint
  noToken : c.accessToken = none
  file : ∃ p, c.keyPath = some p ∧ ServiceAccount.load files p = .ok a
  assertion : Assertion.create a now = .ok assertion

/-- **There are no other configurations.** -/
theorem holds_cases (c : ClientConf) (files : FileTree) (now : Nat) :
    (∃ e, c.IsUnready files now e) ∨ (∃ token, c.HasToken token) ∨
      ∃ a assertion, c.HasAccount files now a assertion := by
  cases hurl : Url.parse (Client.dropSlashes c.url) with
  | error e => exact Or.inl ⟨_, .endpoint hurl⟩
  | ok u =>
      have hend : c.HasEndpoint := ⟨u, hurl⟩
      cases htoken : c.accessToken with
      | some token => exact Or.inr (Or.inl ⟨token, hend, htoken⟩)
      | none =>
          cases hkey : c.keyPath with
          | none => exact Or.inl ⟨_, .unset hend htoken hkey⟩
          | some p =>
              cases hload : ServiceAccount.load files p with
              | error e =>
                  exact Or.inl
                    ⟨e, .keyFile hend htoken hkey (ServiceAccount.load_eq_error.mp hload)⟩
              | ok a =>
                  by_cases hsign : a.CanSign now
                  · obtain ⟨assertion, hassertion⟩ := Assertion.create_of_canSign hsign
                    exact Or.inr (Or.inr ⟨a, assertion, hend, htoken, ⟨p, hkey, hload⟩, hassertion⟩)
                  · exact Or.inl ⟨_, .privateKey hend htoken hkey hload hsign⟩

end ClientConf

/-! ### Header values -/

namespace Message

/-- Whether a header value gives an access token. -/
def isBearer (value : Bytes) : Bool := (Utf8.encode "Bearer ").isPrefixOf value

theorem isBearer_bearer (token : String) : isBearer (bearer token) = true := by
  rw [isBearer, bearer, Utf8.encode, Utf8.encode, String.toList_append, Utf8.encodeChars_append,
    List.isPrefixOf_iff_prefix]
  exact List.prefix_append _ _

theorem isBearer_basic (user password : String) : isBearer (basic user password) = false := by
  have hbearer : Utf8.encode "Bearer " = [0x42, 0x65, 0x61, 0x72, 0x65, 0x72, 0x20] := by
    decide +kernel
  have hbasic : Utf8.encode "Basic " = [0x42, 0x61, 0x73, 0x69, 0x63, 0x20] := by decide +kernel
  rw [isBearer, basic, hbearer, hbasic]
  rfl

/-- An address brings along a user at most, never an access token. -/
theorem filter_isBearer_ofUrl (method : String) (u : Url) :
    (ofUrl method u).authorization.filter isBearer = [] := by
  unfold ofUrl
  split
  · simp [isBearer_basic]
  · rfl

theorem target_ofUrl (method : String) (u : Url) : (ofUrl method u).url.target = u.target := by
  unfold ofUrl
  split
  · rfl
  · rfl

theorem origin?_withBody (m : Message) (contentType : String) (body : Bytes) :
    (m.withBody contentType body).origin? = m.origin? := rfl

theorem origin?_of_destination? {m : Message} {o : Origin} (h : m.destination? = some o) :
    m.origin? = some o := by
  unfold destination? at h
  split at h
  · exact h
  · simp at h

end Message

/-! ### Tokens -/

namespace TokenGrant

/-- A request trades an assertion at the endpoint of an account: the endpoint is the address of
the account, the request posts a form, and the form has the kind of grant and the assertion. -/
structure IsTrade (a : ServiceAccount) (assertion : String) (d : Sent) : Prop where
  method : d.request.method = "POST"
  place : ∃ u, Url.parse a.tokenUri = .ok u ∧ (Message.ofUrl "POST" u).origin? = some d.origin ∧
    d.request.target = u.target
  form : Form.decode d.request.body
    = [("grant_type", "urn:ietf:params:oauth:grant-type:jwt-bearer"), ("assertion", assertion)]
  contentType : d.request.contentType = [Utf8.encode "application/x-www-form-urlencoded"]
  noToken : d.request.authorization.filter Message.isBearer = []

/-- An answer gives a token. -/
inductive IsGranted : Option Response → String → Prop
  | mk {r : Response} {g : TokenGrant} (h : r.status.isSuccess = true)
      (hread : wire.ofString r.text = .ok g) : IsGranted (some r) g.accessToken

/-- An answer gives none. -/
inductive IsDenied : Option Response → ClientError → Prop
  | lost : IsDenied none .transport
  | refused {r : Response} (h : r.status.isSuccess = false) :
      IsDenied (some r) (.tokenRetrieval s!"{r.status.text}: {r.text}")
  | unreadable {r : Response} {e : Json.Error} (h : r.status.isSuccess = true)
      (hread : wire.ofString r.text = .error e) :
      IsDenied (some r) (.other s!"Unable to parse the token endpoint response: {e.message}")

theorem granted_or_denied (answer : Option Response) :
    (∃ token, IsGranted answer token) ∨ ∃ e, IsDenied answer e := by
  cases answer with
  | none => exact Or.inr ⟨_, .lost⟩
  | some r =>
      cases hsuccess : r.status.isSuccess with
      | false => exact Or.inr ⟨_, .refused hsuccess⟩
      | true =>
          cases hread : wire.ofString r.text with
          | ok g => exact Or.inl ⟨_, .mk hsuccess hread⟩
          | error e => exact Or.inr ⟨_, .unreadable hsuccess hread⟩

/-- The result of a trade that was answered. -/
def answered (answer : Option Response) : ClientResult String :=
  Message.answered answer >>= ofResponse

theorem answered_granted {answer : Option Response} {token : String} (h : IsGranted answer token) :
    answered answer = .ok token := by
  obtain ⟨h, hread⟩ := h
  simp [answered, Message.answered, ofResponse, h, hread, withContext, bind, Except.bind]

theorem answered_denied {answer : Option Response} {e : ClientError} (h : IsDenied answer e) :
    answered answer = .error e := by
  cases h with
  | lost => rfl
  | refused h => simp [answered, Message.answered, ofResponse, bind, Except.bind, h]
  | unreadable h hread =>
      simp only [answered, Message.answered, ofResponse, h, if_true, hread, withContext, bind,
        Except.bind]
      rfl

/-- Where an assertion is traded, if the request can be sent. -/
def destination? (a : ServiceAccount) (assertion : String) : Option Origin :=
  match message a assertion with
  | .ok m => m.destination?
  | .error _ => none

variable {σ : Type} {party : Exchange.Party σ} {a : ServiceAccount} {assertion : String}
  {m : Message} {o : Origin} {s : σ} {now : Nat}

theorem isTrade_message (hm : message a assertion = .ok m) (ho : m.destination? = some o)
    (answer : Option Response) : IsTrade a assertion ⟨o, m.request, answer⟩ := by
  unfold message at hm
  split at hm
  · next u hu =>
    obtain rfl := Except.ok.inj hm
    have horigin := Message.origin?_of_destination? ho
    rw [Message.origin?_withBody] at horigin
    have hbody : ((Message.ofUrl "POST" u).withBody formType (Utf8.encode (form assertion))).body
        = Utf8.encode (Form.encode [(grantTypeName, assertionGrant), (assertionName, assertion)]) :=
      by simp only [Message.withBody, form]
    refine ⟨KeyChange.method_ofUrl "POST" u, ⟨u, hu, horigin, Message.target_ofUrl "POST" u⟩,
      ?_, rfl, Message.filter_isBearer_ofUrl "POST" u⟩
    simp only [Message.request]
    rw [hbody, Form.decode_encode]
    rfl
  · simp at hm

/-- With an assertion, what is left is to make the message. -/
private theorem retrieve_eq (ha : Assertion.create a now = .ok assertion) :
    retrieve a now = Remote.ofResult (message a assertion) >>= fun m =>
      m.send >>= fun r => Remote.ofResult (ofResponse r) := by
  unfold retrieve
  rw [Remote.ofResult_bind ha]

theorem retrieve_eq_send (ha : Assertion.create a now = .ok assertion)
    (hm : message a assertion = .ok m) :
    retrieve a now = m.send >>= fun r => Remote.ofResult (ofResponse r) := by
  rw [retrieve_eq ha, Remote.ofResult_bind hm]

/-- **An assertion is traded with one request, if it can be sent.** -/
theorem does_retrieve (ha : Assertion.create a now = .ok assertion)
    (ho : destination? a assertion = some o)
    (hstay : Remote.Stays party (retrieve a now) s) :
    ∃ d s', IsTrade a assertion d ∧ Remote.Does party (retrieve a now) s [d] (answered d.answer) s'
    := by
  unfold destination? at ho
  split at ho
  · next m hm =>
    rw [retrieve_eq_send ha hm] at hstay ⊢
    exact ⟨_, _, isTrade_message hm ho _, Message.does_send_then ho hstay⟩
  · simp at ho

/-- An assertion that cannot be sent is not traded. -/
theorem does_retrieve_nowhere (ha : Assertion.create a now = .ok assertion)
    (ho : destination? a assertion = none) :
    Remote.Does party (retrieve a now) s [] (.error .transport) s := by
  unfold destination? at ho
  split at ho
  · next m hm =>
    rw [retrieve_eq_send ha hm]
    exact Remote.does_bind_error (Message.does_send_nowhere ho s)
  · next e hm =>
    have htransport : e = .transport := by
      unfold message at hm
      split at hm
      · simp at hm
      · exact (Except.error.inj hm).symm
    rw [retrieve_eq ha]
    exact Remote.does_ofResult_error (htransport ▸ hm) s

end TokenGrant

/-! ### Clients -/

namespace ClientConf

variable {σ : Type} {party : Exchange.Party σ} {c : ClientConf} {files : FileTree} {now : Nat}
  {a : ServiceAccount} {assertion token : String} {e : ClientError} {s : σ}

/-- The client of a configuration with a token. -/
def client (c : ClientConf) (token : String) : Client := ⟨Client.dropSlashes c.url, token⟩

/-- An endpoint that is an address is not looked at again. -/
theorem ofConf_eq (h : c.HasEndpoint) :
    Client.ofConf c files now = c.resolveToken files now >>= fun token => pure (c.client token) := by
  obtain ⟨u, hu⟩ := h
  have hurl : (Url.parse (Client.dropSlashes c.url)).mapError ClientError.url = .ok u := by
    rw [hu]
    rfl
  unfold Client.ofConf
  exact Remote.ofResult_bind hurl _

private theorem resolveToken_of_hasAccount (h : c.HasAccount files now a assertion) :
    c.resolveToken files now = TokenGrant.retrieve a now := by
  obtain ⟨p, hkey, hload⟩ := h.file
  unfold resolveToken
  rw [h.noToken, hkey]
  exact Remote.ofResult_bind hload _

/-- A client of an account is made of the token that the account is given. -/
theorem ofConf_of_hasAccount (h : c.HasAccount files now a assertion) :
    Client.ofConf c files now
      = TokenGrant.retrieve a now >>= fun token => pure (c.client token) := by
  rw [ofConf_eq h.endpoint, resolveToken_of_hasAccount h]

/-- There is no client without a token. -/
private theorem does_ofConf_error {s' : σ} {d : List Sent} (h : c.HasEndpoint)
    (htoken : Remote.Does party (c.resolveToken files now) s d (.error e) s') :
    Remote.Does party (Client.ofConf c files now) s d (.error e) s' := by
  rw [ofConf_eq h]
  exact Remote.does_bind_error htoken

/-- **What is wrong with a configuration is found out without a request.** -/
theorem does_ofConf_unready (h : c.IsUnready files now e) (s : σ) :
    Remote.Does party (Client.ofConf c files now) s [] (.error e) s := by
  cases h with
  | endpoint h =>
      unfold Client.ofConf
      refine Remote.does_ofResult_error ?_ s
      rw [h]
      rfl
  | unset hend htoken hkey =>
      refine does_ofConf_error hend ?_
      unfold resolveToken
      rw [htoken, hkey]
      exact Remote.does_ofResult _ s
  | keyFile hend htoken hkey hfile =>
      refine does_ofConf_error hend ?_
      unfold resolveToken
      rw [htoken, hkey]
      exact Remote.does_ofResult_error (ServiceAccount.load_eq_error.mpr hfile) s
  | privateKey hend htoken hkey hload hsign =>
      refine does_ofConf_error hend ?_
      unfold resolveToken
      rw [htoken, hkey]
      simp only
      rw [Remote.ofResult_bind hload]
      exact Remote.does_ofResult_error (Assertion.create_of_not_canSign hsign) s

/-- **A token is taken as it is.**  The files do not matter then. -/
theorem ofConf_of_hasToken (h : c.HasToken token) (files : FileTree) (now : Nat) :
    Client.ofConf c files now = pure (c.client token) := by
  rw [ofConf_eq h.endpoint, resolveToken, h.token]
  rfl

/-- **An account trades its assertion, with one request if it can be sent.** -/
theorem does_ofConf_account {o : Origin} (h : c.HasAccount files now a assertion)
    (ho : TokenGrant.destination? a assertion = some o)
    (hstay : Remote.Stays party (Client.ofConf c files now) s) :
    ∃ d s', TokenGrant.IsTrade a assertion d ∧
      Remote.Does party (Client.ofConf c files now) s [d]
        ((TokenGrant.answered d.answer).map c.client) s' := by
  rw [ofConf_of_hasAccount h] at hstay ⊢
  obtain ⟨d, s', htrade, hdoes⟩ := TokenGrant.does_retrieve h.assertion ho hstay.first
  refine ⟨d, s', htrade, ?_⟩
  cases hanswer : TokenGrant.answered d.answer with
  | error e =>
      rw [hanswer] at hdoes
      exact Remote.does_bind_error hdoes
  | ok token =>
      rw [hanswer] at hdoes
      exact Remote.does_bind hdoes (Remote.does_pure _ s')

theorem does_ofConf_nowhere (h : c.HasAccount files now a assertion)
    (ho : TokenGrant.destination? a assertion = none) (s : σ) :
    Remote.Does party (Client.ofConf c files now) s [] (.error .transport) s := by
  refine does_ofConf_error h.endpoint ?_
  rw [resolveToken_of_hasAccount h]
  exact TokenGrant.does_retrieve_nowhere h.assertion ho

end ClientConf

end ParameterManager
