/-
What one operation sends.

An operation makes a client and then its call.  The client needs a token, and getting it may
take a request; the call is one request with the token.  So an operation sends nothing, or its
call, or the trade of an assertion and then, if that gave a token, its call: which of these it
is follows from the configuration, from the file of the account and from the answer to the
trade.

What comes in between is a call for which there is no address, and a request that cannot be sent
at all.  Neither is sent: in an operation such a trade is a failure to make the client, and such a
call is a failure of the call.
-/
import ParameterManager.Proofs.Credential
import ParameterManager.Proofs.Registry.Confinement

namespace ParameterManager

namespace Registry.KeyCall

/-! ### Calls -/

def method : KeyCall → String
  | get => "GET"
  | change _ => "PATCH"

/-- The address of a call: that of the parameter, with a mask if the call changes it. -/
def address (serverUrl : String) (n : ParameterName) : KeyCall → ClientResult Url
  | get => Client.resource serverUrl n
  | change k => Client.maskedResource serverUrl (k.request n)

def message (c : Client) (u : Url) (n : ParameterName) : KeyCall → Message
  | get => c.getMessage u
  | change k => c.updateMessage u (k.request n)

/-- What is made of the answer to a call: an error says which call it is of, and a change is
reported. -/
def conclude (sink : Sink) (answer : ClientResult Parameter) :
    KeyCall → ClientResult Parameter × Sink
  | get => (answer.mapError .getParameter, sink)
  | change k => Operation.report sink k.line (answer.mapError .updateParameter)

/-- A request is a call with a token at an address. -/
structure IsMade (call : KeyCall) (token : String) (u : Url) (d : Sent) : Prop where
  method : d.request.method = call.method
  place : (Message.ofUrl call.method u).origin? = some d.origin ∧ d.request.target = u.target
  token : d.request.authorization.filter Message.isBearer = [Message.bearer token]

variable {σ : Type} {party : Exchange.Party σ} {call : KeyCall} {n : ParameterName} {c : Client}
  {u : Url} {s : σ}

/-- A call is one message, which is read when it is answered. -/
private theorem ask_eq (h : call.address c.serverUrl n = .ok u) :
    call.ask c n = (call.message c u n).send >>= fun r =>
      Remote.ofResult (Client.ofResponse u.pathText r) := by
  cases call with
  | get => exact Remote.ofResult_bind h _
  | change k => exact Remote.ofResult_bind h _

private theorem isMade_message {o : Origin} (h : (call.message c u n).destination? = some o)
    (answer : Option Response) :
    call.IsMade c.token u ⟨o, (call.message c u n).request, answer⟩ := by
  have horigin := Message.origin?_of_destination? h
  have htoken : ∀ method, ((Message.ofUrl method u).withToken c.token).authorization.filter
      Message.isBearer = [Message.bearer c.token] := by
    intro method
    simp only [Message.withToken]
    rw [List.filter_append, Message.filter_isBearer_ofUrl]
    simp [Message.isBearer_bearer]
  cases call with
  | get =>
      exact ⟨KeyChange.method_ofUrl "GET" u, ⟨horigin, Message.target_ofUrl "GET" u⟩, htoken "GET"⟩
  | change k =>
      exact ⟨KeyChange.method_ofUrl "PATCH" u, ⟨horigin, Message.target_ofUrl "PATCH" u⟩,
        htoken "PATCH"⟩

/-- **A call is one request, if it can be sent.** -/
theorem does_ask {o : Origin} (hu : call.address c.serverUrl n = .ok u)
    (ho : (call.message c u n).destination? = some o) (hstay : Remote.Stays party (call.ask c n) s) :
    ∃ d s', call.IsMade c.token u d ∧
      Remote.Does party (call.ask c n) s [d]
        (Message.answered d.answer >>= Client.ofResponse u.pathText) s' := by
  rw [ask_eq hu] at hstay ⊢
  exact ⟨_, _, isMade_message ho _, Message.does_send_then ho hstay⟩

theorem does_ask_nowhere (hu : call.address c.serverUrl n = .ok u)
    (ho : (call.message c u n).destination? = none) (s : σ) :
    Remote.Does party (call.ask c n) s [] (.error .transport) s := by
  rw [ask_eq hu]
  exact Remote.does_bind_error (Message.does_send_nowhere ho s)

/-- Without an address there is nothing to send. -/
theorem does_ask_unaddressed {e : ClientError} (h : call.address c.serverUrl n = .error e) (s : σ) :
    Remote.Does party (call.ask c n) s [] (.error e) s := by
  cases call with
  | get => exact Remote.does_ofResult_error h s
  | change k => exact Remote.does_ofResult_error h s

/-! ### Operations -/

variable {conf : ClientConf} {files : FileTree} {now : Nat} {sink : Sink}
  {project parameter : String} {s' s'' : σ} {d d' : List Sent} {e : ClientError}

/-- An operation makes a client, and then its call with it. -/
theorem perform_eq (call : KeyCall) (conf : ClientConf) (files : FileTree) (now : Nat)
    (sink : Sink) (project parameter : String) :
    call.perform (conf.connector files now) sink project parameter
      = ExceptT.run (Client.ofConf conf files now) >>= fun
        | .error e => pure (.error (.clientInitialization e), sink)
        | .ok c => ExceptT.run (call.ask c (.global project parameter)) >>= fun answer =>
          pure (call.conclude sink answer) := by
  cases call with
  | get =>
      show Operation.call (conf.connector files now) .getParameter _ >>= _ = _
      rw [Operation.call, ClientConf.connector, Exchange.bind_assoc, Exchange.bind_assoc]
      refine congrArg _ (funext fun client => ?_)
      cases client with
      | error e => rfl
      | ok c => exact Exchange.bind_assoc _ _ _
  | change k =>
      show k.perform _ _ _ _ = _
      rw [KeyChange.perform_eq, Operation.call, ClientConf.connector, Exchange.bind_assoc,
        Exchange.bind_assoc]
      refine congrArg _ (funext fun client => ?_)
      cases client with
      | error e => rfl
      | ok c => exact Exchange.bind_assoc _ _ _

theorem stays_ofConf
    (hstay : Exchange.Stays party (call.perform (conf.connector files now) sink project parameter) s) :
    Remote.Stays party (Client.ofConf conf files now) s := by
  rw [perform_eq] at hstay
  exact hstay.left

theorem stays_ask
    (hstay : Exchange.Stays party (call.perform (conf.connector files now) sink project parameter) s)
    (h : Remote.Does party (Client.ofConf conf files now) s d (.ok c) s') :
    Remote.Stays party (call.ask c (.global project parameter)) s' := by
  rw [perform_eq] at hstay
  exact (hstay.right h).left

theorem does_perform_error
    (h : Remote.Does party (Client.ofConf conf files now) s d (.error e) s') :
    Exchange.Does party (call.perform (conf.connector files now) sink project parameter) s d
      (.error (.clientInitialization e), sink) s' := by
  rw [perform_eq, ← List.append_nil d]
  exact Exchange.Does.bind h (Exchange.Does.pure _ _)

theorem does_perform {answer : ClientResult Parameter}
    (h : Remote.Does party (Client.ofConf conf files now) s d (.ok c) s')
    (hask : Remote.Does party (call.ask c (.global project parameter)) s' d' answer s'') :
    Exchange.Does party (call.perform (conf.connector files now) sink project parameter) s
      (d ++ d') (call.conclude sink answer) s'' := by
  rw [perform_eq, ← List.append_nil d']
  exact Exchange.Does.bind h (Exchange.Does.bind hask (Exchange.Does.pure _ _))

end Registry.KeyCall

/-! ### What follows from the credentials -/

open Registry (KeyCall)

/-- What is sent with a token, and what an operation comes to then: its call, if there is an
address for it and it can be sent. -/
structure Calls (conf : ClientConf) (token : String) (call : KeyCall) (sink : Sink)
    (n : ParameterName) (sent : List Sent) (result : ClientResult Parameter × Sink) : Prop where
  unaddressed : ∀ e, call.address (Client.dropSlashes conf.url) n = .error e →
    sent = [] ∧ result = call.conclude sink (.error e)
  made : ∀ u o, call.address (Client.dropSlashes conf.url) n = .ok u →
    (call.message (conf.client token) u n).destination? = some o →
    ∃ d, sent = [d] ∧ call.IsMade token u d ∧
      result = call.conclude sink (Message.answered d.answer >>= Client.ofResponse u.pathText)
  unsendable : ∀ u, call.address (Client.dropSlashes conf.url) n = .ok u →
    (call.message (conf.client token) u n).destination? = none →
    sent = [] ∧ result = call.conclude sink (.error .transport)

/-- What is sent after the answer to a trade, and what an operation comes to then: its call, if
the answer is a token, and otherwise nothing. -/
structure Resumes (conf : ClientConf) (answer : Option Response) (call : KeyCall) (sink : Sink)
    (n : ParameterName) (sent : List Sent) (result : ClientResult Parameter × Sink) : Prop where
  answered : (∃ token, TokenGrant.IsGranted answer token) ∨ ∃ e, TokenGrant.IsDenied answer e
  granted : ∀ token, TokenGrant.IsGranted answer token → Calls conf token call sink n sent result
  denied : ∀ e, TokenGrant.IsDenied answer e →
    sent = [] ∧ result = (.error (.clientInitialization e), sink)

/-- What is sent by an account, and what an operation comes to then: its assertion is traded
first, if that can be sent. -/
structure Trades (conf : ClientConf) (a : ServiceAccount) (assertion : String) (call : KeyCall)
    (sink : Sink) (n : ParameterName) (sent : List Sent)
    (result : ClientResult Parameter × Sink) : Prop where
  unsendable : TokenGrant.destination? a assertion = none →
    sent = [] ∧ result = (.error (.clientInitialization .transport), sink)
  traded : ∀ o, TokenGrant.destination? a assertion = some o →
    ∃ d rest, sent = d :: rest ∧ TokenGrant.IsTrade a assertion d ∧
      Resumes conf d.answer call sink n rest result

/-- What is sent, and what an operation comes to, is what its credentials are there for. -/
structure FollowsCredentials (conf : ClientConf) (files : FileTree) (now : Nat) (call : KeyCall)
    (sink : Sink) (n : ParameterName) (sent : List Sent)
    (result : ClientResult Parameter × Sink) : Prop where
  unready : ∀ e, conf.IsUnready files now e →
    sent = [] ∧ result = (.error (.clientInitialization e), sink)
  held : ∀ token, conf.HasToken token → Calls conf token call sink n sent result
  signed : ∀ a assertion, conf.HasAccount files now a assertion →
    Trades conf a assertion call sink n sent result

section

variable {σ : Type} {party : Exchange.Party σ} {conf : ClientConf} {files : FileTree} {now : Nat}
  {call : KeyCall} {sink : Sink} {project parameter token assertion : String} {a : ServiceAccount}
  {s s' : σ} {d : List Sent}

/-- Once there is a client, the call is made and nothing else. -/
private theorem calls_of_client
    (hstay : Exchange.Stays party (call.perform (conf.connector files now) sink project parameter) s)
    (hclient : Remote.Does party (Client.ofConf conf files now) s d (.ok (conf.client token)) s') :
    ∃ rest result s'',
      Exchange.Does party (call.perform (conf.connector files now) sink project parameter) s
        (d ++ rest) result s'' ∧
      Calls conf token call sink (.global project parameter) rest result := by
  have hask := Exchange.Does.self party
    (ExceptT.run (call.ask (conf.client token) (.global project parameter))) s'
  refine ⟨_, _, _, KeyCall.does_perform hclient hask, ?_, ?_, ?_⟩
  · intro e he
    have hdoes : Remote.Does party (call.ask (conf.client token) (.global project parameter)) s' []
        (.error e) s' := KeyCall.does_ask_unaddressed (c := conf.client token) he s'
    exact ⟨hdoes.sent, congrArg (fun answer => call.conclude sink answer) hdoes.value⟩
  · intro u o hu ho
    obtain ⟨d, s'', hmade, hdoes⟩ := KeyCall.does_ask (c := conf.client token) hu ho
      (KeyCall.stays_ask hstay hclient)
    exact ⟨d, hdoes.sent, hmade, congrArg (fun answer => call.conclude sink answer) hdoes.value⟩
  · intro u hu ho
    have hdoes : Remote.Does party (call.ask (conf.client token) (.global project parameter)) s' []
        (.error .transport) s' := KeyCall.does_ask_nowhere (c := conf.client token) hu ho s'
    exact ⟨hdoes.sent, congrArg (fun answer => call.conclude sink answer) hdoes.value⟩

/-- After a trade an operation goes on as its answer says. -/
private theorem resumes_of_trade {x : Sent}
    (hstay : Exchange.Stays party (call.perform (conf.connector files now) sink project parameter) s)
    (hclient : Remote.Does party (Client.ofConf conf files now) s [x]
      ((TokenGrant.answered x.answer).map conf.client) s') :
    ∃ rest result s'',
      Exchange.Does party (call.perform (conf.connector files now) sink project parameter) s
        (x :: rest) result s'' ∧
      Resumes conf x.answer call sink (.global project parameter) rest result := by
  rcases TokenGrant.granted_or_denied x.answer with ⟨token, hgranted⟩ | ⟨e, hdenied⟩
  · have hanswered := TokenGrant.answered_granted hgranted
    rw [hanswered] at hclient
    obtain ⟨rest, result, s'', hdoes, hcalls⟩ := calls_of_client hstay hclient
    refine ⟨rest, result, s'', hdoes, Or.inl ⟨token, hgranted⟩, ?_, ?_⟩
    · intro token' hgranted'
      have hsame := hanswered.symm.trans (TokenGrant.answered_granted hgranted')
      exact Except.ok.inj hsame ▸ hcalls
    · intro e hdenied
      have hsame := hanswered.symm.trans (TokenGrant.answered_denied hdenied)
      simp at hsame
  · have hanswered := TokenGrant.answered_denied hdenied
    rw [hanswered] at hclient
    refine ⟨[], _, s', KeyCall.does_perform_error hclient, Or.inr ⟨e, hdenied⟩, ?_, ?_⟩
    · intro token hgranted
      have hsame := hanswered.symm.trans (TokenGrant.answered_granted hgranted)
      simp at hsame
    · intro e' hdenied'
      have hsame := hanswered.symm.trans (TokenGrant.answered_denied hdenied')
      exact ⟨rfl, by rw [Except.error.inj hsame]⟩

private theorem trades_of_account (h : conf.HasAccount files now a assertion)
    (hstay : Exchange.Stays party (call.perform (conf.connector files now) sink project parameter) s) :
    Trades conf a assertion call sink (.global project parameter)
      (Exchange.sent party (call.perform (conf.connector files now) sink project parameter) s)
      (Exchange.run party (call.perform (conf.connector files now) sink project parameter) s).1 := by
  constructor
  · intro ho
    have hclient : Remote.Does party _ s [] _ s := ClientConf.does_ofConf_nowhere h ho s
    exact ⟨(KeyCall.does_perform_error hclient).sent, (KeyCall.does_perform_error hclient).value⟩
  · intro o ho
    obtain ⟨d, s', htrade, hclient⟩ :=
      ClientConf.does_ofConf_account h ho (KeyCall.stays_ofConf hstay)
    obtain ⟨rest, result, s'', hdoes, hresumes⟩ := resumes_of_trade hstay hclient
    exact ⟨d, rest, hdoes.sent, htrade, hdoes.value ▸ hresumes⟩

/-- **An operation follows its credentials.**

Every configuration is one that gets no token, one that holds a token, or one of an account that
signs an assertion.  If nothing is sent on to another place, what an operation sends and what it
comes to is fixed by which of these it is: nothing is sent for the first, the call for the
second, and for the third the trade of the assertion, with the call after it exactly if the
answer to the trade is a token.  A call gives exactly one access token, the one held or the one
of the answer.  Each failure to get a token is one to make the client.

With a token in the configuration the files do not matter. -/
theorem operation_follows_credentials (party : Exchange.Party σ) (conf : ClientConf)
    (files : FileTree) (now : Nat) (call : KeyCall) (sink : Sink) (project parameter : String)
    (s : σ)
    (hstay : Exchange.Stays party (call.perform (conf.connector files now) sink project parameter) s) :
    let operation files := call.perform (conf.connector files now) sink project parameter
    ((∃ e, conf.IsUnready files now e) ∨ (∃ token, conf.HasToken token) ∨
      ∃ a assertion, conf.HasAccount files now a assertion) ∧
    FollowsCredentials conf files now call sink (.global project parameter)
      (Exchange.sent party (operation files) s) (Exchange.run party (operation files) s).1 ∧
    ∀ token, conf.HasToken token → ∀ files', operation files' = operation files := by
  intro operation
  refine ⟨conf.holds_cases files now, ⟨?_, ?_, ?_⟩, ?_⟩
  · intro e h
    have hclient : Remote.Does party _ s [] _ s := ClientConf.does_ofConf_unready h s
    exact ⟨(KeyCall.does_perform_error hclient).sent, (KeyCall.does_perform_error hclient).value⟩
  · intro token h
    have hclient : Remote.Does party (Client.ofConf conf files now) s [] (.ok (conf.client token)) s
        := ClientConf.ofConf_of_hasToken h files now ▸ Remote.does_pure _ s
    obtain ⟨rest, result, s', hdoes, hcalls⟩ := calls_of_client hstay hclient
    rw [hdoes.sent, hdoes.value]
    exact hcalls
  · intro a assertion h
    exact trades_of_account h hstay
  · intro token h files'
    show call.perform _ _ _ _ = call.perform _ _ _ _
    rw [ClientConf.connector, ClientConf.connector, ClientConf.ofConf_of_hasToken h,
      ClientConf.ofConf_of_hasToken h]

end

/-- With a token and the file of an account, the token is sent and the file is not asked for. -/
theorem token_before_account :
    let conf : ClientConf :=
      { url := "http://localhost", accessToken := some "token", keyPath := some (.ofString "key") }
    let operation := KeyCall.get.perform (conf.connector default 0) {} "p" "db"
    let script : Script := { responses := [.empty .notFound] }
    let sent := Exchange.sent Script.answer operation script
    Exchange.Stays Script.answer operation script ∧
      FollowsCredentials conf default 0 .get {} (.global "p" "db") sent
        (Exchange.run Script.answer operation script).1 ∧
      sent.map (·.request.authorization) = [[Message.bearer "token"]] := by
  intro conf operation script sent
  have hnone : ∀ r ∈ Script.exhausted :: script.responses, ¬r.SendsOn := by decide
  have hstay : Exchange.Stays Script.answer operation script := by
    intro d hd r hr
    obtain ⟨r', hr', hmem⟩ := Exchange.answer_of_script hd
    obtain rfl := Option.some.inj (hr.symm.trans hr')
    exact hnone r (List.mem_cons.mpr hmem.symm)
  have hfollows :=
    operation_follows_credentials Script.answer conf default 0 .get {} "p" "db" script hstay
  exact ⟨hstay, hfollows.2.1, by decide +kernel⟩

/-- A token that no header can hold is not sent, and that is a failure of the call. -/
theorem broken_token_not_sent :
    let conf : ClientConf := { url := "http://localhost", accessToken := some "a\nb" }
    let operation := KeyCall.get.perform (conf.connector default 0) {} "p" "db"
    let script : Script := { responses := [.empty .notFound] }
    (Url.parse conf.url).toOption.isSome = true ∧
      (Exchange.sent Script.answer operation script).length = 0 ∧
      (Exchange.run Script.answer operation script).1.1 = .error (.getParameter .transport) := by
  decide +kernel

end ParameterManager
