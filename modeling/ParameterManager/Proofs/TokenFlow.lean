/-
An access token goes into one header, and nowhere else.

Whatever is called, in whatever order, and whatever is answered, a configuration with one
token and the same configuration with another cannot be told apart by what the calls come
to, by what they write, or by what they ask for: only the header values that hold the token
differ.  So no address, no body, no line and no message of an error shows a token.

Both tokens must be ones that a header can hold.  A token that cannot be sent is found out,
and that is a difference.
-/
import ParameterManager.Proofs.CredentialFlow
import ParameterManager.Proofs.Http.Alike

namespace ParameterManager

open Registry (KeyCall)

private theorem run_bind_eq {α β : Type} (x : Remote α) (f : α → Remote β) :
    ExceptT.run (x >>= f) = ExceptT.run x >>= ExceptT.bindCont f := rfl

/-- What may fail is alike if its parts are. -/
theorem Remote.alike_bind {α β : Type} {alike : Request → Request → Prop} {x x' : Remote α}
    {f f' : α → Remote β} (h : Exchange.Alike alike (ExceptT.run x) (ExceptT.run x'))
    (hf : ∀ a, Exchange.Alike alike (ExceptT.run (f a)) (ExceptT.run (f' a))) :
    Exchange.Alike alike (ExceptT.run (x >>= f)) (ExceptT.run (x' >>= f')) := by
  refine Exchange.Alike.bind (f := ExceptT.bindCont f) h fun result => ?_
  cases result with
  | error e => exact .done _
  | ok a => exact hf a

/-! ### Calls -/

/-- A call with a configuration: an operation, or a call on a client of its own. -/
inductive ClientCall
  | operation (call : KeyCall) (sink : Sink) (project parameter : String)
  | get (n : ParameterName)
  | update (r : UpdateRequest)

namespace ClientCall

/-- Makes a call: what it comes to, and the sink after it, if it has one. -/
def make (conf : ClientConf) (files : FileTree) (now : Nat) :
    ClientCall → Exchange (ClientResult Parameter × Option Sink)
  | operation call sink project parameter => do
    let done ← call.perform (conf.connector files now) sink project parameter
    pure (done.1, some done.2)
  | get n => do
    let result ← ExceptT.run (Client.ofConf conf files now >>= fun c => c.get n)
    pure (result, none)
  | update r => do
    let result ← ExceptT.run (Client.ofConf conf files now >>= fun c => c.update r)
    pure (result, none)

/-- Makes calls, one after the other. -/
def makeAll (conf : ClientConf) (files : FileTree) (now : Nat) :
    List ClientCall → Exchange (List (ClientResult Parameter × Option Sink))
  | [] => pure []
  | call :: calls => do
    let outcome ← call.make conf files now
    let outcomes ← makeAll conf files now calls
    pure (outcome :: outcomes)

end ClientCall

/-! ### Two tokens -/

section

variable {token token' : String} (htoken : IsHeaderText token) (htoken' : IsHeaderText token')

include htoken htoken'

private theorem alike_get (serverUrl : String) (n : ParameterName) :
    Exchange.Alike (Request.SameBut token token')
      (ExceptT.run (Client.get ⟨serverUrl, token⟩ n))
      (ExceptT.run (Client.get ⟨serverUrl, token'⟩ n)) := by
  refine Remote.alike_bind (.done _) fun u => Remote.alike_bind ?_ fun _ => .done _
  exact (Message.sameBut_withToken _ token token').send htoken htoken'

private theorem alike_update (serverUrl : String) (r : UpdateRequest) :
    Exchange.Alike (Request.SameBut token token')
      (ExceptT.run (Client.update ⟨serverUrl, token⟩ r))
      (ExceptT.run (Client.update ⟨serverUrl, token'⟩ r)) := by
  refine Remote.alike_bind (.done _) fun u => Remote.alike_bind ?_ fun _ => .done _
  exact ((Message.sameBut_withToken _ token token').withBody _ _).send htoken htoken'

private theorem alike_ask (serverUrl : String) (call : KeyCall) (n : ParameterName) :
    Exchange.Alike (Request.SameBut token token')
      (ExceptT.run (call.ask ⟨serverUrl, token⟩ n)) (ExceptT.run (call.ask ⟨serverUrl, token'⟩ n)) := by
  cases call with
  | get => exact alike_get htoken htoken' serverUrl n
  | change k => exact alike_update htoken htoken' serverUrl (k.request n)

omit htoken htoken' in
/-- What is done with a client is alike if it is for both tokens.  Making the client asks
nothing, and fails for both or for neither. -/
private theorem alike_ofConf {β : Type} {alike : Request → Request → Prop} (conf : ClientConf)
    (files : FileTree) (now : Nat) {f : ClientResult Client → Exchange β}
    (hf : ∀ serverUrl, Exchange.Alike alike (f (.ok ⟨serverUrl, token⟩)) (f (.ok ⟨serverUrl, token'⟩)))
    (hrefl : ∀ e, Exchange.Alike alike (f (.error e)) (f (.error e))) :
    Exchange.Alike alike (ExceptT.run (Client.ofConf (conf.withToken token) files now) >>= f)
      (ExceptT.run (Client.ofConf (conf.withToken token') files now) >>= f) := by
  have hclient : ∀ t, ExceptT.run (Client.ofConf (conf.withToken t) files now)
      = Exchange.done (((Url.parse (Client.dropSlashes conf.url)).mapError ClientError.url).map
        fun _ => ⟨Client.dropSlashes conf.url, t⟩) := by
    intro t
    unfold Client.ofConf
    show ExceptT.run (Remote.ofResult ((Url.parse (Client.dropSlashes conf.url)).mapError _) >>= _) = _
    cases Url.parse (Client.dropSlashes conf.url) with
    | error e => rfl
    | ok u => rfl
  rw [hclient token, hclient token']
  cases Url.parse (Client.dropSlashes conf.url) with
  | error e => exact hrefl _
  | ok u => exact hf _

omit htoken htoken' in
private theorem alike_client {β : Type} {alike : Request → Request → Prop} (conf : ClientConf)
    (files : FileTree) (now : Nat) {f : Client → Remote β}
    (hf : ∀ serverUrl, Exchange.Alike alike (ExceptT.run (f ⟨serverUrl, token⟩))
      (ExceptT.run (f ⟨serverUrl, token'⟩))) :
    Exchange.Alike alike (ExceptT.run (Client.ofConf (conf.withToken token) files now >>= f))
      (ExceptT.run (Client.ofConf (conf.withToken token') files now >>= f)) := by
  rw [run_bind_eq, run_bind_eq]
  refine alike_ofConf conf files now (fun serverUrl => ?_) fun e => ?_
  · exact hf serverUrl
  · exact .done _

private theorem alike_make (conf : ClientConf) (files : FileTree) (now : Nat) (call : ClientCall) :
    Exchange.Alike (Request.SameBut token token')
      (call.make (conf.withToken token) files now) (call.make (conf.withToken token') files now) := by
  cases call with
  | operation call sink project parameter =>
      refine Exchange.Alike.bind ?_ fun _ => .done _
      rw [KeyCall.perform_eq, KeyCall.perform_eq]
      refine alike_ofConf conf files now (fun serverUrl => ?_) fun _ => .done _
      exact Exchange.Alike.bind (alike_ask htoken htoken' serverUrl call _) fun _ => .done _
  | get n =>
      refine Exchange.Alike.bind ?_ fun _ => .done _
      refine alike_client conf files now fun serverUrl => ?_
      exact alike_get htoken htoken' serverUrl n
  | update r =>
      refine Exchange.Alike.bind ?_ fun _ => .done _
      refine alike_client conf files now fun serverUrl => ?_
      exact alike_update htoken htoken' serverUrl r

private theorem alike_makeAll (conf : ClientConf) (files : FileTree) (now : Nat)
    (calls : List ClientCall) :
    Exchange.Alike (Request.SameBut token token')
      (ClientCall.makeAll (conf.withToken token) files now calls)
      (ClientCall.makeAll (conf.withToken token') files now calls) := by
  induction calls with
  | nil => exact .done _
  | cons call calls ih =>
      refine Exchange.Alike.bind (alike_make htoken htoken' conf files now call) fun _ => ?_
      exact Exchange.Alike.bind ih fun _ => .done _

/-- **An access token flows into the header of its requests only.**

With one token and with another, calls come to the same results and write the same, and they
send the same requests to the same places for the same answers, but for the header values of
the tokens. -/
theorem token_only_in_header (conf : ClientConf) (files : FileTree) (now : Nat)
    (calls : List ClientCall) (responses : List Response) :
    let made t := ClientCall.makeAll (conf.withToken t) files now calls
    let script : Script := { responses }
    (Exchange.run Script.answer (made token) script).1
        = (Exchange.run Script.answer (made token') script).1 ∧
      List.Forall₂ (Sent.Alike (Request.SameBut token token'))
        (Exchange.sent Script.answer (made token) script)
        (Exchange.sent Script.answer (made token') script) := by
  intro made script
  have halike := alike_makeAll htoken htoken' conf files now calls
  obtain ⟨hvalue, -, hsent⟩ :=
    halike.outcome (Script.ignores (Request.SameBut token token')) (rfl : script.responses = _)
  exact ⟨hvalue, hsent⟩

end

/-- A call that is sent on to another host, and an operation after it: the first token and the
second show in two of three requests. -/
theorem tokens_show_in_header :
    let conf : ClientConf := { url := "http://localhost" }
    let calls : List ClientCall := [.get (.global "p" "db"), .operation .get {} "p" "db"]
    let script : Script :=
      { responses := [{ status := ⟨302⟩, location := some (Utf8.encode "http://other/") }] }
    let made t := ClientCall.makeAll (conf.withToken t) default 0 calls
    IsHeaderText "one" ∧ IsHeaderText "t\two" ∧
      List.Forall₂ (Sent.Alike (Request.SameBut "one" "t\two"))
        (Exchange.sent Script.answer (made "one") script)
        (Exchange.sent Script.answer (made "t\two") script) ∧
      (Exchange.sent Script.answer (made "t\two") script).map (·.request.authorization)
        = [[Message.bearer "t\two"], [], [Message.bearer "t\two"]] := by
  intro conf calls script made
  have hone : IsHeaderText "one" := by decide
  have htwo : IsHeaderText "t\two" := by decide
  have hboth := token_only_in_header hone htwo conf default 0 calls script.responses
  exact ⟨hone, htwo, hboth.2, by decide +kernel⟩

end ParameterManager
