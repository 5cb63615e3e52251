/-
A rejection by the registry reaches the caller as it is.

The registry rejects a request with a code, a status and a message, and the message may hold
a name with any characters.  The client reads them back and puts the path of the request
before them; an operation says whether it was reading or changing; and the command prints
that as its error, with nothing else.  On none of these ways is anything of the status or of
the message lost or added.

A request that is accepted never comes back as a rejection.
-/
import ParameterManager.Proofs.CommandLine
import ParameterManager.Proofs.CredentialFlow
import ParameterManager.Proofs.Registry.Verdict

namespace ParameterManager

open Registry (KeyCall localParty tokenClient errorResponse)

/-! ### Paths -/

/-- The path of a name in an address, its identifiers written with escapes. -/
def ParameterName.path (n : ParameterName) : String :=
  "/v1/projects/" ++ Url.written n.project ++ "/locations/" ++ Url.written n.location ++
    "/parameters/" ++ Url.written n.parameter

theorem ParameterName.pathOf_addressed {n : ParameterName} (h : n.IsPlain) :
    Route.pathOf n.addressed = n.path := by
  have haddressed : n.addressed = "v1" :: n.segments :=
    (addressed_eq_iff.mpr ⟨h.stripped_eq.symm, h.stripped_eq.symm ▸ h⟩).1
  have hwords : Url.written "v1" = "v1" ∧ Url.written "projects" = "projects" ∧
      Url.written "locations" = "locations" ∧ Url.written "parameters" = "parameters" := by decide
  obtain ⟨hversion, hprojects, hlocations, hparameters⟩ := hwords
  have hchars : (Route.pathOf n.addressed).toList = n.path.toList := by
    rw [haddressed, segments, Route.toList_pathOf]
    show _ = ("/v1/projects/" ++ Url.written n.project ++ "/locations/" ++ Url.written n.location ++
      "/parameters/" ++ Url.written n.parameter).toList
    simp only [List.flatMap_cons, List.flatMap_nil, hversion, hprojects, hlocations, hparameters,
      String.toList_append, List.append_nil]
    generalize (Url.written n.project).toList = project
    generalize (Url.written n.location).toList = location
    generalize (Url.written n.parameter).toList = parameter
    simp
  exact String.toList_inj.mp hchars

/-! ### Calls, operations and commands -/

namespace Registry.KeyCall

/-- The call that an operation makes for a name. -/
def toCall (n : ParameterName) : KeyCall → Registry.Call
  | get => .get n
  | change k => .update (k.request n)

/-- What an operation makes of an error of its call. -/
def wrap : KeyCall → ClientError → ClientError
  | get => .getParameter
  | change _ => .updateParameter

theorem ask_toCall (call : KeyCall) (c : Client) (n : ParameterName) :
    call.ask c n = (call.toCall n).make c := by
  cases call with
  | get => rfl
  | change k => rfl

theorem name_toCall (call : KeyCall) (n : ParameterName) : (call.toCall n).name = n := by
  cases call with
  | get => rfl
  | change k => exact KeyChange.name_request n k

theorem conclude_error (call : KeyCall) (sink : Sink) (e : ClientError) :
    call.conclude sink (.error e) = (.error (call.wrap e), sink) := by
  cases call with
  | get => rfl
  | change k => rfl

end Registry.KeyCall

namespace ParameterCommand

/-- The operation that a command makes. -/
def call : ParameterCommand → KeyCall
  | get _ _ => .get
  | updateKmsKey _ _ key => .change (.set key)
  | removeKmsKey _ _ => .change .clear

/-- The name that a command is about. -/
def name : ParameterCommand → ParameterName
  | get project parameter => .global project parameter
  | updateKmsKey project parameter _ => .global project parameter
  | removeKmsKey project parameter => .global project parameter

theorem operation_eq {m : Type → Type} [Monad m] (c : Connector m) (s : Sink)
    (command : ParameterCommand) :
    command.operation c s = command.call.perform c s command.name.project command.name.parameter := by
  cases command with
  | get project parameter => rfl
  | updateKmsKey project parameter key => rfl
  | removeKmsKey project parameter => rfl

theorem global_name (command : ParameterCommand) :
    ParameterName.global command.name.project command.name.parameter = command.name := by
  cases command with
  | get project parameter => rfl
  | updateKmsKey project parameter key => rfl
  | removeKmsKey project parameter => rfl

end ParameterCommand

/-! ### Rejections on their way -/

/-- One of some requests was rejected. -/
def RejectedWith (sent : List Sent) (e : ApiError) : Prop :=
  ∃ d ∈ sent, d.answer = some (errorResponse e)

instance (sent : List Sent) (e : ApiError) : Decidable (RejectedWith sent e) :=
  List.decidableBEx _ sent

/-- One of some requests was accepted. -/
def Accepted (sent : List Sent) : Prop :=
  ∃ d ∈ sent, d.answer.any (·.status.isSuccess) = true

instance (sent : List Sent) : Decidable (Accepted sent) :=
  List.decidableBEx _ sent

section

variable {port : UInt16} {token : String} {r : Registry} {e : ApiError} {conf : ClientConf}

private theorem rejected_call (htoken : IsHeaderText token) {call : Registry.Call}
    (hname : call.name.IsPlain)
    (h : RejectedWith (Exchange.sent (localParty port)
      (ExceptT.run (call.make (tokenClient port token))) r) e) :
    e.code ∈ [400, 401, 404] ∧ ∃ d s,
      Remote.Does (localParty port) (call.make (tokenClient port token)) r [d]
        (.error (Registry.rejectionOf call.name.path e)) s := by
  obtain ⟨d, hd, hanswer⟩ := h
  by_cases hshort : Message.isShort (call.url port) = true
  · have hdoes := Registry.Call.does_make htoken hshort r
    rw [hdoes.sent, List.mem_singleton] at hd
    rw [hd] at hanswer
    have hreport := Option.some.inj hanswer
    have hverdict := Registry.Call.verdict_of_errorResponse hname hreport
    obtain ⟨hcode, hstatus⟩ := Registry.Call.code_of_verdict hverdict
    have hresult : Client.ofResponse (Route.pathOf call.name.addressed)
        (r.handle (call.request token)).1 = .error (Registry.rejectionOf call.name.path e) := by
      rw [hreport, ParameterName.pathOf_addressed hname]
      exact Registry.ofResponse_errorResponse call.name.path
        (Registry.Call.refused_of_verdict hverdict) hstatus
    rw [hresult] at hdoes
    exact ⟨hcode, _, _, hdoes⟩
  · rw [(Registry.Call.does_make_long htoken hshort r).sent] at hd
    exact absurd hd List.not_mem_nil

private theorem accepted_call (htoken : IsHeaderText token) {call : Registry.Call}
    (hname : call.name.IsPlain)
    (h : Accepted (Exchange.sent (localParty port)
      (ExceptT.run (call.make (tokenClient port token))) r)) :
    ∃ p, (Remote.run (localParty port) (call.make (tokenClient port token)) r).1 = .ok p := by
  obtain ⟨d, hd, hsuccess⟩ := h
  by_cases hshort : Message.isShort (call.url port) = true
  · have hdoes := Registry.Call.does_make htoken hshort r
    rw [hdoes.sent, List.mem_singleton] at hd
    rw [hd, Option.any_some] at hsuccess
    obtain ⟨hfits, p, hverdict⟩ := Registry.Call.verdict_of_success hname hsuccess
    refine ⟨p, hdoes.value.trans ?_⟩
    rw [Registry.Call.handle_request hname hfits, Registry.Call.ofResponse_verdict, hverdict]
    rfl
  · rw [(Registry.Call.does_make_long htoken hshort r).sent] at hd
    exact absurd hd List.not_mem_nil

/-- An operation sends what its call sends, and fails as its call does. -/
private theorem does_operation (hconf : conf.accessToken = some token)
    (hurl : Client.dropSlashes conf.url = Url.localText port) (files : FileTree) (now : Nat)
    (call : KeyCall) (sink : Sink) (project parameter : String) {answer : ClientResult Parameter}
    {d : List Sent} {s : Registry}
    (h : Remote.Does (localParty port)
      ((call.toCall (.global project parameter)).make (tokenClient port token)) r d answer s) :
    Exchange.Does (localParty port)
      (call.perform (conf.connector files now) sink project parameter) r d
      (call.conclude sink answer) s := by
  have htoken : conf.HasToken token :=
    ⟨⟨_, by rw [hurl]; exact Url.parse_localText port⟩, hconf⟩
  have hclient : conf.client token = tokenClient port token := by
    rw [ClientConf.client, hurl]
    rfl
  have hmade : Remote.Does (localParty port) (Client.ofConf conf files now) r []
      (.ok (tokenClient port token)) r := by
    rw [ClientConf.ofConf_of_hasToken htoken, hclient]
    exact Remote.does_pure _ r
  rw [← KeyCall.ask_toCall] at h
  exact KeyCall.does_perform hmade h

private theorem rejected_operation (htoken : IsHeaderText token)
    (hconf : conf.accessToken = some token)
    (hurl : Client.dropSlashes conf.url = Url.localText port) {files : FileTree} {now : Nat}
    {call : KeyCall} {sink : Sink} {project parameter : String}
    (hname : (ParameterName.global project parameter).IsPlain)
    (h : RejectedWith (Exchange.sent (localParty port)
      (call.perform (conf.connector files now) sink project parameter) r) e) :
    (Exchange.run (localParty port)
      (call.perform (conf.connector files now) sink project parameter) r).1
      = (.error (call.wrap (Registry.rejectionOf (ParameterName.global project parameter).path e)),
        sink) := by
  have hself := does_operation hconf hurl files now call sink project parameter
    (Exchange.Does.self (localParty port)
      (ExceptT.run ((call.toCall (.global project parameter)).make (tokenClient port token))) r)
  rw [hself.sent] at h
  have hsame := call.name_toCall (.global project parameter)
  obtain ⟨-, d, s, hcall⟩ := rejected_call htoken (hsame.symm ▸ hname) h
  rw [hsame] at hcall
  have hdoes := does_operation hconf hurl files now call sink project parameter hcall
  rw [hdoes.value, call.conclude_error]

end

/-- **A rejection reaches the caller intact.**

A call is one request with the token, unless its address is too long, and what is answered is
what the registry makes of it.  If that is a rejection, its code is one of three, and the
client gives back exactly its status and its message behind the path of the name; if it is a
success, the client gives back a parameter.  An operation wraps exactly that error and leaves
its sink alone, and a command prints exactly that, fails, and prints nothing else. -/
theorem rejection_reaches_caller (port : UInt16) {token : String} (htoken : IsHeaderText token)
    (r : Registry) :
    (∀ call : Registry.Call, call.name.IsPlain →
      let asked := call.make ⟨Url.localText port, token⟩
      let sent := Exchange.sent (localParty port) (ExceptT.run asked) r
      let result := (Exchange.run (localParty port) (ExceptT.run asked) r).1
      (Message.isShort (call.url port) = true →
        sent = [⟨Url.localOrigin port, call.request token,
          some (r.handle (call.request token)).1⟩]) ∧
      (∀ e, RejectedWith sent e → e.code ∈ [400, 401, 404] ∧
        result = .error (.requestFailed s!"{call.name.path}: {e.status}: {e.message}")) ∧
      (Accepted sent → ∃ p, result = .ok p)) ∧
    ∀ conf : ClientConf, conf.accessToken = some token →
      Client.dropSlashes conf.url = Url.localText port →
      (∀ (files : FileTree) (now : Nat) (call : KeyCall) (sink : Sink) (project parameter : String),
        let n := ParameterName.global project parameter
        let operation := call.perform (conf.connector files now) sink project parameter
        n.IsPlain → ∀ e, RejectedWith (Exchange.sent (localParty port) operation r) e →
          (Exchange.run (localParty port) operation r).1
            = (.error (call.wrap (.requestFailed s!"{n.path}: {e.status}: {e.message}")), sink)) ∧
      ∀ (args : List Bytes) (i : Invocation) (env : Environment) (files files' : FileTree)
        (now : Nat),
        let run := Invocation.runArguments args env files now
        Invocation.read args = .ok i → i.configure env files = (files', .ok conf) →
        i.command.name.IsPlain → ∀ e, RejectedWith (Exchange.sent (localParty port) run r) e →
          (Exchange.run (localParty port) run r).1.Fails (match i.command with
            | .get _ _ => s!"failed to get parameter: REST Request Failed: {
                i.command.name.path}: {e.status}: {e.message}"
            | _ => s!"failed to update parameter: REST Request Failed: {
                i.command.name.path}: {e.status}: {e.message}") := by
  refine ⟨?_, ?_⟩
  · intro call hname asked sent result
    refine ⟨?_, ?_, ?_⟩
    · intro hshort
      exact (Registry.Call.does_make htoken hshort r).sent
    · intro e h
      obtain ⟨hcode, d, s, hdoes⟩ := rejected_call htoken hname h
      exact ⟨hcode, hdoes.value⟩
    · intro h
      exact accepted_call htoken hname h
  · intro conf hconf hurl
    refine ⟨?_, ?_⟩
    · intro files now call sink project parameter n operation hname e h
      exact rejected_operation htoken hconf hurl hname h
    · intro args i env files files' now run hread hconfigure hname e h
      have hrun := Invocation.does_configured (localParty port) hread hconfigure now r
      rw [ParameterCommand.operation_eq] at hrun
      rw [hrun.sent] at h
      have hresult := rejected_operation htoken hconf hurl (by
        rw [ParameterCommand.global_name]
        exact hname) h
      rw [ParameterCommand.global_name] at hresult
      show (Exchange.run (localParty port) run r).1.Fails _
      rw [hrun.value, hresult]
      cases i.command with
      | get project parameter => exact ⟨rfl, rfl, rfl⟩
      | updateKmsKey project parameter key => exact ⟨rfl, rfl, rfl⟩
      | removeKmsKey project parameter => exact ⟨rfl, rfl, rfl⟩

/-- A name with quotation marks that nothing is stored under: a call, an operation and a command
fail with it.  Of a parameter that is stored, a call gives something. -/
theorem quoted_name_reaches_caller :
    let token := Registry.accessToken
    let r := Registry.ofList [{ name := "projects/p/locations/global/parameters/db" }]
    let n := ParameterName.global "p" "\"db\""
    let e := ApiError.unknownName n.display
    let path := "/v1/projects/p/locations/global/parameters/%22db%22"
    let rejection := s!"{path}: NOT_FOUND: Parameter [{n.display}] not found."
    let asked (parameter : String) : Exchange (ClientResult Parameter) :=
      (Registry.Call.get (.global "p" parameter)).make ⟨Url.localText 8080, token⟩
    let conf : ClientConf := { url := "http://127.0.0.1:8080/", accessToken := some token }
    let operation := KeyCall.perform (conf.connector default 0) {} "p" "\"db\"" .get
    let i : Invocation := { conf := some (.ofString "c"), command := .get "p" "\"db\"" }
    let args := ["--conf", "c", "parameters", "get", "-p", "p", "-i", "\"db\""].map Utf8.encode
    let text := "\x7b\"parameter_manager_url\":\"http://127.0.0.1:8080/\"," ++
      "\"access_token\":\"test-access-token\"\x7d"
    let files : FileTree :=
      { entries := [([Utf8.encode "c"], .file (Utf8.encode text))], start := [] }
    let run := Invocation.runArguments args {} files 0
    RejectedWith (Exchange.sent (localParty 8080) (asked "\"db\"") r) e ∧
      (Exchange.run (localParty 8080) (asked "\"db\"") r).1 = .error (.requestFailed rejection) ∧
      Accepted (Exchange.sent (localParty 8080) (asked "db") r) ∧
      (∃ p, (Exchange.run (localParty 8080) (asked "db") r).1 = .ok p) ∧
      RejectedWith (Exchange.sent (localParty 8080) operation r) e ∧
      (Exchange.run (localParty 8080) operation r).1
        = (.error (.getParameter (.requestFailed rejection)), {}) ∧
      Invocation.read args = .ok i ∧ i.configure {} files = (files, .ok conf) ∧
      RejectedWith (Exchange.sent (localParty 8080) run r) e ∧
      (Exchange.run (localParty 8080) run r).1.Fails
        s!"failed to get parameter: REST Request Failed: {rejection}" := by
  intro token r n e path rejection asked conf operation i args text files run
  have htoken : IsHeaderText token := Registry.isHeaderText_accessToken
  have hplain : n.IsPlain := ⟨by decide, by decide, by decide⟩
  have hheld : (ParameterName.global "p" "db").IsPlain := ⟨by decide, by decide, by decide⟩
  have hrejection : s!"{n.path}: {e.status}: {e.message}" = rejection := by decide +kernel
  have hprinted : s!"failed to get parameter: REST Request Failed: {n.path}: {e.status}: {e.message}"
      = s!"failed to get parameter: REST Request Failed: {rejection}" := by decide +kernel
  obtain ⟨hcalls, hconf⟩ := rejection_reaches_caller 8080 htoken r
  obtain ⟨hsent, hcall, -⟩ := hcalls (.get n) hplain
  have hanswer : (r.handle (Registry.Call.request token (.get n))).1 = errorResponse e := by
    have hright : Registry.isAuthorized (Registry.Call.request token (.get n)) = true := by decide +kernel
    have hmissing : r.parameters.get? n.display = none := by decide +kernel
    have hverdict : Registry.Call.verdict r token (.get n) = .error e := by
      rw [Registry.Call.verdict_authorized hright, Registry.Call.granted, Registry.find, hmissing]
    have hnamed : (Registry.Call.get n).name.IsPlain := hplain
    rw [Registry.Call.handle_request hnamed trivial, hverdict]
    rfl
  have hrejected : RejectedWith (Exchange.sent (localParty 8080) (asked "\"db\"") r) e := by
    have hone := hsent (by decide +kernel)
    rw [hanswer] at hone
    exact ⟨_, hone ▸ List.mem_singleton.mpr rfl, rfl⟩
  have haccepted : Accepted (Exchange.sent (localParty 8080) (asked "db") r) := by
    decide +kernel
  have hread : Invocation.read args = .ok i := by decide +kernel
  have hlocation : ClientConf.location? files {} i.conf = .ok (.ofString "c") := by decide +kernel
  have hload : ClientConf.load files (.ofString "c") = (files, .ok conf) := by
    refine Prod.ext rfl ?_
    decide +kernel
  have hconfigure : i.configure {} files = (files, .ok conf) := by
    unfold Invocation.configure
    simp only [hlocation, hload]
    rfl
  obtain ⟨-, -, hcall'⟩ := hcalls (.get (.global "p" "db")) hheld
  have hurl : Client.dropSlashes conf.url = Url.localText 8080 := by decide +kernel
  have hoperation : RejectedWith (Exchange.sent (localParty 8080) operation r) e := by
    have hdoes := does_operation (rfl : conf.accessToken = some token) hurl default 0 .get {} "p" "\"db\""
      (Exchange.Does.self (localParty 8080) (asked "\"db\"") r)
    rw [hdoes.sent]
    exact hrejected
  have hrun : RejectedWith (Exchange.sent (localParty 8080) run r) e := by
    have hdoes := Invocation.does_configured (localParty 8080) hread hconfigure 0 r
    rw [ParameterCommand.operation_eq] at hdoes
    rw [hdoes.sent]
    exact hoperation
  obtain ⟨hoperations, hcommands⟩ := hconf conf rfl hurl
  have hdone := hoperations default 0 .get {} "p" "\"db\"" hplain e hoperation
  have hfails := hcommands args i {} files files 0 hread hconfigure hplain e hrun
  refine ⟨hrejected, ?_, haccepted, hcall' haccepted, hoperation, ?_,
    hread, hconfigure, hrun, ?_⟩
  · rw [← hrejection]
    exact (hcall e hrejected).2
  · rw [← hrejection]
    exact hdone
  · rw [← hprinted]
    exact hfails

end ParameterManager
