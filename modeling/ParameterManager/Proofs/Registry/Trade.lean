/-
Trading an assertion at a registry on this machine.

The form that is posted comes back as it was, so the registry sees the assertion itself: it
gives its token for a text of three parts, and that is what an assertion is.  A trade asks
once, changes nothing, and ends with the token, unless the form is too long to be looked at.
-/
import Mathlib.Data.Nat.Digits.Defs
import ParameterManager.Proofs.Credential.Assertion
import ParameterManager.Proofs.Registry.Local

namespace ParameterManager.Registry

variable {port : UInt16} {a : ServiceAccount} {now : Nat} {assertion : String}

/-! ### The address -/

/-- The address at which a registry on this machine gives tokens. -/
def tokenUrl (port : UInt16) : Url := Url.localUrl port ["token"]

private theorem utf8ByteSize_le (cs : List Char) :
    (String.ofList cs).utf8ByteSize ≤ 4 * cs.length := by
  induction cs with
  | nil => exact Nat.zero_le _
  | cons c cs ih =>
      have hsplit : String.ofList (c :: cs) = String.singleton c ++ String.ofList cs := by
        rw [← String.ofList_cons]
      have hone := c.utf8Size_le_four
      rw [hsplit, String.utf8ByteSize_append, String.utf8ByteSize_singleton, List.length_cons]
      omega

/-- A port has five digits at most. -/
private theorem utf8ByteSize_port (port : UInt16) : (toString port.toNat).utf8ByteSize ≤ 20 := by
  have hlength : (Nat.toDigits 10 port.toNat).length ≤ 5 :=
    Nat.toDigitsCore_length 10 _ _ 5 (by decide) (Nat.lt_trans port.toNat_lt (by decide))
  have hsize := utf8ByteSize_le (Nat.toDigits 10 port.toNat)
  have htext : toString port.toNat = String.ofList (Nat.toDigits 10 port.toNat) := rfl
  rw [htext]
  omega

private theorem target_tokenUrl (port : UInt16) : (tokenUrl port).target = "/token" := by
  have hclosed : (UrlPath.segments ["token"]).text = "/token" := by decide +kernel
  exact hclosed

/-- The address is never too long. -/
theorem isShort_tokenUrl (port : UInt16) : Message.isShort (tokenUrl port) = true := by
  have hport := utf8ByteSize_port port
  have hhost : Url.loopback.text.utf8ByteSize = 9 := by decide +kernel
  have hfixed : "http".utf8ByteSize = 4 ∧ "//".utf8ByteSize = 2 ∧ ":".utf8ByteSize = 1 ∧
      "/token".utf8ByteSize = 6 ∧ "".utf8ByteSize = 0 := by decide +kernel
  obtain ⟨hhttp, hslashes, hcolon, htoken, hempty⟩ := hfixed
  rw [Message.isShort, decide_eq_true_eq, Message.maxUrl]
  have htext : (tokenUrl port).text = "http" ++ ":" ++
      ("//" ++ (tokenUrl port).authority Url.loopback) ++ (tokenUrl port).target ++ "" := rfl
  rw [htext, target_tokenUrl, tokenUrl, Url.authority_localUrl]
  split
  · simp only [String.utf8ByteSize_append]
    omega
  · simp only [String.utf8ByteSize_append]
    omega

/-! ### The request -/

/-- The request that trades an assertion, as it arrives. -/
def tradeRequest (assertion : String) : Request where
  method := "POST"
  target := "/token"
  contentType := [Utf8.encode TokenGrant.formType]
  body := Utf8.encode (TokenGrant.form assertion)

/-- The response that gives the token. -/
def tokenResponse : Response :=
  jsonResponse .ok (.object [("access_token", .string accessToken), ("expires_in", .ofNat 3600),
    ("token_type", .string "Bearer")])

/-- The form of an assertion is not too long to be looked at. -/
def FormFits (assertion : String) : Prop :=
  (Utf8.encode (TokenGrant.form assertion)).length ≤ maxForm

instance (assertion : String) : Decidable (FormFits assertion) :=
  inferInstanceAs (Decidable (_ ≤ _))

/-- What is in a form besides the assertion. -/
def formFrame : Nat := 75

/-- **No character of an assertion is escaped**, so the form is as much longer as its frame is. -/
theorem formFits_iff {signature : Bytes} (h : Assertion.IsMadeOf a now assertion signature) :
    FormFits assertion ↔ assertion.toList.length + formFrame ≤ maxForm := by
  have hgrant : (Form.encodePair (TokenGrant.grantTypeName, TokenGrant.assertionGrant)).length = 64
      := by decide +kernel
  have hname : (Form.encodeText TokenGrant.assertionName).length = 9 := by decide +kernel
  have hself : Form.encodeText assertion = assertion.toList :=
    Form.encodeText_of_isPlain fun _ => h.isPlain
  have hlength : (Utf8.encode (TokenGrant.form assertion)).length
      = assertion.toList.length + formFrame := by
    have hpair : (Form.encodePair (TokenGrant.assertionName, assertion)).length
        = 10 + assertion.toList.length := by
      rw [Form.encodePair, List.length_append, hname, List.length_cons, hself]
      omega
    rw [TokenGrant.form, Form.length_encode, Form.encode, String.toList_ofList, List.map_cons,
      List.map_singleton, List.intercalate_cons_of_ne_nil (List.cons_ne_nil _ _),
      List.intercalate_singleton, List.length_append, List.length_append, hgrant, hpair,
      List.length_singleton, formFrame]
    omega
  rw [FormFits, hlength]

private theorem ofRequest?_trade (assertion : String) :
    Route.ofRequest? (tradeRequest assertion) = some .token := by
  have hmethod : (tradeRequest assertion).method = "POST" := rfl
  have htarget : (tradeRequest assertion).target = "/token" := rfl
  have hget : ("POST" : String) ≠ "GET" := by decide
  have hpatch : ("POST" : String) ≠ "PATCH" := by decide
  have hsegments : Route.segments (Route.splitTarget "/token").1 = ["", "token"] := by
    decide +kernel
  simp only [Route.ofRequest?, hmethod, htarget, if_neg hget, if_neg hpatch, hsegments, and_self,
    if_true]

private theorem formCharset?_of_formType {q : Request}
    (h : q.contentType = [Utf8.encode TokenGrant.formType]) : formCharset? q = some .utf8 := by
  unfold formCharset?
  rw [h]
  decide +kernel

private theorem body_tradeRequest (assertion : String) :
    (tradeRequest assertion).body = Utf8.encode (TokenGrant.form assertion) := by
  simp only [tradeRequest]

private theorem formBody_trade (hfits : FormFits assertion) :
    formBody (tradeRequest assertion)
      = .ok [(TokenGrant.grantTypeName, TokenGrant.assertionGrant),
          (TokenGrant.assertionName, assertion)] := by
  have hshort : ¬maxForm < (tradeRequest assertion).body.length := by
    rw [body_tradeRequest]
    exact Nat.not_lt.mpr hfits
  have hcharset : formCharset? (tradeRequest assertion) = some .utf8 :=
    formCharset?_of_formType rfl
  unfold formBody
  rw [hcharset]
  simp only [if_neg hshort, if_true]
  rw [body_tradeRequest, TokenGrant.form, Form.decode_encode]

private theorem grantFields_trade (assertion : String) :
    grantFields [(TokenGrant.grantTypeName, TokenGrant.assertionGrant),
        (TokenGrant.assertionName, assertion)]
      = .ok (TokenGrant.assertionGrant, assertion) := rfl

/-- **A form with an assertion of three parts is accepted.** -/
theorem grant_trade (hparts : (Text.split '.' assertion).length = 3) (hfits : FormFits assertion) :
    grant (tradeRequest assertion) = tokenResponse := by
  simp only [grant, formBody_trade hfits, grantFields_trade, grantFor, ne_eq, not_true_eq_false,
    hparts, if_false, tokenResponse]

theorem handle_trade (hparts : (Text.split '.' assertion).length = 3) (hfits : FormFits assertion)
    (r : Registry) : r.handle (tradeRequest assertion) = (tokenResponse, r) := by
  simp only [handle, ofRequest?_trade, grant_trade hparts hfits]

/-! ### The token -/

theorem isGranted_tokenResponse : TokenGrant.IsGranted (some tokenResponse) accessToken := by
  have hread : (TokenGrant.wire.ofString tokenResponse.text).toOption.map (·.accessToken)
      = some accessToken := by
    decide +kernel
  cases h : TokenGrant.wire.ofString tokenResponse.text with
  | ok g =>
      rw [h] at hread
      exact Option.some.inj hread ▸ .mk rfl h
  | error e =>
      rw [h] at hread
      simp [Except.toOption] at hread

private theorem ofResponse_tokenResponse :
    TokenGrant.ofResponse tokenResponse = .ok accessToken := by
  have hanswered : ∀ response,
      TokenGrant.answered (some response) = TokenGrant.ofResponse response := fun _ => rfl
  rw [← hanswered]
  exact TokenGrant.answered_granted isGranted_tokenResponse

/-! ### Trades -/

private theorem message_local (hplace : Url.parse a.tokenUri = .ok (tokenUrl port))
    (assertion : String) :
    ∃ m, TokenGrant.message a assertion = .ok m ∧ IsLocal port m ∧ m.url = tokenUrl port ∧
      m.request = tradeRequest assertion := by
  have hurl : Message.ofUrl "POST" (tokenUrl port) = { method := "POST", url := tokenUrl port } :=
    ofUrl_local "POST" rfl rfl
  refine ⟨(Message.ofUrl "POST" (tokenUrl port)).withBody TokenGrant.formType
    (Utf8.encode (TokenGrant.form assertion)), ?_, ?_⟩
  · simp only [TokenGrant.message, hplace]
  · rw [hurl]
    refine ⟨⟨⟨["token"], none, ?_, by simp⟩, rfl⟩, rfl, ?_⟩
    · have hwritten : ["token"].map Url.written = ["token"] := by decide
      rw [hwritten]
      rfl
    · simp only [Message.request, Message.withBody, target_tokenUrl, tradeRequest]

/-- The request that arrives trades the assertion at the endpoint of the account. -/
theorem isTrade_local (hplace : Url.parse a.tokenUri = .ok (tokenUrl port)) (assertion : String)
    (answer : Option Response) :
    TokenGrant.IsTrade a assertion ⟨Url.localOrigin port, tradeRequest assertion, answer⟩ := by
  obtain ⟨m, hm, hlocal, hurl, hrequest⟩ := message_local hplace assertion
  have hdestination : m.destination? = some (Url.localOrigin port) := by
    rw [destination?_local hlocal, hurl, if_pos (isShort_tokenUrl port)]
  rw [← hrequest]
  exact TokenGrant.isTrade_message hm hdestination answer

/-- **A trade is one request, which changes nothing, and gives the token.** -/
theorem does_retrieve (hplace : Url.parse a.tokenUri = .ok (tokenUrl port))
    (hcreate : Assertion.create a now = .ok assertion) (hfits : FormFits assertion)
    (r : Registry) :
    Remote.Does (localParty port) (TokenGrant.retrieve a now) r
      [⟨Url.localOrigin port, tradeRequest assertion, some tokenResponse⟩] (.ok accessToken) r := by
  obtain ⟨signature, hmade⟩ := Assertion.create_eq_ok hcreate
  have hparts := hmade.length_split
  obtain ⟨m, hm, hlocal, hurl, hrequest⟩ := message_local hplace assertion
  have hshort : Message.isShort m.url = true := by
    rw [hurl]
    exact isShort_tokenUrl port
  have hsend := does_send hlocal hshort r (by
    rw [hrequest, handle_trade hparts hfits]
    rfl)
  rw [hrequest, handle_trade hparts hfits] at hsend
  rw [TokenGrant.retrieve_eq_send hcreate hm]
  refine Remote.does_bind hsend ?_
  rw [ofResponse_tokenResponse]
  exact Remote.does_ofResult _ r

end ParameterManager.Registry
