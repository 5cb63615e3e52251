/-
Responses with more in them than is asked for.

A service may add members to what it sends, and send members in another order.  Neither is seen:
one object text enriches another if it has its members, in whatever order, and others that nothing
is declared for, with whatever values.  In the body of a report and in a policy member this may
happen again one level below.  A text that enriches another is read as the same, and so a call gives
the same at two responses of which one enriches the other.
-/
import ParameterManager.Proofs.Json.Members
import ParameterManager.Proofs.Response

namespace ParameterManager

open Json (Wire Record MemberText ObjectText Blank Carries Steady)

namespace Json

/-! ### Texts with more members -/

/-- A text of an object has the members of another, changed as may be, and members of names that
are not declared, in any order. -/
inductive Enriches (declared : List String) (kept : MemberText → MemberText → Prop)
    (text text' : List Char) : Prop
  | mk {members members' others further : List MemberText}
    (before : ObjectText members text) (after : ObjectText members' text')
    (same : List.Forall₂ kept members others)
    (undeclared : ∀ m ∈ further, ∃ name, m.Named name ∧ name ∉ declared)
    (order : members'.Perm (further ++ others))

/-- A member is another one, or both have a name and the values are related. -/
def SameOr (name : String) (related : List Char → List Char → Prop) (m m' : MemberText) : Prop :=
  m = m' ∨ m.Named name ∧ m'.Named name ∧ related m.value m'.value

/-- A text stands between blanks. -/
def Between (text : List Char) (s : String) : Prop :=
  ∃ gap gap', Blank gap ∧ Blank gap' ∧ s.toList = gap ++ (text ++ gap')

/-- Two whole texts are related but for the blanks around them. -/
def Whole (related : List Char → List Char → Prop) (s s' : String) : Prop :=
  ∃ text text', Between text s ∧ Between text' s' ∧ related text text'

/-- A member has no two names. -/
theorem MemberText.Named.eq {m : MemberText} {name name' : String} (h : m.Named name)
    (h' : m.Named name') : name = name' := by
  have hc : ('"' :: (m.name ++ ['"'])).map Utf8.Piece.char
      = ('"' :: (m.name ++ ['"'])).map Utf8.Piece.char ++ [] := (List.append_nil _).symm
  obtain ⟨c', hok, -⟩ := h'.reads [] ⟨_, .start, false, false⟩ hc
  exact ((h.reads []).eq_of_ok hc hok).1.symm

namespace Record

variable {σ : Type} {r : Record σ}

/-- The names of the fields of a record. -/
def names (r : Record σ) : List String := r.fields.map (·.name)

theorem field?_eq_none {name : String} (h : name ∉ r.names) : r.field? name = none := by
  rw [field?, List.find?_eq_none]
  intro f hf heq
  exact h (List.mem_map.mpr ⟨f, hf, of_decide_eq_true heq⟩)

/-- **What is read off a record is read off every text that enriches it.** -/
theorem carries (hfields : ∀ f ∈ r.fields, Steady f.wire.read) (horder : r.Orderless)
    {kept : MemberText → MemberText → Prop} {text text' : List Char}
    (hkept : ∀ m m', kept m m' → ValueText m.value → (∀ name, m.Named name → m'.Named name) ∧
      ∀ f ∈ r.fields, m.Named f.name → Carries f.wire.read m.value m'.value)
    (h : Enriches r.names kept text text') : Carries r.wire.read text text' := by
  obtain @⟨members, members', others, further, hbefore, hafter, hsame, hfurther, hperm⟩ := h
  intro gap c c' result rest hgap _ hc hok
  obtain ⟨hc', hread⟩ := readAs_of_ok hfields hbefore hgap hc hok
  have hvalues := (List.forall₂_and_left members others).mpr ⟨hbefore.values, hsame⟩
  have hothers := hread.replaced (hvalues.imp fun m m' hm => hkept m m' hm.2 hm.1)
  have hall : r.ReadAs result (further ++ others) [] r.initial := hothers.further fun m hm => by
    obtain ⟨name, hname, hundeclared⟩ := hfurther m hm
    exact ⟨name, hname, field?_eq_none hundeclared⟩
  exact ⟨hc', (hall.perm horder hperm.symm).reads hafter⟩

theorem carries_same (hfields : ∀ f ∈ r.fields, Steady f.wire.read) (horder : r.Orderless)
    {text text' : List Char} (h : Enriches r.names Eq text text') :
    Carries r.wire.read text text' := by
  refine carries hfields horder ?_ h
  rintro m _ rfl hvalue
  exact ⟨fun _ hname => hname, fun f hf _ => hfields f hf hvalue⟩

/-- One of the members may be of a record itself. -/
theorem carries_below (hfields : ∀ f ∈ r.fields, Steady f.wire.read) (horder : r.Orderless)
    {name : String} {related : List Char → List Char → Prop}
    (hrelated : ∀ f ∈ r.fields, f.name = name → ∀ text text', related text text' →
      Carries f.wire.read text text') {text text' : List Char}
    (h : Enriches r.names (SameOr name related) text text') : Carries r.wire.read text text' := by
  refine carries hfields horder ?_ h
  rintro m m' (rfl | ⟨hm, hm', hvalues⟩) hvalue
  · exact ⟨fun _ hname => hname, fun f hf _ => hfields f hf hvalue⟩
  · refine ⟨fun name' hname => hm.eq hname ▸ hm', fun f hf hname => ?_⟩
    exact hrelated f hf (hname.eq hm) _ _ hvalues

end Record

/-- What is carried over between two texts is read off them as whole texts. -/
theorem Carries.ofString {α : Type} {w : Wire α} {related : List Char → List Char → Prop}
    (h : ∀ text text', related text text' → Carries w.read text text') {s s' : String}
    (hwhole : Whole related s s') {a : α} (hread : w.ofString s = .ok a) :
    w.ofString s' = .ok a := by
  have hpieces : ∀ {s : String} {gap text gap' : List Char}, s.toList = gap ++ (text ++ gap') →
      (Cursor.ofString s).rest = (gap ++ text).map .char ++ gap'.map .char := by
    intro s gap text gap' hs
    rw [← List.map_append, List.append_assoc, ← hs]
    rfl
  have hends : ∀ {gap : List Char}, Blank gap → EndsNumber (gap.map .char) := by
    intro gap hgap
    have hall : EndsNumber (gap.map .char ++ []) := endsNumber_gap hgap trivial
    rwa [List.append_nil] at hall
  obtain ⟨text, text', ⟨gap, gap', hgap, hgap', hs⟩, ⟨gap1, gap1', hgap1, hgap1', hs'⟩, hrelated⟩ :=
    hwhole
  obtain ⟨c', hok⟩ := Reads.runAll_ok hread
  obtain ⟨-, hall⟩ := h text text' hrelated hgap (hends hgap') (hpieces hs) hok
  exact Reads.runAll_gap hgap1' (hpieces hs') (hall gap1 _ hgap1 (hends hgap1'))

/-- Two texts of objects start with their brackets. -/
private theorem Enriches.head {declared : List String} {kept : MemberText → MemberText → Prop}
    {text text' : List Char} (h : Enriches declared kept text text') :
    (∃ cs, text = '{' :: cs) ∧ ∃ cs, text' = '{' :: cs := by
  obtain ⟨hbefore, hafter, -, -, -⟩ := h
  obtain ⟨-, -, rfl⟩ := hbefore.written
  obtain ⟨-, -, rfl⟩ := hafter.written
  exact ⟨⟨_, rfl⟩, _, rfl⟩

end Json

open Json (Enriches SameOr Whole steady_text steady_count steady_choice)

/-! ### Parameters -/

namespace PolicyMember

private theorem steady_fields : ∀ f ∈ record.fields, Steady f.wire.read := by
  have hstring : Steady (Wire.optional .string).read := (steady_text _).optional
  simp only [record, List.forall_mem_cons, List.not_mem_nil, false_imp_iff, implies_true, and_true]
  exact ⟨hstring.map _, hstring.map _⟩

private theorem orderless : record.Orderless := by
  simp only [Record.Orderless, record, List.pairwise_cons, List.mem_cons, List.not_mem_nil,
    or_false, forall_eq, false_imp_iff, implies_true, List.Pairwise.nil, and_true]
  exact Record.swap_of fun _ _ _ => rfl

end PolicyMember

namespace Parameter

/-- A text enriches one of a parameter, or its policy member does. -/
def Enriched : String → String → Prop :=
  Whole (Enriches record.names (SameOr "policyMember" (Enriches PolicyMember.record.names Eq)))

private theorem steady_fields : ∀ f ∈ record.fields, Steady f.wire.read := by
  have hstring : Steady Wire.string.read := steady_text _
  have hlabels : Steady (Wire.table .string).read := hstring.table
  have hformat : Steady ParameterFormat.wire.read := steady_choice _
  have hpolicy : Steady PolicyMember.wire.read := Record.steady PolicyMember.steady_fields
  simp only [record, List.forall_mem_cons, List.not_mem_nil, false_imp_iff, implies_true, and_true]
  exact ⟨hstring.map _, hstring.optional.map _, hstring.optional.map _, hlabels.optional.map _,
    hformat.optional.map _, hpolicy.optional.map _, hstring.optional.map _⟩

private theorem orderless : record.Orderless := by
  simp only [Record.Orderless, record, List.pairwise_cons, List.mem_cons, List.not_mem_nil,
    or_false, forall_eq_or_imp, forall_eq, false_imp_iff, implies_true, List.Pairwise.nil, and_true]
  and_intros <;> exact Record.swap_of fun _ _ _ => rfl

/-- **A parameter is read off every text that enriches one of it.** -/
theorem ofString_enriched {text text' : String} {p : Parameter} (h : Enriched text text')
    (hread : wire.ofString text = .ok p) : wire.ofString text' = .ok p := by
  refine Carries.ofString (fun text text' h => ?_) h hread
  refine Record.carries_below steady_fields orderless ?_ h
  have hpolicy : ∀ text text', Enriches PolicyMember.record.names Eq text text' →
      Carries (Wire.optional PolicyMember.wire).read text text' := by
    intro text text' h
    obtain ⟨⟨cs, rfl⟩, cs', rfl⟩ := h.head
    exact (Record.carries_same PolicyMember.steady_fields PolicyMember.orderless h).optional rfl rfl
      (by decide) (by decide) (by decide) (by decide)
  have hother : ∀ {name : String}, name ≠ "policyMember" → ∀ {f : Json.Field Parameter},
      f.name = name → f.name = "policyMember" → ∀ text text',
      Enriches PolicyMember.record.names Eq text text' → Carries f.wire.read text text' :=
    fun hne _ hname hpolicy => absurd (hname.symm.trans hpolicy) hne
  simp only [record, List.forall_mem_cons, List.not_mem_nil, false_imp_iff, implies_true, and_true]
  exact ⟨hother (by decide) rfl, hother (by decide) rfl, hother (by decide) rfl,
    hother (by decide) rfl, hother (by decide) rfl,
    fun _ text text' h => (hpolicy text text' h).map _, hother (by decide) rfl⟩

end Parameter

/-! ### Reports -/

namespace ApiError

/-- A text enriches the body of a report, or the report in it does. -/
def Enriched : String → String → Prop :=
  Whole (Enriches bodyRecord.names (SameOr "error" (Enriches record.names Eq)))

private theorem steady_fields : ∀ f ∈ record.fields, Steady f.wire.read := by
  have hstring : Steady Wire.string.read := steady_text _
  simp only [record, List.forall_mem_cons, List.not_mem_nil, false_imp_iff, implies_true, and_true]
  exact ⟨(steady_count 16).map _, hstring.map _, hstring.map _⟩

private theorem orderless : record.Orderless := by
  simp only [Record.Orderless, record, List.pairwise_cons, List.mem_cons, List.not_mem_nil,
    or_false, forall_eq_or_imp, forall_eq, false_imp_iff, implies_true, List.Pairwise.nil, and_true]
  and_intros <;> exact Record.swap_of fun _ _ _ => rfl

private theorem steady_bodyFields : ∀ f ∈ bodyRecord.fields, Steady f.wire.read := by
  have hreport : Steady record.wire.read := Record.steady steady_fields
  simp only [bodyRecord, List.forall_mem_cons, List.not_mem_nil, false_imp_iff, implies_true,
    and_true]
  exact hreport.map _

private theorem orderless_body : bodyRecord.Orderless := by
  simp only [Record.Orderless, bodyRecord, List.pairwise_cons, List.not_mem_nil, false_imp_iff,
    implies_true, List.Pairwise.nil, and_true]

/-- **A report is read off every text that enriches its body.** -/
theorem ofString_enriched {text text' : String} {e : ApiError} (h : Enriched text text')
    (hread : wire.ofString text = .ok e) : wire.ofString text' = .ok e := by
  refine Carries.ofString (fun text text' h => ?_) h hread
  refine Record.carries_below steady_bodyFields orderless_body ?_ h
  simp only [bodyRecord, List.forall_mem_cons, List.not_mem_nil, false_imp_iff, implies_true,
    and_true]
  exact fun _ text text' h => (Record.carries_same steady_fields orderless h).map _

end ApiError

/-! ### Calls -/

section Calls

variable {σ : Type} {party : Exchange.Party σ} {c : Client} {s : σ} {call : Registry.Call}

/-- A call gives what is made of the response that it gets in the end. -/
theorem Registry.Call.run_make {place : Url} {r : Response}
    (haddress : call.address c.serverUrl = .ok place)
    (hheard : (Remote.run party (call.message c place).send s).1 = .ok r) :
    (Exchange.run party (ExceptT.run (call.make c)) s).1
      = Client.ofResponse place.pathText r := by
  show (Remote.run party (call.make c) s).1 = _
  rw [call.make_eq c, haddress, Remote.run_ofResult_bind rfl, Remote.run_bind]
  rcases hsend : Remote.run party (call.message c place).send s with ⟨e | r', s'⟩
  · rw [hsend] at hheard
    cases hheard
  · rw [hsend] at hheard
    obtain rfl := Except.ok.inj hheard
    rfl

/-- **More members in a response, or members in another order, change nothing.**  A parameter is
read off every text that enriches one of it, and a report off every text that enriches its body.
Where a call gets a response in the end that enriches another, it gives the same at both: the same
parameter if the response is a success, and the same words of the service if it is none. -/
theorem enriched_response_read_alike :
    (∀ {text text' : String} {p : Parameter}, Parameter.Enriched text text' →
      Parameter.wire.ofString text = .ok p → Parameter.wire.ofString text' = .ok p) ∧
    (∀ {text text' : String} {e : ApiError}, ApiError.Enriched text text' →
      ApiError.wire.ofString text = .ok e → ApiError.wire.ofString text' = .ok e) ∧
    ∀ {σ : Type} (party party' : Exchange.Party σ) (c : Client) (call : Registry.Call) (s s' : σ)
      {place : Url} {r r' : Response}, call.address c.serverUrl = .ok place →
      (Remote.run party (call.message c place).send s).1 = .ok r →
      (Remote.run party' (call.message c place).send s').1 = .ok r' → r'.status = r.status →
      let result := (Exchange.run party (ExceptT.run (call.make c)) s).1
      let result' := (Exchange.run party' (ExceptT.run (call.make c)) s').1
      (r.IsSuccess → Parameter.Enriched r.text r'.text →
        ∀ p, Parameter.wire.ofString r.text = .ok p → result = .ok p ∧ result' = .ok p) ∧
      (¬r.IsSuccess → ApiError.Enriched r.text r'.text →
        ∀ e, ApiError.wire.ofString r.text = .ok e →
          let refused := s!"{place.pathText}: {e.kindOr r.status}: {e.message}"
          result = .error (.requestFailed refused) ∧
            result' = .error (.requestFailed refused)) := by
  refine ⟨Parameter.ofString_enriched, ApiError.ofString_enriched, ?_⟩
  intro σ party party' c call s s' place r r' haddress hheard hheard' hstatus result result'
  have hresult : result = Client.ofResponse place.pathText r := call.run_make haddress hheard
  have hresult' : result' = Client.ofResponse place.pathText r' := call.run_make haddress hheard'
  rw [hresult, hresult']
  refine ⟨fun hsuccess henriched p hread => ?_, fun hfailure henriched e hread => ?_⟩
  · have hsuccess' : r'.IsSuccess := by rwa [Response.IsSuccess, hstatus]
    have hread' := Parameter.ofString_enriched henriched hread
    rw [Client.ofResponse_success hsuccess, Client.ofResponse_success hsuccess', hread, hread']
    exact ⟨rfl, rfl⟩
  · have hfailure' : ¬r'.IsSuccess := by rwa [Response.IsSuccess, hstatus]
    have hread' := ApiError.ofString_enriched henriched hread
    rw [Client.ofResponse_failure hfailure, Client.ofResponse_failure hfailure',
      Client.refusal_reported hread, Client.refusal_reported hread', hstatus]
    exact ⟨rfl, rfl⟩

/-- An object under an escaped name, before the name of a parameter. -/
private theorem enriched_sample : Parameter.Enriched "\x7b\"name\":\"a\"\x7d"
    "\x7b\"\\u0078\":\x7b\"y\":null\x7d,\"name\":\"a\"\x7d" := by
  let name : MemberText := ⟨"name".toList, "\"a\"".toList⟩
  let inner : MemberText := ⟨"y".toList, "null".toList⟩
  let added : MemberText := ⟨"\\u0078".toList, Json.compactObject [inner]⟩
  have hquad : Json.HexQuad "0078".toList 0x78 :=
    .mk (v := 0) (w := 0) (x := 7) (y := 8) (by decide) (by decide) (by decide) (by decide)
  have hadded : added.Named "x" := .escape (.number hquad (by decide)) .nil
  have hinner : ObjectText [inner] (Json.compactObject [inner]) :=
    Json.objectText_compact (by simpa using .of_plain (by decide)) (by simpa using .null)
  have hname : Json.StringText name.name := .of_plain (by decide)
  have hchars : Json.StringText ['a'] := .of_plain (by decide)
  have hvalue : Json.ValueText name.value := .string hchars
  have hbefore : ObjectText [name] (Json.compactObject [name]) :=
    Json.objectText_compact (by simpa using hname) (by simpa using hvalue)
  have hafter : ObjectText [added, name] (Json.compactObject [added, name]) :=
    Json.objectText_compact (by simpa using ⟨.number hquad .nil, hname⟩)
      (by simpa using ⟨hinner.valueText, hvalue⟩)
  refine ⟨_, _, ⟨[], [], Json.blank_nil, Json.blank_nil, rfl⟩,
    ⟨[], [], Json.blank_nil, Json.blank_nil, rfl⟩, .mk hbefore hafter (.cons (Or.inl rfl) .nil) ?_
      (.refl ([added] ++ [name]))⟩
  intro m hm
  obtain rfl := List.mem_singleton.mp hm
  exact ⟨"x", hadded, by decide⟩

/-- A member between those of a report, which have changed places, and one behind the report. -/
private theorem enriched_sampleReport : ApiError.Enriched
    "\x7b\"error\":\x7b\"message\":\"m\",\"status\":\"S\"\x7d\x7d"
    "\x7b\"error\":\x7b\"status\":\"S\",\"z\":null,\"message\":\"m\"\x7d,\"v\":true\x7d" := by
  let message : MemberText := ⟨"message".toList, "\"m\"".toList⟩
  let status : MemberText := ⟨"status".toList, "\"S\"".toList⟩
  let below : MemberText := ⟨"z".toList, "null".toList⟩
  let error : MemberText := ⟨"error".toList, Json.compactObject [message, status]⟩
  let error' : MemberText := ⟨"error".toList, Json.compactObject [status, below, message]⟩
  let behind : MemberText := ⟨"v".toList, "true".toList⟩
  have hm : Json.StringText ['m'] := .of_plain (by decide)
  have hs : Json.StringText ['S'] := .of_plain (by decide)
  have hmessage : Json.ValueText message.value := .string hm
  have hstatus : Json.ValueText status.value := .string hs
  have hplain : ∀ m ∈ [message, status, below, error, error', behind], Json.StringText m.name :=
    fun m hm => .of_plain (by revert m; decide)
  have hreport : ObjectText [message, status] error.value :=
    Json.objectText_compact (fun m hm => hplain m (by revert m; decide))
      (by simpa using ⟨hmessage, hstatus⟩)
  have hreport' : ObjectText [status, below, message] error'.value :=
    Json.objectText_compact (fun m hm => hplain m (by revert m; decide))
      (by simpa using ⟨hstatus, .null, hmessage⟩)
  have hbefore : ObjectText [error] (Json.compactObject [error]) :=
    Json.objectText_compact (fun m hm => hplain m (by revert m; decide))
      (by simpa using hreport.valueText)
  have hafter : ObjectText [error', behind] (Json.compactObject [error', behind]) :=
    Json.objectText_compact (fun m hm => hplain m (by revert m; decide))
      (by simpa using ⟨hreport'.valueText, .yes⟩)
  have hz : ∀ m ∈ [below], ∃ name, m.Named name ∧ name ∉ ApiError.record.names := by
    intro m hm
    obtain rfl := List.mem_singleton.mp hm
    exact ⟨"z", .of_plain (by decide), by decide⟩
  have hv : ∀ m ∈ [behind], ∃ name, m.Named name ∧ name ∉ ApiError.bodyRecord.names := by
    intro m hm
    obtain rfl := List.mem_singleton.mp hm
    exact ⟨"v", .of_plain (by decide), by decide⟩
  have hsame : List.Forall₂ Eq [message, status] [message, status] := .cons rfl (.cons rfl .nil)
  have herror : SameOr "error" (Enriches ApiError.record.names Eq) error error' :=
    Or.inr ⟨.of_plain (by decide), .of_plain (by decide),
      .mk hreport hreport' hsame hz (by decide)⟩
  exact ⟨_, _, ⟨[], [], Json.blank_nil, Json.blank_nil, rfl⟩,
    ⟨[], [], Json.blank_nil, Json.blank_nil, rfl⟩,
    .mk hbefore hafter (.cons herror .nil) hv (.swap behind error' [])⟩

/-- An object behind an escaped name and a policy nobody has heard of, once before a name, once in
a report whose members have changed places: neither is seen. -/
theorem added_members_unseen :
    let text := "\x7b\"name\":\"a\"\x7d"
    let text' := "\x7b\"\\u0078\":\x7b\"y\":null\x7d,\"name\":\"a\"\x7d"
    let report := "\x7b\"error\":\x7b\"message\":\"m\",\"status\":\"S\"\x7d\x7d"
    let report' := "\x7b\"error\":\x7b\"status\":\"S\",\"z\":null,\"message\":\"m\"\x7d,\"v\":true\x7d"
    let p : Parameter := { name := "a" }
    let e : ApiError := { message := "m", status := "S" }
    let gives (r : Response) :=
      let party : Exchange.Party Unit := fun _ _ => pure (some r)
      (Exchange.run party (ExceptT.run ((Registry.Call.get (.global "p" "d")).make ⟨"http://h", "t"⟩))
        ()).1
    let success (body : String) : Response := { status := .ok, body := Utf8.encode body }
    let refusal (body : String) : Response := { status := .notFound, body := Utf8.encode body }
    let refused := "/v1/projects/p/locations/global/parameters/d: S: m"
    (Parameter.Enriched text text' ∧ Parameter.wire.ofString text = .ok p ∧
      Parameter.wire.ofString text' = .ok p) ∧
    (ApiError.Enriched report report' ∧ ApiError.wire.ofString report = .ok e ∧
      ApiError.wire.ofString report' = .ok e) ∧
    (gives (success text) = .ok p ∧ gives (success text') = .ok p) ∧
    gives (refusal report) = .error (.requestFailed refused) ∧
      gives (refusal report') = .error (.requestFailed refused) := by
  intro text text' report report' p e gives success refusal refused
  obtain ⟨hparameter, hreport, hcall⟩ := enriched_response_read_alike
  have hok : ∀ {α : Type} {x : Except Json.Error α} {a : α}, x.toOption = some a → x = .ok a := by
    intro α x a h
    cases x with
    | error _ => cases h
    | ok b => exact congrArg Except.ok (Option.some.inj h)
  have htext : Parameter.wire.ofString text = .ok p := hok (by decide +kernel)
  have hreports : ApiError.wire.ofString report = .ok e := hok (by decide +kernel)
  -- a party that always gives the same response is heard with it
  let c : Client := ⟨"http://h", "t"⟩
  let call : Registry.Call := .get (.global "p" "d")
  let party (r : Response) : Exchange.Party Unit := fun _ _ => pure (some r)
  have hheard : ∀ r ∈ [success text, success text', refusal report, refusal report'],
      (match call.address c.serverUrl with
        | .ok place => (Remote.run (party r) (call.message c place).send ()).1
        | .error e => .error e) = .ok r := by decide +kernel
  have hpath : (call.address c.serverUrl).map Url.pathText
      = .ok "/v1/projects/p/locations/global/parameters/d" := by decide +kernel
  have htexts : (success text).text = text ∧ (success text').text = text' ∧
      (refusal report).text = report ∧ (refusal report').text = report' := by decide +kernel
  obtain ⟨hfirst, hfirst', hsecond, hsecond'⟩ := htexts
  have hsuccess : (success text).IsSuccess := ⟨by decide, by decide⟩
  have hfailure : ¬(refusal report).IsSuccess := fun h => absurd h.2 (by decide)
  cases haddress : call.address c.serverUrl with
  | error e =>
      rw [haddress] at hpath
      cases hpath
  | ok place =>
      rw [haddress] at hheard hpath
      have hpath : place.pathText = "/v1/projects/p/locations/global/parameters/d" :=
        Except.ok.inj hpath
      have hgiven := (hcall (party (success text)) (party (success text')) c call () () haddress
        (hheard _ (by simp)) (hheard _ (by simp)) rfl).1 hsuccess
      have hrefused := (hcall (party (refusal report)) (party (refusal report')) c call () ()
        haddress (hheard _ (by simp)) (hheard _ (by simp)) rfl).2 hfailure
      rw [hfirst, hfirst'] at hgiven
      rw [hsecond, hsecond', hpath] at hrefused
      exact ⟨⟨enriched_sample, htext, hparameter enriched_sample htext⟩,
        ⟨enriched_sampleReport, hreports, hreport enriched_sampleReport hreports⟩,
        hgiven enriched_sample p htext, hrefused enriched_sampleReport e hreports⟩

end Calls

end ParameterManager
