/-
The types on the wire come back from what is written for them.

Four types are both written and read: parameters, their policy members, reports of errors
and service accounts.  Whatever the values are, both forms of their text are read as the
value again, and the labels of a parameter may stand in any order.  An attribute of a
parameter that is set to something empty is written, so it is not mistaken for one that
is not set.

The only values that are not all written faithfully are the codes of reports, which have
sixteen bits.  A report that was read has such a code, so reading, writing and reading
again changes nothing for any of the types, even if the first text had other members,
blanks or escapes.
-/
import ParameterManager.Credential.ServiceAccount
import ParameterManager.Proofs.ApiError
import ParameterManager.Proofs.Parameter

namespace ParameterManager

open Json

/-! ### Service accounts -/

namespace ServiceAccount

private theorem independent : record.Independent := by
  simp only [Record.Independent, record, List.pairwise_cons, List.mem_cons, List.not_mem_nil,
    or_false, forall_eq_or_imp, forall_eq, false_imp_iff, implies_true, List.Pairwise.nil, and_true]
  and_intros <;> exact Record.commute_of fun _ _ _ => rfl

/-- The members of an account. -/
def members (a : ServiceAccount) : List (String × Json) :=
  [("type", .string a.kind), ("project_id", .string a.projectId),
    ("private_key_id", .string a.privateKeyId), ("private_key", .string a.privateKey),
    ("client_email", .string a.clientEmail), ("client_id", .string a.clientId),
    ("auth_uri", .string a.authUri), ("token_uri", .string a.tokenUri)]

/-- **An account is read back.** -/
theorem takes (a : ServiceAccount) : wire.Takes a.toJson a := by
  have hkind : record.field? "type" = some (.of "type" .required .string fun v a =>
    { a with kind := v }) := rfl
  have hproject : record.field? "project_id" = some (.of "project_id" .defaulted .string
    fun v a => { a with projectId := v }) := rfl
  have hkeyId : record.field? "private_key_id" = some (.of "private_key_id" .required .string
    fun v a => { a with privateKeyId := v }) := rfl
  have hkey : record.field? "private_key" = some (.of "private_key" .required .string
    fun v a => { a with privateKey := v }) := rfl
  have hemail : record.field? "client_email" = some (.of "client_email" .required .string
    fun v a => { a with clientEmail := v }) := rfl
  have hclient : record.field? "client_id" = some (.of "client_id" .defaulted .string
    fun v a => { a with clientId := v }) := rfl
  have hauth : record.field? "auth_uri" = some (.of "auth_uri" .defaulted .string
    fun v a => { a with authUri := v }) := rfl
  have htoken : record.field? "token_uri" = some (.of "token_uri" .required .string
    fun v a => { a with tokenUri := v }) := rfl
  have hknown : ∀ d ∈ a.members, record.Knows d := by
    intro d hd
    simp only [members, List.mem_cons, List.not_mem_nil, or_false] at hd
    rcases hd with rfl | rfl | rfl | rfl | rfl | rfl | rfl | rfl
    · exact Record.knows_of hkind (Wire.takes_string _)
    · exact Record.knows_of hproject (Wire.takes_string _)
    · exact Record.knows_of hkeyId (Wire.takes_string _)
    · exact Record.knows_of hkey (Wire.takes_string _)
    · exact Record.knows_of hemail (Wire.takes_string _)
    · exact Record.knows_of hclient (Wire.takes_string _)
    · exact Record.knows_of hauth (Wire.takes_string _)
    · exact Record.knows_of htoken (Wire.takes_string _)
  have hnodup : (a.members.map (·.1)).Nodup := by
    show ["type", "project_id", "private_key_id", "private_key", "client_email", "client_id",
      "auth_uri", "token_uri"].Nodup
    decide
  have htakes := Record.takes_object independent hknown hnodup (by
    intro f hf hreq
    simp only [record, List.mem_cons, List.not_mem_nil, or_false] at hf
    rcases hf with rfl | rfl | rfl | rfl | rfl | rfl | rfl | rfl <;> simp [Field.of, members])
  rw [members, Record.changed_cons hkind (Wire.takes_string _),
    Record.changed_cons hproject (Wire.takes_string _),
    Record.changed_cons hkeyId (Wire.takes_string _),
    Record.changed_cons hkey (Wire.takes_string _),
    Record.changed_cons hemail (Wire.takes_string _),
    Record.changed_cons hclient (Wire.takes_string _),
    Record.changed_cons hauth (Wire.takes_string _),
    Record.changed_cons htoken (Wire.takes_string _)] at htakes
  exact htakes

theorem writable (a : ServiceAccount) : Writable a.toJson := by
  refine .object fun d hd => ?_
  simp only [List.mem_cons, List.not_mem_nil, or_false] at hd
  rcases hd with rfl | rfl | rfl | rfl | rfl | rfl | rfl | rfl <;> exact .string _

end ServiceAccount

/-! ### What is written for a parameter -/

namespace Parameter

/-- A value is written for a parameter: its labels may stand in any order. -/
def IsWrittenAs (p : Parameter) (j : Json) : Prop :=
  ∃ write, WritesTables write ∧ j = .object (p.membersWith write)

/-- One order is that of the table itself. -/
theorem isWrittenAs_toJson (p : Parameter) : p.IsWrittenAs p.toJson :=
  ⟨textTable, writesTables_textTable, rfl⟩

/-- The names of the attributes that are set, the name of the parameter apart. -/
def attributes (p : Parameter) : List String :=
  ([("createTime", p.createTime.isSome), ("updateTime", p.updateTime.isSome),
    ("labels", p.labels.isSome), ("format", p.format.isSome),
    ("policyMember", p.policyMember.isSome), ("kmsKey", p.kmsKey.isSome)].filter (·.2)).map (·.1)

example : attributes { labels := some .empty, policyMember := some {} }
    = ["labels", "policyMember"] := by decide

private theorem names_filter_cons {α : Type} (toJson : α → Json) {name : String}
    (value? : Option α) (others : List (String × Bool)) :
    (((name, value?.isSome) :: others).filter (·.2)).map (·.1)
      = (memberOf name toJson value?).map (·.1) ++ (others.filter (·.2)).map (·.1) := by
  cases value? with
  | none => rfl
  | some a => rfl

/-- **The members are the name and one for each attribute that is set.** -/
theorem names_membersWith_eq (write : Table String → Json) (p : Parameter) :
    (p.membersWith write).map (·.1) = "name" :: p.attributes := by
  rw [attributes, names_filter_cons Json.string, names_filter_cons Json.string,
    names_filter_cons write, names_filter_cons ParameterFormat.toJson,
    names_filter_cons PolicyMember.toJson, names_filter_cons Json.string]
  simp [membersWith, List.map_append, List.append_assoc]

end Parameter

/-! ### All four types -/

/-- A type comes back from both forms of what is written for its values: for a range of
them, and for every value that was read off some text. -/
structure RoundTrips {α : Type} (w : Wire α) (inRange : α → Prop) (written : α → Json → Prop) :
    Prop where
  back : ∀ a j, inRange a → written a j → w.ReadsBack j a
  again : ∀ c a j, w.read.runAll c = .ok a → written a j → w.ReadsBack j a

/-- What is read comes back if it is in the range of what does. -/
theorem RoundTrips.of_back {α : Type} {w : Wire α} {inRange : α → Prop} {written : α → Json → Prop}
    (hback : ∀ a j, inRange a → written a j → w.ReadsBack j a)
    (hread : ∀ c a, w.read.runAll c = .ok a → inRange a) : RoundTrips w inRange written :=
  ⟨hback, fun c a j hc hj => hback a j (hread c a hc) hj⟩

/-- **What is written is read back**, for every value of the four types, and what was read
once is read again from what is written for it.  A parameter is written as its name and
one member for each attribute that is set; `toJson` is one way to do it. -/
theorem types_round_trip :
    RoundTrips Parameter.wire (fun _ => True) Parameter.IsWrittenAs ∧
    (∀ p : Parameter, p.IsWrittenAs p.toJson) ∧
    RoundTrips PolicyMember.wire (fun _ => True) (fun m j => j = m.toJson) ∧
    RoundTrips ApiError.wire (fun e => e.code < 2 ^ 16) (fun e j => j = e.toJson) ∧
    RoundTrips ServiceAccount.wire (fun _ => True) (fun a j => j = a.toJson) ∧
    ∀ (p : Parameter) (j : Json), p.IsWrittenAs j →
      ∃ members, j = .object members ∧ members.map (·.1) = "name" :: p.attributes := by
  refine ⟨?_, Parameter.isWrittenAs_toJson, ?_, ?_, ?_, ?_⟩
  · refine RoundTrips.of_back ?_ fun _ _ _ => trivial
    rintro p _ - ⟨write, hwrite, rfl⟩
    exact (p.takes_membersWith hwrite).readsBack (p.writable_membersWith hwrite)
  · refine RoundTrips.of_back ?_ fun _ _ _ => trivial
    rintro m _ - rfl
    exact m.takes.readsBack m.writable
  · refine RoundTrips.of_back ?_ fun _ _ h => ApiError.fits_of_read h
    rintro e _ he rfl
    exact ApiError.readsBack he
  · refine RoundTrips.of_back ?_ fun _ _ _ => trivial
    rintro a _ - rfl
    exact a.takes.readsBack a.writable
  · rintro p _ ⟨write, -, rfl⟩
    exact ⟨_, rfl, p.names_membersWith_eq write⟩

end ParameterManager
