/-
A parameter is read back as it was written.

Every attribute that is set is one member of the object, and its field takes that member
for the attribute; an attribute that is not set is not written, and its field leaves it
unset.  So nothing is lost, whatever the strings are and in whatever order the labels are
written, and a parameter arrives the same whether its text is read at once or turned into
a value first.
-/
import ParameterManager.Proofs.Json.Record
import ParameterManager.Proofs.Json.Written

namespace ParameterManager

open Json

/-! ### Formats and policy members -/

theorem ParameterFormat.takes (f : ParameterFormat) : ParameterFormat.wire.Takes f.toJson f := by
  refine Wire.takes_choice ?_
  cases f with
  | unspecified => rfl
  | unformatted => rfl
  | yaml => rfl
  | json => rfl

/-- A way to write tables of texts: the entries of each in some order. -/
def WritesTables (write : Table String → Json) : Prop :=
  ∀ t, ∃ entries : List (String × String), entries.Perm t.entries ∧
    write t = .object (entries.map fun e => (e.1, .string e.2))

theorem writesTables_textTable : WritesTables textTable := fun _ => ⟨_, .refl _, rfl⟩

/-- The member of an optional attribute has what its value is written as. -/
private theorem forall_memberOf {holds : Json → Prop} {α : Type} {name : String}
    {toJson : α → Json} {value? : Option α} (h : ∀ a, holds (toJson a)) :
    ∀ d ∈ memberOf name toJson value?, holds d.2 := by
  intro d hd
  obtain ⟨a, -, rfl⟩ := List.mem_map.mp hd
  exact h a

namespace PolicyMember

private theorem independent : record.Independent := by
  simp only [Record.Independent, record, List.pairwise_cons, List.mem_cons, List.not_mem_nil,
    or_false, forall_eq, false_imp_iff, implies_true, List.Pairwise.nil, and_true]
  exact Record.commute_of fun _ _ _ => rfl

theorem takes (m : PolicyMember) : wire.Takes m.toJson m := by
  have huid : record.field? "iamPolicyUidPrincipal" = some (.of "iamPolicyUidPrincipal" .optional
      (.optional .string) fun v m => { m with uidPrincipal := v }) := rfl
  have hname : record.field? "iamPolicyNamePrincipal" = some (.of "iamPolicyNamePrincipal" .optional
      (.optional .string) fun v m => { m with namePrincipal := v }) := rfl
  have hknown : ∀ d ∈ memberOf "iamPolicyUidPrincipal" .string m.uidPrincipal ++
      memberOf "iamPolicyNamePrincipal" .string m.namePrincipal, record.Knows d := by
    intro d hd
    rcases List.mem_append.mp hd with hd | hd
    · exact Record.knows_memberOf huid Wire.takes_some_string hd
    · exact Record.knows_memberOf hname Wire.takes_some_string hd
  have hnodup : ((memberOf "iamPolicyUidPrincipal" Json.string m.uidPrincipal ++
      memberOf "iamPolicyNamePrincipal" .string m.namePrincipal).map (·.1)).Nodup := by
    have hall : ["iamPolicyUidPrincipal", "iamPolicyNamePrincipal"].Nodup := by decide
    rw [List.map_append]
    exact hall.sublist ((Record.names_memberOf _).append (Record.names_memberOf _))
  have h := Record.takes_object independent hknown hnodup (by
    intro f hf hreq
    simp only [record, List.mem_cons, List.not_mem_nil, or_false] at hf
    rcases hf with rfl | rfl <;> simp [Field.of] at hreq)
  rw [orderedMembers_append, Record.changed_append,
    Record.changed_memberOf huid Wire.takes_some_string _ rfl,
    Record.changed_memberOf hname Wire.takes_some_string _ rfl] at h
  exact h

theorem forall_members (holds : Json → Prop) (hstring : ∀ s, holds (.string s))
    (m : PolicyMember) : ∀ d ∈ memberOf "iamPolicyUidPrincipal" Json.string m.uidPrincipal ++
      memberOf "iamPolicyNamePrincipal" .string m.namePrincipal, holds d.2 := by
  intro d hd
  rcases List.mem_append.mp hd with hd | hd
  · exact forall_memberOf hstring d hd
  · exact forall_memberOf hstring d hd

theorem writable (m : PolicyMember) : Writable m.toJson :=
  .object (forall_members Writable .string m)

end PolicyMember

/-! ### Parameters -/

namespace Parameter

private theorem independent : record.Independent := by
  simp only [Record.Independent, record, List.pairwise_cons, List.mem_cons, List.not_mem_nil,
    or_false, forall_eq_or_imp, forall_eq, false_imp_iff, implies_true, List.Pairwise.nil, and_true]
  and_intros <;> exact Record.commute_of fun _ _ _ => rfl

private theorem takes_some_labels {write : Table String → Json} (hwrite : WritesTables write)
    (t : Table String) : (Wire.optional (.table .string)).Takes (write t) (some t) := by
  obtain ⟨entries, hperm, htable⟩ := hwrite t
  rw [htable]
  exact (Wire.takes_table hperm fun e _ => Wire.takes_string e.2).optional (by simp)

private theorem takes_some_format (f : ParameterFormat) :
    (Wire.optional ParameterFormat.wire).Takes f.toJson (some f) :=
  f.takes.optional (by simp [ParameterFormat.toJson])

private theorem takes_some_policyMember (m : PolicyMember) :
    (Wire.optional PolicyMember.wire).Takes m.toJson (some m) :=
  m.takes.optional (by simp [PolicyMember.toJson])

/-- The names of the members that may be written, in their order. -/
def memberNames : List String :=
  ["name", "createTime", "updateTime", "labels", "format", "policyMember", "kmsKey"]

/-- The members that are written if the labels are written in some way. -/
def membersWith (write : Table String → Json) (p : Parameter) : List (String × Json) :=
  ("name", .string p.name) ::
    (memberOf "createTime" .string p.createTime ++ memberOf "updateTime" .string p.updateTime ++
      memberOf "labels" write p.labels ++ memberOf "format" ParameterFormat.toJson p.format ++
      memberOf "policyMember" PolicyMember.toJson p.policyMember ++
      memberOf "kmsKey" .string p.kmsKey)

theorem names_membersWith (write : Table String → Json) (p : Parameter) :
    ((p.membersWith write).map (·.1)).Sublist memberNames := by
  simp only [membersWith, List.map_cons, List.map_append]
  refine List.Sublist.cons_cons _ ?_
  exact (((((Record.names_memberOf _).append (Record.names_memberOf _)).append
    (Record.names_memberOf _)).append (Record.names_memberOf _)).append
    (Record.names_memberOf _)).append (Record.names_memberOf _)

/-- A parameter is read back, in whatever order its labels are written. -/
theorem takes_membersWith {write : Table String → Json} (hwrite : WritesTables write)
    (p : Parameter) : wire.Takes (.object (p.membersWith write)) p := by
  have hname : record.field? "name" = some (.of "name" .defaulted .string fun v p =>
    { p with name := v }) := rfl
  have hcreate : record.field? "createTime" = some (.of "createTime" .optional (.optional .string)
    fun v p => { p with createTime := v }) := rfl
  have hupdate : record.field? "updateTime" = some (.of "updateTime" .optional (.optional .string)
    fun v p => { p with updateTime := v }) := rfl
  have hlabels : record.field? "labels" = some (.of "labels" .optional
    (.optional (.table .string)) fun v p => { p with labels := v }) := rfl
  have hformat : record.field? "format" = some (.of "format" .optional
    (.optional ParameterFormat.wire) fun v p => { p with format := v }) := rfl
  have hmember : record.field? "policyMember" = some (.of "policyMember" .optional
    (.optional PolicyMember.wire) fun v p => { p with policyMember := v }) := rfl
  have hkey : record.field? "kmsKey" = some (.of "kmsKey" .optional (.optional .string)
    fun v p => { p with kmsKey := v }) := rfl
  have hknown : ∀ d ∈ p.membersWith write, record.Knows d := by
    intro d hd
    simp only [membersWith, List.mem_cons, List.mem_append] at hd
    rcases hd with rfl | (((((hd | hd) | hd) | hd) | hd) | hd)
    · exact Record.knows_of hname (Wire.takes_string p.name)
    · exact Record.knows_memberOf hcreate Wire.takes_some_string hd
    · exact Record.knows_memberOf hupdate Wire.takes_some_string hd
    · exact Record.knows_memberOf hlabels (takes_some_labels hwrite) hd
    · exact Record.knows_memberOf hformat takes_some_format hd
    · exact Record.knows_memberOf hmember takes_some_policyMember hd
    · exact Record.knows_memberOf hkey Wire.takes_some_string hd
  have hnodup : ((p.membersWith write).map (·.1)).Nodup :=
    List.Nodup.sublist (names_membersWith write p) (by decide)
  have h := Record.takes_object independent hknown hnodup (by
    intro f hf hreq
    simp only [record, List.mem_cons, List.not_mem_nil, or_false] at hf
    rcases hf with rfl | rfl | rfl | rfl | rfl | rfl | rfl <;> simp [Field.of] at hreq)
  rw [membersWith, Record.changed_cons hname (Wire.takes_string p.name)] at h
  simp only [orderedMembers_append, Record.changed_append] at h
  rw [Record.changed_memberOf hcreate Wire.takes_some_string _ rfl,
    Record.changed_memberOf hupdate Wire.takes_some_string _ rfl,
    Record.changed_memberOf hlabels (takes_some_labels hwrite) _ rfl,
    Record.changed_memberOf hformat takes_some_format _ rfl,
    Record.changed_memberOf hmember takes_some_policyMember _ rfl,
    Record.changed_memberOf hkey Wire.takes_some_string _ rfl] at h
  exact h

/-- **A parameter is read back.** -/
theorem takes (p : Parameter) : wire.Takes p.toJson p := takes_membersWith writesTables_textTable p

/-! ### Its text -/

private theorem forall_membersWith (holds : Json → Prop) (write : Table String → Json)
    (p : Parameter) (hstring : ∀ s, holds (.string s)) (hlabels : ∀ t, holds (write t))
    (hmember : ∀ m : PolicyMember, holds m.toJson) : ∀ d ∈ p.membersWith write, holds d.2 := by
  intro d hd
  simp only [membersWith, List.mem_cons, List.mem_append] at hd
  rcases hd with rfl | (((((hd | hd) | hd) | hd) | hd) | hd)
  · exact hstring p.name
  · exact forall_memberOf hstring d hd
  · exact forall_memberOf hstring d hd
  · exact forall_memberOf hlabels d hd
  · exact forall_memberOf (fun f : ParameterFormat => hstring f.name) d hd
  · exact forall_memberOf hmember d hd
  · exact forall_memberOf hstring d hd

private theorem forall_entries (holds : Json → Prop) (hstring : ∀ s, holds (.string s))
    (entries : List (String × String)) :
    ∀ d ∈ entries.map fun e => (e.1, Json.string e.2), holds d.2 := by
  intro d hd
  obtain ⟨e, -, rfl⟩ := List.mem_map.mp hd
  exact hstring e.2

/-- A parameter can be written. -/
theorem writable_membersWith {write : Table String → Json} (hwrite : WritesTables write)
    (p : Parameter) : Writable (.object (p.membersWith write)) := by
  refine .object (forall_membersWith Writable write p .string ?_ PolicyMember.writable)
  intro t
  obtain ⟨entries, -, htable⟩ := hwrite t
  rw [htable]
  exact .object (forall_entries Writable .string entries)

theorem writable (p : Parameter) : Writable p.toJson := writable_membersWith writesTables_textTable p

/-- **A parameter comes back from its text.** -/
theorem ofString_compact (p : Parameter) : wire.ofString p.toJson.compact = .ok p :=
  ((takes p).readsBack p.writable).compact.ofString

/-- The texts of a parameter are read as a value, whatever its members are, where there is room for
two more levels. -/
theorem readsValue_membersWith {write : Table String → Json} (hwrite : WritesTables write)
    (depth : Nat) (p : Parameter) : ReadsValue (readValue (depth + 2))
      (.object (p.membersWith write)) (ordered (.object (p.membersWith write))) := by
  refine Wire.readsValue_object ?_
  let holds (depth : Nat) (j : Json) : Prop := ReadsValue (readValue depth) j (ordered j)
  refine forall_membersWith (holds (depth + 1)) write p (Wire.readsValue_string _) ?_ ?_
  · intro t
    obtain ⟨entries, -, htable⟩ := hwrite t
    rw [htable]
    exact Wire.readsValue_object
      (forall_entries (holds depth) (Wire.readsValue_string _) entries)
  · intro m
    exact Wire.readsValue_object
      (PolicyMember.forall_members (holds depth) (Wire.readsValue_string _) m)

/-- The text of a parameter is read as a value. -/
theorem any_ofBytes_compact (p : Parameter) :
    Wire.any.ofBytes (Utf8.encode p.toJson.compact) = .ok (ordered p.toJson) :=
  Wire.any_ofBytes (readsValue_membersWith writesTables_textTable 125 p) p.writable.spells_compact

/-- **A parameter comes back from the value that its text is read as.** -/
theorem ofValue_ordered (p : Parameter) : wire.ofValue (ordered p.toJson) = .ok p :=
  (takes p).ofValue

end Parameter

end ParameterManager
