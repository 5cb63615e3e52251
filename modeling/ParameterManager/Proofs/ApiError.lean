/-
A report of an error is read back as it was written.

The code of a report is a count of sixteen bits.  A report whose code fits is written and
read back, whatever its message is, and every report that is read has a code that fits.
-/
import ParameterManager.ApiError
import ParameterManager.Proofs.Json.Gives
import ParameterManager.Proofs.Json.Record
import ParameterManager.Proofs.Json.Written

namespace ParameterManager.ApiError

open Json

/-- The code of a report fits into sixteen bits. -/
def Fits (e : ApiError) : Prop := e.code < 2 ^ 16

instance (e : ApiError) : Decidable e.Fits := inferInstanceAs (Decidable (e.code < 2 ^ 16))

/-! ### Written and read -/

private theorem independent : record.Independent := by
  simp only [Record.Independent, record, List.pairwise_cons, List.mem_cons, List.not_mem_nil,
    or_false, forall_eq_or_imp, forall_eq, false_imp_iff, implies_true, List.Pairwise.nil, and_true]
  and_intros <;> exact Record.commute_of fun _ _ _ => rfl

/-- The members of a report that may leave out its code and its status. -/
def reportMembers (code? : Option Nat) (message : String) (status? : Option String) :
    List (String × Json) :=
  memberOf "code" .ofNat code? ++ ("message", .string message) :: memberOf "status" .string status?

section

variable {code? : Option Nat} {message : String} {status? : Option String}
  {members : List (String × Json)}

/-- A report is taken for what it says, in whatever order it says it; what it leaves out is zero
or empty. -/
theorem takes_members (hcode : ∀ n, code? = some n → n < 2 ^ 16)
    (hperm : (reportMembers code? message status?).Perm members) :
    record.wire.Takes (.object members) ⟨code?.getD 0, message, status?.getD ""⟩ := by
  have hcodeField : record.field? "code" = some (.of "code" .defaulted (.count 16) fun v e =>
    { e with code := v }) := rfl
  have hmessageField : record.field? "message" = some (.of "message" .required .string fun v e =>
    { e with message := v }) := rfl
  have hstatusField : record.field? "status" = some (.of "status" .defaulted .string fun v e =>
    { e with status := v }) := rfl
  have hcount : ∀ n, code? = some n → (Wire.count 16).Takes (.ofNat n) (id n) :=
    fun n hn => Wire.takes_count (hcode n hn)
  have hstring : ∀ s, status? = some s → Wire.string.Takes (.string s) (id s) :=
    fun s _ => Wire.takes_string s
  have hknown : ∀ d ∈ members, record.Knows d := by
    intro d hd
    rw [← hperm.mem_iff, reportMembers, List.mem_append, List.mem_cons] at hd
    rcases hd with hd | rfl | hd
    · exact Record.knows_memberOf_of hcodeField hcount hd
    · exact Record.knows_of hmessageField (Wire.takes_string message)
    · exact Record.knows_memberOf_of hstatusField hstring hd
  have hnodup : (members.map (·.1)).Nodup := by
    rw [← (hperm.map _).nodup_iff, reportMembers, List.map_append, List.map_cons]
    have hall : ["code", "message", "status"].Nodup := by decide
    exact hall.sublist ((Record.names_memberOf _).append ((Record.names_memberOf _).cons_cons _))
  have htakes := Record.takes_object independent hknown hnodup (by
    intro f hf hreq
    rw [← (hperm.map _).mem_iff]
    simp only [record, List.mem_cons, List.not_mem_nil, or_false] at hf
    rcases hf with rfl | rfl | rfl <;> simp [Field.of, reportMembers] at hreq ⊢)
  have hordered : (orderedMembers (reportMembers code? message status?)).Perm
      (orderedMembers members) := by
    rw [orderedMembers_eq_map, orderedMembers_eq_map]
    exact hperm.map _
  have hnodup' : ((orderedMembers (reportMembers code? message status?)).map (·.1)).Nodup := by
    rw [(hordered.map _).nodup_iff, orderedMembers_eq_map, List.map_map]
    exact hnodup
  rw [← Record.changed_perm independent hordered hnodup', reportMembers, orderedMembers_append,
    Record.changed_append, Record.changed_memberOf_of hcodeField hcount,
    Record.changed_cons hmessageField (Wire.takes_string message),
    Record.changed_memberOf_of hstatusField hstring] at htakes
  cases code? <;> cases status? <;> exact htakes

private theorem independent_body : bodyRecord.Independent := by
  simp only [Record.Independent, bodyRecord, List.pairwise_cons, List.not_mem_nil, false_imp_iff,
    implies_true, List.Pairwise.nil, and_true]

/-- The body of a report is taken for the report. -/
theorem takes_body {e : ApiError} (h : record.wire.Takes (.object members) e) :
    wire.Takes (.object [("error", .object members)]) e := by
  have herror : bodyRecord.field? "error" = some (.of "error" .required record.wire fun v _ => v) :=
    rfl
  have hknown : ∀ d ∈ [("error", Json.object members)], bodyRecord.Knows d := by
    intro d hd
    rw [List.mem_singleton.mp hd]
    exact Record.knows_of herror h
  have htakes := Record.takes_object independent_body hknown (by simp) (by
    intro f hf _
    simp only [bodyRecord, List.mem_singleton] at hf
    simp [hf, Field.of])
  rw [Record.changed_cons herror h] at htakes
  exact htakes

/-- A text is the body of a report: the code and the status may be left out, and the members may
stand in any order and be written in any way. -/
def IsReport (code? : Option Nat) (message : String) (status? : Option String) (text : String) :
    Prop :=
  ∃ members, (reportMembers code? message status?).Perm members ∧
    Spells (.object [("error", .object members)]) text.toList

/-- **A report is read off every text of it.** -/
theorem ofString_of_isReport {text : String} (h : IsReport code? message status? text)
    (hcode : ∀ n, code? = some n → n < 2 ^ 16) :
    wire.ofString text = .ok ⟨code?.getD 0, message, status?.getD ""⟩ := by
  obtain ⟨members, hperm, hspells⟩ := h
  have hread := ((takes_body (takes_members hcode hperm)).readsText hspells).ofString
  rwa [String.ofList_toList] at hread

end

/-- **A report is read back.** -/
theorem takes {e : ApiError} (h : e.Fits) : wire.Takes e.toJson e := by
  have hcode : ∀ n, some e.code = some n → n < 2 ^ 16 := fun _ hn => Option.some.inj hn ▸ h
  have hperm : (reportMembers (some e.code) e.message (some e.status)).Perm
      [("code", .ofNat e.code), ("message", .string e.message), ("status", .string e.status)] :=
    .refl _
  exact takes_body (takes_members hcode hperm)

theorem writable {e : ApiError} (h : e.Fits) : Writable e.toJson := by
  have hcode : e.code ≤ maxSignificand := by
    have hmax : 2 ^ 16 ≤ maxSignificand := by decide
    have hlt : e.code < 2 ^ 16 := h
    omega
  refine .object fun d hd => ?_
  rw [List.mem_singleton.mp hd]
  refine .object fun m hm => ?_
  simp only [List.mem_cons, List.not_mem_nil, or_false] at hm
  rcases hm with rfl | rfl | rfl
  · exact .count hcode
  · exact .string _
  · exact .string _

/-- **A report comes back from its text.** -/
theorem readsBack {e : ApiError} (h : e.Fits) : wire.ReadsBack e.toJson e :=
  (takes h).readsBack (writable h)

/-! ### Reports that are read -/

private theorem gives_record : Gives record.wire.read Fits := by
  refine Record.gives (by decide) fun f hf => ?_
  simp only [record, List.mem_cons, List.not_mem_nil, or_false] at hf
  rcases hf with rfl | rfl | rfl
  · exact Field.keeps_of (gives_count 16) fun code _ hcode _ => hcode
  · exact Field.keeps_any fun _ _ h => h
  · exact Field.keeps_any fun _ _ h => h

/-- **Every report that is read has a code that fits.** -/
theorem fits_of_read {c : Cursor} {e : ApiError} (h : wire.read.runAll c = .ok e) : e.Fits := by
  have hgives : Gives wire.read Fits := by
    refine Record.gives (by decide) fun f hf => ?_
    simp only [bodyRecord, List.mem_singleton] at hf
    rw [hf]
    exact Field.keeps_of gives_record fun _ _ hfits _ => hfits
  exact hgives.runAll h

end ParameterManager.ApiError
