/-
What is too large for a call.

Whatever an address or a body is made of, it is not shorter than its parts: a long
identifier makes a long address, and a long key makes a long body.  So there are calls that
a client cannot send, and calls that a registry does not read.
-/
import ParameterManager.Proofs.Registry.Calls

namespace ParameterManager

/-! ### Lengths of what is written -/

private theorem length_le_flatMap {α β : Type} {f : α → List β} (h : ∀ a, 0 < (f a).length)
    (as : List α) : as.length ≤ (as.flatMap f).length := by
  induction as with
  | nil => exact Nat.zero_le _
  | cons a as ih =>
      have hpos := h a
      rw [List.flatMap_cons, List.length_append, List.length_cons]
      omega

namespace Json

private theorem length_le_stringChars (s : String) : s.toList.length ≤ (stringChars s).length := by
  have hpos : ∀ c, 0 < (escapeChar c).length := by
    intro c
    unfold escapeChar
    repeat' split
    all_goals simp
  have hle := length_le_flatMap hpos s.toList
  simp only [stringChars, List.length_append, List.length_cons]
  omega

private theorem length_le_compactMembers {members : List (String × Json)} {name s : String}
    (h : (name, .string s) ∈ members) : s.toList.length ≤ (compactMembers members).length := by
  induction members with
  | nil => exact absurd h List.not_mem_nil
  | cons m members ih =>
      obtain ⟨name', value⟩ := m
      rw [compactMembers]
      simp only [List.length_append, List.length_cons]
      rcases List.mem_cons.mp h with heq | h
      · obtain ⟨-, rfl⟩ := Prod.mk.inj heq
        have hle := length_le_stringChars s
        rw [compactChars]
        omega
      · have hle := ih h
        omega

/-- An object is not shorter than a text in it. -/
theorem length_le_compactChars {members : List (String × Json)} {name s : String}
    (h : (name, .string s) ∈ members) :
    s.toList.length ≤ (compactChars (.object members)).length := by
  cases members with
  | nil => exact absurd h List.not_mem_nil
  | cons m members =>
      have hle := length_le_compactMembers h
      obtain ⟨name', value⟩ := m
      rw [compactMembers] at hle
      rw [compactChars]
      simpa using hle

end Json

namespace Registry

variable {port : UInt16}

/-! ### Bodies -/

/-- A key that is long enough makes a body that is not read. -/
theorem isTooLong_of_key {u : UpdateRequest} {key : String} (hkey : u.parameter.kmsKey = some key)
    (hlong : maxJson < key.toList.length) : IsTooLong u := by
  have hmember : ("kmsKey", .string key) ∈ u.parameter.members := by
    simp [Parameter.members, memberOf, hkey]
  have hchars := Json.length_le_compactChars hmember
  have hpos : ∀ c, 0 < (Utf8.encodeChar c).length := by
    intro c
    unfold Utf8.encodeChar
    simp only
    repeat' split
    all_goals simp
  have hbytes := length_le_flatMap hpos (Json.compactChars (.object u.parameter.members))
  unfold IsTooLong
  rw [body_updateRequest, Utf8.encode, Json.compact, String.toList_ofList, Utf8.encodeChars,
    Parameter.toJson]
  omega

/-! ### Addresses -/

private theorem length_le_utf8ByteSize (cs : List Char) :
    cs.length ≤ (String.ofList cs).utf8ByteSize := by
  induction cs with
  | nil => exact Nat.zero_le _
  | cons c cs ih =>
      have hsplit : String.ofList (c :: cs) = String.ofList [c] ++ String.ofList cs := by
        rw [← String.ofList_append]
        rfl
      have hpos : (String.ofList [c]).utf8ByteSize ≠ 0 := by
        rw [ne_eq, String.utf8ByteSize_eq_zero_iff]
        exact fun h => by simpa using congrArg String.toList h
      rw [hsplit, String.utf8ByteSize_append, List.length_cons]
      omega

/-- An address that can be sent has no path that is longer than an address may be. -/
private theorem length_path_le {u : Url} (h : Message.isShort u = true) :
    u.pathText.toList.length ≤ Message.maxUrl := by
  have hpath := length_le_utf8ByteSize u.pathText.toList
  have htarget : u.pathText.utf8ByteSize ≤ u.target.utf8ByteSize := by
    unfold Url.target
    split
    · simp only [String.utf8ByteSize_append]
      omega
    · exact Nat.le_refl _
  have htext : u.target.utf8ByteSize ≤ u.text.utf8ByteSize := by
    unfold Url.text
    simp only [String.utf8ByteSize_append]
    omega
  rw [Message.isShort, decide_eq_true_eq] at h
  rw [String.ofList_toList] at hpath
  omega

/-- A text of percent signs. -/
def percents (k : Nat) : String := String.ofList (List.replicate k '%')

theorem isPlain_percents {k : Nat} (h : 2 < k) : Url.IsPlain (percents k) := by
  have hchars : (percents k).toList = List.replicate k '%' := String.toList_ofList
  have hlength : (percents k).toList.length = k := by rw [hchars, List.length_replicate]
  refine ⟨?_, ?_, ?_, ?_⟩
  · intro heq
    have : ("" : String).toList.length = k := heq ▸ hlength
    simp at this
    omega
  · intro heq
    have : (".".toList).length = k := heq ▸ hlength
    simp at this
    omega
  · intro heq
    have : ("..".toList).length = k := heq ▸ hlength
    simp at this
    omega
  · intro c hc
    rw [hchars] at hc
    rw [List.eq_of_mem_replicate hc]
    rfl

/-- Each percent sign takes three characters in an address. -/
private theorem length_written_percents (k : Nat) :
    (Url.written (percents k)).toList.length = 3 * k := by
  rw [Url.written, percents, String.toList_ofList, String.toList_ofList, Percent.encodeChars]
  induction k with
  | zero => rfl
  | succ k ih =>
      have hstep : Percent.encodeBytes Percent.inSegment
          (Utf8.encodeChars ('%' :: List.replicate k '%'))
          = ['%', '2', '5'] ++ Percent.encodeBytes Percent.inSegment
            (Utf8.encodeChars (List.replicate k '%')) := rfl
      rw [List.replicate_succ, hstep, List.length_append, ih]
      simp only [List.length_cons, List.length_nil]
      omega

/-- A name that is long enough has no address that can be sent. -/
theorem not_isShort_percents {k : Nat} (hk : Message.maxUrl < 3 * k) {u : UpdateRequest}
    (hn : u.name.IsPlain) (hparameter : u.name.parameter = percents k) :
    Message.isShort (updateUrl port u) ≠ true := by
  intro hshort
  have hle := length_path_le hshort
  have haddressed : u.name.addressed = "v1" :: u.name.segments :=
    (ParameterName.addressed_eq_iff.mpr ⟨hn.stripped_eq.symm, by rw [hn.stripped_eq]; exact hn⟩).1
  have hpath : (updateUrl port u).pathText = Route.pathOf u.name.addressed := rfl
  rw [hpath, haddressed, Route.toList_pathOf] at hle
  simp only [ParameterName.segments, List.flatMap_cons, List.length_append, List.length_cons,
    List.flatMap_nil, hparameter, length_written_percents] at hle
  omega

end Registry

end ParameterManager
