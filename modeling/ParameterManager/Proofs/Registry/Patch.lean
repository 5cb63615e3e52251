/-
What a patch makes of a parameter.

A mask is walked path by path, but what comes out does not depend on the walk: every
field that the mask names has the value it has in the other parameter, set or not, and
everything else is as it was.  So a parameter is described here by its three fields, and
by the rest of it that no update touches.
-/
import ParameterManager.Registry.Basic
import ParameterManager.Proofs.Table

namespace ParameterManager

/-! ### Fields -/

namespace MaskField

/-- What a field of a parameter may hold. -/
def Value : MaskField → Type
  | kmsKey => Option String
  | labels => Option (Table String)
  | format => Option ParameterFormat

/-- What a field of a parameter holds. -/
def get (p : Parameter) : (f : MaskField) → f.Value
  | kmsKey => p.kmsKey
  | labels => p.labels
  | format => p.format

theorem ofPath?_eq_some {path : String} {f : MaskField} :
    ofPath? path = some f ↔ path = f.path := by
  constructor
  · intro h
    have hpath := List.find?_some h
    simpa using (of_decide_eq_true hpath).symm
  · rintro rfl
    cases f with
    | kmsKey => rfl
    | labels => rfl
    | format => rfl

theorem path_injective {f g : MaskField} (h : f.path = g.path) : f = g :=
  Option.some.inj ((ofPath?_eq_some.mpr rfl).symm.trans (ofPath?_eq_some.mpr h))

theorem get_copy (delta p : Parameter) (f g : MaskField) :
    g.get (f.copy delta p) = if g = f then g.get delta else g.get p := by
  cases f <;> cases g <;> rfl

end MaskField

namespace Parameter

/-- Two parameters differ in fields that a mask may name at most. -/
structure SameOutside (p q : Parameter) : Prop where
  name : p.name = q.name
  createTime : p.createTime = q.createTime
  updateTime : p.updateTime = q.updateTime
  policyMember : p.policyMember = q.policyMember

namespace SameOutside

variable {p q s : Parameter}

theorem refl (p : Parameter) : SameOutside p p := ⟨rfl, rfl, rfl, rfl⟩

theorem symm (h : SameOutside p q) : SameOutside q p :=
  ⟨h.name.symm, h.createTime.symm, h.updateTime.symm, h.policyMember.symm⟩

theorem trans (h : SameOutside p q) (h' : SameOutside q s) : SameOutside p s :=
  ⟨h.name.trans h'.name, h.createTime.trans h'.createTime, h.updateTime.trans h'.updateTime,
    h.policyMember.trans h'.policyMember⟩

theorem eq (h : SameOutside p q) (hfields : ∀ f : MaskField, f.get p = f.get q) : p = q := by
  obtain ⟨h1, h2, h3, h4⟩ := h
  have h5 : p.kmsKey = q.kmsKey := hfields .kmsKey
  have h6 : p.labels = q.labels := hfields .labels
  have h7 : p.format = q.format := hfields .format
  cases p
  cases q
  simp_all

theorem copy (f : MaskField) (delta p : Parameter) : SameOutside (f.copy delta p) p := by
  cases f with
  | kmsKey => exact ⟨rfl, rfl, rfl, rfl⟩
  | labels => exact ⟨rfl, rfl, rfl, rfl⟩
  | format => exact ⟨rfl, rfl, rfl, rfl⟩

end SameOutside

end Parameter

/-! ### Patches -/

namespace Registry

/-- A parameter is another one with the fields of some paths taken from a third. -/
structure IsPatched (delta p : Parameter) (paths : List String) (q : Parameter) : Prop where
  outside : q.SameOutside p
  named : ∀ f : MaskField, f.path ∈ paths → f.get q = f.get delta
  unnamed : ∀ f : MaskField, f.path ∉ paths → f.get q = f.get p

theorem IsPatched.unique {delta p q s : Parameter} {paths : List String}
    (h : IsPatched delta p paths q) (h' : IsPatched delta p paths s) : q = s := by
  refine (h.outside.trans h'.outside.symm).eq ?_
  intro f
  by_cases hf : f.path ∈ paths
  · rw [h.named f hf, h'.named f hf]
  · rw [h.unnamed f hf, h'.unnamed f hf]

/-- **A patch takes the fields its mask names, and leaves the rest.** -/
theorem isPatched_of_patch {delta p q : Parameter} {paths : List String}
    (h : patch delta p paths = .ok q) : IsPatched delta p paths q := by
  induction paths generalizing p with
  | nil =>
      obtain rfl := Except.ok.inj h
      exact ⟨.refl _, fun _ hf => absurd hf List.not_mem_nil, fun _ _ => rfl⟩
  | cons path rest ih =>
      unfold patch at h
      split at h
      · next f hf =>
        have hpath := MaskField.ofPath?_eq_some.mp hf
        obtain ⟨houtside, hnamed, hunnamed⟩ := ih h
        refine ⟨houtside.trans (.copy f delta p), ?_, ?_⟩
        · intro g hg
          by_cases hrest : g.path ∈ rest
          · exact hnamed g hrest
          · have hgf : g = f := by
              rcases List.mem_cons.mp hg with heq | hmem
              · exact MaskField.path_injective (heq.trans hpath)
              · exact absurd hmem hrest
            rw [hunnamed g hrest, MaskField.get_copy, if_pos hgf]
        · intro g hg
          rw [List.mem_cons, not_or] at hg
          have hne : g ≠ f := fun heq => hg.1 (by rw [heq, hpath])
          rw [hunnamed g hg.2, MaskField.get_copy, if_neg hne]
      · simp at h

theorem patch_ok {delta p : Parameter} {paths : List String}
    (h : ∀ path ∈ paths, ∃ f : MaskField, path = f.path) : ∃ q, patch delta p paths = .ok q := by
  induction paths generalizing p with
  | nil => exact ⟨p, rfl⟩
  | cons path rest ih =>
      obtain ⟨f, hf⟩ := h path List.mem_cons_self
      rw [patch, MaskField.ofPath?_eq_some.mpr hf]
      exact ih fun d hd => h d (List.mem_cons_of_mem _ hd)

private theorem refused_of_patch {delta p : Parameter} {paths : List String} {e : ApiError}
    (h : patch delta p paths = .error e) : ∃ message, e = .invalidArgument message := by
  induction paths generalizing p with
  | nil => simp [patch] at h
  | cons path rest ih =>
      unfold patch at h
      split at h
      · exact ih h
      · exact ⟨_, (Except.error.inj h).symm⟩

/-! ### Outcomes -/

/-- What an update that succeeds has been: its body is a parameter, its name is stored, and
what comes of it is the stored parameter patched. -/
theorem outcome_eq_ok {ps : Table Parameter} {u : ReceivedUpdate} {p : Parameter} :
    outcome ps u = .ok p ↔ ∃ delta stored, Parameter.wire.ofValue u.body = .ok delta ∧
      u.paths ≠ [] ∧ ps.get? u.name = some stored ∧ patch delta stored u.paths = .ok p := by
  unfold outcome
  constructor
  · intro h
    split at h
    · simp at h
    next delta hdelta =>
      split at h
      · simp at h
      next hpaths =>
        split at h
        · simp at h
        next stored hstored =>
          exact ⟨delta, stored, hdelta, by simpa using hpaths, hstored, h⟩
  · rintro ⟨delta, stored, hdelta, hpaths, hstored, hpatch⟩
    have hne : ¬u.paths.isEmpty = true := by simpa using hpaths
    simp only [hdelta, if_neg hne, hstored, hpatch]

/-- An update that fails cannot be carried out as it is, or its name is not stored. -/
theorem refused_of_outcome {ps : Table Parameter} {u : ReceivedUpdate} {e : ApiError}
    (h : outcome ps u = .error e) :
    (∃ message, e = .invalidArgument message) ∨ e = .unknownName u.name := by
  unfold outcome at h
  split at h
  · exact Or.inl ⟨_, (Except.error.inj h).symm⟩
  split at h
  · exact Or.inl ⟨_, (Except.error.inj h).symm⟩
  split at h
  · exact Or.inr (Except.error.inj h).symm
  · exact Or.inl (refused_of_patch h)

/-- An update that fails is refused with a code of its own, never with that of a success. -/
theorem code_of_outcome {ps : Table Parameter} {u : ReceivedUpdate} {e : ApiError}
    (h : outcome ps u = .error e) : e.code = 400 ∨ e.code = 404 := by
  rcases refused_of_outcome h with ⟨message, rfl⟩ | rfl
  · exact Or.inl rfl
  · exact Or.inr rfl

end Registry

end ParameterManager
