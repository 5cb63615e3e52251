/-
A request against the updates it was made of.

A request is two things that are made apart from each other: a mask, which knows which
fields were changed but not to what, and a payload, which knows the values but starts from
nothing.  Together they say as much as the updates one after the other.  What a field is in
the end depends on its last update alone, so it is the same whatever the updates started
from; and a field without an update is not in the mask.
-/
import ParameterManager.Proofs.Registry.Patch
import ParameterManager.Proofs.Text.Basic
import ParameterManager.Update

namespace ParameterManager

/-! ### One update -/

namespace ParameterUpdate

/-- The field that an update changes. -/
def field : ParameterUpdate → MaskField
  | kmsKey _ => .kmsKey
  | labels _ => .labels
  | format _ => .format

/-- The path of an update stands in a query as the path of its field. -/
theorem camelPath_path (u : ParameterUpdate) : FieldMask.camelPath u.path = u.field.path := by
  cases u with
  | kmsKey _ => show FieldMask.camelPath "kms_key" = "kmsKey"; decide +kernel
  | labels _ => show FieldMask.camelPath "labels" = "labels"; decide +kernel
  | format _ => show FieldMask.camelPath "format" = "format"; decide +kernel

theorem get_apply_self (u : ParameterUpdate) (p q : Parameter) :
    u.field.get (u.apply p) = u.field.get (u.apply q) := by
  cases u with
  | kmsKey _ => rfl
  | labels _ => rfl
  | format _ => rfl

theorem get_apply_of_ne {u : ParameterUpdate} {f : MaskField} (h : u.field ≠ f) (p : Parameter) :
    f.get (u.apply p) = f.get p := by
  cases u <;> cases f <;> first | rfl | exact absurd rfl h

theorem sameOutside_apply (u : ParameterUpdate) (p : Parameter) : (u.apply p).SameOutside p := by
  cases u with
  | kmsKey _ => exact ⟨rfl, rfl, rfl, rfl⟩
  | labels _ => exact ⟨rfl, rfl, rfl, rfl⟩
  | format _ => exact ⟨rfl, rfl, rfl, rfl⟩

end ParameterUpdate

/-! ### Updates one after the other -/

namespace UpdateRequest

open ParameterUpdate

theorem sameOutside_foldl (us : List ParameterUpdate) (p : Parameter) :
    (us.foldl apply p).SameOutside p := by
  induction us generalizing p with
  | nil => exact .refl p
  | cons u us ih => exact (ih (u.apply p)).trans (sameOutside_apply u p)

/-- A field without an update is left as it is. -/
theorem get_foldl_of_not_mem {us : List ParameterUpdate} {f : MaskField}
    (h : ∀ u ∈ us, u.field ≠ f) (p : Parameter) : f.get (us.foldl apply p) = f.get p := by
  induction us generalizing p with
  | nil => rfl
  | cons u us ih =>
      rw [List.foldl_cons, ih fun v hv => h v (List.mem_cons_of_mem _ hv),
        get_apply_of_ne (h u List.mem_cons_self)]

/-- **The last update of a field decides it.** -/
theorem get_foldl_last {us vs : List ParameterUpdate} {u : ParameterUpdate}
    (h : ∀ v ∈ vs, v.field ≠ u.field) (p q : Parameter) :
    u.field.get ((us ++ u :: vs).foldl apply p) = u.field.get (u.apply q) := by
  rw [List.foldl_append, List.foldl_cons, get_foldl_of_not_mem h, get_apply_self u _ q]

private theorem exists_last {us : List ParameterUpdate} {f : MaskField}
    (h : ∃ u ∈ us, u.field = f) :
    ∃ xs u ys, us = xs ++ u :: ys ∧ u.field = f ∧ ∀ v ∈ ys, v.field ≠ f := by
  induction us with
  | nil =>
      obtain ⟨u, hu, -⟩ := h
      exact absurd hu List.not_mem_nil
  | cons v us ih =>
      by_cases hrest : ∃ u ∈ us, u.field = f
      · obtain ⟨xs, u, ys, heq, hu, hys⟩ := ih hrest
        exact ⟨v :: xs, u, ys, by rw [heq]; rfl, hu, hys⟩
      · obtain ⟨u, hu, hfield⟩ := h
        rcases List.mem_cons.mp hu with rfl | hu
        · exact ⟨[], u, us, rfl, hfield, fun w hw hwf => hrest ⟨w, hw, hwf⟩⟩
        · exact absurd ⟨u, hu, hfield⟩ hrest

/-- A field that is updated is the same in the end, whatever it was before. -/
theorem get_foldl_of_mem {us : List ParameterUpdate} {f : MaskField} (h : ∃ u ∈ us, u.field = f)
    (p q : Parameter) : f.get (us.foldl apply p) = f.get (us.foldl apply q) := by
  obtain ⟨xs, u, ys, rfl, rfl, hys⟩ := exists_last h
  rw [get_foldl_last hys p q, get_foldl_last hys q q]

/-! ### The mask -/

/-- The mask holds the paths of the updates and no others. -/
theorem mem_mask {n : ParameterName} {us : List ParameterUpdate} {path : String} :
    path ∈ (ofUpdates n us).mask.paths ↔ ∃ u ∈ us, u.path = path := by
  have hadd : ∀ (m : FieldMask) (p : String),
      path ∈ (m.add p).paths ↔ path ∈ m.paths ∨ p = path := by
    intro m p
    unfold FieldMask.add
    split
    · next hcontains =>
      have hmem : p ∈ m.paths := List.contains_iff_mem.mp hcontains
      constructor
      · exact Or.inl
      · rintro (h | rfl)
        · exact h
        · exact hmem
    · simp [eq_comm]
  have hfold : ∀ m : FieldMask, path ∈ (us.foldl (fun m u => m.add u.path) m).paths ↔
      path ∈ m.paths ∨ ∃ u ∈ us, u.path = path := by
    induction us with
    | nil => simp
    | cons u us ih =>
        intro m
        rw [List.foldl_cons, ih, hadd, or_assoc]
        simp
  show path ∈ (us.foldl (fun (m : FieldMask) u => m.add u.path) FieldMask.empty).paths ↔ _
  rw [hfold]
  simp [FieldMask.empty]

/-- In a query the mask names the fields of the updates and no others. -/
theorem mem_camelPaths {n : ParameterName} {us : List ParameterUpdate} {path : String} :
    path ∈ (ofUpdates n us).mask.paths.map FieldMask.camelPath ↔ ∃ u ∈ us, path = u.field.path := by
  simp only [List.mem_map, mem_mask]
  constructor
  · rintro ⟨_, ⟨u, hu, rfl⟩, rfl⟩
    exact ⟨u, hu, camelPath_path u⟩
  · rintro ⟨u, hu, rfl⟩
    exact ⟨u.path, ⟨u, hu, rfl⟩, camelPath_path u⟩

theorem mask_ne_nil {n : ParameterName} {us : List ParameterUpdate} (h : us ≠ []) :
    (ofUpdates n us).mask.paths ≠ [] := by
  obtain ⟨u, us, rfl⟩ := List.exists_cons_of_ne_nil h
  exact List.ne_nil_of_mem (mem_mask.mpr ⟨u, List.mem_cons_self, rfl⟩)

/-- Between the commas of the query stand these fields, and nothing else. -/
theorem split_queryValue (n : ParameterName) (us : List ParameterUpdate) :
    (Text.split ',' (ofUpdates n us).mask.queryValue).filter (· ≠ "")
      = (ofUpdates n us).mask.paths.map FieldMask.camelPath := by
  have hpath : ∀ f : MaskField, ',' ∉ f.path.toList ∧ f.path ≠ "" := by
    intro f
    cases f with
    | kmsKey => decide
    | labels => decide
    | format => decide
  have hall : ∀ s ∈ (ofUpdates n us).mask.paths.map FieldMask.camelPath,
      ',' ∉ s.toList ∧ s ≠ "" := by
    intro s hs
    obtain ⟨u, -, rfl⟩ := mem_camelPaths.mp hs
    exact hpath u.field
  unfold FieldMask.queryValue
  generalize (ofUpdates n us).mask.paths.map FieldMask.camelPath = paths at hall
  cases paths with
  | nil => decide
  | cons path rest =>
      rw [Text.split_join (by simp) fun s hs => (hall s hs).1, List.filter_eq_self]
      intro s hs
      simpa using (hall s hs).2

/-! ### Both -/

/-- **Mask and payload say what the updates do.**  A parameter that is patched with them is
the parameter changed by the updates one after the other. -/
theorem isPatched_foldl (n : ParameterName) (us : List ParameterUpdate) (p : Parameter) :
    Registry.IsPatched (ofUpdates n us).parameter p
      ((ofUpdates n us).mask.paths.map FieldMask.camelPath) (us.foldl apply p) where
  outside := sameOutside_foldl us p
  named f hf := by
    obtain ⟨u, hu, hpath⟩ := mem_camelPaths.mp hf
    exact get_foldl_of_mem ⟨u, hu, (MaskField.path_injective hpath).symm⟩ p _
  unnamed f hf := by
    refine get_foldl_of_not_mem (fun u hu hfield => hf ?_) p
    exact mem_camelPaths.mpr ⟨u, hu, by rw [hfield]⟩

end UpdateRequest

end ParameterManager
