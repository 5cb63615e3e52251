/-
How an update is decided.

The first thing that is wrong with an update decides its answer: the body, then the mask as a
whole, then the name, then the parts of the mask from left to right.  Whatever is wrong, no
parameter changes, also if parts before the wrong one have named fields.  If nothing is, all
that counts of the mask is which fields it names: not their order, not how often they are
named, and not the empty parts in between.
-/
import ParameterManager.Proofs.Registry.Answer

namespace ParameterManager

/-! ### Masks -/

namespace MaskField

/-- The parts of a mask between its commas, empty ones included. -/
def parts (mask : Option String) : List String := Text.split ',' (mask.getD "")

/-- A part of a mask should name a field, and names none. -/
def IsUnknown (part : String) : Prop := part ≠ "" ∧ ∀ f : MaskField, part ≠ f.path

theorem path_ne_empty (f : MaskField) : f.path ≠ "" := by
  cases f with
  | kmsKey => decide
  | labels => decide
  | format => decide

theorem eq_path_of_known {part : String} (hne : part ≠ "") (h : ¬IsUnknown part) :
    ∃ f : MaskField, part = f.path := by
  refine Classical.byContradiction fun hnone => h ⟨hne, ?_⟩
  intro f hf
  exact hnone ⟨f, hf⟩

theorem ofPath?_eq_none {part : String} (h : ∀ f : MaskField, part ≠ f.path) :
    ofPath? part = none := by
  cases hpath : ofPath? part with
  | none => rfl
  | some f => exact absurd (ofPath?_eq_some.mp hpath) (h f)

end MaskField

open MaskField (IsUnknown)

theorem ReceivedUpdate.mem_paths {u : ReceivedUpdate} {path : String} :
    path ∈ u.paths ↔ path ∈ MaskField.parts u.mask ∧ path ≠ "" := by
  show path ∈ (MaskField.parts u.mask).filter (· ≠ "") ↔ _
  rw [List.mem_filter, decide_eq_true_iff]

namespace Parameter

/-- A parameter with the fields that some parts of a mask name taken from another one. -/
def taking (stored delta : Parameter) (parts : List String) : Parameter :=
  { stored with
    kmsKey := if "kmsKey" ∈ parts then delta.kmsKey else stored.kmsKey
    labels := if "labels" ∈ parts then delta.labels else stored.labels
    format := if "format" ∈ parts then delta.format else stored.format }

theorem get_taking (stored delta : Parameter) (parts : List String) (f : MaskField) :
    f.get (stored.taking delta parts) = if f.path ∈ parts then f.get delta else f.get stored := by
  cases f with
  | kmsKey => rfl
  | labels => rfl
  | format => rfl

/-- What is taken depends on the fields that are named, and on nothing else of the mask. -/
theorem taking_congr (stored delta : Parameter) {parts parts' : List String}
    (h : ∀ f : MaskField, f.path ∈ parts ↔ f.path ∈ parts') :
    stored.taking delta parts = stored.taking delta parts' := by
  have houtside : ∀ ps, (stored.taking delta ps).SameOutside stored := fun _ => ⟨rfl, rfl, rfl, rfl⟩
  refine ((houtside parts).trans (houtside parts').symm).eq ?_
  intro f
  rw [get_taking, get_taking]
  by_cases hf : f.path ∈ parts
  · rw [if_pos hf, if_pos ((h f).mp hf)]
  · rw [if_neg hf, if_neg fun hc => hf ((h f).mpr hc)]

end Parameter

namespace Registry

/-! ### Patches -/

theorem isPatched_taking (stored delta : Parameter) (u : ReceivedUpdate) :
    IsPatched delta stored u.paths (stored.taking delta (MaskField.parts u.mask)) where
  outside := ⟨rfl, rfl, rfl, rfl⟩
  named f hf := by rw [Parameter.get_taking, if_pos (ReceivedUpdate.mem_paths.mp hf).1]
  unnamed f hf := by
    rw [Parameter.get_taking, if_neg fun hc => hf ?_]
    exact ReceivedUpdate.mem_paths.mpr ⟨hc, f.path_ne_empty⟩

/-- A patch stops at the first path that names no field, whatever it has copied before. -/
theorem patch_unknown {delta stored : Parameter} {before after : List String} {path : String}
    (hbefore : ∀ d ∈ before, ∃ f : MaskField, d = f.path) (hpath : ∀ f : MaskField, path ≠ f.path) :
    patch delta stored (before ++ path :: after)
      = .error (.invalidArgument s!"Invalid update_mask path: {path}") := by
  induction before generalizing stored with
  | nil => rw [List.nil_append, patch, MaskField.ofPath?_eq_none hpath]
  | cons d before ih =>
      obtain ⟨f, hf⟩ := hbefore d List.mem_cons_self
      rw [List.cons_append, patch, MaskField.ofPath?_eq_some.mpr hf]
      exact ih fun e he => hbefore e (List.mem_cons_of_mem _ he)

/-! ### Outcomes -/

section

variable {ps : Table Parameter} {u : ReceivedUpdate} {delta stored : Parameter}

theorem outcome_malformed {e : Json.Error} (h : Parameter.wire.ofValue u.body = .error e) :
    outcome ps u = .error (.invalidArgument e.message) := by
  unfold outcome
  rw [h]

theorem outcome_unmasked (hdelta : Parameter.wire.ofValue u.body = .ok delta)
    (h : ∀ part ∈ MaskField.parts u.mask, part = "") :
    outcome ps u = .error (.invalidArgument "update_mask must not be empty") := by
  have hpaths : u.paths = [] := by
    rw [List.eq_nil_iff_forall_not_mem]
    intro path hpath
    obtain ⟨hpart, hne⟩ := ReceivedUpdate.mem_paths.mp hpath
    exact hne (h path hpart)
  unfold outcome
  simp only [hdelta, hpaths, List.isEmpty_nil, if_true]

private theorem paths_not_empty (h : ∃ part ∈ MaskField.parts u.mask, part ≠ "") :
    ¬u.paths.isEmpty = true := by
  obtain ⟨part, hpart, hne⟩ := h
  rw [List.isEmpty_iff]
  exact List.ne_nil_of_mem (ReceivedUpdate.mem_paths.mpr ⟨hpart, hne⟩)

theorem outcome_unknownName (hdelta : Parameter.wire.ofValue u.body = .ok delta)
    (hmask : ∃ part ∈ MaskField.parts u.mask, part ≠ "") (h : ps.get? u.name = none) :
    outcome ps u = .error (.unknownName u.name) := by
  unfold outcome
  simp only [hdelta, if_neg (paths_not_empty hmask), h]

theorem outcome_unknownPart (hdelta : Parameter.wire.ofValue u.body = .ok delta)
    (hstored : ps.get? u.name = some stored) {before after : List String} {part : String}
    (hparts : MaskField.parts u.mask = before ++ part :: after) (hpart : IsUnknown part)
    (hbefore : ∀ d ∈ before, ¬IsUnknown d) :
    outcome ps u = .error (.invalidArgument s!"Invalid update_mask path: {part}") := by
  have hmask : ∃ d ∈ MaskField.parts u.mask, d ≠ "" := ⟨part, by simp [hparts], hpart.1⟩
  have hpaths : u.paths
      = before.filter (· ≠ "") ++ part :: after.filter (· ≠ "") := by
    show (MaskField.parts u.mask).filter (· ≠ "") = _
    rw [hparts, List.filter_append, List.filter_cons_of_pos (by simpa using hpart.1)]
  have hknown : ∀ d ∈ before.filter (· ≠ ""), ∃ f : MaskField, d = f.path := by
    intro d hd
    obtain ⟨hmem, hne⟩ := List.mem_filter.mp hd
    exact MaskField.eq_path_of_known (by simpa using hne) (hbefore d hmem)
  unfold outcome
  simp only [hdelta, if_neg (paths_not_empty hmask), hstored]
  rw [hpaths]
  exact patch_unknown hknown hpart.2

theorem outcome_patched (hdelta : Parameter.wire.ofValue u.body = .ok delta)
    (hmask : ∃ part ∈ MaskField.parts u.mask, part ≠ "") (hstored : ps.get? u.name = some stored)
    (h : ∀ part ∈ MaskField.parts u.mask, ¬IsUnknown part) :
    outcome ps u = .ok (stored.taking delta (MaskField.parts u.mask)) := by
  obtain ⟨p, hp⟩ : ∃ p, patch delta stored u.paths = .ok p := by
    refine patch_ok ?_
    intro path hpath
    obtain ⟨hpart, hne⟩ := ReceivedUpdate.mem_paths.mp hpath
    exact MaskField.eq_path_of_known hne (h path hpart)
  have hsame : p = stored.taking delta (MaskField.parts u.mask) :=
    (isPatched_of_patch hp).unique (isPatched_taking stored delta u)
  have hne : u.paths ≠ [] := by simpa using paths_not_empty hmask
  exact outcome_eq_ok.mpr ⟨delta, stored, hdelta, hne, hstored, hsame ▸ hp⟩

/-- An update that succeeds names fields only. -/
theorem known_of_outcome {p : Parameter} (h : outcome ps u = .ok p) :
    ∀ part ∈ MaskField.parts u.mask, ¬IsUnknown part := by
  obtain ⟨delta, stored, -, -, -, hpatch⟩ := outcome_eq_ok.mp h
  have hall : ∀ {paths : List String} {q : Parameter}, patch delta q paths = .ok p →
      ∀ path ∈ paths, ∃ f : MaskField, path = f.path := by
    intro paths
    induction paths with
    | nil => exact fun _ _ hmem => absurd hmem List.not_mem_nil
    | cons path rest ih =>
        intro q hq d hd
        unfold patch at hq
        split at hq
        · next f hf =>
          rcases List.mem_cons.mp hd with rfl | hd
          · exact ⟨f, MaskField.ofPath?_eq_some.mp hf⟩
          · exact ih hq d hd
        · simp at hq
  intro part hpart hunknown
  obtain ⟨f, hf⟩ := hall hpatch part (ReceivedUpdate.mem_paths.mpr ⟨hpart, hunknown.1⟩)
  exact hunknown.2 f hf

/-- An update that succeeds comes to the same with another mask that names the same fields. -/
theorem outcome_congr {v : ReceivedUpdate} {p : Parameter} (h : outcome ps u = .ok p)
    (hname : v.name = u.name) (hbody : v.body = u.body)
    (hparts : ∀ part, part ≠ "" →
      (part ∈ MaskField.parts v.mask ↔ part ∈ MaskField.parts u.mask)) :
    outcome ps v = .ok p := by
  obtain ⟨delta, stored, hdelta, hpaths, hstored, hpatch⟩ := outcome_eq_ok.mp h
  have hknown := known_of_outcome h
  have hp : p = stored.taking delta (MaskField.parts u.mask) :=
    (isPatched_of_patch hpatch).unique (isPatched_taking stored delta u)
  obtain ⟨path, hpath⟩ := List.exists_mem_of_ne_nil _ hpaths
  obtain ⟨hmem, hne⟩ := ReceivedUpdate.mem_paths.mp hpath
  rw [hp, ← Parameter.taking_congr stored delta fun f => hparts f.path f.path_ne_empty]
  refine outcome_patched (hbody ▸ hdelta) ⟨path, (hparts path hne).mpr hmem, hne⟩
    (hname ▸ hstored) ?_
  intro part hpart hunknown
  exact hknown part ((hparts part hunknown.1).mp hpart) hunknown

end

/-! ### Requests -/

/-- A request asks for an update: it leads to the entry of a name, its mask and its body can be
read, and it carries the token. -/
structure AsksFor (q : Request) (n : ParameterName) (mask : Option String) (body : Json) : Prop where
  route : Route.ofRequest? q = some (.update n)
  mask : maskOf q = .ok mask
  body : jsonBody q = .ok body
  authorized : isAuthorized q = true

/-- Such a request is answered with what becomes of its update. -/
theorem handle_asked {q : Request} {n : ParameterName} {mask : Option String} {body : Json}
    (h : AsksFor q n mask body) (r : Registry) :
    r.handle q = (resultResponse (outcome r.parameters ⟨n.display, mask, body⟩),
      (r.receive ⟨n.display, mask, body⟩).2) := by
  have hupdate : updateOf n q = .ok ⟨n.display, mask, body⟩ :=
    updateOf_eq_ok.mpr ⟨mask, body, h.mask, h.body, h.authorized, rfl⟩
  unfold handle
  rw [h.route]
  simp only [hupdate]
  rfl

/-- A request was answered with an error, and no parameter has changed. -/
def IsRefused (r : Registry) (e : ApiError) (done : Response × Registry) : Prop :=
  done.1 = errorResponse e ∧ done.2.parameters = r.parameters

/-- A request was answered with a parameter, which is what a name stands for from now on. -/
def IsWritten (r : Registry) (name : String) (p : Parameter) (done : Response × Registry) : Prop :=
  done.1 = jsonResponse .ok p.toJson ∧ done.2.parameters = r.parameters.insert name p

private theorem isRefused_handle {q : Request} {n : ParameterName} {mask : Option String}
    {body : Json} (h : AsksFor q n mask body) {r : Registry} {e : ApiError}
    (hout : outcome r.parameters ⟨n.display, mask, body⟩ = .error e) :
    IsRefused r e (r.handle q) := by
  rw [handle_asked h, hout]
  refine ⟨rfl, ?_⟩
  show apply r.parameters _ = r.parameters
  rw [apply, hout]

private theorem isWritten_handle {q : Request} {n : ParameterName} {mask : Option String}
    {body : Json} (h : AsksFor q n mask body) {r : Registry} {p : Parameter}
    (hout : outcome r.parameters ⟨n.display, mask, body⟩ = .ok p) :
    IsWritten r n.display p (r.handle q) := by
  rw [handle_asked h, hout]
  refine ⟨rfl, ?_⟩
  show apply r.parameters _ = r.parameters.insert n.display p
  rw [apply, hout]

/-- **An update is decided by the first thing that is wrong with it, and made whole or not at
all.**

A body that is no parameter is refused with what is wrong in it; then a mask without a part
that is not empty; then a name that is not stored; then a mask with a part that names no field,
with the first such part.  A refusal changes no parameter.  Everything else is made: the entry
takes the fields that the mask names and keeps the others, and another mask with the same parts
has the same effect. -/
theorem update_decided {q : Request} {n : ParameterName} {mask : Option String} {body : Json}
    (h : AsksFor q n mask body) (r : Registry) :
    let parts := MaskField.parts mask
    (∀ e, Parameter.wire.ofValue body = .error e →
      IsRefused r (.invalidArgument e.message) (r.handle q)) ∧
    (∀ delta, Parameter.wire.ofValue body = .ok delta →
      ((∀ part ∈ parts, part = "") →
        IsRefused r (.invalidArgument "update_mask must not be empty") (r.handle q)) ∧
      ((∃ part ∈ parts, part ≠ "") →
        (r.parameters.get? n.display = none →
          IsRefused r (.unknownName n.display) (r.handle q)) ∧
        ∀ stored, r.parameters.get? n.display = some stored →
          (∀ before part after, parts = before ++ part :: after → IsUnknown part →
            (∀ d ∈ before, ¬IsUnknown d) →
            IsRefused r (.invalidArgument s!"Invalid update_mask path: {part}") (r.handle q)) ∧
          ((∀ part ∈ parts, ¬IsUnknown part) →
            IsWritten r n.display (stored.taking delta parts) (r.handle q)))) ∧
    ∀ q' mask', AsksFor q' n mask' body →
      (∀ part, part ≠ "" → (part ∈ MaskField.parts mask' ↔ part ∈ parts)) →
      (r.handle q).1.status = .ok →
        (r.handle q').1 = (r.handle q).1 ∧
          (r.handle q').2.parameters = (r.handle q).2.parameters := by
  intro parts
  refine ⟨?_, ?_, ?_⟩
  · intro e he
    exact isRefused_handle h (outcome_malformed he)
  · intro delta hdelta
    refine ⟨fun hempty => isRefused_handle h (outcome_unmasked hdelta hempty), fun hmask => ⟨?_, ?_⟩⟩
    · intro hnone
      exact isRefused_handle h (outcome_unknownName hdelta hmask hnone)
    · intro stored hstored
      refine ⟨?_, fun hknown => isWritten_handle h (outcome_patched hdelta hmask hstored hknown)⟩
      intro before part after hparts hpart hbefore
      exact isRefused_handle h (outcome_unknownPart hdelta hstored hparts hpart hbefore)
  · intro q' mask' h' hsame hok
    cases hout : outcome r.parameters ⟨n.display, mask, body⟩ with
    | error e =>
        rw [(isRefused_handle h hout).1] at hok
        exact absurd (hok ▸ status_of_refusal (code_of_outcome hout)) (by decide)
    | ok p =>
        have hdone := isWritten_handle h hout
        have hdone' := isWritten_handle h' (outcome_congr hout rfl rfl hsame)
        exact ⟨hdone'.1.trans hdone.1.symm, hdone'.2.trans hdone.2.symm⟩

/-- A mask with empty parts and a field named twice sets one field and clears the other. -/
theorem repeated_mask_written :
    let n := ParameterName.global "p" "db"
    let stored : Parameter :=
      { name := n.display, kmsKey := some "old", labels := some .empty, format := some .yaml }
    let delta : Parameter := { name := n.display, kmsKey := some "new" }
    let q : Request := {
      method := "PATCH"
      target := "/v1/projects/p/locations/global/parameters/db?updateMask=labels,,kmsKey,labels"
      authorization := [Message.bearer accessToken]
      contentType := [Utf8.encode Client.jsonType]
      body := Utf8.encode delta.toJson.compact }
    AsksFor q n (some "labels,,kmsKey,labels") (Json.ordered delta.toJson) ∧
      IsWritten (ofList [stored]) n.display { stored with kmsKey := some "new", labels := none }
        ((ofList [stored]).handle q) := by
  intro n stored delta q
  have hpairs : Form.decode (Utf8.encode ((Route.splitTarget q.target).2.getD ""))
      = [(Client.maskName, "labels,,kmsKey,labels")] := by decide +kernel
  have hmask : maskOf q = .ok (some "labels,,kmsKey,labels") := by
    rw [maskOf, hpairs]
    rfl
  have htype : (mediaType? q).any MediaType.isJson = true := by decide +kernel
  have hlength : ¬maxJson < q.body.length := by decide +kernel
  have hread : Json.Wire.any.ofBytes q.body = .ok (Json.ordered delta.toJson) := by
    simp only [q]
    exact delta.any_ofBytes_compact
  have hbody : jsonBody q = .ok (Json.ordered delta.toJson) := by
    rw [jsonBody, htype, Bool.not_true, if_neg Bool.false_ne_true, if_neg hlength, hread]
  have h : AsksFor q n (some "labels,,kmsKey,labels") (Json.ordered delta.toJson) :=
    ⟨by decide +kernel, hmask, hbody, by decide +kernel⟩
  have hstored : (ofList [stored]).parameters.get? n.display = some stored := by decide +kernel
  have hknown : ∀ part ∈ MaskField.parts (some "labels,,kmsKey,labels"), ¬IsUnknown part := by
    have hparts : MaskField.parts (some "labels,,kmsKey,labels")
        = [MaskField.labels.path, "", MaskField.kmsKey.path, MaskField.labels.path] := by
      decide +kernel
    rw [hparts]
    rintro part hpart ⟨hne, hnone⟩
    simp only [List.mem_cons, List.not_mem_nil, or_false] at hpart
    rcases hpart with rfl | rfl | rfl | rfl
    · exact hnone .labels rfl
    · exact hne rfl
    · exact hnone .kmsKey rfl
    · exact hnone .labels rfl
  have htaken : stored.taking delta (MaskField.parts (some "labels,,kmsKey,labels"))
      = { stored with kmsKey := some "new", labels := none } := by decide +kernel
  obtain ⟨-, hmade, -⟩ := update_decided h (ofList [stored])
  obtain ⟨-, hmade⟩ := hmade delta delta.ofValue_ordered
  obtain ⟨-, hmade⟩ := hmade ⟨"labels", by decide +kernel, by decide⟩
  exact ⟨h, htaken ▸ (hmade stored hstored).2 hknown⟩

end Registry

end ParameterManager
