/-
What a request says of the updates it is made of.

The mask is made first come, first served: a path that is in it already is not added again, so
it lists the fields in the order in which they were first updated.  The payload is made the
other way round, for a later value replaces an earlier one, so it has what each field was set
to last.  Both are folds over the same list, and what they come to is shown by adding one more
update at its end.

The two agree under all the names that a field has.  What the payload sets, the mask names; and
what the mask names, the payload sets, unless it is a key that was removed last.
-/
import Mathlib.Data.List.Basic
import Mathlib.Data.List.Induction
import ParameterManager.Proofs.RoundTrip
import ParameterManager.Proofs.Update

namespace ParameterManager

/-! ### The order of first occurrences -/

/-- Some paths are those of a list, each once, in the order in which they first occur in it. -/
structure FirstOccurrences (all paths : List String) : Prop where
  mem : ∀ path, path ∈ paths ↔ path ∈ all
  order : paths.Pairwise fun a b => all.idxOf a < all.idxOf b

namespace FirstOccurrences

variable {all paths : List String}

theorem nil : FirstOccurrences [] [] := ⟨fun _ => Iff.rfl, .nil⟩

theorem nodup (h : FirstOccurrences all paths) : paths.Nodup := by
  refine h.order.imp ?_
  rintro a b hlt rfl
  exact Nat.lt_irrefl _ hlt

/-- Where a path first occurs does not depend on what is added at the end. -/
theorem order_append (h : FirstOccurrences all paths) (more : List String) :
    paths.Pairwise fun a b => (all ++ more).idxOf a < (all ++ more).idxOf b := by
  refine h.order.imp_of_mem ?_
  intro a b ha hb hlt
  rw [List.idxOf_append_of_mem ((h.mem a).mp ha), List.idxOf_append_of_mem ((h.mem b).mp hb)]
  exact hlt

/-- A path that is there has occurred before. -/
theorem again (h : FirstOccurrences all paths) {path : String} (hpath : path ∈ paths) :
    FirstOccurrences (all ++ [path]) paths where
  mem other := by
    rw [h.mem, List.mem_append, List.mem_singleton, or_iff_left_of_imp]
    rintro rfl
    exact (h.mem other).mp hpath
  order := h.order_append [path]

/-- A path that is not there occurs for the first time, after all others. -/
theorem new (h : FirstOccurrences all paths) {path : String} (hpath : path ∉ paths) :
    FirstOccurrences (all ++ [path]) (paths ++ [path]) where
  mem other := by rw [List.mem_append, List.mem_append, h.mem]
  order := by
    refine List.pairwise_append.mpr ⟨h.order_append [path], List.pairwise_singleton _ _, ?_⟩
    intro a ha b hb
    obtain rfl := List.mem_singleton.mp hb
    have hall : a ∈ all := (h.mem a).mp ha
    have hnew : b ∉ all := fun hb => hpath ((h.mem b).mpr hb)
    rw [List.idxOf_append_of_mem hall, List.idxOf_append_of_notMem hnew]
    exact Nat.lt_add_right _ (List.idxOf_lt_length_of_mem hall)

end FirstOccurrences

/-! ### One update -/

namespace MaskField

/-- The path of a field in the notation of the schema. -/
def schemaPath : MaskField → String
  | kmsKey => "kms_key"
  | labels => "labels"
  | format => "format"

/-- What a field holds that is not set. -/
def unset : (f : MaskField) → f.Value
  | kmsKey => (none : Option String)
  | labels => (none : Option (Table String))
  | format => (none : Option ParameterFormat)

/-- What an update sets a field to; an update of another field does not set it. -/
def valueIn : (f : MaskField) → ParameterUpdate → f.Value
  | kmsKey, .kmsKey key? => key?
  | labels, .labels table => some table
  | format, .format f => some f
  | f, _ => f.unset

end MaskField

namespace ParameterUpdate

theorem path_eq (u : ParameterUpdate) : u.path = u.field.schemaPath := by
  cases u with
  | kmsKey _ => rfl
  | labels _ => rfl
  | format _ => rfl

theorem get_apply_field (u : ParameterUpdate) (p : Parameter) :
    u.field.get (u.apply p) = u.field.valueIn u := by
  cases u with
  | kmsKey _ => rfl
  | labels _ => rfl
  | format _ => rfl

/-- Only a key can be updated to nothing. -/
theorem valueIn_eq_unset {u : ParameterUpdate} :
    u.field.valueIn u = u.field.unset ↔ u = kmsKey none := by
  cases u with
  | kmsKey key? => exact ⟨congrArg kmsKey, fun h => by cases h; rfl⟩
  | labels table => exact iff_of_false (Option.some_ne_none table) (by simp)
  | format f => exact iff_of_false (Option.some_ne_none f) (by simp)

/-- The last update of a field. -/
def last? (f : MaskField) (us : List ParameterUpdate) : Option ParameterUpdate :=
  (us.filter fun u => u.field = f).getLast?

theorem last?_concat (f : MaskField) (us : List ParameterUpdate) (u : ParameterUpdate) :
    last? f (us ++ [u]) = if u.field = f then some u else last? f us := by
  unfold last?
  rw [List.filter_append]
  by_cases h : u.field = f
  · simp [h]
  · simp [h]

theorem of_last? {f : MaskField} {us : List ParameterUpdate} {u : ParameterUpdate}
    (h : last? f us = some u) : u ∈ us ∧ u.field = f := by
  simpa using List.mem_filter.mp (List.mem_of_getLast? h)

theorem exists_last? {us : List ParameterUpdate} {u : ParameterUpdate} (h : u ∈ us) :
    ∃ v, last? u.field us = some v := by
  have hmem : u ∈ us.filter fun v => v.field = u.field := List.mem_filter.mpr ⟨h, by simp⟩
  exact ⟨_, List.getLast?_eq_some_getLast (List.ne_nil_of_mem hmem)⟩

end ParameterUpdate

/-- The body of a parameter has a member for its name and for each attribute that is set, in
another order at most. -/
theorem Parameter.names_body (p : Parameter) : ∃ members,
    Json.Wire.any.ofBytes (Utf8.encode p.toJson.compact) = .ok (.object members) ∧
      (members.map (·.1)).Perm ("name" :: p.attributes) := by
  have hnodup : (p.members.map (·.1)).Nodup :=
    List.Nodup.sublist (names_membersWith textTable p) (by decide)
  have hperm := (Json.Wire.insertEntries_ordered hnodup).1
  refine ⟨_, p.any_ofBytes_compact, (hperm.map _).trans ?_⟩
  rw [Json.orderedMembers_eq_map, List.map_map]
  exact .of_eq (p.names_membersWith_eq textTable)

/-! ### The request -/

namespace UpdateRequest

open ParameterUpdate

variable {n : ParameterName} {us : List ParameterUpdate}

/-! #### Its payload -/

theorem parameter_concat (n : ParameterName) (us : List ParameterUpdate) (u : ParameterUpdate) :
    (ofUpdates n (us ++ [u])).parameter = u.apply (ofUpdates n us).parameter := by
  simp only [ofUpdates, List.foldl_append, List.foldl_cons, List.foldl_nil]

/-- **The payload has the last value of each field**, and is unset where there is none. -/
theorem get_parameter (n : ParameterName) (us : List ParameterUpdate) (f : MaskField) :
    f.get (ofUpdates n us).parameter = (last? f us).elim f.unset f.valueIn := by
  induction us using List.reverseRecOn with
  | nil => cases f <;> rfl
  | append_singleton us u ih =>
      rw [parameter_concat, last?_concat]
      split
      · next hfield =>
        subst hfield
        exact get_apply_field u _
      · next hfield => rw [get_apply_of_ne hfield, ih]

/-- Besides the fields that can be updated the payload has the name alone. -/
theorem outside_parameter (n : ParameterName) (us : List ParameterUpdate) :
    (ofUpdates n us).parameter.SameOutside { name := n.display } := sameOutside_foldl us _

/-- A field that the payload sets has an update, and that sets it. -/
theorem get_parameter_eq_unset {f : MaskField} :
    f.get (ofUpdates n us).parameter = f.unset ↔
      last? f us = none ∨ last? f us = some (.kmsKey none) := by
  rw [get_parameter]
  cases hlast : last? f us with
  | none => simp
  | some u =>
      obtain ⟨-, rfl⟩ := of_last? hlast
      simpa using valueIn_eq_unset

/-! #### Its mask -/

theorem mask_concat (n : ParameterName) (us : List ParameterUpdate) (u : ParameterUpdate) :
    (ofUpdates n (us ++ [u])).mask = (ofUpdates n us).mask.add u.path := by
  simp only [ofUpdates, List.foldl_append, List.foldl_cons, List.foldl_nil]

/-- **The mask lists the fields in the order of their first updates.** -/
theorem firstOccurrences_mask (n : ParameterName) (us : List ParameterUpdate) :
    FirstOccurrences (us.map path) (ofUpdates n us).mask.paths := by
  induction us using List.reverseRecOn with
  | nil => exact .nil
  | append_singleton us u ih =>
      rw [mask_concat, List.map_append, List.map_singleton, FieldMask.add]
      split
      · next hcontains => exact ih.again (List.contains_iff_mem.mp hcontains)
      · next hcontains => exact ih.new fun hmem => hcontains (List.contains_iff_mem.mpr hmem)

/-- **More updates extend the mask at its end**, and drop nothing of it. -/
theorem mask_append (n : ParameterName) (us vs : List ParameterUpdate) :
    (ofUpdates n us).mask.paths <+: (ofUpdates n (us ++ vs)).mask.paths := by
  induction vs using List.reverseRecOn with
  | nil => simp
  | append_singleton vs u ih =>
      rw [← List.append_assoc, mask_concat, FieldMask.add]
      split
      · exact ih
      · exact ih.trans (List.prefix_append _ _)

/-! #### Both, as they are sent -/

/-- The items of a query value: what stands between its commas, if that is anything. -/
def itemsOf (value : String) : List String := (Text.split ',' value).filter (· ≠ "")

/-- The items of the mask are the fields that were updated. -/
theorem mem_itemsOf {item : String} :
    item ∈ itemsOf (ofUpdates n us).mask.queryValue ↔ ∃ u ∈ us, item = u.field.path := by
  rw [itemsOf, split_queryValue, mem_camelPaths]

/-- The attributes of the payload are the fields that it sets. -/
theorem mem_attributes {name : String} : name ∈ (ofUpdates n us).parameter.attributes ↔
    ∃ f : MaskField, name = f.path ∧ f.get (ofUpdates n us).parameter ≠ f.unset := by
  obtain ⟨-, hcreate, hupdate, hmember⟩ := outside_parameter n us
  generalize (ofUpdates n us).parameter = p at hcreate hupdate hmember
  have hset : name ∈ p.attributes ↔ (name = "labels" ∧ p.labels ≠ none) ∨
      (name = "format" ∧ p.format ≠ none) ∨ (name = "kmsKey" ∧ p.kmsKey ≠ none) := by
    simp [Parameter.attributes, hcreate, hupdate, hmember, Option.ne_none_iff_isSome, and_comm]
  rw [hset]
  constructor
  · rintro (⟨hname, hp⟩ | ⟨hname, hp⟩ | ⟨hname, hp⟩)
    · exact ⟨.labels, hname, hp⟩
    · exact ⟨.format, hname, hp⟩
    · exact ⟨.kmsKey, hname, hp⟩
  · rintro ⟨f, hname, hp⟩
    cases f with
    | labels => exact .inl ⟨hname, hp⟩
    | format => exact .inr (.inl ⟨hname, hp⟩)
    | kmsKey => exact .inr (.inr ⟨hname, hp⟩)

/-- A field that the payload sets has been updated. -/
theorem exists_of_set {f : MaskField} (h : f.get (ofUpdates n us).parameter ≠ f.unset) :
    ∃ u ∈ us, u.field = f := by
  rw [Ne, get_parameter_eq_unset, not_or] at h
  obtain ⟨u, hlast⟩ := Option.ne_none_iff_exists'.mp h.1
  exact ⟨u, of_last? hlast⟩

/-- A request says what some updates are, under all the names that a field has. -/
structure Tells (n : ParameterName) (us : List ParameterUpdate) (r : UpdateRequest) : Prop where
  /-- The mask has the paths of the updates, each once, in the order of the first ones. -/
  first : FirstOccurrences (us.map path) r.mask.paths
  distinct : r.mask.paths.Nodup
  /-- The payload has the values of the last ones. -/
  last : ∀ f : MaskField, f.get r.parameter = (last? f us).elim f.unset f.valueIn
  name : r.name = n ∧ r.parameter.name = n.display
  unset : r.parameter.createTime = none ∧ r.parameter.updateTime = none ∧
    r.parameter.policyMember = none
  /-- What the payload sets, the mask names. -/
  named : ∀ f : MaskField, f.get r.parameter ≠ f.unset → f.schemaPath ∈ r.mask.paths
  /-- So it is in what is sent, where a key that was removed last is named alone. -/
  sent : ∃ members,
    Json.Wire.any.ofBytes (Utf8.encode r.parameter.toJson.compact) = .ok (.object members) ∧
      (∀ m ∈ members, m.1 ≠ "name" → m.1 ∈ itemsOf r.mask.queryValue) ∧
      ∀ item, (item ∈ itemsOf r.mask.queryValue ∧ item ∉ members.map (·.1)) ↔
        ∃ f : MaskField, item = f.path ∧ last? f us = some (.kmsKey none)

/-- An item without a member is that of a key that was removed last. -/
theorem item_alone_iff {item : String} :
    (item ∈ itemsOf (ofUpdates n us).mask.queryValue ∧
        item ∉ "name" :: (ofUpdates n us).parameter.attributes) ↔
      ∃ f : MaskField, item = f.path ∧ last? f us = some (.kmsKey none) := by
  have hpath : ∀ f : MaskField, f.path ≠ "name" := by
    intro f
    cases f <;> decide
  rw [mem_itemsOf, List.mem_cons, mem_attributes]
  constructor
  · rintro ⟨⟨u, hu, rfl⟩, hnone⟩
    have hunset : u.field.get (ofUpdates n us).parameter = u.field.unset := by
      by_contra hset
      exact hnone (.inr ⟨u.field, rfl, hset⟩)
    obtain ⟨v, hlast⟩ := exists_last? hu
    exact ⟨u.field, rfl, (get_parameter_eq_unset.mp hunset).resolve_left (by simp [hlast])⟩
  · rintro ⟨f, rfl, hlast⟩
    obtain ⟨hu, hfield⟩ := of_last? hlast
    refine ⟨⟨_, hu, by rw [hfield]⟩, ?_⟩
    rintro (hname | ⟨g, hg, hset⟩)
    · exact hpath f hname
    · obtain rfl := MaskField.path_injective hg
      exact hset (get_parameter_eq_unset.mpr (.inr hlast))

/-- **Mask and payload agree, for every list of updates.**  The mask lists the fields in the order
of their first updates, the payload has the values of the last ones, and what is sent has a
member for each item of the mask but a key that was removed last.  More updates extend the
mask at its end. -/
theorem mask_follows_updates (n : ParameterName) (us : List ParameterUpdate) :
    Tells n us (ofUpdates n us) ∧
      ∀ more, (ofUpdates n us).mask.paths <+: (ofUpdates n (us ++ more)).mask.paths := by
  refine ⟨?_, mask_append n us⟩
  obtain ⟨hname, hcreate, hupdate, hmember⟩ := outside_parameter n us
  exact {
    first := firstOccurrences_mask n us
    distinct := (firstOccurrences_mask n us).nodup
    last := get_parameter n us
    name := ⟨rfl, hname⟩
    unset := ⟨hcreate, hupdate, hmember⟩
    named := by
      intro f hset
      obtain ⟨u, hu, rfl⟩ := exists_of_set hset
      exact mem_mask.mpr ⟨u, hu, u.path_eq⟩
    sent := by
      obtain ⟨members, hread, hperm⟩ := (ofUpdates n us).parameter.names_body
      refine ⟨members, hread, ?_, fun item => ?_⟩
      · intro m hm hne
        have hmem := hperm.mem_iff.mp (List.mem_map.mpr ⟨m, hm, rfl⟩)
        obtain ⟨f, hf, hset⟩ := mem_attributes.mp ((List.mem_cons.mp hmem).resolve_left hne)
        obtain ⟨u, hu, rfl⟩ := exists_of_set hset
        exact mem_itemsOf.mpr ⟨u, hu, hf⟩
      · rw [hperm.mem_iff]
        exact item_alone_iff }

-- the first updates are in order, the last values count, and the key is named alone
example :
    let r := ofUpdates (.global "p" "q")
      [.kmsKey (some "k"), .format .yaml, .labels .empty, .format .json, .kmsKey none]
    r.mask.paths = ["kms_key", "format", "labels"] ∧ r.parameter.kmsKey = none ∧
      r.parameter.attributes = ["labels", "format"] := by
  decide +kernel

end UpdateRequest

end ParameterManager
