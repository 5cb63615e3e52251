/-
What a record is read as.

Every member of an object makes a change to the record, the one that its field makes for
its value.  If each name stands there once and each value is taken for something, the
record that is read is the first record changed by one member after the other, from a
text just as from a value that has been read before.

In a value that has been read the members stand in another order.  That does not matter
if the changes of different fields do not depend on their order, which is how records
are made: a field sets one attribute.
-/
import ParameterManager.Parameter
import ParameterManager.Proofs.Json.Wire

namespace ParameterManager.Json.Record

open Utf8 (Piece)

variable {σ : Type} {r : Record σ}

/-! ### Changes -/

/-- The change that a member makes to a record. -/
def changeOf (r : Record σ) (m : String × Json) : σ → σ :=
  match r.field? m.1 with
  | none => id
  | some f =>
    match f.wire.ofJson m.2 with
    | .ok change => change
    | .error _ => id

/-- A record changed by some members, one after the other. -/
def changed (r : Record σ) (members : List (String × Json)) (state : σ) : σ :=
  members.foldl (fun s m => r.changeOf m s) state

/-- A record has a field for a member, which takes its value for something. -/
def Knows (r : Record σ) (m : String × Json) : Prop :=
  ∃ f change, r.field? m.1 = some f ∧ f.wire.Takes m.2 change

private theorem changeOf_eq {m : String × Json} {f : Field σ} {change : σ → σ}
    (hf : r.field? m.1 = some f) (hm : f.wire.ofJson m.2 = .ok change) :
    r.changeOf m = change := by
  simp only [changeOf, hf, hm]

/-! ### Completeness -/

/-- A record is complete once every field it requires has been seen. -/
theorem complete_of_seen {seen : List String}
    (h : ∀ f ∈ r.fields, f.presence = .required → f.name ∈ seen) (state : σ) :
    r.complete seen state = .ok state := by
  have hmissing : r.missing? seen = none := by
    rw [missing?, List.find?_eq_none]
    intro f hf
    simp only [Bool.and_eq_true, Bool.not_eq_true', List.contains_eq_mem, decide_eq_true_eq,
      decide_eq_false_iff_not, not_and]
    exact fun hrequired hunseen => hunseen (h f hf hrequired)
  rw [complete, hmissing]

/-! ### From a text -/

private theorem reads_members {members : List (String × Json)} {first : Bool} {body : List Char}
    {n : Nat} (rest : List Piece) (seen : List String) (state : σ)
    (hknown : ∀ m ∈ members, r.Knows m) (hnodup : (members.map (·.1)).Nodup)
    (hseen : ∀ m ∈ members, m.1 ∉ seen) (hbody : SpellsMembers first members body)
    (hn : members.length < n) :
    Reads (r.readMembers n first seen state) body
      (r.complete ((members.map (·.1)).reverse ++ seen) (r.changed (orderedMembers members) state))
      (.char '}' :: rest) := by
  induction members generalizing first body n seen state with
  | nil =>
      obtain ⟨k, rfl⟩ : ∃ k, n = k + 1 := ⟨n - 1, by simp at hn; omega⟩
      cases hbody with
      | nil hgap => exact Reads.then_nothing (reads_nextMember_end hgap rest) Reads.pure
  | cons m members ih =>
      obtain ⟨k, rfl⟩ : ∃ k, n = k + 1 := ⟨n - 1, by simp at hn; omega⟩
      have hk : members.length < k := by simp at hn; omega
      obtain ⟨f, change, hfield, htakes⟩ := hknown m List.mem_cons_self
      have hchange : r.changeOf (m.1, ordered m.2) = change := changeOf_eq hfield htakes.value
      rw [List.map_cons, List.nodup_cons] at hnodup
      cases hbody with
      | @cons first name value _ sep gap gap' text body hsep hgap hgap' htext hrest =>
          have hvalue := htakes.text _ htext _ _ hgap' (hrest.ends rest)
          have hothers := ih (name :: seen) (change state)
            (fun d hd => hknown d (List.mem_cons_of_mem _ hd)) hnodup.2
            (by
              intro d hd hmem
              rcases List.mem_cons.mp hmem with heq | hmem
              · exact hnodup.1 (List.mem_map.mpr ⟨d, hd, heq⟩)
              · exact hseen d (List.mem_cons_of_mem _ hd) hmem) hrest hk
          have hunseen : ¬seen.contains name = true := fun h =>
            hseen (name, value) List.mem_cons_self (List.contains_iff_mem.mp h)
          refine Reads.bind (by
            rw [List.map_append, List.append_assoc]
            exact reads_nextMember hsep _) ?_
          refine Reads.bind (reads_memberName name _) ?_
          rw [hfield]
          show Reads (if seen.contains name then _ else _) _ _ _
          rw [if_neg hunseen]
          refine Reads.bind (Reads.colon hgap) (Reads.bind hvalue ?_)
          rw [List.map_cons, List.reverse_cons, List.append_assoc, List.singleton_append]
          show Reads _ _ (r.complete _ (r.changed (orderedMembers members)
            (r.changeOf (name, ordered value) state))) _
          rw [hchange]
          exact hothers

/-! ### From a value -/

private theorem ofMembers_eq {members : List (String × Json)} (seen : List String) (state : σ)
    (hknown : ∀ m ∈ members, ∃ f change, r.field? m.1 = some f ∧ f.wire.ofJson m.2 = .ok change)
    (hnodup : (members.map (·.1)).Nodup) (hseen : ∀ m ∈ members, m.1 ∉ seen) :
    r.ofMembers members seen state
      = r.complete ((members.map (·.1)).reverse ++ seen) (r.changed members state) := by
  induction members generalizing seen state with
  | nil => rfl
  | cons m members ih =>
      obtain ⟨name, value⟩ := m
      obtain ⟨f, change, hfield, hchange⟩ := hknown _ List.mem_cons_self
      have hunseen : ¬seen.contains name = true := fun h =>
        hseen (name, value) List.mem_cons_self (List.contains_iff_mem.mp h)
      rw [List.map_cons, List.nodup_cons] at hnodup
      have hothers := ih (name :: seen) (change state)
        (fun d hd => hknown d (List.mem_cons_of_mem _ hd)) hnodup.2
        (by
          intro d hd hmem
          rcases List.mem_cons.mp hmem with heq | hmem
          · exact hnodup.1 (List.mem_map.mpr ⟨d, hd, heq⟩)
          · exact hseen d (List.mem_cons_of_mem _ hd) hmem)
      simp only at hfield hchange
      rw [ofMembers, hfield]
      simp only [if_neg hunseen, hchange]
      show r.ofMembers members (name :: seen) (change state) = _
      rw [hothers, List.map_cons, List.reverse_cons, List.append_assoc, List.singleton_append]
      show _ = r.complete _ (r.changed members (r.changeOf (name, value) state))
      rw [changeOf_eq (m := (name, value)) hfield hchange]

/-! ### Order -/

private theorem map_eq_ok {α β : Type} {f : α → β} {x : Except Cause α} {b : β}
    (h : x.map f = .ok b) : ∃ a, x = .ok a ∧ f a = b := by
  cases x with
  | error _ => simp [Except.map] at h
  | ok a => exact ⟨a, rfl, Except.ok.inj h⟩

/-- Fields whose changes may be made in either order. -/
def Commute (f g : Field σ) : Prop :=
  ∀ j k c d, f.wire.ofJson j = .ok c → g.wire.ofJson k = .ok d → ∀ s, c (d s) = d (c s)

/-- A record whose fields do not depend on each other. -/
def Independent (r : Record σ) : Prop := r.fields.Pairwise Commute

/-- What holds of any two fields, whichever comes first, holds of fields of different names. -/
theorem forall_of_pairwise {related : Field σ → Field σ → Prop}
    (hsymm : ∀ f g, related f g → related g f) (h : r.fields.Pairwise related) {f g : Field σ}
    (hf : f ∈ r.fields) (hg : g ∈ r.fields) (hne : f.name ≠ g.name) : related f g := by
  have hforth : r.fields.Pairwise fun f g => f.name ≠ g.name → related f g := by
    refine List.Pairwise.imp ?_ h
    exact fun hfg _ => hfg
  have hback : r.fields.Pairwise fun f g => g.name ≠ f.name → related g f := by
    refine List.Pairwise.imp ?_ h
    exact fun hfg _ => hsymm _ _ hfg
  exact List.Pairwise.forall_of_forall_of_flip (fun _ _ hself => absurd rfl hself) hforth hback
    hf hg hne

private theorem Independent.commute (h : r.Independent) {f g : Field σ} (hf : f ∈ r.fields)
    (hg : g ∈ r.fields) (hne : f.name ≠ g.name) : Commute f g :=
  forall_of_pairwise (fun _ _ hfg j k c d hc hd s => (hfg k j d c hd hc s).symm) h hf hg hne

theorem field?_some {name : String} {f : Field σ} (h : r.field? name = some f) :
    f ∈ r.fields ∧ f.name = name :=
  ⟨List.mem_of_find?_eq_some h, by simpa using List.find?_some h⟩

private theorem changeOf_commute (h : r.Independent) {m d : String × Json} (hne : m.1 ≠ d.1)
    (s : σ) :
    r.changeOf m (r.changeOf d s) = r.changeOf d (r.changeOf m s) := by
  unfold changeOf
  cases hf : r.field? m.1 with
  | none => rfl
  | some f =>
      cases hg : r.field? d.1 with
      | none => rfl
      | some g =>
          obtain ⟨hfmem, hfname⟩ := field?_some hf
          obtain ⟨hgmem, hgname⟩ := field?_some hg
          have hcommute := h.commute hfmem hgmem (by rw [hfname, hgname]; exact hne)
          simp only
          cases hc : f.wire.ofJson m.2 with
          | error _ => rfl
          | ok c =>
              cases hd : g.wire.ofJson d.2 with
              | error _ => rfl
              | ok d => exact hcommute _ _ c d hc hd s

private theorem eq_of_name_eq {members : List (String × Json)} (hnodup : (members.map (·.1)).Nodup)
    {m d : String × Json} (hm : m ∈ members) (hd : d ∈ members) (h : m.1 = d.1) : m = d := by
  induction members with
  | nil => exact absurd hm List.not_mem_nil
  | cons e members ih =>
      rw [List.map_cons, List.nodup_cons] at hnodup
      rcases List.mem_cons.mp hm with rfl | hm'
      · rcases List.mem_cons.mp hd with rfl | hd'
        · rfl
        · exact (hnodup.1 (List.mem_map.mpr ⟨d, hd', h.symm⟩)).elim
      · rcases List.mem_cons.mp hd with rfl | hd'
        · exact (hnodup.1 (List.mem_map.mpr ⟨m, hm', h⟩)).elim
        · exact ih hnodup.2 hm' hd'

/-- **Members may stand in any order.** -/
theorem changed_perm (h : r.Independent) {members others : List (String × Json)}
    (hperm : members.Perm others) (hnodup : (members.map (·.1)).Nodup) (state : σ) :
    r.changed members state = r.changed others state := by
  refine hperm.foldl_eq' ?_ state
  intro m hm d hd s
  by_cases hname : m.1 = d.1
  · rw [eq_of_name_eq hnodup hm hd hname]
  · exact (changeOf_commute h hname s).symm

/-! ### Both -/

/-- **The members of an object are taken for the record that they make.** -/
theorem takes_object (h : r.Independent) {members : List (String × Json)}
    (hknown : ∀ m ∈ members, r.Knows m) (hnodup : (members.map (·.1)).Nodup)
    (hrequired : ∀ f ∈ r.fields, f.presence = .required → f.name ∈ members.map (·.1)) :
    r.wire.Takes (.object members) (r.changed (orderedMembers members) r.initial) where
  text := by
    refine ReadsValue.ofToken ?_
    intro ch cs rest hspells _
    obtain ⟨rfl, body, rfl, hbody⟩ := Wire.spells_object hspells
    rw [if_pos rfl]
    have hlen := hbody.length_le
    refine Reads.taken (Reads.look Reads.remaining ?_)
    refine Reads.bind
      (reads_members rest [] r.initial hknown hnodup (fun _ _ => List.not_mem_nil) hbody ?_) ?_
    · simp only [List.length_append, List.length_map]
      omega
    · rw [complete_of_seen fun f hf hreq => by
        rw [List.append_nil, List.mem_reverse]
        exact hrequired f hf hreq]
      exact Reads.then_nothing (Reads.endObject [] blank_nil) (Reads.closed rfl)
  value := by
    have hnames : (orderedMembers members).map (·.1) = members.map (·.1) := by
      rw [orderedMembers_eq_map, List.map_map]
      rfl
    obtain ⟨hperm, hnodup'⟩ := Wire.insertEntries_ordered hnodup
    show r.ofMembers (insertEntries [] (orderedMembers members)) [] r.initial = _
    rw [ofMembers_eq [] r.initial _ hnodup' fun _ _ => List.not_mem_nil,
      complete_of_seen fun f hf hreq => by
        rw [List.append_nil, List.mem_reverse, (hperm.map _).mem_iff, hnames]
        exact hrequired f hf hreq,
      changed_perm h hperm hnodup']
    intro m hm
    rw [hperm.mem_iff, orderedMembers_eq_map, List.mem_map] at hm
    obtain ⟨d, hd, rfl⟩ := hm
    obtain ⟨f, change, hfield, htakes⟩ := hknown d hd
    exact ⟨f, change, hfield, htakes.value⟩

/-! ### Attributes -/

theorem changed_append (members others : List (String × Json)) (state : σ) :
    r.changed (members ++ others) state = r.changed others (r.changed members state) :=
  List.foldl_append

/-- Fields that set two attributes may be read in either order. -/
theorem commute_of {α β : Type} {name name' : String} {presence presence' : Presence} {w : Wire α}
    {w' : Wire β} {set : α → σ → σ} {set' : β → σ → σ}
    (h : ∀ a b s, set a (set' b s) = set' b (set a s)) :
    Commute (Field.of name presence w set) (Field.of name' presence' w' set') := by
  intro j k c d hc hd s
  obtain ⟨a, -, rfl⟩ := map_eq_ok hc
  obtain ⟨b, -, rfl⟩ := map_eq_ok hd
  exact h a b s

section Plain

variable {α : Type} {name : String} {presence : Presence} {w : Wire α} {set : α → σ → σ} {j : Json}
  {a : α}

/-- A member is known if the wire of its field takes the value. -/
theorem knows_of (hfield : r.field? name = some (.of name presence w set)) (htakes : w.Takes j a) :
    r.Knows (name, j) :=
  ⟨_, _, hfield, htakes.map set⟩

/-- A member sets the attribute of its field. -/
theorem changed_cons (hfield : r.field? name = some (.of name presence w set))
    (htakes : w.Takes j a) (members : List (String × Json)) (state : σ) :
    r.changed (orderedMembers ((name, j) :: members)) state
      = r.changed (orderedMembers members) (set a state) := by
  show r.changed _ (r.changeOf (name, ordered j) state) = _
  rw [changeOf_eq (m := (name, ordered j)) hfield (htakes.map set).value]

end Plain

section Partial

variable {α β : Type} {name : String} {presence : Presence} {w : Wire β} {set : β → σ → σ}
  {toJson : α → Json} {given : α → β} {value? : Option α}

/-- A member that may be left out is known if its field takes what is written of it. -/
theorem knows_memberOf_of (hfield : r.field? name = some (.of name presence w set))
    (htakes : ∀ a, value? = some a → w.Takes (toJson a) (given a)) {m : String × Json}
    (hm : m ∈ memberOf name toJson value?) : r.Knows m := by
  obtain ⟨a, ha, rfl⟩ := List.mem_map.mp hm
  exact knows_of hfield (htakes a (Option.mem_toList.mp ha))

/-- A member that may be left out sets the attribute of its field if it is there. -/
theorem changed_memberOf_of (hfield : r.field? name = some (.of name presence w set))
    (htakes : ∀ a, value? = some a → w.Takes (toJson a) (given a)) (state : σ) :
    r.changed (orderedMembers (memberOf name toJson value?)) state
      = value?.elim state fun a => set (given a) state := by
  cases value? with
  | none => rfl
  | some a => exact changed_cons hfield (htakes a rfl) [] state

end Partial

section Optional

variable {α : Type} {name : String} {presence : Presence} {w : Wire (Option α)}
  {set : Option α → σ → σ} {toJson : α → Json}

/-- An optional attribute is known if its field takes what it is written as. -/
theorem knows_memberOf (hfield : r.field? name = some (.of name presence w set))
    (htakes : ∀ a, w.Takes (toJson a) (some a)) {value? : Option α} {m : String × Json}
    (hm : m ∈ memberOf name toJson value?) : r.Knows m :=
  knows_memberOf_of hfield (fun a _ => htakes a) hm

/-- An optional attribute is at most one member. -/
theorem names_memberOf (value? : Option α) :
    ((memberOf name toJson value?).map (·.1)).Sublist [name] := by
  cases value? with
  | none => exact List.nil_sublist _
  | some a => exact List.Sublist.refl _

/-- An optional attribute that is written is set, and one that is not stays unset. -/
theorem changed_memberOf (hfield : r.field? name = some (.of name presence w set))
    (htakes : ∀ a, w.Takes (toJson a) (some a)) (value? : Option α) {state : σ}
    (hnone : set none state = state) :
    r.changed (orderedMembers (memberOf name toJson value?)) state = set value? state := by
  rw [changed_memberOf_of hfield fun a _ => htakes a]
  cases value? with
  | none => exact hnone.symm
  | some a => rfl

end Optional

end ParameterManager.Json.Record
