/-
What a reader can give at all.

`Gives r holds` says that whatever a reader gives has a property, no matter what the text
is and where the reader stands in it.  A reader that fails gives nothing, so every property
holds of what it gives; for the others the property goes from the parts to the whole.

A record is made by the changes of its fields, in the order of the text.  What the first
record has and every change keeps, every record that is read has.
-/
import Mathlib.Algebra.Group.Nat.Defs
import ParameterManager.Json.Record
import ParameterManager.Proofs.Json.Reads

namespace ParameterManager.Json

variable {α β σ : Type}

/-- Whatever a reader gives has a property. -/
def Gives (r : Reader α) (holds : α → Prop) : Prop := ∀ c a c', r c = .ok (a, c') → holds a

namespace Gives

variable {r : Reader α} {f : α → Reader β} {holds : β → Prop}

/-! ### Readers made of readers -/

theorem pure {a : α} {holds : α → Prop} (h : holds a) : Gives (Pure.pure a) holds := by
  intro c a' c' hread
  obtain ⟨rfl, -⟩ := Prod.mk.inj (Except.ok.inj hread)
  exact h

/-- Of two readers, the second gives something only on what the first gave. -/
theorem bind {before : α → Prop} (hr : Gives r before) (hf : ∀ a, before a → Gives (f a) holds) :
    Gives (r >>= f) holds := by
  intro c b c' hread
  obtain ⟨a, c1, hfirst, hsecond⟩ := Reads.bind_ok hread
  exact hf a (hr c a c1 hfirst) c1 b c' hsecond

/-- What a reader gives does not depend on a first reader of which nothing is known. -/
theorem after (hf : ∀ a, Gives (f a) holds) : Gives (r >>= f) holds := by
  have hall : Gives r fun _ => True := fun _ _ _ _ => trivial
  exact bind hall fun a _ => hf a

theorem failHere (cause : Cause) : Gives (Reader.failHere cause) holds := by
  intro c a c' hread
  cases hread

theorem failBeyond (cause : Cause) : Gives (Reader.failBeyond cause) holds := by
  intro c a c' hread
  cases hread

theorem withToken {f : Char → Reader β} (h : ∀ ch, Gives (f ch) holds) :
    Gives (withToken f) holds := by
  refine after fun ch? => ?_
  cases ch? with
  | none => exact failBeyond _
  | some ch => exact h ch

theorem mismatch (expected : String) : Gives (mismatch expected) holds := by
  refine after fun ch? => ?_
  cases ch? with
  | none => exact failBeyond _
  | some ch =>
      show Gives (ite _ _ _) holds
      split
      · exact after fun _ => after fun _ => failHere _
      split
      · exact after fun _ => after fun _ => failHere _
      split
      · exact after fun _ => after fun _ => failHere _
      split
      · exact after fun _ => failHere _
      split
      · exact after fun _ => after fun _ => failHere _
      split
      · exact failHere _
      split
      · exact failHere _
      · exact failBeyond _

theorem closed {content : Except Cause β} {fault? : Option Cause}
    (h : ∀ b, content = .ok b → holds b) : Gives (Reader.closed content fault?) holds := by
  cases content with
  | error cause => exact failHere cause
  | ok b =>
      cases fault? with
      | none => exact pure (h b rfl)
      | some fault => exact failBeyond fault

/-- What a whole text gives has what its reader gives. -/
theorem runAll {holds : α → Prop} (h : Gives r holds) {c : Cursor} {a : α}
    (hread : r.runAll c = .ok a) : holds a := by
  obtain ⟨c', hok⟩ := Reads.runAll_ok hread
  exact h c a c' hok

end Gives

/-! ### Counts -/

private theorem toCount_lt {bits n : Nat} {number : Number}
    (h : Wire.toCount bits number = .ok n) : n < 2 ^ bits := by
  cases number with
  | float f => cases h
  | int i =>
      rw [Wire.toCount] at h
      split at h
      · next hfits =>
        obtain rfl := Except.ok.inj h
        have hlt : i < ((2 ^ bits : Nat) : Int) := hfits.2
        omega
      · cases h

theorem gives_count (bits : Nat) : Gives (Wire.count bits).read (· < 2 ^ bits) := by
  refine Gives.withToken fun ch => ?_
  split
  · refine Gives.after fun number => ?_
    cases hcount : Wire.toCount bits number with
    | ok n => exact Gives.pure (toCount_lt hcount)
    | error cause => exact Gives.failHere cause
  · exact Gives.mismatch _

/-! ### Records -/

/-- Whatever change a field makes, it keeps a property of records. -/
def Field.Keeps (f : Field σ) (holds : σ → Prop) : Prop :=
  Gives f.wire.read fun change => ∀ state, holds state → holds (change state)

/-- A field keeps what setting its attribute keeps, for the values it can give. -/
theorem Field.keeps_of {name : String} {presence : Presence} {w : Wire α} {set : α → σ → σ}
    {given : α → Prop} {holds : σ → Prop} (hw : Gives w.read given)
    (hset : ∀ a state, given a → holds state → holds (set a state)) :
    (Field.of name presence w set).Keeps holds :=
  Gives.bind hw fun a ha => Gives.pure fun state => hset a state ha

/-- A field of whose values nothing is known. -/
theorem Field.keeps_any {name : String} {presence : Presence} {w : Wire α} {set : α → σ → σ}
    {holds : σ → Prop} (hset : ∀ a state, holds state → holds (set a state)) :
    (Field.of name presence w set).Keeps holds :=
  Gives.after fun a => Gives.pure fun state => hset a state

namespace Record

variable {r : Record σ} {holds : σ → Prop}

private theorem eq_of_complete {seen : List String} {state result : σ}
    (h : r.complete seen state = .ok result) : result = state := by
  rw [complete] at h
  split at h
  · cases h
  · exact (Except.ok.inj h).symm

private theorem gives_members (hfields : ∀ f ∈ r.fields, f.Keeps holds) {n : Nat} {first : Bool}
    {seen : List String} {state : σ} (hstate : holds state) :
    Gives (r.readMembers n first seen state) fun content => ∀ a, content = .ok a → holds a := by
  induction n generalizing first seen state with
  | zero => exact Gives.failBeyond _
  | succ n ih =>
      refine Gives.after fun more => ?_
      cases more with
      | false =>
          refine Gives.pure fun a ha => ?_
          rw [eq_of_complete ha]
          exact hstate
      | true =>
          refine Gives.after fun name => ?_
          cases hfield : r.field? name with
          | none => exact Gives.after fun _ => Gives.after fun _ => ih hstate
          | some f =>
              show Gives (if seen.contains name then _ else _) _
              split
              · exact Gives.pure fun a ha => nomatch ha
              · refine Gives.after fun _ => Gives.bind (hfields f ?_) fun change hchange => ?_
                · exact List.mem_of_find?_eq_some hfield
                · exact ih (hchange state hstate)

private theorem gives_items {fields : List (Field σ)} (hfields : ∀ f ∈ fields, f.Keeps holds)
    {index : Nat} {first : Bool} {state : σ} (hstate : holds state) :
    Gives (r.readItems fields index first state) fun content => ∀ a, content = .ok a → holds a := by
  induction fields generalizing index first state with
  | nil => exact Gives.pure fun a ha => Except.ok.inj ha ▸ hstate
  | cons f fields ih =>
      have hothers : ∀ g ∈ fields, g.Keeps holds := fun g hg => hfields g (List.mem_cons_of_mem _ hg)
      refine Gives.after fun more => ?_
      cases more with
      | true =>
          refine Gives.bind (hfields f List.mem_cons_self) fun change hchange => ?_
          exact ih hothers (hchange state hstate)
      | false =>
          show Gives (if f.presence = .defaulted then _ else _) _
          split
          · exact ih hothers hstate
          · exact Gives.pure fun a ha => nomatch ha

/-- **What the first record has and every field keeps, every record that is read has.** -/
theorem gives (hinitial : holds r.initial) (hfields : ∀ f ∈ r.fields, f.Keeps holds) :
    Gives r.wire.read holds := by
  refine Gives.withToken fun ch => ?_
  split
  · refine Gives.after fun _ => Gives.after fun n => ?_
    refine Gives.bind (gives_members hfields hinitial) fun content hcontent => ?_
    exact Gives.after fun fault? => Gives.closed hcontent
  split
  · refine Gives.after fun _ => ?_
    refine Gives.bind (gives_items hfields hinitial) fun content hcontent => ?_
    exact Gives.after fun fault? => Gives.closed hcontent
  · exact Gives.mismatch _

end Record

end ParameterManager.Json
