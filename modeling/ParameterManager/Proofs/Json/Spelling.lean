/-
The texts of a value, and reading them.

A value can be written in many ways: any blanks may stand between tokens, and so the
compact form and the indented one are two texts among many.  `Spells` says which texts
those are.  `ReadsValue r j a` says that a reader takes every one of them for the same
thing, and `Wire.Takes w j a` that the wire takes the value itself for it too.

A value that has been read is not quite the one that was written, since the members of an
object are put in order.  `ordered` is what becomes of it.
-/
import ParameterManager.Json.Record
import ParameterManager.Proofs.Json.Numbers
import ParameterManager.Proofs.Json.Strings

namespace ParameterManager.Json

open Utf8 (Piece)

variable {α : Type}

/-! ### Texts -/

/-- What may stand before the name of a member; the first one is not behind a comma. -/
def Separates : Bool → List Char → Prop
  | true, sep => Blank sep
  | false, sep => ∃ gap gap', Blank gap ∧ Blank gap' ∧ sep = gap ++ ',' :: gap'

mutual
/-- A text spells a value. -/
inductive Spells : Json → List Char → Prop
  | null : Spells .null ['n', 'u', 'l', 'l']
  | yes : Spells (.bool true) ['t', 'r', 'u', 'e']
  | no : Spells (.bool false) ['f', 'a', 'l', 's', 'e']
  | count {n : Nat} : n ≤ maxSignificand → Spells (.ofNat n) (Nat.toDigits 10 n)
  | string (s : String) : Spells (.string s) (stringChars s)
  | object {members : List (String × Json)} {body : List Char} :
    SpellsMembers true members body → Spells (.object members) ('{' :: (body ++ ['}']))

/-- A text spells the members of an object, up to its closing bracket; the flag says whether
none came before. -/
inductive SpellsMembers : Bool → List (String × Json) → List Char → Prop
  | nil {first : Bool} {gap : List Char} : Blank gap → SpellsMembers first [] gap
  | cons {first : Bool} {name : String} {value : Json} {members : List (String × Json)}
      {sep gap gap' text body : List Char} :
    Separates first sep → Blank gap → Blank gap' → Spells value text →
    SpellsMembers false members body →
    SpellsMembers first ((name, value) :: members)
      (sep ++ (stringChars name ++ (gap ++ [':'] ++ (gap' ++ text ++ body))))
end

/-- A text starts with a token, which is that of `null` for `null` alone. -/
theorem Spells.head {j : Json} {text : List Char} (h : Spells j text) :
    ∃ ch cs, text = ch :: cs ∧ isBlank ch = false ∧ (ch = 'n' → j = .null) := by
  cases h with
  | null => exact ⟨_, _, rfl, by decide, fun _ => rfl⟩
  | yes => exact ⟨_, _, rfl, by decide, fun hn => absurd hn (by decide)⟩
  | no => exact ⟨_, _, rfl, by decide, fun hn => absurd hn (by decide)⟩
  | @count n _ =>
      obtain ⟨d, ds, hd⟩ := List.exists_cons_of_ne_nil (Nat.toDigits_ne_nil (n := n) (b := 10))
      have hdigit : d.isDigit = true := Text.isDigit_of_mem_digits (hd ▸ List.mem_cons_self)
      refine ⟨d, ds, hd, ?_, ?_⟩
      · rw [Bool.eq_false_iff]
        intro hblank
        simp only [isBlank, Bool.or_eq_true, beq_iff_eq] at hblank
        rcases hblank with ((rfl | rfl) | rfl) | rfl <;> simp at hdigit
      · rintro rfl
        simp at hdigit
  | string s => exact ⟨_, _, rfl, by decide, fun hn => absurd hn (by decide)⟩
  | object _ => exact ⟨_, _, rfl, by decide, fun hn => absurd hn (by decide)⟩

/-! ### Order -/

mutual
/-- A value with the members of its objects put in order. -/
def ordered : Json → Json
  | .array items => .array (orderedItems items)
  | .object members => sorted (orderedMembers members)
  | j => j

def orderedItems : List Json → List Json
  | [] => []
  | item :: items => ordered item :: orderedItems items

/-- Members with values put in order, in the order they stand in. -/
def orderedMembers : List (String × Json) → List (String × Json)
  | [] => []
  | (name, value) :: members => (name, ordered value) :: orderedMembers members
end

theorem orderedMembers_eq_map (members : List (String × Json)) :
    orderedMembers members = members.map fun m => (m.1, ordered m.2) := by
  induction members with
  | nil => rfl
  | cons m members ih =>
      rw [List.map_cons, ← ih]
      rfl

theorem orderedMembers_append (members others : List (String × Json)) :
    orderedMembers (members ++ others) = orderedMembers members ++ orderedMembers others := by
  rw [orderedMembers_eq_map, orderedMembers_eq_map, orderedMembers_eq_map, List.map_append]

/-! ### Reading -/

/-- A reader takes every text of a value for the same thing, with blanks before it or not. -/
def ReadsValue (r : Reader α) (j : Json) (a : α) : Prop :=
  ∀ text, Spells j text → ∀ gap rest, Blank gap → EndsNumber rest → Reads r (gap ++ text) a rest

/-- A wire takes a value for something, as a text and as a value that has been read. -/
structure Wire.Takes (w : Wire α) (j : Json) (a : α) : Prop where
  text : ReadsValue w.read j a
  value : w.ofJson (ordered j) = .ok a

/-- A reader that starts with the next token reads a value from its first token on. -/
theorem ReadsValue.ofToken {f : Char → Reader α} {j : Json} {a : α}
    (h : ∀ ch cs rest, Spells j (ch :: cs) → EndsNumber rest → Reads (f ch) (ch :: cs) a rest) :
    ReadsValue (withToken f) j a := by
  intro text htext gap rest hgap hrest
  obtain ⟨ch, cs, rfl, hch, -⟩ := htext.head
  exact Reads.token hgap hch (h ch cs rest htext hrest)

/-- Blanks between a number and what may follow it do not make it longer. -/
theorem endsNumber_gap {gap : List Char} (hgap : Blank gap) {rest : List Piece}
    (h : EndsNumber rest) : EndsNumber (gap.map .char ++ rest) := by
  cases gap with
  | nil => exact h
  | cons c gap =>
      have hc := hgap c List.mem_cons_self
      simp only [isBlank, Bool.or_eq_true, beq_iff_eq] at hc
      rcases hc with ((rfl | rfl) | rfl) | rfl <;> exact rfl

/-- What follows the value of a member is something that may. -/
theorem SpellsMembers.ends {members : List (String × Json)} {body : List Char}
    (h : SpellsMembers false members body) (rest : List Piece) :
    EndsNumber (body.map .char ++ .char '}' :: rest) := by
  cases h with
  | nil hblank => exact endsNumber_gap hblank rfl
  | cons hsep _ _ _ _ =>
      obtain ⟨gap, gap', hblank, -, rfl⟩ := hsep
      simp only [List.map_append, List.append_assoc, List.map_cons, List.cons_append]
      exact endsNumber_gap hblank rfl

/-! ### Members -/

theorem reads_memberName (name : String) (rest : List Piece) :
    Reads memberName (stringChars name) name rest :=
  Reads.taken (reads_stringRest name rest)

/-- A member follows, and its name is next. -/
theorem reads_nextMember {first : Bool} {sep : List Char} (h : Separates first sep)
    (rest : List Piece) : Reads (Reader.nextMember first) sep true (.char '"' :: rest) := by
  cases first with
  | true => exact Reads.then_nothing (Reads.peekToken h rfl) Reads.pure
  | false =>
      obtain ⟨gap, gap', hgap, hgap', rfl⟩ := h
      refine Reads.token hgap (by decide) (Reads.taken ?_)
      exact Reads.then_nothing (Reads.peekToken hgap' rfl) Reads.pure

theorem reads_nextMember_end {first : Bool} {gap : List Char} (h : Blank gap) (rest : List Piece) :
    Reads (Reader.nextMember first) gap false (.char '}' :: rest) :=
  Reads.then_nothing (Reads.peekToken h rfl) Reads.pure

section Items

variable {ι : Type} {name : ι → String} {json : ι → Json} {value : ι → α} {one : Reader α}

private theorem reads_readMembers {items : List ι} {body : List Char} {n : Nat}
    (acc : List (String × α)) (rest : List Piece)
    (hread : ∀ i ∈ items, ReadsValue one (json i) (value i))
    (hbody : SpellsMembers acc.isEmpty (items.map fun i => (name i, json i)) body)
    (hn : items.length < n) :
    Reads (readMembers one n acc) body (acc.reverse ++ items.map fun i => (name i, value i))
      (.char '}' :: rest) := by
  induction items generalizing body n acc with
  | nil =>
      obtain ⟨m, rfl⟩ : ∃ m, n = m + 1 := ⟨n - 1, by simp at hn; omega⟩
      rw [List.map_nil] at hbody
      cases hbody with
      | nil hgap =>
          refine Reads.then_nothing (reads_nextMember_end hgap rest) ?_
          rw [List.map_nil, List.append_nil]
          exact Reads.pure
  | cons i items ih =>
      obtain ⟨m, rfl⟩ : ∃ m, n = m + 1 := ⟨n - 1, by simp at hn; omega⟩
      have hm : items.length < m := by simp at hn; omega
      rw [List.map_cons] at hbody
      cases hbody with
      | cons hsep hgap hgap' htext hrest =>
          have hvalue := hread i List.mem_cons_self _ htext _ _ hgap' (hrest.ends rest)
          have hothers := ih ((name i, value i) :: acc)
            (fun k hk => hread k (List.mem_cons_of_mem _ hk)) hrest hm
          rw [List.reverse_cons, List.append_assoc, List.singleton_append] at hothers
          refine Reads.bind (by
            rw [List.map_append, List.append_assoc]
            exact reads_nextMember hsep _) ?_
          refine Reads.bind (reads_memberName (name i) _) ?_
          refine Reads.bind (Reads.colon hgap) ?_
          exact Reads.bind hvalue hothers

/-- Every text of some members is at least as long as they are many. -/
theorem SpellsMembers.length_le {first : Bool} {members : List (String × Json)} {body : List Char}
    (h : SpellsMembers first members body) : members.length ≤ body.length := by
  induction members generalizing first body with
  | nil => exact Nat.zero_le _
  | cons m members ih =>
      cases h with
      | cons _ _ _ _ hrest =>
          have := ih hrest
          simp only [List.length_append, List.length_cons, stringChars]
          omega

/-- **The members of an object are read as a list**, the opening bracket having been taken. -/
theorem reads_membersOf {items : List ι} {body : List Char} (rest : List Piece)
    (hread : ∀ i ∈ items, ReadsValue one (json i) (value i))
    (hbody : SpellsMembers true (items.map fun i => (name i, json i)) body) :
    Reads (membersOf one) (body ++ ['}']) (items.map fun i => (name i, value i)) rest := by
  have hlen := hbody.length_le
  rw [List.length_map] at hlen
  refine Reads.look Reads.remaining ?_
  refine Reads.bind (reads_readMembers [] rest hread hbody ?_) ?_
  · simp only [List.length_append, List.length_map]
    omega
  · exact Reads.then_nothing (Reads.endObject [] blank_nil) (Reads.closed rfl)

end Items

end ParameterManager.Json
