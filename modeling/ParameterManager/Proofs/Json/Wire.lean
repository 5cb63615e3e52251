/-
What the wires take values for.

One lemma for each way of making a wire says which value it takes for what, as a text and
as a value that has been read before.  A wire that is made of others takes a value for
something because those do.
-/
import Mathlib.Algebra.Group.Nat.Defs
import ParameterManager.Proofs.Json.Spelling
import ParameterManager.Proofs.Table

namespace ParameterManager.Json

open Utf8 (Piece)

variable {α β : Type}

/-! ### Texts -/

private theorem spells_string {s : String} {ch : Char} {cs : List Char}
    (h : Spells (.string s) (ch :: cs)) : ch = '"' ∧ cs = s.toList.flatMap escapeChar ++ ['"'] := by
  generalize htext : ch :: cs = text at h
  cases h with
  | string s => exact List.cons.inj htext

namespace Wire

theorem takes_text (what s : String) : (text what).Takes (.string s) s where
  text := by
    refine ReadsValue.ofToken ?_
    intro ch cs rest h _
    obtain ⟨rfl, rfl⟩ := spells_string h
    rw [if_pos rfl]
    exact Reads.taken (reads_stringRest s rest)
  value := rfl

theorem takes_string (s : String) : string.Takes (.string s) s := takes_text _ s

/-! ### Flags -/

private theorem spells_flag {b : Bool} {ch : Char} {cs : List Char}
    (h : Spells (.bool b) (ch :: cs)) :
    ch = (if b then 't' else 'f') ∧ cs = if b then ['r', 'u', 'e'] else ['a', 'l', 's', 'e'] := by
  generalize htext : ch :: cs = text at h
  cases h with
  | yes => exact List.cons.inj htext
  | no => exact List.cons.inj htext

theorem takes_flag (b : Bool) : flag.Takes (.bool b) b where
  text := by
    refine ReadsValue.ofToken ?_
    intro ch cs rest h _
    obtain ⟨rfl, rfl⟩ := spells_flag h
    cases b with
    | true => exact Reads.taken (Reads.then_nothing Reads.word Reads.pure)
    | false => exact Reads.taken (Reads.then_nothing Reads.word Reads.pure)
  value := rfl

/-! ### Counts -/

private theorem spells_count {n : Nat} {text : List Char} (h : Spells (.ofNat n) text) :
    n ≤ maxSignificand ∧ text = Nat.toDigits 10 n := by
  generalize hj : Json.ofNat n = j at h
  cases h with
  | @count k hk =>
      have hnumber : (n : Int) = k := Number.int.inj (Json.number.inj hj)
      obtain rfl : n = k := by omega
      exact ⟨hk, rfl⟩
  | null => exact Json.noConfusion hj
  | yes => exact Json.noConfusion hj
  | no => exact Json.noConfusion hj
  | string _ => exact Json.noConfusion hj
  | object _ => exact Json.noConfusion hj

private theorem toCount_eq {bits n : Nat} (h : n < 2 ^ bits) : toCount bits (.int n) = .ok n := by
  have hfits : (0 : Int) ≤ n ∧ (n : Int) < (Nat.pow 2 bits : Nat) :=
    ⟨Int.natCast_nonneg n, Int.ofNat_lt.mpr h⟩
  rw [toCount, if_pos hfits, Int.toNat_natCast]

/-- A count is taken for itself if it has no more bits than it may have. -/
theorem takes_count {bits n : Nat} (h : n < 2 ^ bits) : (count bits).Takes (.ofNat n) n where
  text := by
    refine ReadsValue.ofToken ?_
    intro ch cs rest hspells hrest
    obtain ⟨hn, hdigits⟩ := spells_count hspells
    have hch : ch.isDigit = true := Text.isDigit_of_mem_digits (hdigits ▸ List.mem_cons_self)
    rw [if_pos (Or.inr hch), hdigits]
    refine Reads.then_nothing (reads_signedNumber hn hrest) ?_
    rw [toCount_eq h]
    exact Reads.pure
  value := toCount_eq h

/-! ### Wires made of one other -/

variable {w : Wire α} {j : Json} {a : α}

theorem Takes.map (h : w.Takes j a) (f : α → β) : (w.map f).Takes j (f a) where
  text := fun text htext gap rest hgap hrest =>
    Reads.then_nothing (h.text text htext gap rest hgap hrest) Reads.pure
  value := by
    show (w.ofJson (ordered j)).map f = _
    rw [h.value]
    rfl

theorem Takes.check {f : α → Except Cause β} {b : β} (h : w.Takes j a) (hf : f a = .ok b) :
    (w.check f).Takes j b where
  text := by
    refine fun text htext gap rest hgap hrest =>
      Reads.then_nothing (h.text text htext gap rest hgap hrest) ?_
    rw [hf]
    exact Reads.pure
  value := by
    show (w.ofJson (ordered j)).bind f = _
    rw [h.value]
    exact hf

private theorem ordered_ne_null (h : j ≠ .null) : ordered j ≠ .null := by
  cases j with
  | null => exact absurd rfl h
  | _ => simp [ordered, sorted]

private theorem ofJson_optional (hj : j ≠ .null) :
    (optional w).ofJson j = (w.ofJson j).map some := by
  cases j with
  | null => exact absurd rfl hj
  | bool b => rfl
  | number n => rfl
  | string s => rfl
  | array items => rfl
  | object members => rfl

/-- A value that may be `null` and is not is taken for what it is taken for otherwise. -/
theorem Takes.optional (h : w.Takes j a) (hj : j ≠ .null) : (optional w).Takes j (some a) where
  text := by
    intro text htext gap rest hgap hrest
    obtain ⟨ch, cs, rfl, hblank, hnull⟩ := htext.head
    have hne : ch ≠ 'n' := fun hn => hj (hnull hn)
    refine Reads.token hgap hblank ?_
    split
    · next heq => exact absurd (Option.some.inj heq) hne
    · exact Reads.then_nothing (h.text _ htext [] rest blank_nil hrest) Reads.pure
  value := by
    rw [ofJson_optional (ordered_ne_null hj), h.value]
    rfl

/-- A text that may be `null` is taken for itself. -/
theorem takes_some_string (s : String) : (optional string).Takes (.string s) (some s) :=
  (takes_string s).optional (by simp)

/-! ### Choices and tables -/

theorem takes_choice {variants : List (String × α)} {name : String}
    (h : lookupEntry name variants = some a) : (choice variants).Takes (.string name) a where
  text := by
    have hchosen : chosen variants name = .ok a := by rw [chosen, h]
    refine ReadsValue.ofToken ?_
    intro ch cs rest hspells hrest
    have htext := ((takes_string name).check hchosen).text _ hspells [] rest blank_nil hrest
    obtain ⟨rfl, -⟩ := spells_string hspells
    rw [if_pos rfl]
    exact htext
  value := by
    show chosen variants name = _
    rw [chosen, h]

theorem spells_object {members : List (String × Json)} {ch : Char} {cs : List Char}
    (h : Spells (.object members) (ch :: cs)) :
    ch = '{' ∧ ∃ body, cs = body ++ ['}'] ∧ SpellsMembers true members body := by
  generalize htext : ch :: cs = text at h
  cases h with
  | object hbody =>
      obtain ⟨hch, hcs⟩ := List.cons.inj htext
      exact ⟨hch, _, hcs, hbody⟩

/-- The entries of a table are taken for it in any order, if its values are taken for
themselves. -/
theorem takes_table {toJson : α → Json} {t : Table α} {entries : List (String × α)}
    (hperm : entries.Perm t.entries) (h : ∀ e ∈ entries, w.Takes (toJson e.2) e.2) :
    w.table.Takes (.object (entries.map fun e => (e.1, toJson e.2))) t where
  text := by
    refine ReadsValue.ofToken ?_
    intro ch cs rest hspells _
    obtain ⟨rfl, body, rfl, hbody⟩ := spells_object hspells
    rw [if_pos rfl]
    have hmembers : Reads (membersOf w.read) (body ++ ['}'])
        (entries.map fun e => (e.1, e.2)) rest :=
      reads_membersOf rest (fun e he => (h e he).text) hbody
    rw [List.map_id''] at hmembers
    · refine Reads.taken (Reads.then_nothing hmembers ?_)
      rw [Table.ofList_of_perm hperm]
      exact Reads.pure
    · exact fun _ => rfl
  value := by
    -- a value that has been read has the entries in the order of the table
    have hordered : ordered (.object (entries.map fun e => (e.1, toJson e.2)))
        = .object (t.entries.map fun e => (e.1, ordered (toJson e.2))) := by
      rw [ordered, orderedMembers_eq_map, List.map_map]
      refine congrArg Json.object (insertEntries_of_perm (hperm.map _) ?_)
      exact List.pairwise_map.mpr t.ascending
    rw [hordered]
    show (do
      let entries ← (t.entries.map fun e => (e.1, ordered (toJson e.2))).mapM fun m => do
        let a ← w.ofJson m.2
        pure (m.1, a)
      pure (Table.ofList entries)) = Except.ok t
    have hmap : ∀ es : List (String × α), (∀ e ∈ es, w.Takes (toJson e.2) e.2) →
        ((es.map fun e => (e.1, ordered (toJson e.2))).mapM fun m => do
          let a ← w.ofJson m.2
          pure (m.1, a)) = Except.ok es := by
      intro es
      induction es with
      | nil => exact fun _ => rfl
      | cons e es ih =>
          intro hes
          rw [List.map_cons, List.mapM_cons, ih fun d hd => hes d (List.mem_cons_of_mem _ hd),
            (hes e List.mem_cons_self).value]
          rfl
    rw [hmap t.entries fun e he => h e (hperm.mem_iff.mpr he)]
    show Except.ok (Table.ofList t.entries) = _
    rw [Table.ofList_of_perm (List.Perm.refl _)]

/-! ### Values of any kind -/

theorem readsValue_string (depth : Nat) (s : String) :
    ReadsValue (readValue depth) (.string s) (ordered (.string s)) := by
  unfold readValue
  refine ReadsValue.ofToken ?_
  intro ch cs rest h _
  obtain ⟨rfl, rfl⟩ := spells_string h
  exact Reads.taken (Reads.then_nothing (reads_stringRest s rest) Reads.pure)

theorem readsValue_count (depth n : Nat) :
    ReadsValue (readValue depth) (.ofNat n) (ordered (.ofNat n)) := by
  unfold readValue
  refine ReadsValue.ofToken ?_
  intro ch cs rest hspells hrest
  obtain ⟨hn, hdigits⟩ := spells_count hspells
  have hch : ch.isDigit = true := Text.isDigit_of_mem_digits (hdigits ▸ List.mem_cons_self)
  rw [if_neg (Text.ne_of_isDigit hch (by decide)), if_neg (Text.ne_of_isDigit hch (by decide)),
    if_neg (Text.ne_of_isDigit hch (by decide)), if_pos (Or.inr hch), hdigits]
  exact Reads.then_nothing (reads_signedNumber hn hrest) Reads.pure

/-- An object is read in order, if there is room for its values one level further down. -/
theorem readsValue_object {depth : Nat} {members : List (String × Json)}
    (h : ∀ m ∈ members, ReadsValue (readValue depth) m.2 (ordered m.2)) :
    ReadsValue (readValue (depth + 1)) (.object members) (ordered (.object members)) := by
  unfold readValue
  refine ReadsValue.ofToken ?_
  intro ch cs rest hspells _
  obtain ⟨rfl, body, rfl, hbody⟩ := spells_object hspells
  have hmembers : Reads (membersOf (readValue depth)) (body ++ ['}'])
      (members.map fun m => (m.1, ordered m.2)) rest :=
    reads_membersOf rest h (by
      rw [List.map_id'']
      · exact hbody
      · exact fun _ => rfl)
  rw [← orderedMembers_eq_map] at hmembers
  exact Reads.taken (Reads.then_nothing hmembers Reads.pure)

/-- Different members are still there when their object has been read, in another order at
most. -/
theorem insertEntries_ordered {members : List (String × Json)}
    (hnodup : (members.map (·.1)).Nodup) :
    (insertEntries [] (orderedMembers members)).Perm (orderedMembers members) ∧
      ((insertEntries [] (orderedMembers members)).map (·.1)).Nodup := by
  have hnames : (orderedMembers members).map (·.1) = members.map (·.1) := by
    rw [orderedMembers_eq_map, List.map_map]
    rfl
  have hperm : (insertEntries [] (orderedMembers members)).Perm (orderedMembers members) :=
    insertEntries_perm [] _ (by rw [List.nil_append, hnames]; exact hnodup)
  exact ⟨hperm, (hperm.map _).nodup_iff.mpr (hnames ▸ hnodup)⟩

/-- A member of an object is found when the object has been read. -/
theorem member?_ordered {members : List (String × Json)} {name : String} {value : Json}
    (h : (name, value) ∈ members) (hnodup : (members.map (·.1)).Nodup) :
    (ordered (.object members)).member? name = some (ordered value) := by
  obtain ⟨hperm, hnodup'⟩ := insertEntries_ordered hnodup
  have hmem : (name, ordered value) ∈ orderedMembers members := by
    rw [orderedMembers_eq_map]
    exact List.mem_map.mpr ⟨_, h, rfl⟩
  exact lookupEntry_of_mem (hperm.mem_iff.mpr hmem) hnodup'

/-! ### Whole texts -/

theorem any_ofBytes (h : ReadsValue (readValue maxDepth) j (ordered j))
    (hj : Spells j (compactChars j)) : any.ofBytes (Utf8.encode j.compact) = .ok (ordered j) := by
  have hrest : (Cursor.ofBytes (Utf8.encode j.compact)).rest = (compactChars j).map .char := by
    show Utf8.decode (Utf8.encode (String.ofList (compactChars j))) = _
    rw [Utf8.decode_encode, Utf8.pieces, String.toList_ofList]
  exact Reads.runAll hrest (h _ hj [] [] blank_nil trivial)

theorem Takes.ofValue (h : w.Takes j a) : w.ofValue (ordered j) = .ok a := by
  rw [Wire.ofValue, h.value]

end Wire

end ParameterManager.Json
