/-
Which parameter the address of a name reaches.

An identifier may lose characters on its way into an address, and a dot segment may take
others with it.  The second never goes unnoticed: a route has as many segments as it has,
so an address that has lost one leads nowhere.  What an address reaches is therefore the
name without the characters that are left out of addresses, or nothing at all.
-/
import ParameterManager.Client
import ParameterManager.Proofs.Registry.Route

namespace ParameterManager

open Url (pushName strip IsPlain)

/-! ### Names -/

namespace ParameterName

/-- A name without the characters that are left out of addresses. -/
def stripped (n : ParameterName) : ParameterName :=
  ⟨strip n.project, strip n.location, strip n.parameter⟩

/-- A name whose identifiers are kept as they are in an address. -/
structure IsPlain (n : ParameterName) : Prop where
  project : Url.IsPlain n.project
  location : Url.IsPlain n.location
  parameter : Url.IsPlain n.parameter

theorem IsPlain.stripped_eq {n : ParameterName} (h : n.IsPlain) : n.stripped = n := by
  rw [stripped, h.project.strip_eq, h.location.strip_eq, h.parameter.strip_eq]

/-- The identifiers in the path of the address of a name. -/
def addressed (n : ParameterName) : List String := n.segments.foldl pushName [Client.apiVersion]

end ParameterName

/-! ### Lengths of paths -/

namespace Url

/-- What an identifier that adds a segment adds. -/
def pushed (s : String) : String := if strip s = "." then "" else strip s

theorem strip_isLeftOut {s : String} {c : Char} (h : c ∈ (strip s).toList) :
    isLeftOut c = false := by
  rw [strip, String.toList_ofList, List.mem_filter] at h
  simpa using h.2

/-- An identifier that is not empty when it has been pushed is plain without what is left out. -/
theorem isPlain_strip {s : String} (hdots : strip s ≠ "..") (h : pushed s ≠ "") :
    IsPlain (strip s) ∧ pushed s = strip s := by
  unfold pushed at h ⊢
  by_cases hdot : strip s = "."
  · rw [if_pos hdot] at h
    exact absurd rfl h
  · rw [if_neg hdot] at h ⊢
    exact ⟨⟨h, hdot, hdots, fun c => strip_isLeftOut⟩, rfl⟩

theorem pushed_of_isPlain {s : String} (h : IsPlain (strip s)) : pushed s = strip s := by
  rw [pushed, if_neg h.noDot]

/-- An identifier adds one segment to a path, or the path does not become longer. -/
theorem pushName_cases {names : List String} (hne : names ≠ []) (hne' : names ≠ [""]) (s : String) :
    (pushName names s = names ++ [pushed s] ∧ strip s ≠ "..") ∨
      ((pushName names s).length ≤ names.length ∧ ¬IsPlain (strip s)) := by
  have hstrip : ∀ d, d = "." ∨ d = ".." → strip d = d := by
    rintro d (rfl | rfl)
    · rfl
    · rfl
  unfold pushName
  by_cases hdot : s = "." ∨ s = ".."
  · rw [if_pos hdot]
    refine Or.inr ⟨Nat.le_refl _, ?_⟩
    intro hplain
    have hself := hstrip s hdot
    rcases hdot with rfl | rfl
    · exact hplain.noDot hself
    · exact hplain.noDots hself
  · rw [if_neg hdot, if_neg hne']
    by_cases hdots : strip s = ".."
    · rw [if_pos hdots]
      refine Or.inr ⟨?_, fun hplain => hplain.noDots hdots⟩
      have := List.length_pos_iff.mpr hne
      simp only [List.length_append, List.length_dropLast, List.length_singleton]
      omega
    · rw [if_neg hdots]
      refine Or.inl ⟨?_, hdots⟩
      unfold pushed
      split
      · rfl
      · rfl

theorem length_pushName_le (names : List String) (s : String) :
    (pushName names s).length ≤ names.length + 1 := by
  unfold pushName
  split
  · omega
  · have hle : (if names = [""] then ([] : List String) else names).length ≤ names.length := by
      split
      · simp
      · omega
    simp only
    split
    · simp only [List.length_append, List.length_dropLast, List.length_singleton]
      omega
    split
    · simp only [List.length_append, List.length_singleton]
      omega
    · simp only [List.length_append, List.length_singleton]
      omega

theorem length_foldl_pushName_le (parts names : List String) :
    (parts.foldl pushName names).length ≤ names.length + parts.length := by
  induction parts generalizing names with
  | nil => exact Nat.le_refl _
  | cons part parts ih =>
      have h := ih (pushName names part)
      have h' := length_pushName_le names part
      rw [List.foldl_cons, List.length_cons]
      omega

end Url

/-! ### What an address reaches -/

namespace ParameterName

private theorem length_pairs (pairs : List (String × String)) :
    (pairs.flatMap fun d => [d.1, d.2]).length = 2 * pairs.length := by
  induction pairs with
  | nil => rfl
  | cons d pairs ih =>
      rw [List.flatMap_cons, List.length_append, ih, List.length_cons]
      simp only [List.length_cons, List.length_nil]
      omega

/-- Words and identifiers, put after a path one after the other: each pair adds two segments,
or there are fewer in the end. -/
private theorem foldl_pushName_pairs {pairs : List (String × String)}
    (hwords : ∀ d ∈ pairs, Url.IsPlain d.1) (names : List String) (hne : names ≠ [])
    (hne' : names ≠ [""]) :
    ((pairs.flatMap fun d => [d.1, d.2]).foldl pushName names
        = names ++ pairs.flatMap (fun d => [d.1, Url.pushed d.2]) ∧ ∀ d ∈ pairs, strip d.2 ≠ "..") ∨
      (((pairs.flatMap fun d => [d.1, d.2]).foldl pushName names).length
          < names.length + 2 * pairs.length ∧ ∃ d ∈ pairs, ¬Url.IsPlain (strip d.2)) := by
  induction pairs generalizing names with
  | nil => exact Or.inl ⟨(List.append_nil names).symm, fun d hd => absurd hd List.not_mem_nil⟩
  | cons d pairs ih =>
      have hword := hwords d List.mem_cons_self
      have hlong : ∀ s, names ++ [d.1] ≠ [s] := by
        intro s h
        have hlen := congrArg List.length h
        rw [List.length_append, List.length_singleton, List.length_singleton] at hlen
        exact hne (List.length_eq_zero_iff.mp (by omega))
      simp only [List.flatMap_cons, List.foldl_append, List.foldl_cons, List.foldl_nil,
        Url.pushName_plain hword hne']
      rcases Url.pushName_cases (by simp) (hlong "") d.2 with ⟨heq, hdots⟩ | ⟨hle, hnot⟩
      · have hnames : names ++ [d.1] ++ [Url.pushed d.2] = names ++ [d.1, Url.pushed d.2] := by simp
        rw [heq, hnames]
        have hrest := ih (fun e he => hwords e (List.mem_cons_of_mem _ he))
          (names ++ [d.1, Url.pushed d.2]) (by simp)
          (fun h => by simpa using congrArg List.length h)
        rcases hrest with ⟨heq, hall⟩ | ⟨hlt, e, he, hnot⟩
        · refine Or.inl ⟨by rw [heq, List.append_assoc], ?_⟩
          intro e he
          rcases List.mem_cons.mp he with rfl | he
          · exact hdots
          · exact hall e he
        · refine Or.inr ⟨?_, e, List.mem_cons_of_mem _ he, hnot⟩
          simp only [List.length_append, List.length_cons, List.length_nil] at hlt ⊢
          omega
      · refine Or.inr ⟨?_, d, List.mem_cons_self, hnot⟩
        have hbound := Url.length_foldl_pushName_le (pairs.flatMap fun d => [d.1, d.2])
          (pushName (names ++ [d.1]) d.2)
        rw [length_pairs] at hbound
        simp only [List.length_append, List.length_cons, List.length_nil] at hle ⊢
        omega

private theorem addressed_cases (n : ParameterName) :
    (n.addressed = "v1" :: (⟨Url.pushed n.project, Url.pushed n.location, Url.pushed n.parameter⟩ :
        ParameterName).segments ∧
      strip n.project ≠ ".." ∧ strip n.location ≠ ".." ∧ strip n.parameter ≠ "..") ∨
      (n.addressed.length < 7 ∧ ¬n.stripped.IsPlain) := by
  have hwords : ∀ d ∈ [("projects", n.project), ("locations", n.location),
      ("parameters", n.parameter)], Url.IsPlain d.1 := by
    simp only [List.forall_mem_cons, List.not_mem_nil, false_imp_iff, implies_true, and_true]
    decide
  have hpairs := foldl_pushName_pairs hwords ["v1"] (by decide) (by decide)
  rcases hpairs with ⟨heq, hdots⟩ | ⟨hlt, d, hd, hnot⟩
  · simp only [List.forall_mem_cons] at hdots
    exact Or.inl ⟨heq, hdots.1, hdots.2.1, hdots.2.2.1⟩
  · refine Or.inr ⟨hlt, fun hplain => hnot ?_⟩
    simp only [List.mem_cons, List.not_mem_nil, or_false] at hd
    rcases hd with rfl | rfl | rfl
    · exact hplain.project
    · exact hplain.location
    · exact hplain.parameter

/-- The path of an address spells the stripped name, or no name. -/
theorem addressed_eq_iff {n m : ParameterName} :
    (n.addressed = "v1" :: m.segments ∧ m.project ≠ "" ∧ m.location ≠ "" ∧ m.parameter ≠ "") ↔
      m = n.stripped ∧ n.stripped.IsPlain := by
  rcases addressed_cases n with ⟨heq, hp, hl, hq⟩ | ⟨hlt, hnot⟩
  · constructor
    · rintro ⟨hm, hpne, hlne, hqne⟩
      rw [heq] at hm
      simp only [segments, List.cons.injEq, true_and, and_true] at hm
      obtain ⟨h1, h2, h3⟩ := hm
      obtain ⟨hplain1, hself1⟩ := Url.isPlain_strip hp (h1 ▸ hpne)
      obtain ⟨hplain2, hself2⟩ := Url.isPlain_strip hl (h2 ▸ hlne)
      obtain ⟨hplain3, hself3⟩ := Url.isPlain_strip hq (h3 ▸ hqne)
      refine ⟨?_, hplain1, hplain2, hplain3⟩
      rw [stripped, ← hself1, ← hself2, ← hself3, h1, h2, h3]
    · rintro ⟨rfl, hplain⟩
      refine ⟨?_, hplain.project.nonempty, hplain.location.nonempty, hplain.parameter.nonempty⟩
      rw [heq, Url.pushed_of_isPlain hplain.project, Url.pushed_of_isPlain hplain.location,
        Url.pushed_of_isPlain hplain.parameter]
      rfl
  · constructor
    · rintro ⟨hm, -⟩
      rw [hm] at hlt
      simp [segments] at hlt
    · rintro ⟨-, hplain⟩
      exact absurd hplain hnot

/-- **The address of a name reaches the name without what addresses leave out, or nothing.** -/
theorem nameOf?_addressed {n m : ParameterName} :
    Route.nameOf? (Route.pathOf n.addressed) = some m ↔ m = n.stripped ∧ n.stripped.IsPlain := by
  rw [Route.nameOf?_pathOf, addressed_eq_iff]

end ParameterName

end ParameterManager
