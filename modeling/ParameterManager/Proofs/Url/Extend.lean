/-
What a path says after identifiers have been put after it.

`pushSegment` works on encoded segments.  `pushName` is the same rule on the identifiers
themselves: a dot segment is left out, tabs and line ends are dropped, and what is a dot
segment only then is resolved.  The two agree because encoding is injective and leaves
full stops alone, so an encoded segment is a dot segment exactly when the identifier is
one.  Everything that has to be known about the address of a parameter can so be said of
plain texts.
-/
import ParameterManager.Proofs.Url.Percent
import ParameterManager.Url.Basic

namespace ParameterManager.Url

/-! ### Written segments -/

/-- An identifier, as it is written in a path. -/
def written (s : String) : String :=
  String.ofList (Percent.encodeChars Percent.inSegment s.toList)

private theorem inSegment_percent : Percent.inSegment 0x25 = true := by decide

theorem written_injective {s t : String} (h : written s = written t) : s = t :=
  String.toList_inj.mp (Percent.encodeChars_injective inSegment_percent
    (String.ofList_injective h))

theorem written_empty : written "" = "" := rfl

/-- A slash, a question mark or a number sign of an identifier is not written as itself. -/
theorem not_mem_written {s : String} {c : Char} (hset : Percent.inSegment c.toNat = true)
    (hne : c ≠ '%') (hsign : c.isAlphanum = false) : c ∉ (written s).toList := by
  rw [written, String.toList_ofList]
  exact Percent.not_mem_encodeChars hset hne hsign

/-! ### Dot segments -/

private theorem decode_dots {a b : String} (ha : a ∈ [".", "%2e", "%2E"])
    (hb : b ∈ [".", "%2e", "%2E"]) :
    Percent.decode (Utf8.encodeChars (a ++ b).toList) = Utf8.encodeChars ['.', '.'] := by
  simp only [List.mem_cons, List.not_mem_nil, or_false] at ha hb
  rcases ha with rfl | rfl | rfl <;> rcases hb with rfl | rfl | rfl <;> decide +kernel

private theorem decode_dot {a : String} (ha : a ∈ [".", "%2e", "%2E"]) :
    Percent.decode (Utf8.encodeChars a.toList) = Utf8.encodeChars ['.'] := by
  simp only [List.mem_cons, List.not_mem_nil, or_false] at ha
  rcases ha with rfl | rfl | rfl <;> decide +kernel

/-- An encoded text that is decoded like another one is the encoding of that one. -/
private theorem eq_of_decode {cs ds : List Char} {e : List Char}
    (henc : Percent.encodeChars Percent.inSegment cs = e)
    (hdec : Percent.decode (Utf8.encodeChars e) = Utf8.encodeChars ds) : cs = ds := by
  rw [← henc, Percent.decode_encodeChars inSegment_percent] at hdec
  have htext := congrArg Utf8.lossy hdec
  rw [Utf8.lossy_encodeChars, Utf8.lossy_encodeChars] at htext
  exact String.ofList_injective htext

theorem isDoubleDot_encodeChars (cs : List Char) :
    isDoubleDot (Percent.encodeChars Percent.inSegment cs) = decide (cs = ['.', '.']) := by
  by_cases h : cs = ['.', '.']
  · subst h
    rw [decide_eq_true rfl]
    decide +kernel
  · rw [decide_eq_false h]
    rw [Bool.eq_false_iff]
    intro hcon
    simp only [isDoubleDot, List.any_eq_true, beq_iff_eq] at hcon
    obtain ⟨a, ha, b, hb, heq⟩ := hcon
    exact h (eq_of_decode heq (decode_dots ha hb))

theorem isSingleDot_encodeChars (cs : List Char) :
    isSingleDot (Percent.encodeChars Percent.inSegment cs) = decide (cs = ['.']) := by
  by_cases h : cs = ['.']
  · subst h
    rw [decide_eq_true rfl]
    decide +kernel
  · rw [decide_eq_false h]
    rw [Bool.eq_false_iff]
    intro hcon
    simp only [isSingleDot, List.any_eq_true, beq_iff_eq] at hcon
    obtain ⟨a, ha, heq⟩ := hcon
    exact h (eq_of_decode heq (decode_dot ha))

/-! ### Identifiers -/

/-- An identifier without the characters that are left out of an address. -/
def strip (s : String) : String := String.ofList (s.toList.filter (!isLeftOut ·))

/-- The identifiers that a path spells after one more has been put after it. -/
def pushName (names : List String) (s : String) : List String :=
  if s = "." ∨ s = ".." then names
  else
    let names := if names = [""] then [] else names
    if strip s = ".." then names.dropLast ++ [""]
    else if strip s = "." then names ++ [""]
    else names ++ [strip s]

private theorem map_written_eq_empty {names : List String} :
    names.map written = [""] ↔ names = [""] := by
  constructor
  · intro h
    obtain ⟨name, rfl, hname⟩ := List.map_eq_singleton_iff.mp h
    rw [written_injective (hname.trans written_empty.symm)]
  · rintro rfl
    rfl

/-- One more raw segment, which is a dot segment or not. -/
private theorem addSegments_one (list : List String) (cs : List Char) :
    addSegments list [Percent.encodeChars Percent.inSegment cs]
      = if cs = ['.', '.'] then list.dropLast ++ [""]
        else if cs = ['.'] then list ++ [""]
        else list ++ [written (String.ofList cs)] := by
  simp only [addSegments, pushRaw, isDoubleDot_encodeChars, isSingleDot_encodeChars,
    decide_eq_true_eq, List.isEmpty_nil, if_true]
  by_cases hdd : cs = ['.', '.']
  · simp only [if_pos hdd, List.reverse_append, List.drop_one, List.tail_reverse,
      List.reverse_reverse, List.reverse_singleton]
  · by_cases hd : cs = ['.']
    · simp only [if_neg hdd, if_pos hd, List.reverse_append, List.reverse_reverse,
        List.reverse_singleton]
    · simp only [if_neg hdd, if_neg hd, List.reverse_cons, List.reverse_reverse, written,
        String.toList_ofList]

private theorem addSegments_written (names : List String) (cs : List Char) :
    addSegments (names.map written) [Percent.encodeChars Percent.inSegment cs]
      = (if cs = ['.', '.'] then names.dropLast ++ [""]
          else if cs = ['.'] then names ++ [""]
          else names ++ [String.ofList cs]).map written := by
  have hlast : (names.map written).dropLast = names.dropLast.map written := List.map_dropLast.symm
  rw [addSegments_one, hlast]
  split
  · rw [List.map_append, List.map_singleton, written_empty]
  split
  · rw [List.map_append, List.map_singleton, written_empty]
  · rw [List.map_append, List.map_singleton]

private theorem strip_eq_iff {s : String} {cs : List Char} :
    strip s = String.ofList cs ↔ s.toList.filter (!isLeftOut ·) = cs :=
  ⟨fun h => String.ofList_injective h, fun h => congrArg String.ofList h⟩

/-- **A path grows by segments as the list of its identifiers grows by names.** -/
theorem pushSegment_written (names : List String) (s : String) :
    pushSegment (names.map written) s = (pushName names s).map written := by
  unfold pushSegment pushName
  by_cases hdot : s = "." ∨ s = ".."
  · rw [if_pos hdot, if_pos hdot]
  rw [if_neg hdot, if_neg hdot]
  have hnames : (if names.map written = [""] then [] else names.map written)
      = (if names = [""] then [] else names).map written := by
    by_cases h : names = [""]
    · rw [if_pos h, if_pos (map_written_eq_empty.mpr h)]
      rfl
    · rw [if_neg h, if_neg fun hc => h (map_written_eq_empty.mp hc)]
  have hdd : strip s = ".." ↔ s.toList.filter (!isLeftOut ·) = ['.', '.'] := strip_eq_iff
  have hd : strip s = "." ↔ s.toList.filter (!isLeftOut ·) = ['.'] := strip_eq_iff
  simp only [hnames, addSegments_written]
  split
  · next hnil =>
    -- something is always added
    exfalso
    have hlen := congrArg List.length hnil
    split at hlen
    · simp at hlen
    split at hlen
    · simp at hlen
    · simp at hlen
  · simp only [hdd, hd]
    rfl

theorem foldl_pushSegment_written (parts names : List String) :
    parts.foldl pushSegment (names.map written) = (parts.foldl pushName names).map written := by
  induction parts generalizing names with
  | nil => rfl
  | cons part parts ih =>
      rw [List.foldl_cons, pushSegment_written, ih, List.foldl_cons]

/-! ### Identifiers that are kept as they are -/

/-- An identifier that is not changed on its way into a path, and leaves no gap there. -/
structure IsPlain (s : String) : Prop where
  nonempty : s ≠ ""
  noDot : s ≠ "."
  noDots : s ≠ ".."
  /-- It has no tab and no line end. -/
  noneLeftOut : ∀ c ∈ s.toList, isLeftOut c = false

instance (s : String) : Decidable (IsPlain s) :=
  decidable_of_iff (s ≠ "" ∧ s ≠ "." ∧ s ≠ ".." ∧ s.toList.all (!isLeftOut ·) = true)
    ⟨fun h => ⟨h.1, h.2.1, h.2.2.1, by simpa using h.2.2.2⟩,
      fun h => ⟨h.nonempty, h.noDot, h.noDots, by simpa using h.noneLeftOut⟩⟩

theorem strip_eq_self {s : String} (h : ∀ c ∈ s.toList, isLeftOut c = false) : strip s = s := by
  have hall : s.toList.filter (!isLeftOut ·) = s.toList :=
    List.filter_eq_self.mpr fun c hc => by rw [h c hc]; rfl
  rw [strip, hall, String.ofList_toList]

theorem IsPlain.strip_eq {s : String} (h : IsPlain s) : strip s = s := strip_eq_self h.noneLeftOut

theorem pushName_plain {names : List String} {s : String} (h : IsPlain s) (hne : names ≠ [""]) :
    pushName names s = names ++ [s] := by
  unfold pushName
  rw [if_neg (not_or.mpr ⟨h.noDot, h.noDots⟩)]
  simp only [h.strip_eq, if_neg hne, if_neg h.noDots, if_neg h.noDot]

/-- A plain identifier is one more segment, whatever the path before it is made of. -/
theorem pushSegment_plain {list : List String} {s : String} (h : IsPlain s) (hne : list ≠ [""]) :
    pushSegment list s = list ++ [written s] := by
  have hkept : s.toList.filter (!isLeftOut ·) = s.toList :=
    List.filter_eq_self.mpr fun c hc => by rw [h.noneLeftOut c hc]; rfl
  have hdots : s.toList ≠ ['.', '.'] := fun hcs => h.noDots (String.toList_inj.mp hcs)
  have hdot : s.toList ≠ ['.'] := fun hcs => h.noDot (String.toList_inj.mp hcs)
  rw [pushSegment, if_neg (not_or.mpr ⟨h.noDot, h.noDots⟩)]
  simp only [hkept, if_neg hne, addSegments_one, if_neg hdots, if_neg hdot, String.ofList_toList]
  split
  · next hnil => simp at hnil
  · rfl

theorem written_ne_empty {s : String} (h : IsPlain s) : written s ≠ "" := fun hempty =>
  h.nonempty (written_injective (hempty.trans written_empty.symm))

/-- A path with a segment at its end is not the one that has an empty segment only. -/
theorem concat_ne_empty {s : String} (h : s ≠ "") (list : List String) : list ++ [s] ≠ [""] := by
  intro hlist
  have hlast := congrArg List.getLast? hlist
  rw [List.getLast?_concat] at hlast
  exact h (Option.some.inj hlast)

theorem foldl_pushSegment_plain {parts : List String} (h : ∀ s ∈ parts, IsPlain s)
    {list : List String} (hne : list ≠ [""]) :
    parts.foldl pushSegment list = list ++ parts.map written := by
  induction parts generalizing list with
  | nil => exact (List.append_nil list).symm
  | cons s parts ih =>
      have hs := h s List.mem_cons_self
      rw [List.foldl_cons, pushSegment_plain hs hne,
        ih (fun t ht => h t (List.mem_cons_of_mem _ ht)) (concat_ne_empty (written_ne_empty hs) list),
        List.append_assoc]
      rfl

end ParameterManager.Url
