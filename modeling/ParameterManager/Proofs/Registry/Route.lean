/-
The path that spells a name leads to that name and to no other.

Escapes are decoded in two rounds.  The first leaves those of the percent sign and of the
slash, so that cutting the path at its slashes finds the segments that were written, and
the second undoes what is left in each of them.  What lies between the rounds is
described by `halfway`, the text of an identifier with exactly those two signs escaped;
it has no slash, and it determines the identifier.
-/
import ParameterManager.Proofs.Url.Extend
import ParameterManager.Registry.Route

namespace ParameterManager.Route

/-! ### Between the rounds -/

/-- A character after the first round: the percent sign and the slash are still escaped. -/
def halfwayChar (c : Char) : List Char :=
  if c = '%' ∨ c = '/' then Percent.encodeByte (Utf8.byte c.toNat) else [c]

/-- An identifier after the first round. -/
def halfway (s : String) : String := String.ofList (s.toList.flatMap halfwayChar)

private theorem isKept_iff (b : Nat) : isKept b = true ↔ b = 0x25 ∨ b = 0x2F ∨ b = 0x2B := by
  simp only [isKept, Percent.isOneOf, List.any_cons, List.any_nil, Bool.or_false, Bool.or_eq_true,
    beq_iff_eq, Char.reduceToNat]
  omega

private theorem flatMap_eq_self {f : UInt8 → Bytes} {bs : Bytes} (h : ∀ b ∈ bs, f b = [b]) :
    bs.flatMap f = bs := by
  induction bs with
  | nil => rfl
  | cons b bs ih =>
      rw [List.flatMap_cons, h b List.mem_cons_self, ih fun d hd => h d (List.mem_cons_of_mem _ hd)]
      rfl

private theorem flatMap_partly (c : Char) :
    (Utf8.encodeChar c).flatMap (Percent.partly Percent.inSegment isKept)
      = Utf8.encodeChars (halfwayChar c) := by
  by_cases hc : c.toNat < 0x80
  · have hb : (Utf8.byte c.toNat).toNat = c.toNat := Utf8.byte_toNat (by omega)
    rw [Utf8.encodeChar_of_ascii hc, List.flatMap_singleton, Percent.partly, hb, halfwayChar]
    by_cases hsign : c = '%' ∨ c = '/'
    · rw [if_pos hsign, if_pos]
      rcases hsign with rfl | rfl
      · decide
      · decide
    · rw [if_neg hsign, if_neg, Utf8.encodeChars_of_ascii (by simpa using hc)]
      · rfl
      · -- of the three signs that are kept, the plus sign is not escaped in the first place
        simp only [Bool.and_eq_true, isKept_iff]
        rintro ⟨hset, h | h | h⟩
        · exact hsign (Or.inl (Char.toNat_inj.mp h))
        · exact hsign (Or.inr (Char.toNat_inj.mp h))
        · rw [h] at hset
          simp at hset
          revert hset
          decide
  · have hne : ¬(c = '%' ∨ c = '/') := by
      rintro (rfl | rfl)
      · exact hc (by decide)
      · exact hc (by decide)
    have hself : ∀ b ∈ Utf8.encodeChar c, Percent.partly Percent.inSegment isKept b = [b] := by
      intro b hb
      have hlow := Utf8.le_of_mem_encodeChar (by omega) hb
      rw [Percent.partly, if_neg]
      simp only [Bool.and_eq_true, isKept_iff]
      omega
    rw [halfwayChar, if_neg hne, flatMap_eq_self hself]
    exact (List.append_nil _).symm

theorem decodeExcept_written (s : String) (rest : Bytes) :
    Percent.decodeExcept isKept (Utf8.encodeChars (Url.written s).toList ++ rest)
      = Utf8.encodeChars (halfway s).toList ++ Percent.decodeExcept isKept rest := by
  rw [Url.written, String.toList_ofList, Percent.encodeChars,
    Percent.decodeExcept_encodeBytes (by decide), halfway, String.toList_ofList]
  refine congrArg (· ++ _) ?_
  induction s.toList with
  | nil => rfl
  | cons c cs ih =>
      show (Utf8.encodeChar c ++ Utf8.encodeChars cs).flatMap _ = _
      rw [List.flatMap_append, flatMap_partly, ih, List.flatMap_cons, Utf8.encodeChars_append]

theorem slash_not_mem_halfway (s : String) : '/' ∉ (halfway s).toList := by
  rw [halfway, String.toList_ofList, List.mem_flatMap]
  rintro ⟨c, -, hc⟩
  unfold halfwayChar at hc
  split at hc
  · rcases Percent.mem_encodeByte hc with h | ⟨-, h⟩
    · simp at h
    · simp at h
  · next hne =>
    rw [List.mem_singleton] at hc
    exact hne (Or.inr hc.symm)

/-- **The second round gives the identifier back.** -/
theorem identifier_halfway (s : String) : identifier (halfway s) = s := by
  have hdec : Percent.decode (Utf8.encode (halfway s)) = Utf8.encode s := by
    rw [Utf8.encode, Utf8.encode, halfway, String.toList_ofList, Percent.decode]
    induction s.toList with
    | nil => exact Percent.decodeExcept_nil _
    | cons c cs ih =>
        rw [List.flatMap_cons, Utf8.encodeChars_append, halfwayChar]
        by_cases hsign : c = '%' ∨ c = '/'
        · have hlt : c.toNat < 0x80 := by rcases hsign with rfl | rfl <;> decide
          rw [if_pos hsign, Percent.decodeExcept_encodeByte, ih]
          show [Utf8.byte c.toNat] ++ _ = Utf8.encodeChar c ++ Utf8.encodeChars cs
          rw [Utf8.encodeChar_of_ascii hlt]
        · rw [if_neg hsign]
          show Percent.decodeExcept _ ((Utf8.encodeChar c ++ []) ++ _)
            = Utf8.encodeChar c ++ Utf8.encodeChars cs
          have hplain : ∀ b ∈ Utf8.encodeChar c, b.toNat ≠ 0x25 := by
            intro b hb
            by_cases hc : c.toNat < 0x80
            · rw [Utf8.encodeChar_of_ascii hc, List.mem_singleton] at hb
              rw [hb, Utf8.byte_toNat (by omega)]
              exact fun h => hsign (Or.inl (Char.toNat_inj.mp h))
            · have := Utf8.le_of_mem_encodeChar (by omega) hb
              omega
          rw [List.append_nil, Percent.decodeExcept_plains _ hplain, ih]
  rw [identifier, hdec, Utf8.lossy_encode]

theorem halfway_injective {s t : String} (h : halfway s = halfway t) : s = t := by
  rw [← identifier_halfway s, h, identifier_halfway]

/-! ### Whole paths -/

/-- The path that spells some identifiers. -/
def pathOf (names : List String) : String := (UrlPath.segments (names.map Url.written)).text

theorem toList_pathOf (names : List String) :
    (pathOf names).toList = names.flatMap fun s => '/' :: (Url.written s).toList := by
  rw [pathOf, UrlPath.text, String.toList_ofList, List.flatMap_map]

/-- A path that spells identifiers has no query. -/
theorem question_not_mem_pathOf (names : List String) : '?' ∉ (pathOf names).toList := by
  rw [toList_pathOf, List.mem_flatMap]
  rintro ⟨s, -, h⟩
  rcases List.mem_cons.mp h with h | h
  · simp at h
  · exact Url.not_mem_written (by decide) (by decide) (by decide) h

private theorem decodeExcept_pathOf (names : List String) :
    Percent.decodeExcept isKept (Utf8.encode (pathOf names))
      = Utf8.encodeChars (names.flatMap fun s => '/' :: (halfway s).toList) := by
  rw [Utf8.encode, toList_pathOf]
  induction names with
  | nil => exact Percent.decodeExcept_nil _
  | cons s names ih =>
      have hslash : ∀ cs, Utf8.encodeChars ('/' :: cs) = 0x2F :: Utf8.encodeChars cs := fun _ => rfl
      rw [List.flatMap_cons, List.flatMap_cons, List.cons_append, List.cons_append, hslash, hslash,
        Percent.decodeExcept_plain _ (by decide), Utf8.encodeChars_append, decodeExcept_written, ih,
        Utf8.encodeChars_append]

/-- Cutting at slashes finds the parts that have none. -/
private theorem splitOn_slashes (parts : List (List Char)) (h : ∀ p ∈ parts, '/' ∉ p)
    (front : List Char) (hfront : '/' ∉ front) :
    (front ++ parts.flatMap ('/' :: ·)).splitOn '/' = front :: parts := by
  induction parts generalizing front with
  | nil => rw [List.flatMap_nil, List.append_nil, List.splitOn_eq_singleton hfront]
  | cons part parts ih =>
      rw [List.flatMap_cons, List.cons_append,
        List.splitOn_append_cons_self_of_not_mem hfront,
        ih (fun p hp => h p (List.mem_cons_of_mem _ hp)) part (h part List.mem_cons_self)]

/-- The segments of a path are the identifiers it spells, after the first round. -/
theorem segments_pathOf (names : List String) :
    segments (pathOf names) = "" :: names.map halfway := by
  have hsplit := splitOn_slashes (names.map fun s => (halfway s).toList) (by
      intro p hp
      obtain ⟨s, -, rfl⟩ := List.mem_map.mp hp
      exact slash_not_mem_halfway s) [] List.not_mem_nil
  rw [List.nil_append, List.flatMap_map] at hsplit
  rw [segments, decodeExcept_pathOf, Utf8.lossy_encodeChars, Text.split, String.toList_ofList,
    hsplit, List.map_cons, List.map_map]
  exact congrArg ("" :: ·) (List.map_congr_left fun s _ => String.ofList_toList)

/-- A path spells one list of identifiers. -/
theorem pathOf_injective {names names' : List String} (h : pathOf names = pathOf names') :
    names = names' := by
  have hsegments := congrArg segments h
  rw [segments_pathOf, segments_pathOf] at hsegments
  exact (List.map_inj_right fun _ _ => halfway_injective).mp (List.cons.inj hsegments).2

private theorem halfway_eq_empty {s : String} : halfway s = "" ↔ s = "" :=
  ⟨fun h => halfway_injective (t := "") h, by rintro rfl; rfl⟩

/-- A fixed word of a route has nothing that the first round leaves escaped. -/
private theorem eq_of_halfway_eq {s w : String} (hw : halfway w = w) (h : halfway s = w) : s = w :=
  halfway_injective (h.trans hw.symm)

/-- **A path leads to a name exactly if it spells that name, and leaves no identifier out.** -/
theorem nameOf?_pathOf {names : List String} {n : ParameterName} :
    nameOf? (pathOf names) = some n ↔
      names = "v1" :: n.segments ∧ n.project ≠ "" ∧ n.location ≠ "" ∧ n.parameter ≠ "" := by
  unfold nameOf?
  rw [segments_pathOf]
  constructor
  · intro h
    split at h
    · next project location parameter heq =>
      split at h
      · next hne =>
        simp only [List.cons.injEq, true_and] at heq
        obtain ⟨a, as, rfl, ha, h1⟩ := List.map_eq_cons_iff.mp heq
        obtain ⟨b, as, rfl, hb, h2⟩ := List.map_eq_cons_iff.mp h1
        obtain ⟨p, as, rfl, rfl, h3⟩ := List.map_eq_cons_iff.mp h2
        obtain ⟨d, as, rfl, hd, h4⟩ := List.map_eq_cons_iff.mp h3
        obtain ⟨l, as, rfl, rfl, h5⟩ := List.map_eq_cons_iff.mp h4
        obtain ⟨f, as, rfl, hf, h6⟩ := List.map_eq_cons_iff.mp h5
        obtain ⟨q, rfl, rfl⟩ := List.map_eq_singleton_iff.mp h6
        obtain rfl := eq_of_halfway_eq (by decide) ha
        obtain rfl := eq_of_halfway_eq (by decide) hb
        obtain rfl := eq_of_halfway_eq (by decide) hd
        obtain rfl := eq_of_halfway_eq (by decide) hf
        simp only [identifier_halfway, Option.some.injEq] at h
        simp only [ne_eq, halfway_eq_empty] at hne
        subst h
        exact ⟨rfl, hne⟩
      · simp at h
    · simp at h
  · rintro ⟨rfl, hne⟩
    have hwords : halfway "v1" = "v1" ∧ halfway "projects" = "projects" ∧
        halfway "locations" = "locations" ∧ halfway "parameters" = "parameters" := by decide
    obtain ⟨h1, h2, h3, h4⟩ := hwords
    simp only [ParameterName.segments, List.map_cons, List.map_nil, h1, h2, h3, h4]
    rw [if_pos (by simpa only [ne_eq, halfway_eq_empty] using hne)]
    simp only [identifier_halfway]

end ParameterManager.Route
