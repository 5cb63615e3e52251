/-
A mask is read back from its value in a query.

In a path the words of a segment are joined by low lines, and in a query by capitals.  A word
starts with a small letter, so a capital can only stand for the low line and the letter behind
it, and nothing is lost.  Neither the words nor the capitals have a point or a comma in them,
so the value of a mask falls apart into the segments it was made of.
-/
import ParameterManager.FieldMask
import ParameterManager.Proofs.Text.Basic

namespace ParameterManager.FieldMask

/-! ### Paths of the schema -/

/-- What a word is made of. -/
def isWordChar (c : Char) : Bool := c.isLower || c.isDigit

/-- A word: a small letter, and small letters and digits behind it. -/
def IsWord : List Char → Prop
  | [] => False
  | c :: cs => c.isLower = true ∧ ∀ d ∈ cs, isWordChar d = true

instance : DecidablePred IsWord
  | [] => inferInstanceAs (Decidable False)
  | c :: cs =>
    decidable_of_iff (c.isLower = true ∧ cs.all isWordChar = true) (by
      rw [List.all_eq_true, IsWord])

/-- A segment: words between low lines. -/
def IsSegment (s : String) : Prop := ∀ w ∈ Text.split '_' s, IsWord w.toList

instance : DecidablePred IsSegment := fun s =>
  inferInstanceAs (Decidable (∀ w ∈ Text.split '_' s, IsWord w.toList))

/-- A path: segments between points. -/
def IsPath (p : String) : Prop := ∀ s ∈ Text.split '.' p, IsSegment s

instance : DecidablePred IsPath := fun p =>
  inferInstanceAs (Decidable (∀ s ∈ Text.split '.' p, IsSegment s))

/-! ### The way back -/

/-- A capital as a low line and its small letter; everything else stays. -/
def snakeChar (c : Char) : List Char := if c.isUpper then ['_', c.toLower] else [c]

/-- A segment with its words joined by low lines. -/
def snakeSegment (s : String) : String := String.ofList (s.toList.flatMap snakeChar)

/-- A path with the words of each segment joined by low lines. -/
def snakePath (p : String) : String := Text.join '.' ((Text.split '.' p).map snakeSegment)

/-! ### Characters -/

private theorem ascii_of_word {c : Char} (h : isWordChar c = true) : c.toNat < 128 := by
  rcases Bool.or_eq_true_iff.mp h with h | h
  · exact Text.ascii_of_isLower h
  · exact Text.ascii_of_isDigit h

/-- A fact about the characters of words, found by looking at each. -/
private theorem word_forall {p : Char → Prop}
    (h : ∀ n : Fin 128, isWordChar (Char.ofNat n.val) = true → p (Char.ofNat n.val)) {c : Char}
    (hc : isWordChar c = true) : p c :=
  Text.forall_ascii (p := fun c => isWordChar c = true → p c) h (ascii_of_word hc) hc

private theorem ne_low_line {c : Char} (h : isWordChar c = true) : c ≠ '_' :=
  word_forall (p := (· ≠ '_')) (by decide) h

private theorem snakeChar_of_word {c : Char} (h : isWordChar c = true) : snakeChar c = [c] :=
  word_forall (p := fun c => snakeChar c = [c]) (by decide) h

/-- The capital of a small letter is read as the letter behind a low line. -/
private theorem snakeChar_toUpper {c : Char} (h : c.isLower = true) :
    snakeChar c.toUpper = ['_', c] :=
  word_forall (p := fun c => c.isLower = true → snakeChar c.toUpper = ['_', c]) (by decide)
    (by simp [isWordChar, h]) h

/-! ### Words -/

variable {w : List Char} {ws : List (List Char)}

private theorem IsWord.mem (h : IsWord w) : ∀ c ∈ w, isWordChar c = true := by
  cases w with
  | nil => exact h.elim
  | cons c cs =>
      intro d hd
      rcases List.mem_cons.mp hd with rfl | hd
      · simp [isWordChar, h.1]
      · exact h.2 d hd

private theorem camelChars_append (h : ∀ c ∈ w, isWordChar c = true) (rest : List Char) :
    camelChars false (w ++ rest) = w ++ camelChars false rest := by
  induction w with
  | nil => rfl
  | cons c cs ih =>
      have hcs := ih fun d hd => h d (List.mem_cons_of_mem _ hd)
      rw [List.cons_append, camelChars, if_neg (ne_low_line (h c List.mem_cons_self)), hcs]
      rfl

private theorem flatMap_snakeChar (h : ∀ c ∈ w, isWordChar c = true) : w.flatMap snakeChar = w := by
  induction w with
  | nil => rfl
  | cons c cs ih =>
      rw [List.flatMap_cons, snakeChar_of_word (h c List.mem_cons_self),
        ih fun d hd => h d (List.mem_cons_of_mem _ hd)]
      rfl

/-- A word that is to start with a capital is read back with a low line before it. -/
private theorem flatMap_capital (h : IsWord w) (rest : List Char) :
    (camelChars true (w ++ rest)).flatMap snakeChar
      = '_' :: (camelChars false (w ++ rest)).flatMap snakeChar := by
  cases w with
  | nil => exact h.elim
  | cons c cs =>
      have hc : isWordChar c = true := h.mem c List.mem_cons_self
      have hne := ne_low_line hc
      rw [List.cons_append, camelChars, camelChars, if_neg hne, if_neg hne, if_pos rfl,
        Text.uppercase_of_ascii (ascii_of_word hc), List.flatMap_append, List.flatMap_append]
      simp [snakeChar_toUpper h.1, snakeChar_of_word hc]

/-- **Words joined by capitals are read back as words joined by low lines.** -/
private theorem flatMap_camelChars (hws : ws ≠ []) (h : ∀ w ∈ ws, IsWord w) :
    (camelChars false (['_'].intercalate ws)).flatMap snakeChar = ['_'].intercalate ws := by
  induction ws with
  | nil => exact absurd rfl hws
  | cons w ws ih =>
      have hw := (h w List.mem_cons_self).mem
      cases ws with
      | nil =>
          have hcamel := camelChars_append hw []
          rw [List.append_nil, camelChars, List.append_nil] at hcamel
          rw [List.intercalate_singleton, hcamel, flatMap_snakeChar hw]
      | cons v vs =>
          have hv := h v (List.mem_cons_of_mem _ List.mem_cons_self)
          have hothers := ih (by simp) fun u hu => h u (List.mem_cons_of_mem _ hu)
          -- the text goes on with the next word, whether there are more of them or not
          obtain ⟨after, hafter⟩ : ∃ after, ['_'].intercalate (v :: vs) = v ++ after := by
            cases vs with
            | nil => exact ⟨[], by simp⟩
            | cons u us =>
                exact ⟨_, List.intercalate_cons_cons.trans (List.append_assoc v ['_'] _)⟩
          rw [hafter] at hothers
          rw [List.intercalate_cons_cons, hafter, List.append_assoc, camelChars_append hw,
            List.singleton_append, camelChars, if_pos rfl, List.flatMap_append,
            flatMap_snakeChar hw, flatMap_capital hv, hothers]

/-! ### Segments -/

variable {s p : String}

/-- **A segment is read back.** -/
theorem snakeSegment_camelSegment (h : IsSegment s) : snakeSegment (camelSegment s) = s := by
  have hwords : ['_'].intercalate (s.toList.splitOn '_') = s.toList := List.intercalate_splitOn '_'
  have hall : ∀ w ∈ s.toList.splitOn '_', IsWord w := by
    intro w hw
    have hword := h (String.ofList w) (List.mem_map_of_mem hw)
    rwa [String.toList_ofList] at hword
  have hback := flatMap_camelChars (by simp) hall
  rw [hwords] at hback
  rw [snakeSegment, camelSegment, String.toList_ofList, hback, String.ofList_toList]

/-- What is in some texts that are joined is in one of them, or between them. -/
private theorem mem_intercalate {separator c : Char} {parts : List (List Char)}
    (h : c ∈ [separator].intercalate parts) : c = separator ∨ ∃ part ∈ parts, c ∈ part := by
  induction parts with
  | nil => simp at h
  | cons part parts ih =>
      cases parts with
      | nil => exact Or.inr ⟨part, List.mem_cons_self, by simpa using h⟩
      | cons other others =>
          rw [List.intercalate_cons_cons, List.append_assoc, List.mem_append,
            List.singleton_append, List.mem_cons] at h
          rcases h with h | h | h
          · exact Or.inr ⟨part, List.mem_cons_self, h⟩
          · exact Or.inl h
          · rcases ih h with h | ⟨found, hfound, hc⟩
            · exact Or.inl h
            · exact Or.inr ⟨found, List.mem_cons_of_mem _ hfound, hc⟩

private theorem IsSegment.mem (h : IsSegment s) {c : Char} (hc : c ∈ s.toList) :
    c = '_' ∨ isWordChar c = true := by
  have hwords : ['_'].intercalate (s.toList.splitOn '_') = s.toList := List.intercalate_splitOn '_'
  rw [← hwords] at hc
  refine (mem_intercalate hc).imp_right ?_
  rintro ⟨w, hw, hcw⟩
  have hword := h (String.ofList w) (List.mem_map_of_mem hw)
  rw [String.toList_ofList] at hword
  exact hword.mem c hcw

private theorem isAlphanum_camelChars {cs : List Char}
    (h : ∀ c ∈ cs, c = '_' ∨ isWordChar c = true) (capital : Bool) :
    ∀ c ∈ camelChars capital cs, c.isAlphanum = true := by
  induction cs generalizing capital with
  | nil => simp [camelChars]
  | cons d cs ih =>
      have hcs := fun capital => ih (fun c hc => h c (List.mem_cons_of_mem _ hc)) capital
      rw [camelChars]
      split
      · exact hcs true
      · next hline =>
        have hd := (h d List.mem_cons_self).resolve_left hline
        rw [Text.uppercase_of_ascii (ascii_of_word hd)]
        intro c hc
        rcases List.mem_append.mp hc with hc | hc
        · have hall := word_forall (p := fun d =>
            (if capital then [d.toUpper] else [d]).all Char.isAlphanum = true)
            (by cases capital <;> decide) hd
          exact List.all_eq_true.mp hall c hc
        · exact hcs false c hc

/-- A segment of a query has letters and digits only. -/
private theorem IsSegment.isAlphanum (h : IsSegment s) :
    ∀ c ∈ (camelSegment s).toList, c.isAlphanum = true := by
  rw [camelSegment, String.toList_ofList]
  exact isAlphanum_camelChars (fun c hc => h.mem hc) false

/-! ### Paths -/

/-- The segments of a path come out of its form in a query. -/
theorem split_camelPath (h : IsPath p) :
    Text.split '.' (camelPath p) = (Text.split '.' p).map camelSegment := by
  refine Text.split_join (by simp [Text.split]) ?_
  intro segment hsegment hpoint
  obtain ⟨s, hs, rfl⟩ := List.mem_map.mp hsegment
  exact absurd ((h s hs).isAlphanum '.' hpoint) (by decide)

theorem map_snakeSegment (h : IsPath p) :
    (Text.split '.' (camelPath p)).map snakeSegment = Text.split '.' p := by
  rw [split_camelPath h, List.map_map]
  exact (List.map_congr_left fun s hs => snakeSegment_camelSegment (h s hs)).trans (List.map_id _)

/-- **A path is read back.** -/
theorem snakePath_camelPath (h : IsPath p) : snakePath (camelPath p) = p := by
  rw [snakePath, map_snakeSegment h, Text.join_split]

private theorem comma_not_mem (h : IsPath p) : ',' ∉ (camelPath p).toList := by
  rw [camelPath, Text.join, String.toList_ofList]
  intro hcomma
  rcases mem_intercalate hcomma with hpoint | ⟨part, hpart, hc⟩
  · exact absurd hpoint (by decide)
  · rw [List.map_map] at hpart
    obtain ⟨s, hs, rfl⟩ := List.mem_map.mp hpart
    exact absurd ((h s hs).isAlphanum ',' hc) (by decide)

/-! ### Masks -/

/-- The paths of a mask come out of its value in a query. -/
theorem split_queryValue {m : FieldMask} (hne : m.paths ≠ []) (h : ∀ p ∈ m.paths, IsPath p) :
    Text.split ',' m.queryValue = m.paths.map camelPath := by
  refine Text.split_join (by simpa using hne) ?_
  intro item hitem
  obtain ⟨p, hp, rfl⟩ := List.mem_map.mp hitem
  exact comma_not_mem (h p hp)

/-- A mask is read back item by item, whatever its paths are. -/
theorem map_snakePath {m : FieldMask} (hne : m.paths ≠ []) (h : ∀ p ∈ m.paths, IsPath p) :
    (Text.split ',' m.queryValue).map snakePath = m.paths := by
  rw [split_queryValue hne h, List.map_map]
  exact (List.map_congr_left fun p hp => snakePath_camelPath (h p hp)).trans (List.map_id _)

/-- Another mask has another value, even the mask without paths. -/
theorem eq_of_queryValue_eq {m other : FieldMask} (hne : m.paths ≠ [])
    (h : ∀ p ∈ m.paths, IsPath p) (hother : ∀ p ∈ other.paths, IsPath p)
    (hvalue : other.queryValue = m.queryValue) : other = m := by
  have hback : (Text.split ',' m.queryValue).map snakePath = m.paths := map_snakePath hne h
  rw [← hvalue] at hback
  by_cases hempty : other.paths = []
  · -- the mask without paths has the value of a mask whose only path is empty, which is no path
    have hnone : (Text.split ',' other.queryValue).map snakePath = [""] := by
      rw [queryValue, hempty]
      decide
    have hmem : "" ∈ m.paths := by
      rw [← hback, hnone]
      exact List.mem_singleton_self ""
    have hnotPath : ¬IsPath "" := by decide
    exact absurd (h "" hmem) hnotPath
  · rw [map_snakePath hempty hother] at hback
    cases other
    cases m
    exact congrArg mk hback

/-- **The paths of a mask are read back from its value in a query.**

At the commas the value falls into one item for each path, and at the points an item falls into
one part for each segment.  With a low line and the small letter for each capital, a part is the
segment again and an item the path.  So another mask has another value. -/
theorem queryValue_reversible {m : FieldMask} (hne : m.paths ≠ []) (h : ∀ p ∈ m.paths, IsPath p) :
    let items := Text.split ',' m.queryValue
    items.length = m.paths.length ∧
      items.map (fun item => (Text.split '.' item).length)
        = m.paths.map (fun p => (Text.split '.' p).length) ∧
      items.map (fun item => (Text.split '.' item).map snakeSegment) = m.paths.map (Text.split '.') ∧
      items.map snakePath = m.paths ∧
      ∀ other : FieldMask, (∀ p ∈ other.paths, IsPath p) → other.queryValue = m.queryValue →
        other = m := by
  intro items
  have hitems : items = m.paths.map camelPath := split_queryValue hne h
  refine ⟨?_, ?_, ?_, map_snakePath hne h, fun other => eq_of_queryValue_eq hne h⟩
  · rw [hitems, List.length_map]
  · rw [hitems, List.map_map]
    refine List.map_congr_left fun p hp => ?_
    rw [Function.comp_apply, split_camelPath (h p hp), List.length_map]
  · rw [hitems, List.map_map]
    refine List.map_congr_left fun p hp => ?_
    rw [Function.comp_apply, map_snakeSegment (h p hp)]

/-- A mask of three paths, with digits and with words that look alike when they are joined. -/
theorem sample_mask_reversible :
    let m : FieldMask := ⟨["kms_key", "policy_member.iam_policy_uid_principal", "a1_b2.c"]⟩
    (m.paths ≠ [] ∧ ∀ p ∈ m.paths, IsPath p) ∧
      m.queryValue = "kmsKey,policyMember.iamPolicyUidPrincipal,a1B2.c" ∧
      (Text.split ',' m.queryValue).map snakePath = m.paths := by
  intro m
  have hne : m.paths ≠ [] := by decide
  have hpaths : ∀ p ∈ m.paths, IsPath p := by decide
  exact ⟨⟨hne, hpaths⟩, by decide, (queryValue_reversible hne hpaths).2.2.2.1⟩

end ParameterManager.FieldMask
