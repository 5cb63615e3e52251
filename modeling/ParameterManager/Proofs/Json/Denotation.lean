/-
Which text a string is read as.

A string of the grammar is read if and only if its escapes name characters, and then it is read as
the characters that they name.  The halves of a pair are what makes the difference: in the grammar
each of them is an escape of its own, and a reader wants the second one right behind the first.
-/
import ParameterManager.Proofs.Json.Grammar

namespace ParameterManager.Json

open Utf8 (Piece)

/-! ### From the text to the string -/

private theorem not_lead {n : Nat} (h : n < 0xD800 ∨ 0xDBFF < n) : ¬isLeadSurrogate n = true := by
  simp only [isLeadSurrogate, Bool.and_eq_true, decide_eq_true_eq]
  omega

private theorem not_trail {n : Nat} (h : n < 0xDC00 ∨ 0xDFFF < n) : ¬isTrailSurrogate n = true := by
  simp only [isTrailSurrogate, Bool.and_eq_true, decide_eq_true_eq]
  omega

private theorem isLead {n : Nat} (h : 0xD800 ≤ n) (h' : n ≤ 0xDBFF) : isLeadSurrogate n = true := by
  simp only [isLeadSurrogate, Bool.and_eq_true, decide_eq_true_eq]
  exact ⟨h, h'⟩

private theorem isTrail {n : Nat} (h : 0xDC00 ≤ n) (h' : n ≤ 0xDFFF) :
    isTrailSurrogate n = true := by
  simp only [isTrailSurrogate, Bool.and_eq_true, decide_eq_true_eq]
  exact ⟨h, h'⟩

private theorem reads_secondHalfMark {α : Type} {f : Unit → Reader α} {cs : List Char} {a : α}
    {rest : List Piece} (ch : Char) (hf : Reads (f ()) cs a rest) :
    Reads (secondHalfMark ch >>= f) (ch :: cs) a rest := by
  have hmark : Reads (secondHalfMark ch) [ch] () (cs.map .char ++ rest) := by
    refine Reads.look Reads.peek ?_
    show Reads (if ch = ch then _ else _) _ _ _
    rw [if_pos rfl]
    exact Reads.advance
  exact Reads.bind hmark hf

/-- An escape is read as the character that it stands for. -/
theorem Escapes.reads {tail : List Char} {c : Char} (h : Escapes tail c) (rest : List Piece) :
    Reads escape tail c rest := by
  cases h with
  | letter h => exact reads_letterEscape (letterEscape?_of_mem h) rest
  | number hquad hn =>
      refine Reads.look Reads.peek (Reads.taken (Reads.then_nothing (hquad.reads rest) ?_))
      rw [if_neg (not_trail (by omega)), if_neg (not_lead (by omega))]
      exact Reads.pure
  | pair hquad hlead hlead' hquad' htrail htrail' =>
      refine Reads.look Reads.peek (Reads.taken (Reads.bind (hquad.reads _) ?_))
      rw [if_neg (not_trail (by omega)), if_pos (isLead hlead hlead')]
      refine reads_secondHalfMark _ (reads_secondHalfMark _ ?_)
      refine Reads.then_nothing (hquad'.reads rest) ?_
      rw [if_pos (isTrail htrail htrail')]
      exact Reads.pure

private theorem reads_stringBody_of_denotes {cs s : List Char} (h : Denotes cs s) {n : Nat}
    (hn : cs.length < n) (acc : List Char) (rest : List Piece) :
    Reads (stringBody n acc none) (cs ++ ['"']) (String.ofList (acc.reverse ++ s)) rest := by
  obtain ⟨m, rfl⟩ : ∃ m, n = m + 1 := ⟨n - 1, by omega⟩
  induction h generalizing m acc with
  | nil =>
      rw [List.append_nil]
      exact reads_stringBody_end m acc rest
  | @plain c cs s hc _ ih =>
      obtain ⟨k, rfl⟩ : ∃ k, m = k + 1 := ⟨m - 1, by simp at hn; omega⟩
      have ih := ih (c :: acc) k (by simp at hn; omega)
      rw [List.reverse_cons, List.append_assoc, List.singleton_append] at ih
      exact (leads_stringBody_plain hc.1 hc.2.1 (Nat.not_lt.mpr hc.2.2) _ acc _).reads ih
  | @escape tail cs s c hc _ ih =>
      obtain ⟨k, rfl⟩ : ∃ k, m = k + 1 := ⟨m - 1, by simp at hn; omega⟩
      have ih := ih (c :: acc) k (by simp at hn; omega)
      rw [List.reverse_cons, List.append_assoc, List.singleton_append] at ih
      have hall := (leads_stringBody_escape (hc.reads _) _ acc).reads ih
      rwa [List.cons_append, ← List.append_assoc, ← List.cons_append] at hall

/-- A string is read as the text that it denotes. -/
theorem Denotes.reads {cs : List Char} {s : String} (h : Denotes cs s.toList)
    (rest : List Piece) : Reads stringRest (cs ++ ['"']) s rest := by
  intro cur hcur
  have hn : cs.length < cur.rest.length + 1 := by
    rw [hcur]
    simp only [List.length_append, List.length_map]
    omega
  have hall := reads_stringBody_of_denotes h hn [] rest
  rw [List.reverse_nil, List.nil_append, String.ofList_toList] at hall
  exact hall cur hcur

/-! ### From the string to the text -/

private theorem eq_of_secondHalfMark {ch d : Char} {c c' : Cursor} {rest : List Piece}
    (hc : c.rest = .char d :: rest) (h : secondHalfMark ch c = .ok ((), c')) :
    d = ch ∧ c'.rest = rest := by
  have hpeek : Reads Reader.peek [] (some d) (.char d :: rest) := Reads.peek
  obtain ⟨next, c1, hnext, hmark⟩ := Reads.bind_ok h
  obtain ⟨rfl, hc1⟩ := hpeek.eq_of_ok hc hnext
  replace hmark : (if d = ch then Reader.advance
    else Reader.failBeyond .unexpectedEndOfHexEscape) c1 = .ok ((), c') := hmark
  split at hmark
  · next heq =>
    have hadvance : Reads Reader.advance [d] () rest := Reads.advance
    exact ⟨heq, (hadvance.eq_of_ok hc1 hmark).2⟩
  · cases hmark

/-- Behind the first half of a pair only another escape by number is read. -/
private theorem StringText.secondHalf {cs : List Char} (h : StringText cs) {c c1 c2 : Cursor}
    {rest : List Piece} (hc : c.rest = (cs ++ ['"']).map .char ++ rest)
    (hslash : secondHalfMark '\\' c = .ok ((), c1)) (hu : secondHalfMark 'u' c1 = .ok ((), c2)) :
    ∃ quad m cs', HexQuad quad m ∧ StringText cs' ∧ cs = '\\' :: 'u' :: (quad ++ cs') ∧
      c2.rest = quad.map .char ++ ((cs' ++ ['"']).map .char ++ rest) := by
  cases h with
  | nil => exact absurd (eq_of_secondHalfMark hc hslash).1 (by decide)
  | plain hplain _ => exact absurd (eq_of_secondHalfMark hc hslash).1 hplain.2.1
  | letter hmem _ =>
      have hne : ∀ p ∈ escapeLetters, p.1 ≠ 'u' := by decide
      obtain ⟨-, hc1⟩ := eq_of_secondHalfMark hc hslash
      exact absurd (eq_of_secondHalfMark hc1 hu).1 (hne _ hmem)
  | @number quad cs m hquad hcs =>
      obtain ⟨-, hc1⟩ := eq_of_secondHalfMark hc hslash
      obtain ⟨-, hc2⟩ := eq_of_secondHalfMark hc1 hu
      refine ⟨quad, m, cs, hquad, hcs, rfl, hc2.trans ?_⟩
      simp

/-- An escape of a string that is read stands for a character, and the rest is a string again. -/
private theorem StringText.escape_ok {cs : List Char} (h : StringText ('\\' :: cs)) {c c' : Cursor}
    {e : Char} {rest : List Piece} (hc : c.rest = (cs ++ ['"']).map .char ++ rest)
    (hok : escape c = .ok (e, c')) :
    ∃ tail cs', cs = tail ++ cs' ∧ Escapes tail e ∧ StringText cs' ∧
      c'.rest = (cs' ++ ['"']).map .char ++ rest := by
  cases h with
  | plain hplain _ => exact absurd rfl hplain.2.1
  | @letter letter e' cs hmem hcs =>
      have hletter := reads_letterEscape (letterEscape?_of_mem hmem)
        ((cs ++ ['"']).map .char ++ rest)
      obtain ⟨rfl, hc'⟩ := hletter.eq_of_ok hc hok
      exact ⟨[letter], cs, rfl, .letter hmem, hcs, hc'⟩
  | @number quad cs n hquad hcs =>
      have hu : Reads Reader.advance ['u'] () ((quad ++ (cs ++ ['"'])).map .char ++ rest) :=
        Reads.advance
      have hleads : Leads escape ['u'] numberedEscape
          ((quad ++ (cs ++ ['"'])).map .char ++ rest) :=
        Leads.look Reads.peek (Leads.of_reads hu)
      obtain ⟨c1, hc1, hsame⟩ := hleads c (by rw [hc]; simp)
      rw [hsame] at hok
      obtain ⟨n', c2, hn, hrest⟩ := Reads.bind_ok hok
      rw [List.map_append, List.append_assoc] at hc1
      obtain ⟨rfl, hc2⟩ := (hquad.reads _).eq_of_ok hc1 hn
      split at hrest
      · cases hrest
      next htrail =>
      simp only [isTrailSurrogate, Bool.and_eq_true, decide_eq_true_eq] at htrail
      split at hrest
      · next hlead =>
        simp only [isLeadSurrogate, Bool.and_eq_true, decide_eq_true_eq] at hlead
        obtain ⟨_, c3, hslash, hrest⟩ := Reads.bind_ok hrest
        obtain ⟨_, c4, hmark, hrest⟩ := Reads.bind_ok hrest
        obtain ⟨quad', m, cs', hquad', hcs', rfl, hc4⟩ := hcs.secondHalf hc2 hslash hmark
        obtain ⟨m', c5, hm, hrest⟩ := Reads.bind_ok hrest
        obtain ⟨rfl, hc5⟩ := (hquad'.reads _).eq_of_ok hc4 hm
        split at hrest
        · next htrail' =>
          simp only [isTrailSurrogate, Bool.and_eq_true, decide_eq_true_eq] at htrail'
          obtain ⟨rfl, rfl⟩ := Prod.mk.inj (Except.ok.inj hrest)
          refine ⟨_, cs', ?_, .pair hquad hlead.1 hlead.2 hquad' htrail'.1 htrail'.2, hcs', hc5⟩
          simp
        · cases hrest
      · next hlead =>
        simp only [isLeadSurrogate, Bool.and_eq_true, decide_eq_true_eq] at hlead
        obtain ⟨rfl, rfl⟩ := Prod.mk.inj (Except.ok.inj hrest)
        exact ⟨'u' :: quad, cs, rfl, .number hquad (by omega), hcs, hc2⟩

private theorem denotes_of_stringBody {n : Nat} {cs acc : List Char} {c c' : Cursor} {t : String}
    {rest : List Piece} (h : StringText cs) (hc : c.rest = (cs ++ ['"']).map .char ++ rest)
    (hok : stringBody n acc none c = .ok (t, c')) :
    c'.rest = rest ∧ ∃ s, Denotes cs s ∧ t = String.ofList (acc.reverse ++ s) := by
  induction n generalizing cs acc c with
  | zero => cases hok
  | succ n ih =>
      cases cs with
      | nil =>
          obtain ⟨rfl, hc'⟩ := (reads_stringBody_end n acc rest).eq_of_ok hc hok
          exact ⟨hc', [], .nil, by rw [List.append_nil]⟩
      | cons ch cs =>
          -- the character or the escape, and then the rest by induction
          by_cases hslash : ch = '\\'
          · subst hslash
            replace hc : c.rest = .char '\\' :: ((cs ++ ['"']).map .char ++ rest) := hc
            have hne : ('\\' : Char) ≠ '"' := by decide
            have hadvance : c.advance.rest = (cs ++ ['"']).map .char ++ rest := by
              rw [Cursor.advance, hc]
            simp only [stringBody, hc, if_neg hne, if_true] at hok
            cases hescape : escape c.advance with
            | error e => simp [hescape] at hok
            | ok result =>
                obtain ⟨e, c1⟩ := result
                rw [hescape] at hok
                obtain ⟨tail, cs', rfl, he, hcs', hc1⟩ := h.escape_ok hadvance hescape
                obtain ⟨hc', s, hs, rfl⟩ := ih hcs' hc1 hok
                refine ⟨hc', e :: s, .escape he hs, ?_⟩
                simp
          · obtain ⟨hplain, hcs⟩ : IsPlainChar ch ∧ StringText cs := by
              cases h with
              | plain hplain hcs => exact ⟨hplain, hcs⟩
              | letter _ _ => exact absurd rfl hslash
              | number _ _ => exact absurd rfl hslash
            obtain ⟨c1, hc1, hsame⟩ := leads_stringBody_plain hplain.1 hplain.2.1
              (Nat.not_lt.mpr hplain.2.2) n acc ((cs ++ ['"']).map .char ++ rest) c hc
            rw [hsame] at hok
            obtain ⟨hc', s, hs, rfl⟩ := ih hcs hc1 hok
            refine ⟨hc', ch :: s, .plain hplain hs, ?_⟩
            simp

/-- **A string that is read is read as the text that it denotes.** -/
theorem denotes_of_stringRest {cs : List Char} (h : StringText cs) {c c' : Cursor} {s : String}
    {rest : List Piece} (hc : c.rest = (cs ++ ['"']).map .char ++ rest)
    (hok : stringRest c = .ok (s, c')) : c'.rest = rest ∧ Denotes cs s.toList := by
  obtain ⟨hc', chars, hchars, rfl⟩ := denotes_of_stringBody h hc hok
  refine ⟨hc', ?_⟩
  rwa [List.reverse_nil, List.nil_append, String.toList_ofList]

end ParameterManager.Json
