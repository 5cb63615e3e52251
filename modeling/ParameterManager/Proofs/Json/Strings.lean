/-
A string is read as the text it was written for.

Every character is written as itself or as an escape, and a reader that comes to the
first character of either can tell which.  So a string is read character by character,
and the mark that closes it is the first one that is not behind a backslash.
-/
import ParameterManager.Json.Printer
import ParameterManager.Proofs.Json.Reads
import ParameterManager.Proofs.Text.Utf8

namespace ParameterManager.Json

open Utf8 (Piece)

/-! ### Escapes -/

private theorem hexValue?_hexDigit {d : Nat} (h : d < 16) : hexValue? (hexDigit d) = some d := by
  have hall : ∀ d : Fin 16, hexValue? (hexDigit d) = some d.val := by decide
  exact hall ⟨d, h⟩

private theorem reads_hexQuad {a b : Nat} (ha : a < 16) (hb : b < 16) (rest : List Piece) :
    Reads hexQuad ['0', '0', hexDigit a, hexDigit b] (a * 16 + b) rest := by
  intro c hc
  have hzero : hexValue? '0' = some 0 := rfl
  have hquad : hexQuad? c.rest = some (a * 16 + b) := by
    rw [hc]
    show (do
      let w ← hexValue? '0'
      let x ← hexValue? '0'
      let y ← hexValue? (hexDigit a)
      let z ← hexValue? (hexDigit b)
      Pure.pure (((w * 16 + x) * 16 + y) * 16 + z)) = some (a * 16 + b)
    rw [hexValue?_hexDigit ha, hexValue?_hexDigit hb, hzero]
    simp
  refine ⟨c.advance.advance.advance.advance, ?_, ?_⟩
  · rw [hexQuad, hquad]
  · simp [Cursor.advance, hc]

private theorem reads_numberedEscape {c : Char} (h : c.toNat < 0x20) (rest : List Piece) :
    Reads numberedEscape ['0', '0', hexDigit (c.toNat / 16), hexDigit (c.toNat % 16)] c rest := by
  have hnum : c.toNat / 16 * 16 + c.toNat % 16 = c.toNat := by omega
  have hquad := reads_hexQuad (a := c.toNat / 16) (b := c.toNat % 16) (by omega) (by omega) rest
  rw [hnum] at hquad
  refine Reads.then_nothing hquad ?_
  rw [if_neg, if_neg, Char.ofNat_toNat]
  · exact Reads.pure
  · simp only [isLeadSurrogate, Bool.and_eq_true, decide_eq_true_eq]
    omega
  · simp only [isTrailSurrogate, Bool.and_eq_true, decide_eq_true_eq]
    omega

theorem reads_letterEscape {letter c : Char} (h : letterEscape? letter = some c)
    (rest : List Piece) : Reads escape [letter] c rest := by
  refine Reads.look Reads.peek ?_
  simp only [List.map_cons, List.cons_append, List.head?_cons, Option.map_some, Piece.shown, h]
  exact Reads.taken Reads.pure

/-- A character is written as itself or as an escape, and the escape is read as the character. -/
private theorem escapeChar_cases (c : Char) :
    (escapeChar c = [c] ∧ c ≠ '"' ∧ c ≠ '\\' ∧ ¬c.toNat < 0x20) ∨
      ∃ tail, escapeChar c = '\\' :: tail ∧ ∀ rest, Reads escape tail c rest := by
  have hself : Char.ofNat c.toNat = c := Char.ofNat_toNat c
  unfold escapeChar
  by_cases hquote : c = '"'
  · rw [if_pos hquote, hquote]
    exact Or.inr ⟨_, rfl, reads_letterEscape rfl⟩
  rw [if_neg hquote]
  by_cases hslash : c = '\\'
  · rw [if_pos hslash, hslash]
    exact Or.inr ⟨_, rfl, reads_letterEscape rfl⟩
  rw [if_neg hslash]
  by_cases hn : c = '\n'
  · rw [if_pos hn, hn]
    exact Or.inr ⟨_, rfl, reads_letterEscape rfl⟩
  rw [if_neg hn]
  by_cases hr : c = '\r'
  · rw [if_pos hr, hr]
    exact Or.inr ⟨_, rfl, reads_letterEscape rfl⟩
  rw [if_neg hr]
  by_cases ht : c = '\t'
  · rw [if_pos ht, ht]
    exact Or.inr ⟨_, rfl, reads_letterEscape rfl⟩
  rw [if_neg ht]
  by_cases hb : c.toNat = 0x8
  · rw [if_pos hb, ← hself, hb]
    exact Or.inr ⟨_, rfl, reads_letterEscape rfl⟩
  rw [if_neg hb]
  by_cases hf : c.toNat = 0xC
  · rw [if_pos hf, ← hself, hf]
    exact Or.inr ⟨_, rfl, reads_letterEscape rfl⟩
  rw [if_neg hf]
  by_cases hcontrol : c.toNat < 0x20
  · rw [if_pos hcontrol]
    refine Or.inr ⟨_, rfl, fun rest => Reads.look Reads.peek ?_⟩
    exact Reads.taken (reads_numberedEscape hcontrol rest)
  · rw [if_neg hcontrol]
    exact Or.inl ⟨rfl, hquote, hslash, hcontrol⟩

/-! ### Strings -/

theorem leads_stringBody_plain {c : Char} (hquote : c ≠ '"') (hslash : c ≠ '\\')
    (hcontrol : ¬c.toNat < 0x20) (n : Nat) (acc : List Char) (rest : List Piece) :
    Leads (stringBody (n + 1) acc none) [c] (stringBody n (c :: acc) none) rest := by
  intro cur hcur
  replace hcur : cur.rest = .char c :: rest := hcur
  refine ⟨cur.advance, by rw [Cursor.advance, hcur], ?_⟩
  simp only [stringBody, hcur, if_neg hquote, if_neg hslash, if_neg hcontrol]

theorem leads_stringBody_escape {tail : List Char} {e : Char} {rest : List Piece}
    (h : Reads escape tail e rest) (n : Nat) (acc : List Char) :
    Leads (stringBody (n + 1) acc none) ('\\' :: tail) (stringBody n (e :: acc) none) rest := by
  intro cur hcur
  replace hcur : cur.rest = .char '\\' :: (tail.map .char ++ rest) := hcur
  obtain ⟨c', hok, hc'⟩ := h cur.advance (by rw [Cursor.advance, hcur])
  have hne : ('\\' : Char) ≠ '"' := by decide
  refine ⟨c', hc', ?_⟩
  simp only [stringBody, hcur, if_neg hne, if_true, hok]

/-- The mark that closes a string ends it. -/
theorem reads_stringBody_end (n : Nat) (acc : List Char) (rest : List Piece) :
    Reads (stringBody (n + 1) acc none) ['"'] (String.ofList acc.reverse) rest := by
  intro cur hcur
  replace hcur : cur.rest = .char '"' :: rest := hcur
  refine ⟨cur.advance, ?_, by rw [Cursor.advance, hcur]⟩
  simp only [stringBody, hcur, if_true]

private theorem reads_stringBody (cs : List Char) (n : Nat) (acc : List Char) (rest : List Piece)
    (hn : cs.length < n) :
    Reads (stringBody n acc none) (cs.flatMap escapeChar ++ ['"'])
      (String.ofList (acc.reverse ++ cs)) rest := by
  obtain ⟨m, rfl⟩ : ∃ m, n = m + 1 := ⟨n - 1, by omega⟩
  induction cs generalizing m acc with
  | nil =>
      rw [List.append_nil]
      exact reads_stringBody_end m acc rest
  | cons ch cs ih =>
      obtain ⟨k, rfl⟩ : ∃ k, m = k + 1 := ⟨m - 1, by simp at hn; omega⟩
      have ih := ih (ch :: acc) k (by simp at hn; omega)
      rw [List.reverse_cons, List.append_assoc, List.singleton_append] at ih
      rw [List.flatMap_cons, List.append_assoc]
      rcases escapeChar_cases ch with ⟨hself, hquote, hslash, hcontrol⟩ | ⟨tail, hesc, hreads⟩
      · rw [hself]
        exact (leads_stringBody_plain hquote hslash hcontrol _ acc _).reads ih
      · rw [hesc]
        exact (leads_stringBody_escape (hreads _) _ acc).reads ih

/-- **The characters of a string are read as the text they were written for.** -/
theorem reads_stringRest (s : String) (rest : List Piece) :
    Reads stringRest (s.toList.flatMap escapeChar ++ ['"']) s rest := by
  intro c hc
  have hlen : s.toList.length < c.rest.length + 1 := by
    have hpos : ∀ ch, 1 ≤ (escapeChar ch).length := by
      intro ch
      rcases escapeChar_cases ch with ⟨h, -⟩ | ⟨tail, h, -⟩
      · rw [h]
        simp
      · rw [h]
        simp
    have hle : ∀ cs : List Char, cs.length ≤ (cs.flatMap escapeChar).length := by
      intro cs
      induction cs with
      | nil => simp
      | cons ch cs ih =>
          have := hpos ch
          rw [List.flatMap_cons, List.length_append, List.length_cons]
          omega
    have := hle s.toList
    rw [hc, List.length_append, List.length_map, List.length_append]
    omega
  have h := reads_stringBody s.toList (c.rest.length + 1) [] rest hlen
  rw [List.reverse_nil, List.nil_append, String.ofList_toList] at h
  exact h c hc

end ParameterManager.Json
