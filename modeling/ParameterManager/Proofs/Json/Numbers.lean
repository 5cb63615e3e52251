/-
A whole number is read as the number it was written for.

Decimal digits are collected and then added up one by one as long as the sum fits into 64
bits, which it does for every number of that size.  A number has no mark at its end, so
it is the one thing in a text whose reading depends on what comes after it.
-/
import ParameterManager.Json.Printer
import ParameterManager.Proofs.Json.Reads
import ParameterManager.Proofs.Text.Basic

namespace ParameterManager.Json

open Utf8 (Piece)

/-- What may follow a number: nothing that would make it longer. -/
def EndsNumber (rest : List Piece) : Prop :=
  StopsAt (fun ch => ch.isDigit || ch == '.' || ch == 'e' || ch == 'E') rest

/-- Only zero is written with a zero in front. -/
private theorem eq_zero_of_head {n : Nat} {ds : List Char} (h : Nat.toDigits 10 n = '0' :: ds) :
    n = 0 := by
  induction n using Nat.strongRecOn generalizing ds with
  | _ n ih =>
      by_cases hn : n < 10
      · rw [Nat.toDigits_of_lt_base hn] at h
        have hall : ∀ d : Fin 10, d.val.digitChar = '0' → d.val = 0 := by decide
        exact hall ⟨n, hn⟩ (List.cons.inj h).1
      · rw [Nat.toDigits_of_base_le (by decide) (by omega)] at h
        obtain ⟨d, rest, hd⟩ :=
          List.exists_cons_of_ne_nil (Nat.toDigits_ne_nil (n := n / 10) (b := 10))
        rw [hd, List.cons_append] at h
        rw [(List.cons.inj h).1] at hd
        have := ih (n / 10) (by omega) hd
        omega

private theorem digitValue_eq (c : Char) : digitValue c = c.toNat - '0'.toNat := rfl

private theorem absorb_eq {ds : List Char} {n : Nat}
    (h : Nat.ofDigitChars 10 ds n ≤ maxSignificand) :
    absorb n ds = (Nat.ofDigitChars 10 ds n, []) := by
  induction ds generalizing n with
  | nil => rfl
  | cons d ds ih =>
      have hstep : n * 10 + digitValue d = 10 * n + (d.toNat - '0'.toNat) := by
        rw [digitValue_eq, Nat.mul_comm]
      have hle : ∀ (ds : List Char) (n : Nat), n ≤ Nat.ofDigitChars 10 ds n := by
        intro ds
        induction ds with
        | nil => exact fun n => Nat.le_refl n
        | cons d ds ih =>
            intro n
            rw [Nat.ofDigitChars_cons]
            have := ih (10 * n + (d.toNat - '0'.toNat))
            omega
      rw [Nat.ofDigitChars_cons] at h ⊢
      have hfits := Nat.le_trans (hle ds _) h
      simp only [absorb, hstep]
      rw [if_pos hfits, ih h]

private theorem takeWhile_digits {ds : List Char} {rest : List Piece}
    (hds : ∀ c ∈ ds, c.isDigit = true) (h : StopsAt Char.isDigit rest) :
    takeWhile Char.isDigit (ds.map .char ++ rest) = ds := by
  induction ds with
  | nil =>
      rw [List.map_nil, List.nil_append]
      unfold takeWhile
      split
      · next ch tail =>
        have hch : ch.isDigit = false := h
        rw [hch]
        rfl
      · rfl
  | cons d ds ih =>
      rw [List.map_cons, List.cons_append, takeWhile, if_pos (hds d List.mem_cons_self),
        ih fun c hc => hds c (List.mem_cons_of_mem _ hc)]

theorem reads_digits {ds : List Char} {rest : List Piece} (hds : ∀ c ∈ ds, c.isDigit = true)
    (h : StopsAt Char.isDigit rest) : Reads Reader.digits ds ds rest := by
  intro c hc
  have htake := takeWhile_digits hds h
  have hdrop := dropWhile_append hds h c.position
  refine ⟨{ c with
    rest := (dropWhile Char.isDigit c.rest c.position).1
    position := (dropWhile Char.isDigit c.rest c.position).2
    looked := true }, ?_, ?_⟩
  · show Except.ok (takeWhile Char.isDigit c.rest, _) = _
    rw [hc, htake]
  · rw [hc]
    exact hdrop

theorem EndsNumber.digit {rest : List Piece} (h : EndsNumber rest) :
    StopsAt Char.isDigit rest := by
  cases rest with
  | nil => trivial
  | cons x rest =>
      cases x with
      | malformed _ => trivial
      | char ch =>
          have hch : (ch.isDigit || ch == '.' || ch == 'e' || ch == 'E') = false := h
          simp only [Bool.or_eq_false_iff] at hch
          exact hch.1.1.1

/-- The next character, if there is one, is neither a digit nor a point nor an exponent's sign. -/
theorem EndsNumber.next {rest : List Piece} (h : EndsNumber rest) {ch : Char}
    (hch : rest.head?.map Piece.shown = some ch) :
    ch.isDigit = false ∧ ch ≠ '.' ∧ ch ≠ 'e' ∧ ch ≠ 'E' := by
  cases rest with
  | nil => simp at hch
  | cons x rest =>
      simp only [List.head?_cons, Option.map_some, Option.some.injEq] at hch
      subst hch
      cases x with
      | malformed _ =>
          show '\uFFFD'.isDigit = false ∧ '\uFFFD' ≠ '.' ∧ '\uFFFD' ≠ 'e' ∧ '\uFFFD' ≠ 'E'
          decide
      | char ch =>
          have hends : (ch.isDigit || ch == '.' || ch == 'e' || ch == 'E') = false := h
          show ch.isDigit = false ∧ ch ≠ '.' ∧ ch ≠ 'e' ∧ ch ≠ 'E'
          simpa [Bool.or_eq_false_iff, and_assoc] using hends

private theorem reads_afterWhole {ds : List Char} {n : Nat} {rest : List Piece}
    (hds : absorb 0 ds = (n, [])) (h : EndsNumber rest) :
    Reads (afterWhole true ds) [] (.int n) rest := by
  unfold afterWhole
  rw [hds]
  refine Reads.look Reads.peek ?_
  have hnext : ∀ ch, ch = '.' ∨ ch = 'e' ∨ ch = 'E' →
      rest.head?.map Piece.shown ≠ some ch := by
    intro ch hch hcon
    obtain ⟨-, h1, h2, h3⟩ := h.next hcon
    rcases hch with rfl | rfl | rfl
    · exact h1 rfl
    · exact h2 rfl
    · exact h3 rfl
  rw [List.map_nil, List.nil_append, if_neg (hnext '.' (Or.inl rfl)), if_neg (not_or.mpr
    ⟨hnext 'e' (Or.inr (Or.inl rfl)), hnext 'E' (Or.inr (Or.inr rfl))⟩)]
  exact Reads.pure

/-- **A whole number of 64 bits is read as itself.** -/
theorem reads_signedNumber {n : Nat} (hn : n ≤ maxSignificand) {rest : List Piece}
    (h : EndsNumber rest) :
    Reads signedNumber (Nat.toDigits 10 n) (.int n) rest := by
  obtain ⟨d, ds, hd⟩ := List.exists_cons_of_ne_nil (Nat.toDigits_ne_nil (n := n) (b := 10))
  have hdigits : ∀ c ∈ d :: ds, c.isDigit = true := fun c hc =>
    Text.isDigit_of_mem_digits (hd ▸ hc)
  have hdd : d.isDigit = true := hdigits d List.mem_cons_self
  have habsorb : absorb 0 (d :: ds) = (n, []) := by
    have hsum : Nat.ofDigitChars 10 (d :: ds) 0 = n := hd ▸ Nat.ofDigitChars_ten_toDigits
    rw [absorb_eq, hsum]
    rw [hsum]
    exact hn
  rw [hd]
  refine Reads.look Reads.peek ?_
  split
  · next heq =>
    -- a digit is no sign
    exact absurd (Option.some.inj heq) (Text.ne_of_isDigit hdd (by decide))
  refine Reads.look Reads.peek ?_
  show Reads (if d = '0' then _ else if d.isDigit then _ else _) (d :: ds) _ rest
  by_cases hzero : d = '0'
  · subst hzero
    have hn0 : n = 0 := eq_zero_of_head hd
    rw [hn0, Nat.toDigits_zero] at hd
    obtain rfl : ds = [] := (List.cons.inj hd).2.symm
    rw [if_pos rfl]
    have hpeek : Reads Reader.peek [] (rest.head?.map Piece.shown) rest := Reads.peek
    refine Reads.taken (Reads.look hpeek ?_)
    split
    · next ch hch =>
      rw [(h.next hch).1]
      exact reads_afterWhole habsorb h
    · exact reads_afterWhole habsorb h
  · rw [if_neg hzero, hdd]
    exact Reads.then_nothing (reads_digits hdigits h.digit) (reads_afterWhole habsorb h)

end ParameterManager.Json
