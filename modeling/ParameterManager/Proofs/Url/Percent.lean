/-
Percent encoding is undone by decoding, wholly or in part.

A set that contains the percent sign leaves no percent sign bare, so every one in the
encoded text starts an escape and decoding cannot mistake a bare byte for one.  That is
all `decodeExcept` needs: what it gives back is the bytes themselves, with an escape
left where the byte is one of those it keeps.

The encoded text is ASCII and holds nothing of the set but the percent sign, which is
what lets an address be cut at its separators after it has been put together.
-/
import ParameterManager.Proofs.Text.Utf8
import ParameterManager.Url.Percent

namespace ParameterManager.Percent

/-! ### Digits -/

private theorem digits_spec : ∀ d, d < 16 →
    let c := if d < 10 then Char.ofNat (0x30 + d) else Char.ofNat (0x37 + d)
    c.toNat < 0x80 ∧ hexValue? (Utf8.byte c.toNat) = some d ∧ c.isAlphanum = true := by
  decide

/-- The escape of a byte is a percent sign and two digits that stand for the byte. -/
theorem encodeByte_spec (b : UInt8) : ∃ h l : Char, encodeByte b = ['%', h, l] ∧
    h.toNat < 0x80 ∧ l.toNat < 0x80 ∧ h.isAlphanum = true ∧ l.isAlphanum = true ∧
    hexValue? (Utf8.byte h.toNat) = some (b.toNat / 16) ∧
    hexValue? (Utf8.byte l.toNat) = some (b.toNat % 16) := by
  have hb : b.toNat < 256 := b.toNat_lt
  obtain ⟨hh, hhv, hha⟩ := digits_spec (b.toNat / 16) (by omega)
  obtain ⟨hl, hlv, hla⟩ := digits_spec (b.toNat % 16) (by omega)
  exact ⟨_, _, rfl, hh, hl, hha, hla, hhv, hlv⟩

theorem mem_encodeByte {b : UInt8} {c : Char} (h : c ∈ encodeByte b) :
    c = '%' ∨ (c.toNat < 0x80 ∧ c.isAlphanum = true) := by
  obtain ⟨x, y, heq, hx, hy, hxa, hya, -, -⟩ := encodeByte_spec b
  rw [heq] at h
  rcases List.mem_cons.mp h with h | h
  · exact Or.inl h
  rcases List.mem_cons.mp h with h | h
  · exact Or.inr ⟨h ▸ hx, h ▸ hxa⟩
  · rw [List.mem_singleton] at h
    exact Or.inr ⟨h ▸ hy, h ▸ hya⟩

theorem ascii_encodeByte {b : UInt8} {c : Char} (h : c ∈ encodeByte b) : c.toNat < 0x80 := by
  rcases mem_encodeByte h with rfl | ⟨hlt, -⟩
  · decide
  · exact hlt

/-! ### Decoding byte by byte -/

theorem decodeExcept_nil (kept : Nat → Bool) : decodeExcept kept [] = [] := by
  rw [decodeExcept]

/-- A byte that is no percent sign starts no escape. -/
theorem decodeExcept_plain (kept : Nat → Bool) {b : UInt8} (h : b.toNat ≠ 0x25) (rest : Bytes) :
    decodeExcept kept (b :: rest) = b :: decodeExcept kept rest := by
  have hnone : escape? (b :: rest) = none := by
    unfold escape?
    split
    · next p x y tail heq =>
      obtain ⟨rfl, -⟩ := List.cons.inj heq
      rw [if_neg h]
    · rfl
  rw [decodeExcept]
  split
  · next e tail hsome => rw [hnone] at hsome; simp at hsome
  · rfl

theorem decodeExcept_plains (kept : Nat → Bool) {bs : Bytes} (h : ∀ b ∈ bs, b.toNat ≠ 0x25)
    (rest : Bytes) : decodeExcept kept (bs ++ rest) = bs ++ decodeExcept kept rest := by
  induction bs with
  | nil => rfl
  | cons b bs ih =>
      rw [List.cons_append, decodeExcept_plain kept (h b List.mem_cons_self),
        ih fun d hd => h d (List.mem_cons_of_mem _ hd)]
      rfl

private theorem escape?_encodeByte (b : UInt8) (rest : Bytes) :
    escape? (Utf8.encodeChars (encodeByte b) ++ rest) = some (b, rest) := by
  obtain ⟨h, l, heq, hh, hl, -, -, hhv, hlv⟩ := encodeByte_spec b
  have hbytes : Utf8.encodeChars (encodeByte b)
      = [0x25, Utf8.byte h.toNat, Utf8.byte l.toNat] := by
    rw [Utf8.encodeChars_of_ascii fun c hc => ascii_encodeByte hc, heq]
    rfl
  have hval : b.toNat / 16 * 16 + b.toNat % 16 = b.toNat := by omega
  rw [hbytes]
  show escape? (0x25 :: Utf8.byte h.toNat :: Utf8.byte l.toNat :: rest) = _
  simp [escape?, hhv, hlv, hval]

/-- What becomes of one byte: itself, or its escape if it is escaped and then kept. -/
def partly (set kept : Nat → Bool) (b : UInt8) : Bytes :=
  if (0x80 ≤ b.toNat || set b.toNat) && kept b.toNat then Utf8.encodeChars (encodeByte b) else [b]

private theorem alnum_ne_percent {c : Char} (h : c.isAlphanum = true) : c.toNat ≠ 0x25 := by
  intro hc
  have : c = '%' := Char.toNat_inj.mp hc
  subst this
  simp at h

/-- The escape of a byte is decoded, or left as it is if the byte is kept. -/
theorem decodeExcept_encodeByte (kept : Nat → Bool) (b : UInt8) (rest : Bytes) :
    decodeExcept kept (Utf8.encodeChars (encodeByte b) ++ rest)
      = (if kept b.toNat then Utf8.encodeChars (encodeByte b) else [b])
        ++ decodeExcept kept rest := by
  have hescape := escape?_encodeByte b rest
  obtain ⟨h, l, heq, hh, hl, hha, hla, -, -⟩ := encodeByte_spec b
  have hbytes : Utf8.encodeChars (encodeByte b)
      = [0x25, Utf8.byte h.toNat, Utf8.byte l.toNat] := by
    rw [Utf8.encodeChars_of_ascii fun c hc => ascii_encodeByte hc, heq]
    rfl
  have hhne : (Utf8.byte h.toNat).toNat ≠ 0x25 := by
    rw [Utf8.byte_toNat (by omega)]
    exact alnum_ne_percent hha
  have hlne : (Utf8.byte l.toNat).toNat ≠ 0x25 := by
    rw [Utf8.byte_toNat (by omega)]
    exact alnum_ne_percent hla
  rw [hbytes] at hescape ⊢
  simp only [List.cons_append, List.nil_append] at hescape ⊢
  rw [decodeExcept]
  split
  · next e tail hsome =>
    rw [hescape] at hsome
    obtain ⟨rfl, rfl⟩ : b = e ∧ rest = tail := by simpa using hsome
    by_cases hk : kept b.toNat = true
    · -- the digits of an escape that is kept are plain bytes
      rw [if_pos hk, if_pos hk, decodeExcept_plain kept hhne, decodeExcept_plain kept hlne]
      rfl
    · rw [if_neg hk, if_neg hk]
      rfl
  · next hnone => rw [hescape] at hnone; simp at hnone

/-! ### Decoding what was encoded -/

/-- Decoding gives each byte back, or its escape if it is kept. -/
theorem decodeExcept_encodeBytes {set : Nat → Bool} (hset : set 0x25 = true) (kept : Nat → Bool)
    (bs rest : Bytes) :
    decodeExcept kept (Utf8.encodeChars (encodeBytes set bs) ++ rest)
      = bs.flatMap (partly set kept) ++ decodeExcept kept rest := by
  induction bs with
  | nil => rfl
  | cons b bs ih =>
      show decodeExcept kept (Utf8.encodeChars
          ((if 0x80 ≤ b.toNat || set b.toNat then encodeByte b else [Char.ofNat b.toNat])
            ++ encodeBytes set bs) ++ rest) = _
      rw [Utf8.encodeChars_append, List.append_assoc, List.flatMap_cons, List.append_assoc, ← ih,
        partly]
      by_cases he : (decide (0x80 ≤ b.toNat) || set b.toNat) = true
      · rw [if_pos he, decodeExcept_encodeByte]
        simp only [he, Bool.true_and]
      · have hlt : b.toNat < 0x80 := by
          simp only [Bool.or_eq_true, decide_eq_true_eq, not_or] at he
          omega
        have hne : b.toNat ≠ 0x25 := by
          intro hb
          rw [hb, hset] at he
          simp at he
        have hchar : (Char.ofNat b.toNat).toNat = b.toNat :=
          Utf8.toNat_ofNat hlt
        have hone : Utf8.encodeChars [Char.ofNat b.toNat] = [b] := by
          rw [Utf8.encodeChars_of_ascii (by simp only [List.mem_singleton]; rintro c rfl; omega)]
          simp [hchar, Utf8.byte]
        rw [if_neg he, hone, List.singleton_append, decodeExcept_plain kept hne]
        simp only [he, Bool.false_and]
        rfl

/-- **Decoding undoes encoding.** -/
theorem decode_encodeBytes {set : Nat → Bool} (hset : set 0x25 = true) (bs : Bytes) :
    decode (Utf8.encodeChars (encodeBytes set bs)) = bs := by
  have h := decodeExcept_encodeBytes hset (fun _ => false) bs []
  have hpartly : partly set (fun _ => false) = fun b => [b] := by
    funext b
    simp [partly]
  rw [List.append_nil, decodeExcept_nil, List.append_nil, hpartly] at h
  rw [decode, h, List.flatMap_singleton']

theorem decode_encodeChars {set : Nat → Bool} (hset : set 0x25 = true) (cs : List Char) :
    decode (Utf8.encodeChars (encodeChars set cs)) = Utf8.encodeChars cs :=
  decode_encodeBytes hset _

theorem encodeChars_injective {set : Nat → Bool} (hset : set 0x25 = true) {cs ds : List Char}
    (h : encodeChars set cs = encodeChars set ds) : cs = ds := by
  have hbytes : Utf8.encodeChars cs = Utf8.encodeChars ds := by
    rw [← decode_encodeChars hset cs, h, decode_encodeChars hset]
  have htext := congrArg Utf8.lossy hbytes
  rw [Utf8.lossy_encodeChars, Utf8.lossy_encodeChars] at htext
  exact String.ofList_injective htext

/-! ### What the encoded text is made of -/

/-- A character of the encoded text is a bare byte outside the set, or part of an escape. -/
theorem mem_encodeChars {set : Nat → Bool} {cs : List Char} {c : Char}
    (h : c ∈ encodeChars set cs) :
    (c.toNat < 0x80 ∧ set c.toNat = false) ∨ c = '%' ∨ (c.toNat < 0x80 ∧ c.isAlphanum = true) := by
  obtain ⟨b, -, hb⟩ := List.mem_flatMap.mp h
  by_cases he : (decide (0x80 ≤ b.toNat) || set b.toNat) = true
  · rw [if_pos he] at hb
    exact Or.inr (mem_encodeByte hb)
  · rw [if_neg he, List.mem_singleton] at hb
    simp only [Bool.or_eq_true, decide_eq_true_eq, not_or, Bool.not_eq_true] at he
    have hchar : (Char.ofNat b.toNat).toNat = b.toNat :=
      Utf8.toNat_ofNat (by omega)
    left
    rw [hb, hchar]
    exact ⟨by omega, he.2⟩

/-- A sign of the set, other than the percent sign, does not occur in the encoded text. -/
theorem not_mem_encodeChars {set : Nat → Bool} {cs : List Char} {c : Char}
    (hset : set c.toNat = true) (hne : c ≠ '%') (hsign : c.isAlphanum = false) :
    c ∉ encodeChars set cs := by
  intro h
  rcases mem_encodeChars h with ⟨-, hout⟩ | hper | ⟨-, halnum⟩
  · rw [hset] at hout
    simp at hout
  · exact hne hper
  · rw [hsign] at halnum
    simp at halnum

end ParameterManager.Percent
