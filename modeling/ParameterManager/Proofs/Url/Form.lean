/-
A form reads back as the pairs it was made of.

Neither the ampersand nor the equals sign stands for itself in a form, so the only ones
there are those that were put between the pairs and between the two parts of a pair.
Plus signs are turned into spaces before escapes are decoded; a plus sign of the text is
written as an escape, and so it survives.

Two forms with an ampersand between them read as the pairs of both, whatever they hold:
that is what makes it safe to add a pair to a query one did not write.
-/
import ParameterManager.Proofs.Text.Basic
import ParameterManager.Proofs.Url.Percent
import ParameterManager.Url.Form

namespace ParameterManager.Form

/-! ### The characters of a form -/

/-- What is written for a text: characters that stand for themselves, spaces and escapes. -/
private def IsTextChar (c : Char) : Prop :=
  c = '+' ∨ c = '%' ∨ (c.toNat < 0x80 ∧ isPlain c.toNat = true)

private theorem mem_encodeByte {b : UInt8} {c : Char} (h : c ∈ encodeByte b) : IsTextChar c := by
  unfold encodeByte at h
  split at h
  · exact Or.inl (List.mem_singleton.mp h)
  split at h
  · next hplain =>
    rw [List.mem_singleton] at h
    have hlt : b.toNat < 0x80 := by
      simp [isPlain, Percent.isOneOf] at hplain
      omega
    have hchar : c.toNat = b.toNat := by rw [h, Utf8.toNat_ofNat hlt]
    exact Or.inr (Or.inr ⟨hchar ▸ hlt, hchar ▸ hplain⟩)
  · have halnum : ∀ {d : Char}, d.toNat < 0x80 → d.isAlphanum = true → isPlain d.toNat = true :=
      fun {d} hd => Text.forall_ascii (p := fun d => d.isAlphanum = true → isPlain d.toNat = true)
        (by decide) hd
    rcases Percent.mem_encodeByte h with hpercent | ⟨hlt, hdigit⟩
    · exact Or.inr (Or.inl hpercent)
    · exact Or.inr (Or.inr ⟨hlt, halnum hlt hdigit⟩)

private theorem mem_encodeText {s : String} {c : Char} (h : c ∈ encodeText s) : IsTextChar c := by
  obtain ⟨b, -, hb⟩ := List.mem_flatMap.mp h
  exact mem_encodeByte hb

/-- Neither sign between texts is written for a text. -/
private theorem IsTextChar.ne {c : Char} (h : IsTextChar c) : c ≠ '&' ∧ c ≠ '=' := by
  rcases h with rfl | rfl | ⟨-, hplain⟩
  · decide
  · decide
  · refine ⟨?_, ?_⟩
    · rintro rfl
      exact absurd hplain (by decide)
    · rintro rfl
      exact absurd hplain (by decide)

private theorem IsTextChar.ascii {c : Char} (h : IsTextChar c) : c.toNat < 0x80 := by
  rcases h with rfl | rfl | ⟨hlt, -⟩
  · decide
  · decide
  · exact hlt

/-- Every character of a form is one of a text, or stands between two. -/
theorem mem_encode {pairs : List (String × String)} {c : Char} (h : c ∈ (encode pairs).toList) :
    c = '&' ∨ c = '=' ∨ c = '+' ∨ c = '%' ∨ (c.toNat < 0x80 ∧ isPlain c.toNat = true) := by
  have hpair : ∀ {p : String × String}, c ∈ encodePair p → c = '=' ∨ IsTextChar c := by
    intro p hc
    rcases List.mem_append.mp hc with hc | hc
    · exact Or.inr (mem_encodeText hc)
    rcases List.mem_cons.mp hc with hc | hc
    · exact Or.inl hc
    · exact Or.inr (mem_encodeText hc)
  rw [encode, String.toList_ofList] at h
  induction pairs with
  | nil => exact absurd h List.not_mem_nil
  | cons p rest ih =>
      cases rest with
      | nil =>
          rw [List.map_singleton, List.intercalate_singleton] at h
          exact Or.inr (hpair h)
      | cons q rest =>
          rw [List.map_cons, List.intercalate_cons_of_ne_nil (by simp)] at h
          rcases List.mem_append.mp h with h | h
          · rcases List.mem_append.mp h with h | h
            · exact Or.inr (hpair h)
            · exact Or.inl (List.mem_singleton.mp h)
          · exact ih h

private theorem byte_not_mem {cs : List Char} {c : Char} (hascii : ∀ d ∈ cs, d.toNat < 0x80)
    (hc : c.toNat < 0x80) (h : c ∉ cs) : Utf8.byte c.toNat ∉ Utf8.encodeChars cs := by
  rw [Utf8.encodeChars_of_ascii hascii]
  intro hmem
  obtain ⟨d, hd, hbyte⟩ := List.mem_map.mp hmem
  have hlt := hascii d hd
  have hnat : d.toNat = c.toNat := by
    rw [← Utf8.byte_toNat (by omega : d.toNat < 256), hbyte, Utf8.byte_toNat (by omega)]
  rw [Char.toNat_inj.mp hnat] at hd
  exact h hd

/-! ### One text -/

private def unplus (b : UInt8) : UInt8 := if b.toNat = 0x2B then 0x20 else b

private theorem unplus_escape (b : UInt8) :
    (Utf8.encodeChars (Percent.encodeByte b)).map unplus
      = Utf8.encodeChars (Percent.encodeByte b) := by
  rw [Utf8.encodeChars_of_ascii fun c hc => Percent.ascii_encodeByte hc, List.map_map]
  refine List.map_congr_left ?_
  intro c hc
  have hlt := Percent.ascii_encodeByte hc
  show unplus (Utf8.byte c.toNat) = _
  rw [unplus, Utf8.byte_toNat (by omega), if_neg]
  intro hplus
  obtain rfl : c = '+' := Char.toNat_inj.mp hplus
  rcases Percent.mem_encodeByte hc with h | ⟨-, halnum⟩
  · simp at h
  · simp at halnum

private theorem decode_encodeByte (b : UInt8) (rest : Bytes) :
    Percent.decode ((Utf8.encodeChars (encodeByte b)).map unplus ++ rest)
      = b :: Percent.decode rest := by
  unfold encodeByte
  split
  · next hspace =>
    have hb : b = 0x20 := UInt8.toNat_inj.mp hspace
    subst hb
    exact Percent.decodeExcept_plain _ (by decide) rest
  split
  · next hplain =>
    have hlt : b.toNat < 0x80 := by
      simp [isPlain, Percent.isOneOf] at hplain
      omega
    have hbytes : Utf8.encodeChars [Char.ofNat b.toNat] = [b] := by
      rw [Utf8.encodeChars_of_ascii (by
        simp only [List.mem_singleton]
        rintro c rfl
        rw [Utf8.toNat_ofNat hlt]
        exact hlt)]
      simp [Utf8.toNat_ofNat hlt, Utf8.byte]
    have hplus : b.toNat ≠ 0x2B := by
      intro h
      simp [isPlain, Percent.isOneOf, h] at hplain
    have hpercent : b.toNat ≠ 0x25 := by
      intro h
      simp [isPlain, Percent.isOneOf, h] at hplain
    rw [hbytes, List.map_singleton, unplus, if_neg hplus]
    exact Percent.decodeExcept_plain _ hpercent rest
  · rw [unplus_escape]
    exact Percent.decodeExcept_encodeByte _ b rest

private theorem decode_encodeBytes (bs : Bytes) :
    Percent.decode ((Utf8.encodeChars (bs.flatMap encodeByte)).map unplus) = bs := by
  induction bs with
  | nil => exact Percent.decodeExcept_nil _
  | cons b bs ih =>
      rw [List.flatMap_cons, Utf8.encodeChars_append, List.map_append, decode_encodeByte, ih]

/-- **A text in a form is read back.** -/
theorem decodeText_encodeText (s : String) : decodeText (Utf8.encodeChars (encodeText s)) = s := by
  show Utf8.lossy (Percent.decode ((Utf8.encodeChars (encodeText s)).map unplus)) = s
  rw [encodeText, decode_encodeBytes, Utf8.lossy_encode]

/-- A text of characters that stand for themselves is written as it is. -/
theorem encodeText_of_isPlain {s : String}
    (h : ∀ c ∈ s.toList, c.toNat < 0x80 ∧ isPlain c.toNat = true) : encodeText s = s.toList := by
  have hone : ∀ c ∈ s.toList, encodeByte (Utf8.byte c.toNat) = [c] := by
    intro c hc
    obtain ⟨hlt, hplain⟩ := h c hc
    have hbyte : (Utf8.byte c.toNat).toNat = c.toNat := Utf8.byte_toNat (by omega)
    have hspace : c.toNat ≠ 0x20 := by
      intro heq
      rw [heq] at hplain
      exact absurd hplain (by decide)
    rw [encodeByte, hbyte, if_neg hspace, if_pos hplain, Char.ofNat_toNat]
  have hall : ∀ cs : List Char, (∀ c ∈ cs, c ∈ s.toList) →
      (cs.map fun c => Utf8.byte c.toNat).flatMap encodeByte = cs := by
    intro cs hcs
    induction cs with
    | nil => rfl
    | cons c cs ih =>
        rw [List.map_cons, List.flatMap_cons, hone c (hcs c List.mem_cons_self),
          ih fun d hd => hcs d (List.mem_cons_of_mem c hd), List.singleton_append]
  rw [encodeText, Utf8.encode, Utf8.encodeChars_of_ascii fun c hc => (h c hc).1]
  exact hall s.toList fun c hc => hc

/-! ### Pairs -/

/-- A form with another one after it has the pairs of both. -/
theorem decode_append (as bs : Bytes) : decode (as ++ 0x26 :: bs) = decode as ++ decode bs := by
  unfold decode
  rw [List.splitOn_append_cons_self, List.filter_append, List.map_append]

private theorem encodeChars_encodePair (p : String × String) :
    Utf8.encodeChars (encodePair p)
      = Utf8.encodeChars (encodeText p.1) ++ 0x3D :: Utf8.encodeChars (encodeText p.2) := by
  rw [encodePair, Utf8.encodeChars_append]
  rfl

private theorem decode_encodePair (p : String × String) :
    decode (Utf8.encodeChars (encodePair p)) = [p] := by
  have hascii : ∀ c ∈ encodePair p, c.toNat < 0x80 := by
    intro c hc
    rcases List.mem_append.mp hc with h | h
    · exact (mem_encodeText h).ascii
    rcases List.mem_cons.mp h with rfl | h
    · decide
    · exact (mem_encodeText h).ascii
  have hamp : '&' ∉ encodePair p := by
    intro hc
    rcases List.mem_append.mp hc with h | h
    · exact (mem_encodeText h).ne.1 rfl
    rcases List.mem_cons.mp h with h | h
    · simp at h
    · exact (mem_encodeText h).ne.1 rfl
  have hequals : ∀ b ∈ Utf8.encodeChars (encodeText p.1), decide (b ≠ 0x3D) = true := by
    have h := byte_not_mem (c := '=') (fun d hd => (mem_encodeText hd).ascii) (by decide)
      (fun hc => (mem_encodeText hc).ne.2 rfl : '=' ∉ encodeText p.1)
    intro b hb
    refine decide_eq_true fun heq => h ?_
    rw [heq] at hb
    exact hb
  have hone : (Utf8.encodeChars (encodePair p)).splitOn 0x26 = [Utf8.encodeChars (encodePair p)] :=
    List.splitOn_eq_singleton (byte_not_mem hascii (by decide) hamp)
  have hpair : decodePair (Utf8.encodeChars (encodePair p)) = p := by
    rw [encodeChars_encodePair, decodePair, List.takeWhile_append_of_pos hequals,
      List.dropWhile_append_of_pos hequals]
    simp [decodeText_encodeText]
  have hne : Utf8.encodeChars (encodePair p) ≠ [] := by
    rw [encodeChars_encodePair]
    simp
  rw [decode, hone, List.filter_cons_of_pos (by simpa using hne), List.filter_nil,
    List.map_singleton, hpair]

/-- **A form reads back as its pairs.** -/
theorem decode_encode (pairs : List (String × String)) :
    decode (Utf8.encode (encode pairs)) = pairs := by
  rw [Utf8.encode, encode, String.toList_ofList]
  induction pairs with
  | nil => simp [decode, Utf8.encodeChars]
  | cons p rest ih =>
      cases rest with
      | nil => rw [List.map_singleton, List.intercalate_singleton, decode_encodePair]
      | cons q rest =>
          have hamp : Utf8.encodeChars ['&'] = [0x26] := rfl
          rw [List.map_cons, List.intercalate_cons_of_ne_nil (by simp), Utf8.encodeChars_append,
            Utf8.encodeChars_append, List.append_assoc, hamp, List.singleton_append, decode_append,
            decode_encodePair, ih]
          rfl

/-- A form has one byte for each of its characters. -/
theorem length_encode (pairs : List (String × String)) :
    (Utf8.encode (encode pairs)).length = (encode pairs).toList.length := by
  have hascii : ∀ c ∈ (encode pairs).toList, c.toNat < 0x80 := by
    intro c hc
    rcases mem_encode hc with rfl | rfl | htext
    · decide
    · decide
    · exact IsTextChar.ascii htext
  rw [Utf8.encode, Utf8.encodeChars_of_ascii hascii, List.length_map]

end ParameterManager.Form
