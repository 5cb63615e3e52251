/-
Encoded text is read back.

`decode` looks for the longest well-formed sequence at each place.  On the bytes that
`encodeChar` writes it finds exactly the lead byte and the continuation bytes of that
character, whatever follows, so a whole text comes back character by character and
`lossy` has nothing to replace.

The four lengths of a sequence are four lemmas, since each has ranges of its own.  In
every one of them the work is the same: the lead byte asks for as many bytes as there
are, those lie in their ranges, and their digits in base sixty-four are the number.
-/
import ParameterManager.Text.Utf8

namespace ParameterManager.Utf8

theorem byte_toNat {n : Nat} (h : n < 256) : (byte n).toNat = n := by
  simp [byte, Nat.mod_eq_of_lt h]

/-- The numbers of characters are all but those of surrogates. -/
theorem toNat_range (c : Char) : c.toNat < 0xD800 ∨ (0xDFFF < c.toNat ∧ c.toNat < 0x110000) :=
  c.valid

/-! ### One sequence -/

private theorem continuation_zero (range : Nat × Nat) (bs : Bytes) :
    continuation 0 range bs = [] := by
  unfold continuation
  rfl

private theorem continuation_cons {n : Nat} {range : Nat × Nat} {b : UInt8} {bs : Bytes}
    (h : range.1 ≤ b.toNat ∧ b.toNat ≤ range.2) :
    continuation (n + 1) range (b :: bs) = b :: continuation n (0x80, 0xBF) bs := by
  rw [continuation, if_pos h]

/-- A lead byte with all the bytes that have to follow it is a character. -/
private theorem decode_sequence (b : UInt8) (tail rest : Bytes)
    (hlen : following? b.toNat = some tail.length)
    (htail : continuation tail.length (secondRange b.toNat) (tail ++ rest) = tail) :
    decode (b :: (tail ++ rest)) = .char (Char.ofNat (codePoint b.toNat tail)) :: decode rest := by
  have hfound : tailOf b (tail ++ rest) = tail := by rw [tailOf, hlen]; exact htail
  rw [decode, hfound, pieceOf, if_pos hlen, List.drop_left]

private theorem decode_one {n : Nat} (hn : n < 0x80) (rest : Bytes) :
    decode (byte n :: rest) = .char (Char.ofNat n) :: decode rest := by
  have hb : (byte n).toNat = n := byte_toNat (by omega)
  have h := decode_sequence (byte n) [] rest
    (by rw [hb, following?, if_pos hn]; rfl) (continuation_zero ..)
  rw [hb] at h
  exact h

private theorem decode_two {n : Nat} (hlo : 0x80 ≤ n) (hhi : n < 0x800) (rest : Bytes) :
    decode (byte (0xC0 + n / 64) :: byte (0x80 + n % 64) :: rest)
      = .char (Char.ofNat n) :: decode rest := by
  have hb : (byte (0xC0 + n / 64)).toNat = 0xC0 + n / 64 := byte_toNat (by omega)
  have hb1 : (byte (0x80 + n % 64)).toNat = 0x80 + n % 64 := byte_toNat (by omega)
  have hpoint : codePoint (0xC0 + n / 64) [byte (0x80 + n % 64)] = n := by
    simp only [codePoint, List.length_singleton, List.foldl_cons, List.foldl_nil, hb1]
    omega
  have h := decode_sequence (byte (0xC0 + n / 64)) [byte (0x80 + n % 64)] rest
    (by rw [hb]; simp only [following?]; grind) (by
      rw [List.length_singleton, List.singleton_append, continuation_cons, continuation_zero]
      rw [hb, hb1]
      simp only [secondRange]
      grind)
  rw [hb, hpoint] at h
  exact h

private theorem decode_three {n : Nat} (hlo : 0x800 ≤ n) (hhi : n < 0x10000)
    (hgap : n < 0xD800 ∨ 0xDFFF < n) (rest : Bytes) :
    decode (byte (0xE0 + n / 4096) :: byte (0x80 + n / 64 % 64) :: byte (0x80 + n % 64) :: rest)
      = .char (Char.ofNat n) :: decode rest := by
  have hb : (byte (0xE0 + n / 4096)).toNat = 0xE0 + n / 4096 := byte_toNat (by omega)
  have hb1 : (byte (0x80 + n / 64 % 64)).toNat = 0x80 + n / 64 % 64 := byte_toNat (by omega)
  have hb2 : (byte (0x80 + n % 64)).toNat = 0x80 + n % 64 := byte_toNat (by omega)
  have hpoint : codePoint (0xE0 + n / 4096) [byte (0x80 + n / 64 % 64), byte (0x80 + n % 64)]
      = n := by
    simp only [codePoint, List.length_cons, List.length_nil, List.foldl_cons, List.foldl_nil, hb1,
      hb2]
    omega
  have h := decode_sequence (byte (0xE0 + n / 4096))
    [byte (0x80 + n / 64 % 64), byte (0x80 + n % 64)] rest
    (by rw [hb]; simp only [following?]; grind) (by
      simp only [List.length_cons, List.length_nil, List.cons_append, List.nil_append]
      rw [continuation_cons, continuation_cons, continuation_zero]
      · rw [hb2]
        omega
      · -- the second byte keeps clear of short forms and of surrogates
        rw [hb, hb1]
        simp only [secondRange]
        grind)
  rw [hb, hpoint] at h
  exact h

private theorem decode_four {n : Nat} (hlo : 0x10000 ≤ n) (hhi : n < 0x110000) (rest : Bytes) :
    decode (byte (0xF0 + n / 262144) :: byte (0x80 + n / 4096 % 64) :: byte (0x80 + n / 64 % 64) ::
        byte (0x80 + n % 64) :: rest)
      = .char (Char.ofNat n) :: decode rest := by
  have hb : (byte (0xF0 + n / 262144)).toNat = 0xF0 + n / 262144 := byte_toNat (by omega)
  have hb1 : (byte (0x80 + n / 4096 % 64)).toNat = 0x80 + n / 4096 % 64 := byte_toNat (by omega)
  have hb2 : (byte (0x80 + n / 64 % 64)).toNat = 0x80 + n / 64 % 64 := byte_toNat (by omega)
  have hb3 : (byte (0x80 + n % 64)).toNat = 0x80 + n % 64 := byte_toNat (by omega)
  have hpoint : codePoint (0xF0 + n / 262144)
      [byte (0x80 + n / 4096 % 64), byte (0x80 + n / 64 % 64), byte (0x80 + n % 64)] = n := by
    simp only [codePoint, List.length_cons, List.length_nil, List.foldl_cons, List.foldl_nil, hb1,
      hb2, hb3]
    omega
  have h := decode_sequence (byte (0xF0 + n / 262144))
    [byte (0x80 + n / 4096 % 64), byte (0x80 + n / 64 % 64), byte (0x80 + n % 64)] rest
    (by rw [hb]; simp only [following?]; grind) (by
      simp only [List.length_cons, List.length_nil, List.cons_append, List.nil_append]
      rw [continuation_cons, continuation_cons, continuation_cons, continuation_zero]
      · rw [hb3]
        omega
      · rw [hb2]
        omega
      · rw [hb, hb1]
        simp only [secondRange]
        grind)
  rw [hb, hpoint] at h
  exact h

/-! ### Whole texts -/

theorem decode_nil : decode [] = [] := by
  rw [decode]

theorem decode_encodeChar (c : Char) (rest : Bytes) :
    decode (encodeChar c ++ rest) = .char c :: decode rest := by
  have hc := toNat_range c
  have hself : Char.ofNat c.toNat = c := Char.ofNat_toNat c
  simp only [encodeChar]
  by_cases h1 : c.toNat < 0x80
  · rw [if_pos h1, List.singleton_append, decode_one h1, hself]
  rw [if_neg h1]
  by_cases h2 : c.toNat < 0x800
  · rw [if_pos h2]
    simp only [List.cons_append, List.nil_append]
    rw [decode_two (by omega) h2, hself]
  rw [if_neg h2]
  by_cases h3 : c.toNat < 0x10000
  · rw [if_pos h3]
    simp only [List.cons_append, List.nil_append]
    rw [decode_three (by omega) h3 (by omega), hself]
  · rw [if_neg h3]
    simp only [List.cons_append, List.nil_append]
    rw [decode_four (by omega) (by omega), hself]

theorem decode_encodeChars_append (cs : List Char) (rest : Bytes) :
    decode (encodeChars cs ++ rest) = cs.map .char ++ decode rest := by
  induction cs with
  | nil => rfl
  | cons c cs ih =>
      show decode ((encodeChar c ++ encodeChars cs) ++ rest) = _
      rw [List.append_assoc, decode_encodeChar, ih]
      rfl

/-- **The bytes of a text are read as its characters.** -/
theorem decode_encode (s : String) : decode (encode s) = pieces s := by
  have h := decode_encodeChars_append s.toList []
  rw [List.append_nil, decode_nil, List.append_nil] at h
  exact h

theorem lossy_encodeChars (cs : List Char) : lossy (encodeChars cs) = String.ofList cs := by
  have h := decode_encodeChars_append cs []
  rw [List.append_nil, decode_nil, List.append_nil] at h
  have hshown : Piece.shown ∘ Piece.char = id := rfl
  rw [lossy, h, List.map_map, hshown, List.map_id]

/-- **Nothing is replaced in the bytes of a text.** -/
theorem lossy_encode (s : String) : lossy (encode s) = s := by
  rw [encode, lossy_encodeChars, String.ofList_toList]

private theorem strict_chars (cs : List Char) (i : Nat) : strict i (cs.map .char) = .ok cs := by
  induction cs generalizing i with
  | nil => rfl
  | cons c cs ih =>
      rw [List.map_cons, strict, ih]
      rfl

/-- The bytes of a text are not malformed. -/
theorem decode?_encode (s : String) : decode? (encode s) = .ok s := by
  rw [decode?, decode_encode, pieces, strict_chars]
  exact congrArg Except.ok String.ofList_toList

/-- The bytes of a text are UTF-8. -/
theorem text?_encode (s : String) : text? (encode s) = some s := by
  rw [text?, decode?, decode_encode, pieces, strict_chars]
  exact congrArg some String.ofList_toList

/-! ### Nothing is lost

Every piece covers its own bytes, so bytes that have a text are the bytes of that text.
-/

/-- A byte that may stand after the first two of a sequence. -/
private def Continues (b : UInt8) : Prop := 0x80 ≤ b.toNat ∧ b.toNat ≤ 0xBF

private theorem byte_eq {b : UInt8} {n : Nat} (h : n = b.toNat) : byte n = b := by
  rw [h, byte, UInt8.ofNat_toNat]

private theorem toNat_ofNat_of_range {n : Nat}
    (h : n < 0xD800 ∨ (0xDFFF < n ∧ n < 0x110000)) : (Char.ofNat n).toNat = n := by
  rw [Char.ofNat, dif_pos h]
  rfl

private theorem encodeChar_two {b c : UInt8} (hb : 0xC2 ≤ b.toNat ∧ b.toNat < 0xE0)
    (hc : Continues c) : encodeChar (Char.ofNat (codePoint b.toNat [c])) = [b, c] := by
  obtain ⟨hclo, hchi⟩ := hc
  generalize hn : codePoint b.toNat [c] = n
  simp only [codePoint, List.length_singleton, List.foldl_cons, List.foldl_nil] at hn
  rw [encodeChar, toNat_ofNat_of_range (by omega), if_neg (by omega), if_pos (by omega)]
  rw [byte_eq (b := b) (by omega), byte_eq (b := c) (by omega)]

private theorem encodeChar_three {b c d : UInt8} (hb : 0xE0 ≤ b.toNat ∧ b.toNat < 0xF0)
    (hc : (secondRange b.toNat).1 ≤ c.toNat ∧ c.toNat ≤ (secondRange b.toNat).2)
    (hd : Continues d) : encodeChar (Char.ofNat (codePoint b.toNat [c, d])) = [b, c, d] := by
  -- the second byte keeps clear of short forms and of surrogates
  have hc : Continues c ∧ (b.toNat = 0xE0 → 0xA0 ≤ c.toNat) ∧
      (b.toNat = 0xED → c.toNat ≤ 0x9F) := by
    simp only [secondRange] at hc
    unfold Continues
    grind
  obtain ⟨⟨hclo, hchi⟩, hshort, hsurrogate⟩ := hc
  obtain ⟨hdlo, hdhi⟩ := hd
  generalize hn : codePoint b.toNat [c, d] = n
  simp only [codePoint, List.length_cons, List.length_nil, List.foldl_cons, List.foldl_nil] at hn
  rw [encodeChar, toNat_ofNat_of_range (by omega), if_neg (by omega), if_neg (by omega),
    if_pos (by omega)]
  rw [byte_eq (b := b) (by omega), byte_eq (b := c) (by omega), byte_eq (b := d) (by omega)]

private theorem encodeChar_four {b c d e : UInt8} (hb : 0xF0 ≤ b.toNat ∧ b.toNat < 0xF5)
    (hc : (secondRange b.toNat).1 ≤ c.toNat ∧ c.toNat ≤ (secondRange b.toNat).2)
    (hd : Continues d) (he : Continues e) :
    encodeChar (Char.ofNat (codePoint b.toNat [c, d, e])) = [b, c, d, e] := by
  have hc : Continues c ∧ (b.toNat = 0xF0 → 0x90 ≤ c.toNat) ∧
      (b.toNat = 0xF4 → c.toNat ≤ 0x8F) := by
    simp only [secondRange] at hc
    unfold Continues
    grind
  obtain ⟨⟨hclo, hchi⟩, hshort, hlast⟩ := hc
  obtain ⟨hdlo, hdhi⟩ := hd
  obtain ⟨helo, hehi⟩ := he
  generalize hn : codePoint b.toNat [c, d, e] = n
  simp only [codePoint, List.length_cons, List.length_nil, List.foldl_cons, List.foldl_nil] at hn
  rw [encodeChar, toNat_ofNat_of_range (by omega), if_neg (by omega), if_neg (by omega),
    if_neg (by omega)]
  rw [byte_eq (b := b) (by omega), byte_eq (b := c) (by omega), byte_eq (b := d) (by omega),
    byte_eq (b := e) (by omega)]

/-- A lead byte with all the bytes that have to follow it are the bytes of their character. -/
private theorem encodeChar_codePoint {b : UInt8} {tail : Bytes}
    (hlen : following? b.toNat = some tail.length)
    (hsecond : ∀ c, tail.head? = some c →
      (secondRange b.toNat).1 ≤ c.toNat ∧ c.toNat ≤ (secondRange b.toNat).2)
    (hothers : ∀ c ∈ tail.tail, Continues c) :
    encodeChar (Char.ofNat (codePoint b.toNat tail)) = b :: tail := by
  match tail with
  | [] =>
    have hb : b.toNat < 0x80 := by
      simp only [following?, List.length_nil] at hlen
      grind
    have hpoint : codePoint b.toNat [] = b.toNat := rfl
    rw [hpoint, encodeChar, toNat_ofNat_of_range (.inl (by omega)), if_pos hb, byte_eq rfl]
  | [c] =>
    have hb : 0xC2 ≤ b.toNat ∧ b.toNat < 0xE0 := by
      simp only [following?, List.length_cons, List.length_nil] at hlen
      grind
    refine encodeChar_two hb ?_
    have hc := hsecond c rfl
    simp only [secondRange] at hc
    unfold Continues
    grind
  | [c, d] =>
    have hb : 0xE0 ≤ b.toNat ∧ b.toNat < 0xF0 := by
      simp only [following?, List.length_cons, List.length_nil] at hlen
      grind
    exact encodeChar_three hb (hsecond c rfl) (hothers d (by simp))
  | [c, d, e] =>
    have hb : 0xF0 ≤ b.toNat ∧ b.toNat < 0xF5 := by
      simp only [following?, List.length_cons, List.length_nil] at hlen
      grind
    exact encodeChar_four hb (hsecond c rfl) (hothers d (by simp)) (hothers e (by simp))
  | c :: d :: e :: f :: rest =>
    simp only [following?, List.length_cons] at hlen
    grind

private theorem continues_of_mem {n : Nat} {bs : Bytes} {b : UInt8}
    (h : b ∈ continuation n (0x80, 0xBF) bs) : Continues b := by
  induction n generalizing bs with
  | zero => simp [continuation_zero] at h
  | succ n ih =>
      cases bs with
      | nil => simp [continuation] at h
      | cons c bs =>
          rw [continuation] at h
          split at h
          · next hrange =>
            rcases List.mem_cons.mp h with rfl | h
            · exact hrange
            · exact ih h
          · simp at h

private theorem continuation_append_drop (n : Nat) (range : Nat × Nat) (bs : Bytes) :
    continuation n range bs ++ bs.drop (continuation n range bs).length = bs := by
  fun_induction continuation n range bs with
  | case1 range n b bs _ ih => rw [List.length_cons, List.drop_succ_cons, List.cons_append, ih]
  | case2 => rfl
  | case3 => rfl

/-- A piece covers the bytes that it is made of. -/
private theorem bytes_pieceOf (b : UInt8) (rest : Bytes) :
    (pieceOf b (tailOf b rest)).bytes = b :: tailOf b rest := by
  rw [pieceOf]
  split
  · next hlen =>
    refine encodeChar_codePoint hlen ?_ ?_
    · intro c hc
      rw [tailOf, continuation.eq_def] at hc
      split at hc
      · split at hc
        · next hrange => exact Option.some.inj hc ▸ hrange
        · simp at hc
      · simp at hc
    · intro c hc
      rw [tailOf, continuation.eq_def] at hc
      split at hc
      · split at hc
        · exact continues_of_mem hc
        · simp at hc
      · simp at hc
  · rfl

/-- **Pieces cover all bytes.** -/
theorem bytes_decode (bs : Bytes) : (decode bs).flatMap Piece.bytes = bs := by
  fun_induction decode bs with
  | case1 => rfl
  | case2 b rest tail ih =>
      rw [List.flatMap_cons, ih, bytes_pieceOf, List.cons_append]
      exact congrArg (b :: ·) (continuation_append_drop _ _ rest)

private theorem eq_chars_of_strict {ps : List Piece} {i : Nat} {cs : List Char}
    (h : strict i ps = .ok cs) : ps = cs.map .char := by
  induction ps generalizing i cs with
  | nil =>
      obtain rfl := Except.ok.inj h
      rfl
  | cons p ps ih =>
      cases p with
      | malformed bs => simp [strict] at h
      | char c =>
          rw [strict] at h
          cases hrest : strict (i + width c) ps with
          | error e => simp [hrest, Except.map] at h
          | ok ds =>
              rw [hrest] at h
              obtain rfl := Except.ok.inj h
              rw [ih hrest, List.map_cons]

/-- **Bytes that have a text are its bytes.** -/
theorem encode_of_text? {bs : Bytes} {s : String} (h : text? bs = some s) : encode s = bs := by
  rw [text?, decode?] at h
  cases hchars : strict 0 (decode bs) with
  | error e => simp [hchars, Except.map, Except.toOption] at h
  | ok cs =>
      rw [hchars] at h
      obtain rfl := Option.some.inj h
      have hbytes := bytes_decode bs
      rw [eq_chars_of_strict hchars, List.flatMap_map] at hbytes
      rw [encode, String.toList_ofList]
      exact hbytes

/-! ### ASCII -/

theorem toNat_ofNat {n : Nat} (h : n < 0x80) : (Char.ofNat n).toNat = n :=
  toNat_ofNat_of_range (.inl (by omega))

theorem encodeChar_of_ascii {c : Char} (h : c.toNat < 0x80) : encodeChar c = [byte c.toNat] := by
  simp only [encodeChar, if_pos h]

/-- The bytes of a character outside ASCII are outside ASCII. -/
theorem le_of_mem_encodeChar {c : Char} (hc : 0x80 ≤ c.toNat) {b : UInt8}
    (hb : b ∈ encodeChar c) : 0x80 ≤ b.toNat := by
  have hrange := toNat_range c
  simp only [encodeChar, if_neg (Nat.not_lt.mpr hc)] at hb
  split at hb
  · simp only [List.mem_cons, List.not_mem_nil, or_false] at hb
    rcases hb with rfl | rfl
    · rw [byte_toNat (by omega)]; omega
    · rw [byte_toNat (by omega)]; omega
  split at hb
  · simp only [List.mem_cons, List.not_mem_nil, or_false] at hb
    rcases hb with rfl | rfl | rfl
    · rw [byte_toNat (by omega)]; omega
    · rw [byte_toNat (by omega)]; omega
    · rw [byte_toNat (by omega)]; omega
  · simp only [List.mem_cons, List.not_mem_nil, or_false] at hb
    rcases hb with rfl | rfl | rfl | rfl
    · rw [byte_toNat (by omega)]; omega
    · rw [byte_toNat (by omega)]; omega
    · rw [byte_toNat (by omega)]; omega
    · rw [byte_toNat (by omega)]; omega

theorem encodeChars_append (cs ds : List Char) :
    encodeChars (cs ++ ds) = encodeChars cs ++ encodeChars ds := List.flatMap_append

theorem encodeChars_of_ascii {cs : List Char} (h : ∀ c ∈ cs, c.toNat < 0x80) :
    encodeChars cs = cs.map fun c => byte c.toNat := by
  induction cs with
  | nil => rfl
  | cons c cs ih =>
      show encodeChar c ++ encodeChars cs = _
      rw [encodeChar_of_ascii (h c List.mem_cons_self),
        ih fun d hd => h d (List.mem_cons_of_mem _ hd)]
      rfl

end ParameterManager.Utf8
