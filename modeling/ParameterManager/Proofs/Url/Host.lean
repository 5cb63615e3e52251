/-
No host of the web ends in a blank.

A blank at the end of a text goes through every stage of reading a host: it is no digit of an
escape, no byte of a longer sequence, and no full stop, and it stands for itself among the
characters of a name.  So it comes to be the end of the last label, where it is forbidden; in
a label that is written in ASCII it is no digit either.
-/
import ParameterManager.Proofs.Text.Basic
import ParameterManager.Proofs.Url.Percent
import ParameterManager.Url.Host

namespace ParameterManager

/-! ### Bytes -/

namespace Percent

private theorem escape?_concat {b : UInt8} (h : hexValue? b = none) (bs : Bytes) :
    escape? (bs ++ [b]) = (escape? bs).map fun e => (e.1, e.2 ++ [b]) := by
  rcases bs with _ | ⟨p, _ | ⟨x, _ | ⟨y, rest⟩⟩⟩
  · rfl
  · rfl
  · simp [escape?, h]
  · simp only [List.cons_append, escape?]
    split
    · split
      · rfl
      · rfl
    · rfl

/-- Decoding goes by the escape at the start, if there is one. -/
private theorem decodeExcept_cons (kept : Nat → Bool) (b : UInt8) (bs : Bytes) :
    decodeExcept kept (b :: bs) = match escape? (b :: bs) with
      | some (e, rest) =>
        if kept e.toNat then b :: decodeExcept kept bs else e :: decodeExcept kept rest
      | none => b :: decodeExcept kept bs := by
  rw [decodeExcept]
  split
  · next hfound => rw [hfound]
  · next hfound => rw [hfound]

/-- What is no digit at the end of some bytes is in no escape. -/
theorem decodeExcept_concat (kept : Nat → Bool) {b : UInt8} (h : hexValue? b = none) (bs : Bytes) :
    decodeExcept kept (bs ++ [b]) = decodeExcept kept bs ++ [b] := by
  induction bs using decodeExcept.induct kept with
  | case1 =>
      have hnone : escape? [b] = none := rfl
      rw [List.nil_append, decodeExcept_cons, hnone, decodeExcept_nil, List.nil_append]
  | case2 p bs e rest hfound hkept ih =>
      have hmore := escape?_concat h (p :: bs)
      rw [List.cons_append] at hmore ⊢
      rw [decodeExcept_cons, decodeExcept_cons, hmore, hfound]
      simp only [Option.map_some, if_pos hkept, ih, List.cons_append]
  | case3 p bs e rest hfound hkept ih =>
      have hmore := escape?_concat h (p :: bs)
      rw [List.cons_append] at hmore ⊢
      rw [decodeExcept_cons, decodeExcept_cons, hmore, hfound]
      simp only [Option.map_some, if_neg hkept, ih, List.cons_append]
  | case4 p bs hfound ih =>
      have hmore := escape?_concat h (p :: bs)
      rw [List.cons_append] at hmore ⊢
      rw [decodeExcept_cons, decodeExcept_cons, hmore, hfound]
      simp only [Option.map_none, ih, List.cons_append]

/-- Nothing is written for nothing only. -/
theorem eq_nil_of_encodeChars {set : Nat → Bool} {cs : List Char} (h : encodeChars set cs = []) :
    cs = [] := by
  have hbytes : Utf8.encodeChars cs = [] := List.eq_nil_iff_forall_not_mem.mpr fun b hb => by
    have hnone := List.flatMap_eq_nil_iff.mp h b hb
    split at hnone
    · exact absurd hnone (List.cons_ne_nil _ _)
    · exact absurd hnone (List.cons_ne_nil _ _)
  have hread := Utf8.lossy_encodeChars cs
  rw [hbytes, Utf8.lossy, Utf8.decode_nil] at hread
  exact (String.ofList_injective hread).symm

end Percent

namespace Utf8

private theorem secondRange_le (lead : Nat) : 0x80 ≤ (secondRange lead).1 := by
  unfold secondRange
  split
  · decide
  split
  · decide
  split
  · decide
  split
  · decide
  · decide

private theorem continuation_concat {b : UInt8} (h : b.toNat < 0x80) (bs : Bytes) (n : Nat)
    {range : Nat × Nat} (hrange : 0x80 ≤ range.1) :
    continuation n range (bs ++ [b]) = continuation n range bs := by
  induction bs generalizing n range with
  | nil =>
      cases n with
      | zero => rfl
      | succ n => exact if_neg fun hin => by omega
  | cons c bs ih =>
      cases n with
      | zero => rfl
      | succ n =>
          have hmore : continuation n (0x80, 0xBF) (bs ++ [b]) = continuation n (0x80, 0xBF) bs :=
            ih n (Nat.le_refl 0x80)
          simp only [List.cons_append, continuation, hmore]

private theorem length_continuation (bs : Bytes) (n : Nat) (range : Nat × Nat) :
    (continuation n range bs).length ≤ bs.length := by
  induction bs generalizing n range with
  | nil => cases n <;> exact Nat.le_refl 0
  | cons c bs ih =>
      cases n with
      | zero => exact Nat.zero_le _
      | succ n =>
          unfold continuation
          split
          · exact Nat.succ_le_succ (ih n (0x80, 0xBF))
          · exact Nat.zero_le _

/-- A byte of ASCII at the end of some bytes is a character of its own. -/
theorem decode_concat {b : UInt8} (h : b.toNat < 0x80) (bs : Bytes) :
    decode (bs ++ [b]) = decode bs ++ [.char (Char.ofNat b.toNat)] := by
  induction bs using decode.induct with
  | case1 =>
      have hself : byte b.toNat = b := UInt8.ofNat_toNat
      have hone := decode_encodeChar (Char.ofNat b.toNat) []
      rw [encodeChar_of_ascii (by rwa [toNat_ofNat h]), toNat_ofNat h, hself, decode_nil] at hone
      rw [List.nil_append, decode_nil]
      exact hone
  | case2 lead rest tail ih =>
      have htail : tailOf lead (rest ++ [b]) = tail :=
        continuation_concat h rest _ (secondRange_le lead.toNat)
      have hlength : tail.length ≤ rest.length := length_continuation ..
      rw [List.cons_append, decode, decode, htail, List.drop_append_of_le_length hlength, ih]
      rfl

private theorem strict_concat {c : Char} {ps : List Piece} {i : Nat} {cs : List Char}
    (h : strict i (ps ++ [.char c]) = .ok cs) : ∃ before, cs = before ++ [c] := by
  induction ps generalizing i cs with
  | nil => exact ⟨[], (Except.ok.inj h).symm⟩
  | cons p ps ih =>
      cases p with
      | malformed bs => simp [strict] at h
      | char d =>
          simp only [List.cons_append, strict] at h
          cases hrest : strict (i + width d) (ps ++ [.char c]) with
          | error e => simp [hrest, Except.map] at h
          | ok rest =>
              obtain ⟨before, rfl⟩ := ih hrest
              rw [hrest] at h
              exact ⟨d :: before, (Except.ok.inj h).symm⟩

/-- The text of bytes that end in ASCII ends in that character. -/
theorem text?_concat {b : UInt8} (h : b.toNat < 0x80) {bs : Bytes} {s : String}
    (hs : text? (bs ++ [b]) = some s) : ∃ before, s.toList = before ++ [Char.ofNat b.toNat] := by
  rw [text?, decode?, decode_concat h] at hs
  cases hread : strict 0 (decode bs ++ [.char (Char.ofNat b.toNat)]) with
  | error e => simp [hread, Except.map, Except.toOption] at hs
  | ok cs =>
      rw [hread] at hs
      obtain rfl : String.ofList cs = s := Option.some.inj hs
      rw [String.toList_ofList]
      exact strict_concat hread

end Utf8

/-! ### Labels -/

namespace Punycode

private theorem decodeDistance_concat {c : Char} (h : digitValue? c = none) {bias : Nat}
    {ds rest : List Char} {k weight sum distance : Nat}
    (hread : decodeDistance bias k weight sum (ds ++ [c]) = some (distance, rest)) :
    ∃ before, rest = before ++ [c] := by
  induction ds generalizing k weight sum with
  | nil => simp [decodeDistance, h] at hread
  | cons d ds ih =>
      simp only [List.cons_append, decodeDistance] at hread
      cases hd : digitValue? d with
      | none => simp [hd] at hread
      | some value =>
          simp only [hd, Option.bind_eq_bind, Option.bind_some] at hread
          split at hread
          · exact ⟨ds, (Prod.mk.inj (Option.some.inj hread)).2.symm⟩
          · exact ih hread

private theorem decodeFrom_concat {c : Char} (h : digitValue? c = none) (fuel : Nat)
    (ds : List Char) (n i bias : Nat) (label : List Char) :
    decodeFrom fuel (ds ++ [c]) n i bias label = none := by
  induction fuel generalizing ds n i bias label with
  | zero => cases ds <;> rfl
  | succ fuel ih =>
      rw [decodeFrom]
      · cases hread : decodeDistance bias 36 1 0 (ds ++ [c]) with
        | none => rfl
        | some found =>
            obtain ⟨distance, rest⟩ := found
            obtain ⟨before, rfl⟩ := decodeDistance_concat h hread
            simp only [Option.bind_eq_bind, Option.bind_some]
            split
            · rfl
            · exact ih ..
      · exact List.append_ne_nil_of_right_ne_nil ds (List.cons_ne_nil c [])

/-- Nothing is written in digits that ends in what is none. -/
theorem decode_concat {c : Char} (h : digitValue? c = none) (hsign : c ≠ '-') (cs : List Char) :
    decode (cs ++ [c]) = none := by
  have hdrop : (cs ++ [c]).reverse.dropWhile (· ≠ '-') = cs.reverse.dropWhile (· ≠ '-') := by
    rw [List.reverse_append, List.reverse_singleton, List.singleton_append,
      List.dropWhile_cons_of_pos (by simpa using hsign)]
  have htake : ((cs ++ [c]).reverse.takeWhile (· ≠ '-')).reverse
      = (cs.reverse.takeWhile (· ≠ '-')).reverse ++ [c] := by
    rw [List.reverse_append, List.reverse_singleton, List.singleton_append,
      List.takeWhile_cons_of_pos (by simpa using hsign), List.reverse_cons]
  dsimp only [decode]
  rw [hdrop, htake]
  split
  · exact decodeFrom_concat h ..
  · exact decodeFrom_concat h ..

end Punycode

namespace Host

/-! ### Blanks -/

/-- A property of the blanks that the ends of an address may have, one by one. -/
theorem blank_forall {p : Char → Prop} (h : ∀ n, n < 0x21 → p (Char.ofNat n)) {c : Char}
    (hc : c.toNat ≤ 0x20) : p c := by
  have hnumber := h c.toNat (Nat.lt_succ_of_le hc)
  rwa [Char.ofNat_toNat] at hnumber

/-- A blank is forbidden in a label. -/
private theorem asciiLabel?_concat {c : Char} (hc : c.toNat ≤ 0x20) (label : List Char) :
    asciiLabel? (label ++ [c]) = none := by
  have hunsound : isSound (label ++ [c]) = false := by
    have hforbidden : isForbidden c = true :=
      blank_forall (p := fun c => isForbidden c = true) (by decide) hc
    simp [isSound, hforbidden]
  unfold asciiLabel?
  split
  · next hmark =>
    -- the mark does not end in a blank, so the blank comes after it
    have hlong : 4 ≤ label.length := Nat.le_of_not_lt fun hshort => by
      have hall : (label ++ [c]).take 4 = label ++ [c] :=
        List.take_of_length_le (by rw [List.length_append, List.length_singleton]; omega)
      have hlast := congrArg List.getLast? (hall.symm.trans hmark)
      rw [List.getLast?_concat] at hlast
      obtain rfl : c = '-' := Option.some.inj hlast
      exact absurd hc (by decide)
    rw [List.drop_append_of_le_length hlong, Punycode.decode_concat
      (blank_forall (p := fun c => Punycode.digitValue? c = none) (by decide) hc)
      (blank_forall (p := fun c => c ≠ '-') (by decide) hc)]
  · rw [hunsound]
    rfl

private theorem asciiName?_concat {c : Char} (hc : c.toNat ≤ 0x20) (name : List Char) :
    asciiName? (name ++ [c]) = none := by
  have hself : mapChar c = [c] := blank_forall (p := fun c => mapChar c = [c]) (by decide) hc
  have hstop : c ≠ '.' := blank_forall (p := fun c => c ≠ '.') (by decide) hc
  obtain ⟨front, last, hlabels⟩ := Text.splitOn_concat hstop (name.flatMap mapChar)
  have hall : (name ++ [c]).flatMap mapChar = name.flatMap mapChar ++ [c] := by
    rw [List.flatMap_append, List.flatMap_singleton, hself]
  unfold asciiName?
  rw [hall, hlabels, List.mapM_append]
  cases front.mapM asciiLabel? with
  | none => rfl
  | some labels => simp [asciiLabel?_concat hc]

/-- **A text that ends in a blank is no host of the web.** -/
theorem parse_concat {c : Char} (hc : c.toNat ≤ 0x20) (cs : List Char) :
    ∃ e, parse (cs ++ [c]) = .error e := by
  unfold parse
  split
  · refine ⟨.invalidIpv6, if_neg ?_⟩
    rw [List.getLast?_concat]
    exact blank_forall (p := fun c => ¬some c = some ']') (by decide) hc
  · have hbyte : (Utf8.byte c.toNat).toNat = c.toNat := Utf8.byte_toNat (by omega)
    have hbytes : Utf8.encodeChars (cs ++ [c]) = Utf8.encodeChars cs ++ [Utf8.byte c.toNat] := by
      have hascii : ∀ d ∈ [c], d.toNat < 0x80 := by
        intro d hd
        obtain rfl := List.mem_singleton.mp hd
        omega
      rw [Utf8.encodeChars_append, Utf8.encodeChars_of_ascii hascii, List.map_singleton]
    have hdigit : Percent.hexValue? (Utf8.byte c.toNat) = none := by
      simp only [Percent.hexValue?, hbyte]
      rw [if_neg (by omega), if_neg (by omega), if_neg (by omega)]
    rw [hbytes, Percent.decode, Percent.decodeExcept_concat _ hdigit]
    split
    · exact ⟨_, rfl⟩
    · next name hname =>
      obtain ⟨before, hbefore⟩ := Utf8.text?_concat (by omega) hname
      rw [hbyte, Char.ofNat_toNat] at hbefore
      rw [hbefore, asciiName?_concat hc]
      exact ⟨_, rfl⟩

/-- Blanks after a host of another kind belong to it, unless it stands in brackets or one of them
is forbidden. -/
theorem parseOpaque_append {cs blanks : List Char} {host : Host} (h : parseOpaque cs = .ok host)
    (hne : blanks ≠ []) (hblanks : ∀ c ∈ blanks, c.toNat ≤ 0x20) :
    (∃ host, parseOpaque (cs ++ blanks) = .ok host) ↔
      cs.head? ≠ some '[' ∧ ∀ c ∈ blanks, c ∉ opaqueForbidden := by
  have hbracket : ∀ c ∈ blanks, c ≠ '[' ∧ c ≠ ']' := fun c hc =>
    blank_forall (p := fun c => c ≠ '[' ∧ c ≠ ']') (by decide) (hblanks c hc)
  by_cases hhead : cs.head? = some '['
  · have hhead' : (cs ++ blanks).head? = some '[' := by rw [List.head?_append, hhead]; rfl
    have hlast : (cs ++ blanks).getLast? ≠ some ']' := by
      rw [List.getLast?_append, List.getLast?_eq_some_getLast hne, Option.some_or]
      exact fun hlast => (hbracket _ (List.getLast_mem hne)).2 (Option.some.inj hlast)
    have hnone : parseOpaque (cs ++ blanks) = .error .invalidIpv6 := by
      rw [parseOpaque, if_pos hhead', parseBracketed, if_neg hlast]
    simp [hnone, hhead]
  · have hhead' : (cs ++ blanks).head? ≠ some '[' := by
      cases cs with
      | cons c cs => exact hhead
      | nil =>
          rw [List.nil_append, List.head?_eq_some_head hne]
          exact fun hfirst => (hbracket _ (List.head_mem hne)).1 (Option.some.inj hfirst)
    have hfront : cs.any opaqueForbidden.contains = false := by
      rw [Bool.eq_false_iff]
      intro hany
      rw [parseOpaque, if_neg hhead, if_pos hany] at h
      simp at h
    rw [parseOpaque, if_neg hhead', List.any_append, hfront, Bool.false_or]
    split
    · next hany =>
      obtain ⟨c, hc, hforbidden⟩ := List.any_eq_true.mp hany
      constructor
      · rintro ⟨host', hok⟩
        simp at hok
      · rintro ⟨-, hall⟩
        exact absurd (List.contains_iff_mem.mp hforbidden) (hall c hc)
    · next hnone =>
      refine ⟨fun _ => ⟨hhead, fun c hc hforbidden => hnone ?_⟩, fun _ => ⟨_, rfl⟩⟩
      exact List.any_eq_true.mpr ⟨c, hc, List.contains_iff_mem.mpr hforbidden⟩

private theorem parseBracketed_ne_empty (cs : List Char) :
    parseBracketed cs ≠ .ok (.domain "") := by
  unfold parseBracketed
  split
  · split
    · simp
    · simp
  · simp

/-- A host of the web is not empty. -/
theorem parse_ne_empty (cs : List Char) : parse cs ≠ .ok (.domain "") := by
  unfold parse
  split
  · exact parseBracketed_ne_empty cs
  split
  · simp
  split
  · simp
  · simp
  · next ascii hne _ =>
    split
    · split
      · simp
      · simp
    · intro hempty
      have hascii : String.ofList ascii = "" := Host.domain.inj (Except.ok.inj hempty)
      exact hne (by simpa using hascii)

/-- A host of another kind is empty only if its text is. -/
theorem parseOpaque_ne_empty {cs : List Char} (h : cs ≠ []) :
    parseOpaque cs ≠ .ok (.domain "") := by
  unfold parseOpaque
  split
  · exact parseBracketed_ne_empty cs
  split
  · simp
  · intro hempty
    have hchars : String.ofList (Percent.encodeChars Percent.isControl cs) = "" :=
      Host.domain.inj (Except.ok.inj hempty)
    exact h (Percent.eq_nil_of_encodeChars (by simpa using hchars))

end Host

end ParameterManager
