/-
The address of a server on this machine.

Such an address is `http://127.0.0.1:` and a port.  It is read as it is written, alone
and with the version of the interface after it; the usual port counts as none at all.
The parts of the address that do not depend on the port are computed, and the port comes
back because decimal digits do.
-/
import ParameterManager.Client
import ParameterManager.Proofs.Text.Basic

namespace ParameterManager.Url

open Text (ne_of_isDigit)

/-- The number of the address on which a machine talks to itself. -/
def loopback : Host := .ipv4 0x7F000001

/-- The address of a server on this machine. -/
def localText (port : UInt16) : String := "http://127.0.0.1:" ++ toString port.toNat

/-- The same address, read, with some segments of a path. -/
def localUrl (port : UInt16) (segments : List String) : Url where
  scheme := "http"
  host := some loopback
  port := if port.toNat = 80 then none else some port.toNat
  path := .segments segments

/-- The place that such an address leads to. -/
def localOrigin (port : UInt16) : Origin := ⟨false, loopback, port.toNat⟩

/-! ### Digits -/

private def digits (port : UInt16) : List Char := Nat.toDigits 10 port.toNat

private theorem isDigit_of_mem {port : UInt16} {c : Char} (h : c ∈ digits port) :
    c.isDigit = true := Text.isDigit_of_mem_digits h

private theorem digit_range {c : Char} (h : c.isDigit = true) :
    0x30 ≤ c.toNat ∧ c.toNat ≤ 0x39 := by
  simp only [Char.isDigit, Bool.and_eq_true, decide_eq_true_eq, UInt32.le_iff_toNat_le] at h
  exact h

private theorem digitValue_of_isDigit {c : Char} (h : c.isDigit = true) :
    Host.digitValue c = c.toNat - 0x30 := by
  have hrange := digit_range h
  have hchar : '0' ≤ c ∧ c ≤ '9' := ⟨hrange.1, hrange.2⟩
  rw [Host.digitValue, if_pos hchar]

private theorem valueOf_digits (port : UInt16) : Host.valueOf 10 (digits port) = port.toNat := by
  have hfold : ∀ (ds : List Char) (n : Nat), (∀ c ∈ ds, c.isDigit = true) →
      ds.foldl (fun n d => n * 10 + Host.digitValue d) n = Nat.ofDigitChars 10 ds n := by
    intro ds
    induction ds with
    | nil => intro n _; rfl
    | cons d ds ih =>
        intro n h
        rw [List.foldl_cons, Nat.ofDigitChars_cons,
          ih _ fun c hc => h c (List.mem_cons_of_mem _ hc),
          digitValue_of_isDigit (h d List.mem_cons_self), Nat.mul_comm]
        rfl
  rw [Host.valueOf, hfold _ _ fun c hc => isDigit_of_mem hc]
  exact Nat.ofDigitChars_ten_toDigits

private theorem digits_ne_nil (port : UInt16) : digits port ≠ [] := Nat.toDigits_ne_nil

/-! ### Writing -/

/-- The usual port is not written. -/
theorem authority_localUrl (port : UInt16) (segments : List String) :
    (localUrl port segments).authority loopback
      = loopback.text ++ if port.toNat = 80 then "" else ":" ++ toString port.toNat := by
  by_cases h80 : port.toNat = 80
  · have hport : (localUrl port segments).port = none := if_pos h80
    have hparts : (localUrl port segments).authority loopback = "" ++ loopback.text ++ "" := by
      unfold authority
      rw [hport]
      rfl
    rw [hparts, if_pos h80, String.empty_append]
  · have hport : (localUrl port segments).port = some port.toNat := if_neg h80
    have hparts : (localUrl port segments).authority loopback
        = "" ++ loopback.text ++ (":" ++ toString port.toNat) := by
      unfold authority
      rw [hport]
      rfl
    rw [hparts, if_neg h80, String.empty_append]

/-! ### Reading -/

/-- A fixed text has no blanks and controls if none is found in it. -/
private theorem range_of_all {cs : List Char} (h : cs.all (fun c => 0x20 < c.toNat) = true) :
    ∀ c ∈ cs, 0x20 < c.toNat := by
  intro c hc
  simpa using List.all_eq_true.mp h c hc

private theorem clean_eq_self {s : String} (h : ∀ c ∈ s.toList, 0x20 < c.toNat) :
    clean s = s.toList := by
  have hpad : ∀ {c}, c ∈ s.toList → isPadding c = false := by
    intro c hc
    have := h c hc
    rw [isPadding, decide_eq_false_iff_not]
    omega
  have hdrop : ∀ cs : List Char, (∀ c ∈ cs, c ∈ s.toList) → cs.dropWhile isPadding = cs := by
    intro cs hcs
    cases cs with
    | nil => rfl
    | cons c cs =>
        rw [List.dropWhile_cons_of_neg]
        rw [hpad (hcs c List.mem_cons_self)]
        simp
  have hkeep : ∀ c ∈ s.toList, (!isLeftOut c) = true := by
    intro c hc
    have hgt := h c hc
    rw [Bool.not_eq_true', Bool.eq_false_iff]
    intro hout
    simp only [isLeftOut, Bool.or_eq_true, beq_iff_eq] at hout
    rcases hout with (rfl | rfl) | rfl <;> simp at hgt
  rw [clean, hdrop _ fun c hc => hc, hdrop _ fun c hc => List.mem_reverse.mp hc,
    List.reverse_reverse, List.filter_eq_self.mpr hkeep]

/-- What may follow the port: nothing, the version of the interface, or the endpoint that gives
tokens. -/
private def IsAfter (after : List Char) : Prop :=
  after = [] ∨ after = ['/', 'v', '1'] ∨ after = ['/', 't', 'o', 'k', 'e', 'n']

private theorem takeWhile_digits {p : Char → Bool} (port : UInt16) {after : List Char}
    (hp : ∀ c, c.isDigit = true → p c = true) (hafter : after.takeWhile p = []) :
    (digits port ++ after).takeWhile p = digits port := by
  rw [List.takeWhile_append_of_pos fun c hc => hp c (isDigit_of_mem hc), hafter, List.append_nil]

private theorem dropWhile_digits {p : Char → Bool} (port : UInt16) {after : List Char}
    (hp : ∀ c, c.isDigit = true → p c = true) (hafter : after.dropWhile p = after) :
    (digits port ++ after).dropWhile p = after := by
  rw [List.dropWhile_append_of_pos fun c hc => hp c (isDigit_of_mem hc), hafter]

private theorem parsePort_digits (port : UInt16) {after : List Char} (hafter : IsAfter after) :
    parsePort true (digits port ++ after) = .ok (some port.toNat, after) := by
  have htake : (digits port ++ after).takeWhile Char.isDigit = digits port :=
    takeWhile_digits port (fun c hc => hc) (by rcases hafter with rfl | rfl | rfl <;> decide)
  have hdrop : (digits port ++ after).dropWhile Char.isDigit = after :=
    dropWhile_digits port (fun c hc => hc) (by rcases hafter with rfl | rfl | rfl <;> decide)
  have hsmall : ¬65535 < port.toNat := by
    have := port.toNat_lt
    omega
  simp only [parsePort, htake, hdrop, valueOf_digits]
  rw [if_neg]
  · simp [digits_ne_nil]
  · rcases hafter with rfl | rfl | rfl
    · simpa using hsmall
    · simpa [endsAuthority] using hsmall
    · simpa [endsAuthority] using hsmall

private theorem splitUser_local (port : UInt16) {after : List Char} (hafter : IsAfter after) :
    splitUser true ("127.0.0.1:".toList ++ (digits port ++ after))
      = .ok ("", none, "127.0.0.1:".toList ++ (digits port ++ after)) := by
  have hends : ∀ c : Char, c.isDigit = true → (!endsAuthority true c) = true := by
    intro c hc
    simp [endsAuthority, ne_of_isDigit hc (d := '/') (by decide),
      ne_of_isDigit hc (d := '?') (by decide),
      ne_of_isDigit hc (d := '#') (by decide), ne_of_isDigit hc (d := '\\') (by decide)]
  have htake : ("127.0.0.1:".toList ++ (digits port ++ after)).takeWhile (!endsAuthority true ·)
      = "127.0.0.1:".toList ++ digits port := by
    rw [List.takeWhile_append_of_pos (List.all_eq_true.mp (by decide)), takeWhile_digits port hends]
    rcases hafter with rfl | rfl | rfl <;> decide
  have hat : ("127.0.0.1:".toList ++ digits port).contains '@' = false := by
    rw [Bool.eq_false_iff]
    intro hc
    rw [List.contains_iff_mem, List.mem_append] at hc
    rcases hc with hc | hc
    · revert hc
      decide
    · exact ne_of_isDigit (isDigit_of_mem hc) (by decide) rfl
  simp only [splitUser, htake, hat]
  rfl

private theorem parseHost_loopback :
    Host.parse ['1', '2', '7', '.', '0', '.', '0', '.', '1'] = .ok loopback := by
  have htext : Utf8.text? (Percent.decode (Utf8.encodeChars
      ['1', '2', '7', '.', '0', '.', '0', '.', '1'])) = some "127.0.0.1" := by decide +kernel
  have hascii : Host.asciiName? "127.0.0.1".toList
      = some ['1', '2', '7', '.', '0', '.', '0', '.', '1'] := by decide +kernel
  have hnumber : Host.endsInNumber ['1', '2', '7', '.', '0', '.', '0', '.', '1'] = true := by
    decide +kernel
  have hvalue : Host.ipv4? ['1', '2', '7', '.', '0', '.', '0', '.', '1'] = some 0x7F000001 := by
    decide +kernel
  have hhead : ['1', '2', '7', '.', '0', '.', '0', '.', '1'].head? ≠ some '[' := by decide
  unfold Host.parse
  simp only [if_neg hhead, htext, hascii, hnumber, if_true, hvalue]
  rfl

private theorem parseHostPort_local (port : UInt16) {after : List Char} (hafter : IsAfter after) :
    parseHostPort "http" ("127.0.0.1:".toList ++ (digits port ++ after))
      = .ok (loopback, if port.toNat = 80 then none else some port.toNat, after) := by
  have hname : hostChars true false ("127.0.0.1:".toList ++ (digits port ++ after))
      = ['1', '2', '7', '.', '0', '.', '0', '.', '1'] := rfl
  have hrest : ("127.0.0.1:".toList ++ (digits port ++ after)).drop
      ['1', '2', '7', '.', '0', '.', '0', '.', '1'].length
      = ':' :: (digits port ++ after) := rfl
  have hspecial : isSpecial "http" = true := by decide
  have hdefault : defaultPort? "http" = some 80 := by decide
  simp only [parseHostPort, hspecial, hname, hrest, parseHost_loopback, hdefault]
  simp only [List.isEmpty_cons, Bool.false_eq_true, and_false, if_false, if_true]
  dsimp only [bind, Except.bind]
  rw [parsePort_digits port hafter]
  simp

private theorem parseAuthority_local (port : UInt16) {after : List Char} (hafter : IsAfter after) :
    parseAuthority "http" ("127.0.0.1:".toList ++ (digits port ++ after))
      = .ok (localUrl port (parsePath true after)) := by
  have hspecial : isSpecial "http" = true := by decide
  have htail : splitTail true after = (none, none) := by
    rcases hafter with rfl | rfl | rfl <;> decide
  simp only [parseAuthority, hspecial, splitUser_local port hafter, parseHostPort_local port hafter,
    bind, Except.bind, htail]
  rfl

private theorem parse_localText_append (port : UInt16) (after : String)
    (hafter : IsAfter after.toList) :
    parse (localText port ++ after) = .ok (localUrl port (parsePath true after.toList)) := by
  have hchars : (localText port ++ after).toList
      = "http:".toList ++ ("//127.0.0.1:".toList ++ (digits port ++ after.toList)) := by
    unfold localText digits
    simp [Nat.toString_eq_repr]
  have hclean : clean (localText port ++ after)
      = "http:".toList ++ ("//127.0.0.1:".toList ++ (digits port ++ after.toList)) := by
    rw [clean_eq_self, hchars]
    intro c hc
    rw [hchars, List.mem_append, List.mem_append, List.mem_append] at hc
    rcases hc with hc | hc | hc | hc
    · exact range_of_all (by decide) c hc
    · exact range_of_all (by decide) c hc
    · have := digit_range (isDigit_of_mem hc)
      omega
    · rcases hafter with h | h | h
      · rw [h] at hc
        exact absurd hc List.not_mem_nil
      · rw [h] at hc
        exact range_of_all (by decide) c hc
      · rw [h] at hc
        exact range_of_all (by decide) c hc
  have hscheme : splitScheme? (clean (localText port ++ after))
      = some ("http", "//127.0.0.1:".toList ++ (digits port ++ after.toList)) := by
    rw [hclean]
    rfl
  have hspecial : isSpecial "http" = true := by decide
  unfold parse
  simp only [hscheme]
  unfold parseScheme
  rw [if_neg (by decide), if_pos hspecial]
  exact parseAuthority_local port hafter

/-- **The address of a server on this machine is read as it is written.** -/
theorem parse_localText (port : UInt16) : parse (localText port) = .ok (localUrl port [""]) := by
  have h := parse_localText_append port "" (Or.inl rfl)
  rw [String.append_empty] at h
  exact h

/-- So it is with the version of the interface after it. -/
theorem parse_localText_version (port : UInt16) :
    parse (localText port ++ "/" ++ Client.apiVersion) = .ok (localUrl port ["v1"]) := by
  have h := parse_localText_append port "/v1" (Or.inr (Or.inl rfl))
  rw [String.append_assoc]
  exact h

/-- And with the endpoint that gives tokens. -/
theorem parse_localText_token (port : UInt16) :
    parse (localText port ++ "/token") = .ok (localUrl port ["token"]) :=
  parse_localText_append port "/token" (Or.inr (Or.inr rfl))

theorem dropSlashes_localText (port : UInt16) :
    Client.dropSlashes (localText port) = localText port := by
  have hlast := List.dropLast_concat_getLast (digits_ne_nil port)
  have hdigit : (digits port).getLast (digits_ne_nil port) ≠ '/' :=
    ne_of_isDigit (isDigit_of_mem (List.getLast_mem _)) (by decide)
  have hchars : (localText port).toList = ("http://127.0.0.1:".toList ++ (digits port).dropLast)
      ++ [(digits port).getLast (digits_ne_nil port)] := by
    rw [List.append_assoc, hlast]
    unfold localText digits
    simp [Nat.toString_eq_repr]
  rw [Client.dropSlashes, hchars, Text.dropEndWhile_append_singleton (by simpa using hdigit),
    ← hchars, String.ofList_toList]

end ParameterManager.Url
