/-
Addresses that are URIs.

An authority is read character by character, and a character that stands for itself changes
nothing; so a host of such characters is an authority, alone and with a port after it.  The
segments of a path and the pairs of a query are written with characters that a URI may have.
What can keep an address below a server on this machine from being sent to is its length alone.
-/
import ParameterManager.Http.Agent
import ParameterManager.Proofs.Url.Extend
import ParameterManager.Proofs.Url.Form
import ParameterManager.Proofs.Url.Local

namespace ParameterManager.Uri

/-! ### Authorities -/

private theorem step_plain (s : Scan) {c : Char} (h : isPlain c = true) : s.step c = some s := by
  have hne : ∀ {d : Char}, isPlain d = false → c ≠ d := by
    rintro d hd rfl
    rw [h] at hd
    exact Bool.noConfusion hd
  rw [Scan.step, if_neg (hne (by decide)), if_neg (hne (by decide)), if_neg (hne (by decide)),
    if_neg (hne (by decide)), if_neg (hne (by decide)), if_pos h]

private theorem foldlM_plain (s : Scan) {cs : List Char} (h : ∀ c ∈ cs, isPlain c = true) :
    cs.foldlM Scan.step s = some s := by
  induction cs with
  | nil => rfl
  | cons c cs ih =>
      rw [List.foldlM_cons, step_plain s (h c List.mem_cons_self)]
      exact ih fun d hd => h d (List.mem_cons_of_mem _ hd)

/-- What an authority without a user has to be in the end. -/
private theorem isAuthority_of_scan {cs : List Char} {n : Nat} (hne : cs ≠ [])
    (hscan : cs.foldlM Scan.step {} = some { colons := n }) (hn : n ≤ 1) (hat : '@' ∉ cs) :
    isAuthority cs = true := by
  have hlast : cs.getLast? ≠ some '@' := fun h => hat (List.mem_of_getLast? h)
  simp [isAuthority, hscan, hne, hn, hlast]

/-- The at sign does not stand for itself. -/
private theorem at_not_mem {cs : List Char} (h : ∀ c ∈ cs, isPlain c = true) : '@' ∉ cs :=
  fun hat => absurd (h _ hat) (by decide)

/-- A host is an authority if all of its characters stand for themselves. -/
theorem isAuthority_host {host : List Char} (hne : host ≠ [])
    (h : ∀ c ∈ host, isPlain c = true) : isAuthority host = true :=
  isAuthority_of_scan hne (foldlM_plain {} h) (Nat.zero_le 1) (at_not_mem h)

/-- So it is with a port after it. -/
theorem isAuthority_port {host port : List Char} (h : ∀ c ∈ host, isPlain c = true)
    (hport : ∀ c ∈ port, isPlain c = true) : isAuthority (host ++ ':' :: port) = true := by
  refine isAuthority_of_scan (n := 1) (by simp) ?_ (Nat.le_refl 1) ?_
  · rw [List.foldlM_append, foldlM_plain {} h]
    exact foldlM_plain { colons := 1 } hport
  · intro hat
    rcases List.mem_append.mp hat with hat | hat
    · exact at_not_mem h hat
    rcases List.mem_cons.mp hat with hat | hat
    · exact absurd hat (by decide)
    · exact at_not_mem hport hat

private theorem isPlain_of_isDigit {c : Char} (h : c.isDigit = true) : isPlain c = true := by
  simp only [isPlain, Char.isAlphanum, h, Bool.or_true, Bool.true_or]

/-- A character that no authority has anywhere. -/
private theorem not_isAuthority {cs : List Char} {c : Char} (hc : ∀ s : Scan, s.step c = none)
    (h : c ∈ cs) : isAuthority cs = false := by
  have hscan : ∀ s : Scan, cs.foldlM Scan.step s = none := by
    induction cs with
    | nil => exact absurd h List.not_mem_nil
    | cons d cs ih =>
        intro s
        rw [List.foldlM_cons]
        rcases List.mem_cons.mp h with rfl | h
        · rw [hc s]
          rfl
        · cases s.step d with
          | none => rfl
          | some next => exact ih h next
  rw [isAuthority, hscan]

/-- **Some signs that a name of a host may have are in no URI.** -/
theorem accepts_domain {u : Url} {name : String} (hhost : u.host = some (.domain name)) {c : Char}
    (hsign : c ∈ ['"', '\x60', '{', '}']) (h : c ∈ name.toList) : accepts u = false := by
  have hstep : ∀ s : Scan, s.step c = none := by
    simp only [List.mem_cons, List.not_mem_nil, or_false] at hsign
    rcases hsign with rfl | rfl | rfl | rfl <;> exact fun s => rfl
  have hmem : c ∈ (u.authority (.domain name)).toList := by
    have hname : (Host.domain name).text = name := rfl
    unfold Url.authority
    rw [hname, String.toList_append, String.toList_append]
    exact List.mem_append_left _ (List.mem_append_right _ h)
  simp only [accepts, hhost, not_isAuthority hstep hmem, Bool.and_false, Bool.false_and]

example : (Url.parse "http://a\x7b").toOption.map (fun u => (Message.ofUrl "GET" u).isSendable)
    = some false := by decide +kernel

/-! ### Paths and queries -/

/-- A path that is written for identifiers has nothing that a URI may not have. -/
theorem isPathChar_of_written {names : List String} {c : Char}
    (h : c ∈ (UrlPath.segments (names.map Url.written)).text.toList) : isPathChar c = true := by
  rw [UrlPath.text, String.toList_ofList, List.flatMap_map, List.mem_flatMap] at h
  obtain ⟨s, -, h⟩ := h
  rcases List.mem_cons.mp h with rfl | h
  · decide
  rw [Url.written, String.toList_ofList] at h
  rcases Percent.mem_encodeChars h with ⟨hlt, hset⟩ | rfl | ⟨hlt, halnum⟩
  · exact Text.forall_ascii
      (p := fun c => Percent.inSegment c.toNat = false → isPathChar c = true) (by decide) hlt hset
  · decide
  · exact Text.forall_ascii (p := fun c => c.isAlphanum = true → isPathChar c = true) (by decide)
      hlt halnum

/-- Nor has a query of pairs. -/
theorem isQueryChar_of_form {pairs : List (String × String)} {c : Char}
    (h : c ∈ (Form.encode pairs).toList) : isQueryChar c = true := by
  rcases Form.mem_encode h with rfl | rfl | rfl | rfl | ⟨hlt, hplain⟩
  · decide
  · decide
  · decide
  · decide
  · exact Text.forall_ascii (p := fun c => Form.isPlain c.toNat = true → isQueryChar c = true)
      (by decide) hlt hplain

/-! ### Addresses on this machine -/

private theorem isAuthority_local (port : UInt16) (segments : List String) :
    isAuthority ((Url.localUrl port segments).authority Url.loopback).toList = true := by
  have hhost : Url.loopback.text.toList = "127.0.0.1".toList := by decide +kernel
  have hplain : ∀ c ∈ Url.loopback.text.toList, isPlain c = true := by
    rw [hhost]
    exact List.all_eq_true.mp (by decide)
  rw [Url.authority_localUrl, String.toList_append]
  split
  · rw [String.toList_empty, List.append_nil]
    exact isAuthority_host (by rw [hhost]; decide) hplain
  · have hport : (":" ++ toString port.toNat).toList = ':' :: Nat.toDigits 10 port.toNat := by
      simp [Nat.toString_eq_repr]
    rw [hport]
    exact isAuthority_port hplain fun c hc => isPlain_of_isDigit (Text.isDigit_of_mem_digits hc)

/-- **What is put below a server on this machine is a URI**, with a query or without. -/
theorem accepts_local (port : UInt16) (names : List String) {query : Option String}
    (hquery : ∀ q, query = some q → ∃ pairs, q = Form.encode pairs) :
    accepts { Url.localUrl port (names.map Url.written) with query } = true := by
  have hpath : (UrlPath.segments (names.map Url.written)).text.toList.all isPathChar = true :=
    List.all_eq_true.mpr fun c hc => isPathChar_of_written hc
  have htail : (query.getD "").toList.all isQueryChar = true := by
    cases query with
    | none => rfl
    | some q =>
        obtain ⟨pairs, rfl⟩ := hquery q rfl
        exact List.all_eq_true.mpr fun c hc => isQueryChar_of_form hc
  have hparts : accepts { Url.localUrl port (names.map Url.written) with query } =
      (decide ("http".length ≤ maxScheme) &&
        isAuthority ((Url.localUrl port (names.map Url.written)).authority Url.loopback).toList &&
        (UrlPath.segments (names.map Url.written)).text.toList.all isPathChar &&
        (query.getD "").toList.all isQueryChar) := rfl
  rw [hparts, isAuthority_local, hpath, htail]
  decide

end ParameterManager.Uri

namespace ParameterManager.Message

/-- An address below a server on this machine is one to send to if it is short enough. -/
theorem isAddress_local (port : UInt16) (names : List String) {query : Option String}
    (hquery : ∀ q, query = some q → ∃ pairs, q = Form.encode pairs) :
    isAddress { Url.localUrl port (names.map Url.written) with query }
      = isShort { Url.localUrl port (names.map Url.written) with query } := by
  rw [isAddress, Uri.accepts_local port names hquery, Bool.true_and]

end ParameterManager.Message
