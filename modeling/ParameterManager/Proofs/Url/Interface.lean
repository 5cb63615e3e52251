/-
Where an address has no interface below it.

The text of an address and the same text with the version after it are read by the same rules,
so they come to different ends only where the first one leaves something open.  One is its
path: without a slash after a scheme that needs one, the path is an opaque text and cannot be
extended.  The other is its authority, if nothing ends it: the blanks that are left out at the
end of the address are then part of it, and a lone at sign is followed by something.
-/
import ParameterManager.Proofs.Url.Authority

namespace ParameterManager.Url

variable {special : Bool} {scheme : String} {rest text after gap : List Char}

/-- The text of an address of a file from its authority on, if it has one. -/
def fileAuthority? : List Char → Option (List Char)
  | a :: b :: text => if isSlash a ∧ isSlash b then some text else none
  | _ => none

/-- The text of an address from its authority on, if it has one. -/
def authority? (scheme : String) (rest : List Char) : Option (List Char) :=
  if scheme = "file" then fileAuthority? rest
  else if isSpecial scheme then some (rest.dropWhile isSlash)
  else
    match rest with
    | '/' :: '/' :: text => some text
    | _ => none

/-- An authority that nothing ends is none when some blanks and a slash come after it. -/
def IsSpoilt (special : Bool) (text gap : List Char) : Prop :=
  IsBare special text ∧
    if gap = [] then special = false ∧ text = ['@']
    else special = true ∨ ¬TakesBlanks (placeOf text) gap

/-- The interface of a server has no address, since the authority of the server is none in it. -/
def HasSpoiltAuthority (serverUrl : String) : Prop :=
  ∃ found ∈ splitScheme? (clean serverUrl), ∃ text ∈ authority? found.1 found.2,
    IsSpoilt (isSpecial found.1) text (blanksAfter serverUrl)

/-- The interface of a server has an address with an opaque path, since no slash starts one. -/
def HasOpaqueInterface (serverUrl : String) : Prop :=
  ∃ found ∈ splitScheme? (clean serverUrl), isSpecial found.1 = false ∧
    (found.2 ++ blanksAfter serverUrl).head? ≠ none ∧
    (found.2 ++ blanksAfter serverUrl).head? ≠ some '/'

instance (special : Bool) (text gap : List Char) : Decidable (IsSpoilt special text gap) :=
  inferInstanceAs (Decidable (IsBare special text ∧ ite _ _ _))

instance (serverUrl : String) : Decidable (HasSpoiltAuthority serverUrl) :=
  inferInstanceAs (Decidable (∃ found ∈ _, ∃ text ∈ _, IsSpoilt _ _ _))

instance (serverUrl : String) : Decidable (HasOpaqueInterface serverUrl) :=
  inferInstanceAs (Decidable (∃ found ∈ _, _ ∧ _ ∧ _))

theorem authority?_other (hspecial : isSpecial scheme = false) :
    authority? scheme rest = some text ↔ rest = '/' :: '/' :: text := by
  have hfile : scheme ≠ "file" := by
    rintro rfl
    exact absurd hspecial (by decide)
  unfold authority?
  rw [if_neg hfile, if_neg (by simp [hspecial])]
  split
  · simp
  · next hnot => exact iff_of_false (by simp) (hnot text)

/-- A server has one of the two at most. -/
theorem HasOpaqueInterface.not_spoilt {serverUrl : String} (h : HasOpaqueInterface serverUrl) :
    ¬HasSpoiltAuthority serverUrl := by
  rintro ⟨found, hfound, text, htext, -⟩
  obtain ⟨found', hfound', hspecial, -, hslash⟩ := h
  obtain rfl : found = found' := Option.some.inj (hfound.symm.trans hfound')
  rw [Option.mem_def, authority?_other hspecial] at htext
  exact hslash (by rw [htext]; rfl)

/-! ### Authorities -/

/-- A lone at sign is no authority where a host is needed. -/
private theorem not_hasAuthority_sign (hspecial : isSpecial scheme = true) :
    ¬HasAuthority scheme ['@'] := by
  have hbare : IsBare (isSpecial scheme) ['@'] := by
    rw [hspecial]
    decide
  obtain ⟨user, password, huser⟩ := splitUser_bare hbare
  rw [hasAuthority_iff huser]
  rintro ⟨host, port, rest, hplace, -⟩
  have hnone : placeOf ['@'] = [] := rfl
  rw [hnone, parseHostPort_eq, hspecial, if_pos (by decide)] at hplace
  simp at hplace

/-- What ends an authority keeps it from being spoilt. -/
theorem not_isSpoilt {c : Char} (hends : Ends special (c :: after)) (authority : List Char) :
    ¬IsSpoilt special (authority ++ c :: after) gap := by
  rintro ⟨hbare, -⟩
  have hc := hbare c (List.mem_append_right _ List.mem_cons_self)
  rw [hends c after rfl] at hc
  simp at hc

/-- What ends an authority still ends it when something follows. -/
theorem Ends.append {c : Char} (h : Ends special (c :: after)) (cs : List Char) :
    Ends special (c :: (after ++ cs)) := by
  rintro d rest hcons
  obtain ⟨rfl, -⟩ := List.cons.inj hcons
  exact h c after rfl

/-- **What follows an authority spoils it, or leaves it one.** -/
theorem hasAuthority_extended (h : HasAuthority scheme text) (hgap : IsBlanks gap)
    (cs : List Char) : HasAuthority scheme (text ++ (gap ++ '/' :: cs))
      ↔ ¬IsSpoilt (isSpecial scheme) text gap := by
  obtain ⟨authority, after, rfl, hbare, hends⟩ := exists_bare (isSpecial scheme) text
  have hslash : ('/' :: cs : List Char) ≠ [] := List.cons_ne_nil _ _
  cases after with
  | cons c after =>
      rw [hasAuthority_append hbare hends (List.cons_ne_nil _ _)] at h
      rw [List.append_assoc, List.cons_append,
        hasAuthority_append hbare (hends.append _) (List.cons_ne_nil _ _)]
      exact iff_of_true h (not_isSpoilt hends authority)
  | nil =>
      rw [List.append_nil] at h ⊢
      unfold IsSpoilt
      by_cases hgapNil : gap = []
      · rw [hgapNil, List.nil_append, if_pos rfl,
          hasAuthority_append hbare (ends_slash cs) hslash]
        constructor
        · rintro ⟨hsign, -⟩ ⟨-, -, hlone⟩
          exact hsign hlone
        · intro hkept
          refine ⟨?_, h⟩
          rintro rfl
          cases hspecial : isSpecial scheme with
          | false => exact hkept ⟨hbare, hspecial, rfl⟩
          | true => exact not_hasAuthority_sign hspecial h
      · have hsign : authority ++ gap ≠ ['@'] := by
          intro hlone
          obtain ⟨c, hc⟩ := List.exists_mem_of_ne_nil gap hgapNil
          have hmem : c ∈ authority ++ gap := List.mem_append_right _ hc
          rw [hlone, List.mem_singleton] at hmem
          exact hgap.ne hc (by decide) hmem
        rw [← List.append_assoc, if_neg hgapNil,
          hasAuthority_append (hbare.append (hgap.isBare _)) (ends_slash cs) hslash,
          hasAuthority_blanks hgap hgapNil hbare h]
        constructor
        · rintro ⟨-, hspecial, htakes⟩ ⟨-, hspoilt⟩
          rcases hspoilt with hspoilt | hspoilt
          · rw [hspecial] at hspoilt
            simp at hspoilt
          · exact hspoilt htakes
        · intro hkept
          have hneither : ¬(isSpecial scheme = true ∨ ¬TakesBlanks (placeOf authority) gap) :=
            fun hspoilt => hkept ⟨hbare, hspoilt⟩
          rw [not_or, Classical.not_not, Bool.not_eq_true] at hneither
          exact ⟨hsign, hneither⟩

/-! ### Files -/

/-- A text stands for the host of a file, or for none. -/
def IsFileHost (name : List Char) : Prop :=
  name = [] ∨ isDriveLetter name = true ∨ ∃ host, Host.parse name = .ok host

theorem parseFile_ok_iff {cs : List Char} : (∃ u, parseFile cs = .ok u) ↔
    ∀ text, fileAuthority? cs = some text →
      IsFileHost (text.takeWhile (!endsAuthority true ·)) := by
  rcases cs with _ | ⟨a, _ | ⟨b, text⟩⟩
  · simp [parseFile, fileAuthority?]
  · simp [parseFile, fileAuthority?]
  by_cases hslashes : isSlash a = true ∧ isSlash b = true
  · simp only [parseFile, fileAuthority?, if_pos hslashes, Option.some.injEq, forall_eq']
    unfold IsFileHost
    split
    · next hnone =>
      refine iff_of_true ⟨_, rfl⟩ ?_
      rcases hnone with hnone | hnone
      · exact Or.inl (List.isEmpty_iff.mp hnone)
      · exact Or.inr (Or.inl hnone)
    · next hsome =>
      simp only [bind, Except.bind]
      cases hhost : Host.parse (text.takeWhile (!endsAuthority true ·)) with
      | ok host => simp
      | error e =>
          refine iff_of_false (by simp) ?_
          rintro (hnil | hdrive | ⟨host, hok⟩)
          · exact hsome (Or.inl (List.isEmpty_iff.mpr hnil))
          · exact hsome (Or.inr hdrive)
          · simp at hok
  · simp only [parseFile, fileAuthority?, if_neg hslashes]
    simp

private theorem isDriveLetter_concat {c : Char} (hcolon : c ≠ ':') (hbar : c ≠ '|')
    (cs : List Char) : isDriveLetter (cs ++ [c]) = false := by
  rcases cs with _ | ⟨a, _ | ⟨b, cs⟩⟩
  · rfl
  · simp [isDriveLetter, hcolon, hbar]
  · simp [isDriveLetter]

/-- A host of a file with blanks after it is none. -/
theorem not_isFileHost (hgap : IsBlanks gap) (hne : gap ≠ []) (name : List Char) :
    ¬IsFileHost (name ++ gap) := by
  obtain ⟨front, last, rfl⟩ := (List.eq_nil_or_concat gap).resolve_left hne
  have hlast : last.toNat ≤ 0x20 := hgap last (by simp)
  rw [List.concat_eq_append, ← List.append_assoc]
  rintro (hnil | hdrive | ⟨host, hhost⟩)
  · simp at hnil
  · obtain ⟨hcolon, hbar⟩ : last ≠ ':' ∧ last ≠ '|' :=
      Host.blank_forall (p := fun c => c ≠ ':' ∧ c ≠ '|') (by decide) hlast
    rw [isDriveLetter_concat hcolon hbar] at hdrive
    simp at hdrive
  · obtain ⟨e, he⟩ := Host.parse_concat hlast (name ++ front)
    rw [he] at hhost
    simp at hhost

/-- The version is a host, too, where it comes after two slashes. -/
private theorem parse_version : ∃ host, Host.parse version = .ok host := by
  have htext : Utf8.text? (Percent.decode (Utf8.encodeChars version)) = some "v1" := by
    decide +kernel
  have hascii : Host.asciiName? "v1".toList = some version := by decide +kernel
  have hnumber : Host.endsInNumber version = false := by decide +kernel
  refine ⟨.domain "v1", ?_⟩
  unfold Host.parse
  rw [if_neg (by decide), htext]
  simp only [hascii]
  show (if Host.endsInNumber version = true then _ else _) = _
  rw [hnumber]
  rfl

theorem isFileHost_extended (h : IsFileHost (text.takeWhile (!endsAuthority true ·)))
    (hgap : IsBlanks gap) (cs : List Char) :
    IsFileHost ((text ++ (gap ++ '/' :: cs)).takeWhile (!endsAuthority true ·))
      ↔ ¬IsSpoilt true text gap := by
  obtain ⟨authority, after, rfl, hbare, hends⟩ := exists_bare true text
  rw [hbare.takeWhile hends] at h
  cases after with
  | cons c after =>
      rw [List.append_assoc, List.cons_append, hbare.takeWhile (hends.append _)]
      exact iff_of_true h (not_isSpoilt hends authority)
  | nil =>
      rw [List.append_nil, ← List.append_assoc,
        (hbare.append (hgap.isBare true)).takeWhile (ends_slash cs)]
      unfold IsSpoilt
      by_cases hgapNil : gap = []
      · rw [hgapNil, List.append_nil, if_pos rfl]
        exact iff_of_true h fun hspoilt => absurd hspoilt.2.1 (by decide)
      · rw [if_neg hgapNil]
        exact iff_of_false (not_isFileHost hgap hgapNil authority)
          fun hkept => hkept ⟨hbare, Or.inl rfl⟩

theorem parseFile_extended (h : ∃ u, parseFile rest = .ok u) (hgap : IsBlanks gap) :
    (∃ u, parseFile (rest ++ (gap ++ '/' :: version)) = .ok u)
      ↔ ∀ text, fileAuthority? rest = some text → ¬IsSpoilt true text gap := by
  rw [parseFile_ok_iff] at h ⊢
  have hblank : ∀ c ∈ gap, isSlash c = false := by
    intro c hc
    have hslash := hgap.ne hc (d := '/') (by decide)
    have hback := hgap.ne hc (d := '\\') (by decide)
    simp [isSlash, hslash, hback]
  rcases rest with _ | ⟨a, _ | ⟨b, text⟩⟩
  · have hnone : fileAuthority? (gap ++ '/' :: version) = none := by
      rcases gap with _ | ⟨c, _ | ⟨d, gap⟩⟩
      · rfl
      · simp [fileAuthority?, hblank c List.mem_cons_self]
      · simp [fileAuthority?, hblank c List.mem_cons_self]
    rw [List.nil_append, hnone]
    simp [fileAuthority?]
  · -- a single slash and that of the version are two
    refine iff_of_true (fun text htext => ?_) fun text htext => by simp [fileAuthority?] at htext
    cases gap with
    | cons c gap => simp [fileAuthority?, hblank c List.mem_cons_self] at htext
    | nil =>
        simp only [List.cons_append, List.nil_append, fileAuthority?] at htext
        obtain ⟨-, hversion⟩ := Option.ite_none_right_eq_some.mp htext
        obtain rfl := Option.some.inj hversion
        exact Or.inr (Or.inr parse_version)
  · simp only [List.cons_append, fileAuthority?] at h ⊢
    split
    · next hslashes =>
      simp only [if_pos hslashes, Option.some.injEq, forall_eq'] at h ⊢
      exact isFileHost_extended h hgap version
    · simp

/-! ### Schemes -/

theorem path_of_parseFile {cs : List Char} {u : Url} (h : parseFile cs = .ok u) :
    ∃ list, u.path = .segments list := by
  simp only [parseFile, bind, Except.bind] at h
  split at h
  · split at h
    · split at h
      · exact ⟨_, by rw [← Except.ok.inj h]⟩
      · split at h
        · simp at h
        · exact ⟨_, by rw [← Except.ok.inj h]⟩
    · exact ⟨_, by rw [← Except.ok.inj h]⟩
  · exact ⟨_, by rw [← Except.ok.inj h]⟩

/-- A path is an opaque text where a scheme that needs a slash has none after it. -/
theorem path_of_parseScheme {cs : List Char} {u : Url} (h : parseScheme scheme cs = .ok u) :
    (∃ text, u.path = .opaqueText text) ↔ isSpecial scheme = false ∧ cs.head? ≠ some '/' := by
  have hsegments : (∃ list, u.path = .segments list) → ¬∃ text, u.path = .opaqueText text := by
    rintro ⟨list, hlist⟩ ⟨text, htext⟩
    rw [hlist] at htext
    simp at htext
  unfold parseScheme at h
  split at h
  · next hfile =>
    refine iff_of_false (hsegments (path_of_parseFile h)) fun hboth => ?_
    rw [hfile] at hboth
    exact absurd hboth.1 (by decide)
  split at h
  · next hspecial =>
    obtain ⟨-, after, -, hpath, -⟩ := parseAuthority_ok h
    refine iff_of_false (hsegments ⟨_, hpath⟩) fun hboth => ?_
    rw [hboth.1] at hspecial
    simp at hspecial
  · next hspecial =>
    split at h
    · obtain ⟨-, after, -, hpath, -⟩ := parseAuthority_ok h
      exact iff_of_false (hsegments ⟨_, hpath⟩) fun hboth => hboth.2 rfl
    · refine iff_of_false (hsegments ⟨_, by rw [← Except.ok.inj h]⟩) fun hboth => hboth.2 rfl
    · next hslash =>
      refine iff_of_true ⟨_, by rw [← Except.ok.inj h]⟩ ⟨by simpa using hspecial, fun hhead => ?_⟩
      obtain ⟨more, hcs⟩ := List.head?_eq_some_iff.mp hhead
      exact hslash more hcs

/-- The version is an authority, too, where it comes after two slashes. -/
private theorem hasAuthority_version (hspecial : isSpecial scheme = false) :
    HasAuthority scheme version := by
  have huser : splitUser (isSpecial scheme) version = .ok ("", none, version) := by
    rw [hspecial]
    rfl
  have hname : hostChars false false version = version := rfl
  have hencode : Percent.encodeChars Percent.isControl version = version := by decide +kernel
  have hhost : readHost false version = .ok (.domain "v1") := by
    rw [readHost, if_neg (by decide), Host.parseOpaque, if_neg (by decide), if_neg (by decide),
      hencode]
    rfl
  have hplace : parseHostPort scheme version = .ok (.domain "v1", none, []) := by
    rw [parseHostPort_eq, hspecial, hname, hhost]
    rfl
  rw [hasAuthority_iff huser]
  exact ⟨_, _, _, hplace, by decide⟩

theorem parseScheme_special (hspecial : isSpecial scheme = true) (hfile : scheme ≠ "file")
    (cs : List Char) : parseScheme scheme cs = parseAuthority scheme (cs.dropWhile isSlash) := by
  unfold parseScheme
  rw [if_neg hfile, if_pos hspecial]

theorem parseScheme_other (hspecial : isSpecial scheme = false) {cs : List Char} :
    (∃ u, parseScheme scheme cs = .ok u)
      ↔ ∀ text, cs = '/' :: '/' :: text → HasAuthority scheme text := by
  have hfile : scheme ≠ "file" := by
    rintro rfl
    exact absurd hspecial (by decide)
  unfold parseScheme
  rw [if_neg hfile, if_neg (by simp [hspecial])]
  split
  · next text => simp [HasAuthority]
  · next after hnot =>
    refine iff_of_true ⟨_, rfl⟩ fun text htext => ?_
    exact absurd (List.cons.inj htext).2 (hnot text)
  · next hnot =>
    refine iff_of_true ⟨_, rfl⟩ fun text htext => ?_
    exact absurd htext (hnot _)

/-- Two slashes after a scheme stood there before, or the second one is that of the version. -/
private theorem slashes_extended (hgap : IsBlanks gap)
    (h : rest ++ (gap ++ '/' :: version) = '/' :: '/' :: after) :
    (∃ text, rest = '/' :: '/' :: text ∧ after = text ++ (gap ++ '/' :: version)) ∨
      after = version := by
  have hblank : ∀ c ∈ gap, c ≠ '/' := fun c hc => hgap.ne hc (by decide)
  rcases rest with _ | ⟨a, _ | ⟨b, text⟩⟩
  · cases gap with
    | nil => exact absurd (List.cons.inj h).2 (by simp [version])
    | cons c gap => exact absurd (List.cons.inj h).1 (hblank c List.mem_cons_self)
  · obtain ⟨-, hrest⟩ := List.cons.inj h
    cases gap with
    | nil => exact Or.inr (List.cons.inj hrest).2.symm
    | cons c gap => exact absurd (List.cons.inj hrest).1 (hblank c List.mem_cons_self)
  · obtain ⟨rfl, hrest⟩ := List.cons.inj h
    obtain ⟨rfl, hafter⟩ := List.cons.inj hrest
    exact Or.inl ⟨text, rfl, hafter.symm⟩

/-- **What follows an address spoils its authority, or leaves it an address.** -/
theorem parseScheme_extended (h : ∃ u, parseScheme scheme rest = .ok u) (hgap : IsBlanks gap) :
    (∃ u, parseScheme scheme (rest ++ (gap ++ '/' :: version)) = .ok u)
      ↔ ∀ text, authority? scheme rest = some text → ¬IsSpoilt (isSpecial scheme) text gap := by
  by_cases hfile : scheme = "file"
  · subst hfile
    exact parseFile_extended h hgap
  cases hspecial : isSpecial scheme with
  | true =>
      have htext : authority? scheme rest = some (rest.dropWhile isSlash) := by
        unfold authority?
        rw [if_neg hfile, if_pos hspecial]
      rw [parseScheme_special hspecial hfile] at h ⊢
      have hne : (rest.dropWhile isSlash).isEmpty = false := by
        rw [Bool.eq_false_iff]
        intro hnil
        rw [List.isEmpty_iff.mp hnil] at h
        obtain ⟨u, hu⟩ := h
        exact parseAuthority_nil hspecial u hu
      have hok : HasAuthority scheme (rest.dropWhile isSlash) := h
      have hall := hasAuthority_extended hok hgap version
      rw [hspecial] at hall
      rw [List.dropWhile_append, hne, if_neg Bool.false_ne_true, htext]
      simpa [HasAuthority] using hall
  | false =>
      have hall := fun text (htext : rest = '/' :: '/' :: text) =>
        hasAuthority_extended ((parseScheme_other hspecial).mp h text htext) hgap version
      rw [hspecial] at hall
      rw [parseScheme_other hspecial]
      constructor
      · intro hok text htext
        rw [authority?_other hspecial] at htext
        refine (hall text htext).mp (hok _ ?_)
        rw [htext]
        rfl
      · intro hkept after hafter
        rcases slashes_extended hgap hafter with ⟨text, htext, rfl⟩ | rfl
        · exact (hall text htext).mpr (hkept text ((authority?_other hspecial).mpr htext))
        · exact hasAuthority_version hspecial

/-! ### Interfaces -/

theorem isBlanks_blanksAfter (s : String) : IsBlanks (blanksAfter s) := by
  intro c hc
  have hmem := (List.mem_filter.mp hc).1
  rw [List.mem_reverse] at hmem
  have hpadding : isPadding c = true := List.mem_takeWhile_imp hmem
  exact of_decide_eq_true hpadding

/-- **The interface of a server has an address unless the authority of the server is spoilt.** -/
theorem parse_interface {serverUrl : String} (h : ∃ u, parse serverUrl = .ok u) :
    (∃ u, parse (serverUrl ++ "/" ++ Client.apiVersion) = .ok u)
      ↔ ¬HasSpoiltAuthority serverUrl := by
  have hgap := isBlanks_blanksAfter serverUrl
  unfold parse HasSpoiltAuthority at *
  rw [clean_append_version]
  cases hscheme : splitScheme? (clean serverUrl) with
  | none => simp [hscheme] at h
  | some found =>
      obtain ⟨scheme, rest⟩ := found
      simp only [hscheme] at h
      simp only [splitScheme?_append hscheme, parseScheme_extended h hgap]
      simp

-- a blank may be put after an opaque host unless it is a space
example : HasSpoiltAuthority "http://h " ∧ HasSpoiltAuthority "foo://h " ∧
    ¬HasSpoiltAuthority "foo://h\x01" := by decide

/-- The interface of a server has a path of segments unless no slash starts one. -/
theorem path_interface {serverUrl : String} {u : Url}
    (h : parse (serverUrl ++ "/" ++ Client.apiVersion) = .ok u)
    (hbase : ∃ u, parse serverUrl = .ok u) :
    (∃ text, u.path = .opaqueText text) ↔ HasOpaqueInterface serverUrl := by
  unfold parse HasOpaqueInterface at *
  rw [clean_append_version] at h
  cases hscheme : splitScheme? (clean serverUrl) with
  | none => simp [hscheme] at hbase
  | some found =>
      obtain ⟨scheme, rest⟩ := found
      simp only [splitScheme?_append hscheme] at h
      simp only [Option.mem_def, Option.some.injEq, exists_eq_left']
      rw [path_of_parseScheme h, ← List.append_assoc]
      cases rest ++ blanksAfter serverUrl with
      | nil => simp
      | cons c more => simp

end ParameterManager.Url
