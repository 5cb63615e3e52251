/-
An authority with something after it.

The authority of an address goes as far as the first character that ends one.  What stands
there does not change how the authority is read, with one exception: an authority that is a
lone at sign is empty at the end of a text, and no authority where something follows.  So
what is put after an address matters only if nothing in its text ends the authority, and then
only up to its own first slash.

Blanks are what can stand there.  They become part of the host, which they may not do in an
address of the web, or of the port, which they may never do.
-/
import Mathlib.Data.List.TakeWhile
import ParameterManager.Proofs.Url.Base
import ParameterManager.Proofs.Url.Host

namespace ParameterManager.Url

variable {special bracket : Bool} {scheme : String} {authority place after gap : List Char}

/-! ### Parts of an authority -/

/-- Nothing in a text ends an authority. -/
def IsBare (special : Bool) (cs : List Char) : Prop := ∀ c ∈ cs, endsAuthority special c = false

/-- What is at the end of a text ends an authority, if anything does. -/
def Ends (special : Bool) (cs : List Char) : Prop :=
  ∀ c rest, cs = c :: rest → endsAuthority special c = true

/-- The host and the port of an authority: what stands after its last at sign. -/
def placeOf (authority : List Char) : List Char := (authority.reverse.takeWhile (· ≠ '@')).reverse

instance (special : Bool) (cs : List Char) : Decidable (IsBare special cs) :=
  List.decidableBAll (fun c => endsAuthority special c = false) cs

theorem ends_nil : Ends special [] := fun _ _ h => by simp at h

theorem ends_slash (cs : List Char) : Ends special ('/' :: cs) := by
  intro c rest h
  obtain ⟨rfl, -⟩ := List.cons.inj h
  rfl

theorem IsBare.append {cs ds : List Char} (h : IsBare special cs) (h' : IsBare special ds) :
    IsBare special (cs ++ ds) := fun c hc => (List.mem_append.mp hc).elim (h c) (h' c)

theorem IsBare.takeWhile (h : IsBare special authority) (hafter : Ends special after) :
    (authority ++ after).takeWhile (!endsAuthority special ·) = authority := by
  have hall : ∀ c ∈ authority, (!endsAuthority special c) = true := fun c hc => by simp [h c hc]
  rw [List.takeWhile_append_of_pos hall]
  cases after with
  | nil => simp
  | cons c rest => simp [hafter c rest rfl]

theorem IsBare.dropWhile (h : IsBare special authority) (hafter : Ends special after) :
    (authority ++ after).dropWhile (!endsAuthority special ·) = after := by
  have hall : ∀ c ∈ authority, (!endsAuthority special c) = true := fun c hc => by simp [h c hc]
  rw [List.dropWhile_append_of_pos hall]
  cases after with
  | nil => rfl
  | cons c rest => simp [hafter c rest rfl]

/-- A text is an authority and what ends it. -/
theorem exists_bare (special : Bool) (cs : List Char) :
    ∃ authority after, cs = authority ++ after ∧ IsBare special authority ∧ Ends special after := by
  refine ⟨cs.takeWhile (!endsAuthority special ·), cs.dropWhile (!endsAuthority special ·),
    List.takeWhile_append_dropWhile.symm, ?_, ?_⟩
  · intro c hc
    simpa using List.mem_takeWhile_imp hc
  · intro c rest h
    have hstop := List.head?_dropWhile_not (!endsAuthority special ·) cs
    rw [h] at hstop
    simpa using hstop

theorem placeOf_sublist (authority : List Char) : (placeOf authority).Sublist authority := by
  have h := (List.takeWhile_sublist (· ≠ '@') (l := authority.reverse)).reverse
  rwa [List.reverse_reverse] at h

theorem IsBare.placeOf (h : IsBare special authority) : IsBare special (placeOf authority) :=
  fun c hc => h c ((placeOf_sublist authority).subset hc)

/-- What has no at sign and follows an authority belongs to its host or its port. -/
theorem placeOf_append (authority : List Char) {cs : List Char} (h : '@' ∉ cs) :
    placeOf (authority ++ cs) = placeOf authority ++ cs := by
  have hall : ∀ c ∈ cs.reverse, decide (c ≠ '@') = true := by
    intro c hc
    refine decide_eq_true ?_
    rintro rfl
    exact h (List.mem_reverse.mp hc)
  rw [placeOf, placeOf, List.reverse_append, List.takeWhile_append_of_pos hall,
    List.reverse_append, List.reverse_reverse]

/-! ### The user -/

/-- What is before the host and the port is read. -/
theorem splitUser_bare (h : IsBare special authority) :
    ∃ user password, splitUser special authority = .ok (user, password, placeOf authority) := by
  have htake := h.takeWhile ends_nil
  have hdrop := h.dropWhile ends_nil
  rw [List.append_nil] at htake hdrop
  dsimp only [splitUser]
  rw [htake, hdrop]
  by_cases hsign : '@' ∈ authority
  · rw [if_pos (by simpa using hsign), if_neg (by simp), List.append_nil]
    exact ⟨_, _, rfl⟩
  · rw [if_neg (by simpa using hsign)]
    have hplace : authority = placeOf authority := (placeOf_append [] hsign).symm
    exact ⟨"", none, by rw [← hplace]⟩

/-- A text with one at sign only has neither a user nor a host exactly if it is the sign. -/
private theorem eq_sign_iff (hsign : '@' ∈ authority) :
    (((authority.reverse.dropWhile (· ≠ '@')).drop 1).reverse.isEmpty = true ∧
      (placeOf authority).isEmpty = true) ↔ authority = ['@'] := by
  constructor
  · rintro ⟨huser, hplace⟩
    obtain ⟨user, hcut⟩ := dropWhile_ne_of_mem (List.mem_reverse.mpr hsign)
    have hall := List.takeWhile_append_dropWhile (p := (· ≠ '@')) (l := authority.reverse)
    rw [hcut, List.drop_one, List.tail_cons, List.isEmpty_iff, List.reverse_eq_nil_iff] at huser
    rw [placeOf, List.isEmpty_iff, List.reverse_eq_nil_iff] at hplace
    rw [hcut, hplace, huser] at hall
    rw [← List.reverse_reverse authority, ← hall]
    rfl
  · rintro rfl
    decide

/-- A user is the same whatever ends an authority, but a lone at sign is none if anything does. -/
theorem splitUser_append (h : IsBare special authority) (hafter : Ends special after) :
    splitUser special (authority ++ after)
      = if authority = ['@'] ∧ after ≠ [] then .error .emptyHost
        else (splitUser special authority).map fun u => (u.1, u.2.1, u.2.2 ++ after) := by
  have htake := h.takeWhile ends_nil
  have hdrop := h.dropWhile ends_nil
  rw [List.append_nil] at htake hdrop
  dsimp only [splitUser]
  rw [h.takeWhile hafter, h.dropWhile hafter, htake, hdrop]
  by_cases hsign : '@' ∈ authority
  · have hmem : authority.contains '@' = true := by simpa using hsign
    have hlone := eq_sign_iff hsign
    rw [placeOf] at hlone
    rw [if_pos hmem, if_pos hmem]
    simp only [List.isEmpty_nil, Bool.not_true, Bool.false_eq_true, and_false, if_false,
      List.append_nil, Except.map]
    by_cases hself : authority = ['@'] ∧ after ≠ []
    · obtain ⟨huser, hplace⟩ := hlone.mpr hself.1
      rw [if_pos hself]
      refine if_pos ⟨huser, hplace, ?_⟩
      simpa using hself.2
    · rw [if_neg hself]
      refine if_neg ?_
      rintro ⟨huser, hplace, hne⟩
      refine hself ⟨hlone.mp ⟨huser, hplace⟩, ?_⟩
      rintro rfl
      exact absurd hne (by decide)
  · have hne : authority ≠ ['@'] := by
      rintro rfl
      exact hsign List.mem_cons_self
    have hmem : ¬authority.contains '@' = true := by simpa using hsign
    rw [if_neg hmem, if_neg hmem, if_neg fun hlone => hne hlone.1]
    rfl

/-! ### The host and the port -/

/-- A host ends at the same place whatever follows, if it ends before the end of a text. -/
theorem hostChars_append (special bracket : Bool) (cs more : List Char) :
    (hostChars special bracket cs = cs ∧ ∃ bracket', hostChars special bracket (cs ++ more)
      = cs ++ hostChars special bracket' more) ∨
    (hostChars special bracket cs ≠ cs ∧
      hostChars special bracket (cs ++ more) = hostChars special bracket cs) := by
  induction cs generalizing bracket with
  | nil => exact Or.inl ⟨by rw [hostChars], bracket, rfl⟩
  | cons c cs ih =>
      rw [List.cons_append, hostChars, hostChars]
      split
      · exact Or.inr ⟨(List.cons_ne_nil c cs).symm, rfl⟩
      · rcases ih ((bracket ∨ c = '[') ∧ c ≠ ']') with ⟨hall, bracket', hmore⟩ | ⟨hstop, hmore⟩
        · exact Or.inl ⟨by rw [hall], bracket', by rw [hmore, List.cons_append]⟩
        · refine Or.inr ⟨fun hall => hstop (List.cons.inj hall).2, by rw [hmore]⟩

/-- A host is the front of a text. -/
theorem hostChars_append_drop (special bracket : Bool) (cs : List Char) :
    hostChars special bracket cs ++ cs.drop (hostChars special bracket cs).length = cs := by
  induction cs generalizing bracket with
  | nil => simp [hostChars]
  | cons c cs ih =>
      rw [hostChars]
      split
      · rfl
      · rw [List.length_cons, List.drop_succ_cons, List.cons_append, ih]

theorem length_hostChars_le (special bracket : Bool) (cs : List Char) :
    (hostChars special bracket cs).length ≤ cs.length := by
  have hall := congrArg List.length (hostChars_append_drop special bracket cs)
  rw [List.length_append] at hall
  omega

theorem hostChars_of_ends (h : Ends special after) (bracket : Bool) :
    hostChars special bracket after = [] := by
  cases after with
  | nil => rw [hostChars]
  | cons c rest => rw [hostChars, if_pos (Or.inr (h c rest rfl))]

theorem hostChars_append_ends (h : Ends special after) (bracket : Bool) (cs : List Char) :
    hostChars special bracket (cs ++ after) = hostChars special bracket cs := by
  rcases hostChars_append special bracket cs after with ⟨hall, bracket', hmore⟩ | ⟨-, hmore⟩
  · rw [hmore, hostChars_of_ends h, List.append_nil, hall]
  · exact hmore

/-- What follows a host where nothing ends the authority is a port. -/
theorem drop_hostChars_cases (special bracket : Bool) {cs : List Char} (h : IsBare special cs) :
    cs.drop (hostChars special bracket cs).length = [] ∨
      ∃ port, cs.drop (hostChars special bracket cs).length = ':' :: port := by
  induction cs generalizing bracket with
  | nil => exact Or.inl (by rw [List.drop_nil])
  | cons c cs ih =>
      rw [hostChars]
      split
      · next hstop =>
        refine Or.inr ⟨cs, ?_⟩
        rcases hstop with ⟨rfl, -⟩ | hends
        · rfl
        · rw [h c List.mem_cons_self] at hends
          simp at hends
      · rw [List.length_cons, List.drop_succ_cons]
        exact ih _ fun d hd => h d (List.mem_cons_of_mem c hd)

private theorem isDigit_of_ends {c : Char} (h : endsAuthority special c = true) :
    c.isDigit = false := by
  simp only [endsAuthority, Bool.or_eq_true, Bool.and_eq_true, beq_iff_eq] at h
  rcases h with ((rfl | rfl) | rfl) | ⟨-, rfl⟩
  all_goals decide

/-- A port is the same whatever ends an authority. -/
theorem parsePort_append (h : Ends special after) (cs : List Char) :
    parsePort special (cs ++ after)
      = (parsePort special cs).map fun p => (p.1, p.2 ++ after) := by
  cases after with
  | nil => cases hport : parsePort special cs <;> simp [hport, Except.map]
  | cons c rest =>
      have hends := h c rest rfl
      have hdigit := isDigit_of_ends hends
      have htake : (cs ++ c :: rest).takeWhile Char.isDigit = cs.takeWhile Char.isDigit := by
        rw [List.takeWhile_append]
        split
        · next hall =>
          rw [List.takeWhile_cons_of_neg (by simp [hdigit]), List.append_nil]
          exact ((List.takeWhile_sublist _).eq_of_length hall).symm
        · rfl
      have hdrop : (cs ++ c :: rest).dropWhile Char.isDigit
          = cs.dropWhile Char.isDigit ++ c :: rest := by
        rw [List.dropWhile_append]
        split
        · next hall =>
          rw [List.isEmpty_iff.mp hall, List.dropWhile_cons_of_neg (by simp [hdigit])]
          rfl
        · rfl
      dsimp only [parsePort]
      rw [htake, hdrop]
      cases cs.dropWhile Char.isDigit with
      | nil =>
          simp only [List.nil_append, hends, Bool.true_or]
          split
          · rfl
          · rfl
      | cons d ds =>
          simp only [List.cons_append]
          split
          · rfl
          · rfl

/-- The host of a name. -/
def readHost (special : Bool) (name : List Char) : Except UrlError Host :=
  if special then Host.parse name else Host.parseOpaque name

/-- A host with the port after its name, and what follows that. -/
def readPort (scheme : String) (name : List Char) (host : Host) :
    List Char → Except UrlError (Host × Option Nat × List Char)
  | ':' :: digits =>
    if name.isEmpty then .error .emptyHost
    else (parsePort (isSpecial scheme) digits).map fun p =>
      (host, if p.1 = defaultPort? scheme then none else p.1, p.2)
  | rest => .ok (host, none, rest)

theorem readPort_of_not_colon {rest : List Char} (h : ∀ digits, rest ≠ ':' :: digits)
    (name : List Char) (host : Host) : readPort scheme name host rest = .ok (host, none, rest) := by
  unfold readPort
  split
  · next digits => exact absurd rfl (h digits)
  · rfl

theorem readPort_of_ends (h : Ends special after) (name : List Char) (host : Host) :
    readPort scheme name host after = .ok (host, none, after) := by
  refine readPort_of_not_colon (fun digits hcolon => ?_) name host
  exact absurd (h ':' digits hcolon) (by cases special <;> decide)

theorem readPort_nil (name : List Char) (host : Host) :
    readPort scheme name host [] = .ok (host, none, []) := rfl

theorem parseHostPort_eq (scheme : String) (cs : List Char) :
    parseHostPort scheme cs
      = if isSpecial scheme = true ∧ (hostChars (isSpecial scheme) false cs).isEmpty = true then
          .error .emptyHost
        else (readHost (isSpecial scheme) (hostChars (isSpecial scheme) false cs)).bind fun host =>
          readPort scheme (hostChars (isSpecial scheme) false cs) host
            (cs.drop (hostChars (isSpecial scheme) false cs).length) := by
  unfold parseHostPort readHost
  simp only [bind, Except.bind]
  generalize hostChars (isSpecial scheme) false cs = name
  generalize cs.drop name.length = rest
  split
  · rfl
  -- a port is read in the same way after a host of either kind
  split
  all_goals
    split
    · rfl
    · next host _ =>
      split
      · next digits =>
        show _ = readPort scheme name host (':' :: digits)
        rw [readPort]
        split
        · rfl
        · cases parsePort (isSpecial scheme) digits with
          | error e => rfl
          | ok found => rfl
      · next hcolon => exact (readPort_of_not_colon hcolon name host).symm

/-- A host and a port are the same whatever ends an authority. -/
theorem parseHostPort_append (h : IsBare (isSpecial scheme) place)
    (hafter : Ends (isSpecial scheme) after) :
    parseHostPort scheme (place ++ after)
      = (parseHostPort scheme place).map fun p => (p.1, p.2.1, p.2.2 ++ after) := by
  have hlength := length_hostChars_le (isSpecial scheme) false place
  have hrest := drop_hostChars_cases (isSpecial scheme) false h
  rw [parseHostPort_eq, parseHostPort_eq, hostChars_append_ends hafter,
    List.drop_append_of_le_length hlength]
  generalize place.drop (hostChars (isSpecial scheme) false place).length = rest at hrest ⊢
  generalize hostChars (isSpecial scheme) false place = name
  split
  · rfl
  cases readHost (isSpecial scheme) name with
  | error e => rfl
  | ok host =>
      rcases hrest with rfl | ⟨port, rfl⟩
      · rw [List.nil_append, Except.bind, Except.bind, readPort_of_ends hafter,
          readPort_nil]
        rfl
      · simp only [Except.bind, List.cons_append, readPort]
        split
        · rfl
        · rw [parsePort_append hafter]
          cases parsePort (isSpecial scheme) port with
          | error e => rfl
          | ok found => rfl

/-! ### Whole authorities -/

/-- A text is read as an authority and what follows it. -/
def HasAuthority (scheme : String) (cs : List Char) : Prop :=
  ∃ u, parseAuthority scheme cs = .ok u

theorem hasAuthority_iff {cs place : List Char} {user : String} {password : Option String}
    (h : splitUser (isSpecial scheme) cs = .ok (user, password, place)) :
    HasAuthority scheme cs ↔ ∃ host port rest,
      parseHostPort scheme place = .ok (host, port, rest) ∧
      ¬(host = .domain "" ∧ (user ≠ "" ∨ password.isSome = true)) := by
  unfold HasAuthority parseAuthority
  simp only [bind, Except.bind, h]
  constructor
  · rintro ⟨u, hu⟩
    split at hu
    · simp at hu
    · next hplace =>
      split at hu
      · simp at hu
      · next hnamed => exact ⟨_, _, _, hplace, hnamed⟩
  · rintro ⟨host, port, rest, hplace, hnamed⟩
    simp only [hplace, if_neg hnamed]
    exact ⟨_, rfl⟩

/-- An authority is one whatever ends it, but for a lone at sign. -/
theorem hasAuthority_append (h : IsBare (isSpecial scheme) authority)
    (hafter : Ends (isSpecial scheme) after) (hne : after ≠ []) :
    HasAuthority scheme (authority ++ after)
      ↔ authority ≠ ['@'] ∧ HasAuthority scheme authority := by
  obtain ⟨user, password, hself⟩ := splitUser_bare h
  have hmore := splitUser_append h hafter
  rw [hself] at hmore
  by_cases hlone : authority = ['@']
  · rw [if_pos ⟨hlone, hne⟩] at hmore
    refine iff_of_false ?_ fun hboth => hboth.1 hlone
    rintro ⟨u, hu⟩
    rw [parseAuthority, hmore] at hu
    simp [bind, Except.bind] at hu
  · rw [if_neg fun h => hlone h.1] at hmore
    have hplace := parseHostPort_append h.placeOf hafter
    rw [hasAuthority_iff hmore, hasAuthority_iff hself, hplace]
    cases parseHostPort scheme (placeOf authority) with
    | error e => simp [Except.map]
    | ok found =>
        obtain ⟨host, port, rest⟩ := found
        simp [Except.map, hlone]

/-! ### Blanks after an authority -/

/-- Nothing is in a text that would be kept at the end of an address. -/
def IsBlanks (cs : List Char) : Prop := ∀ c ∈ cs, c.toNat ≤ 0x20

theorem IsBlanks.ne {c d : Char} (h : IsBlanks gap) (hc : c ∈ gap) (hd : 0x20 < d.toNat) :
    c ≠ d := by
  rintro rfl
  have hle := h c hc
  omega

theorem IsBlanks.isBare (h : IsBlanks gap) (special : Bool) : IsBare special gap := by
  intro c hc
  have hslash := h.ne hc (d := '/') (by decide)
  have hquery := h.ne hc (d := '?') (by decide)
  have hfragment := h.ne hc (d := '#') (by decide)
  have hback := h.ne hc (d := '\\') (by decide)
  simp [endsAuthority, hslash, hquery, hfragment, hback]

theorem IsBlanks.hostChars (h : IsBlanks gap) (special bracket : Bool) :
    hostChars special bracket gap = gap := by
  induction gap generalizing bracket with
  | nil => rw [Url.hostChars]
  | cons c gap ih =>
      have hends := h.isBare special c List.mem_cons_self
      have hcolon := h.ne (d := ':') List.mem_cons_self (by decide)
      rw [Url.hostChars, if_neg (by simp [hends, hcolon]),
        ih fun d hd => h d (List.mem_cons_of_mem c hd)]

/-- A port that goes as far as the end of its text does not go on with blanks. -/
theorem parsePort_blanks (h : IsBlanks gap) (hne : gap ≠ []) {port : List Char}
    {found : Option Nat × List Char} (hport : parsePort special port = .ok found) :
    (∃ found, parsePort special (port ++ gap) = .ok found) ↔ ∃ c ∈ port, c.isDigit = false := by
  obtain ⟨b, gap, rfl⟩ := List.exists_cons_of_ne_nil hne
  have hdigit : b.isDigit = false :=
    Host.blank_forall (p := fun b => b.isDigit = false) (by decide) (h b List.mem_cons_self)
  have hends := h.isBare special b List.mem_cons_self
  have hback := h.ne (d := '\\') List.mem_cons_self (by decide)
  have hall := List.takeWhile_append_dropWhile (p := Char.isDigit) (l := port)
  dsimp only [parsePort] at hport ⊢
  cases hrest : port.dropWhile Char.isDigit with
  | nil =>
      have hdigits : ∀ c ∈ port, c.isDigit = true := List.dropWhile_eq_nil_iff.mp hrest
      have hdrop : (port ++ b :: gap).dropWhile Char.isDigit = b :: gap := by
        rw [List.dropWhile_append_of_pos hdigits, List.dropWhile_cons_of_neg (by simp [hdigit])]
      refine iff_of_false ?_ ?_
      · rintro ⟨found, hfound⟩
        rw [hdrop] at hfound
        simp [hends, hback] at hfound
      · rintro ⟨c, hc, hnone⟩
        rw [hdigits c hc] at hnone
        simp at hnone
  | cons d ds =>
      have hstop : d.isDigit = false := by
        have hfirst := List.head?_dropWhile_not Char.isDigit port
        rw [hrest] at hfirst
        simpa using hfirst
      have hmem : d ∈ port := (List.dropWhile_sublist _).subset (hrest ▸ List.mem_cons_self)
      have hdrop : (port ++ b :: gap).dropWhile Char.isDigit = d :: (ds ++ b :: gap) := by
        rw [List.dropWhile_append, hrest]
        rfl
      have htake : (port ++ b :: gap).takeWhile Char.isDigit = port.takeWhile Char.isDigit := by
        rw [List.takeWhile_append, if_neg]
        intro hlength
        have hlengths := congrArg List.length hall
        rw [List.length_append, hlength, hrest, List.length_cons] at hlengths
        omega
      rw [hrest] at hport
      rw [hdrop, htake]
      refine iff_of_true ⟨_, if_neg fun hbad => ?_⟩ ⟨d, hmem, hstop⟩
      rw [if_pos hbad] at hport
      simp at hport

/-! ### Hosts and ports with blanks after them -/

/-- What is left of a text after its host: nothing, or the port with its colon. -/
def portOf (special : Bool) (place : List Char) : List Char :=
  place.drop (Url.hostChars special false place).length

/-- A host that goes as far as its text is the text. -/
theorem hostChars_of_portOf (h : portOf special place = []) :
    hostChars special false place = place := by
  have hfront := hostChars_append_drop special false place
  unfold portOf at h
  rwa [h, List.append_nil] at hfront

/-- What has a host and a port has a host that can be read, and a port if anything is left. -/
theorem parseHostPort_ok (hbare : IsBare (isSpecial scheme) place) {host : Host}
    {port : Option Nat} {rest : List Char}
    (h : parseHostPort scheme place = .ok (host, port, rest)) :
    readHost (isSpecial scheme) (hostChars (isSpecial scheme) false place) = .ok host ∧
      (portOf (isSpecial scheme) place = [] ∨
        hostChars (isSpecial scheme) false place ≠ [] ∧ ∃ digits found,
          portOf (isSpecial scheme) place = ':' :: digits ∧
          parsePort (isSpecial scheme) digits = .ok found) := by
  have hrest := drop_hostChars_cases (isSpecial scheme) false hbare
  rw [parseHostPort_eq] at h
  replace h := of_check h
  unfold portOf
  generalize hostChars (isSpecial scheme) false place = name at h hrest ⊢
  cases hhost : readHost (isSpecial scheme) name with
  | error e => simp [hhost, Except.bind] at h
  | ok found =>
      rw [hhost, Except.bind] at h
      rcases hrest with hrest | ⟨digits, hrest⟩
      · rw [hrest, readPort_nil] at h
        obtain rfl : found = host := congrArg (·.1) (Except.ok.inj h)
        exact ⟨rfl, Or.inl hrest⟩
      · rw [hrest, readPort] at h
        split at h
        · simp at h
        · next hname =>
          cases hport : parsePort (isSpecial scheme) digits with
          | error e => simp [hport, Except.map] at h
          | ok p =>
              rw [hport, Except.map] at h
              obtain rfl : found = host := congrArg (·.1) (Except.ok.inj h)
              refine ⟨rfl, Or.inr ⟨?_, digits, p, hrest, hport⟩⟩
              simpa using hname

/-- Where there is a text there is a host. -/
theorem host_ne_empty (hbare : IsBare (isSpecial scheme) place) (hne : place ≠ []) {host : Host}
    {port : Option Nat} {rest : List Char}
    (h : parseHostPort scheme place = .ok (host, port, rest)) : host ≠ .domain "" := by
  obtain ⟨hhost, hport⟩ := parseHostPort_ok hbare h
  have hname : hostChars (isSpecial scheme) false place ≠ [] := by
    rcases hport with hnone | ⟨hname, -⟩
    · rwa [hostChars_of_portOf hnone]
    · exact hname
  rintro rfl
  unfold readHost at hhost
  split at hhost
  · exact Host.parse_ne_empty _ hhost
  · exact Host.parseOpaque_ne_empty hname hhost

/-- Blanks go on a host that goes as far as its text; a port they go on only after something
that is no digit. -/
theorem parseHostPort_blanks (h : IsBlanks gap) (hne : gap ≠ [])
    (hbare : IsBare (isSpecial scheme) place) {host : Host} {port : Option Nat} {rest : List Char}
    (hplace : parseHostPort scheme place = .ok (host, port, rest)) :
    (∃ found, parseHostPort scheme (place ++ gap) = .ok found) ↔
      match portOf (isSpecial scheme) place with
      | [] => ∃ host, readHost (isSpecial scheme) (place ++ gap) = .ok host
      | _ :: digits => ∃ c ∈ digits, c.isDigit = false := by
  obtain ⟨hhost, hport⟩ := parseHostPort_ok hbare hplace
  have hlength := length_hostChars_le (isSpecial scheme) false place
  have happend := hostChars_append (isSpecial scheme) false place gap
  rw [parseHostPort_eq]
  rcases hport with hnone | ⟨hname, digits, found, hsome, hport⟩
  · have hname := hostChars_of_portOf hnone
    obtain ⟨-, bracket, hall⟩ := happend.resolve_right fun hstop => hstop.1 hname
    rw [h.hostChars] at hall
    rw [hnone, hall, List.drop_length, if_neg (by simp [hne])]
    cases readHost (isSpecial scheme) (place ++ gap) with
    | error e => simp [Except.bind]
    | ok host =>
        rw [Except.bind, readPort_nil]
        simp
  · have hstop : hostChars (isSpecial scheme) false place ≠ place := by
      intro hall
      rw [portOf, hall, List.drop_length] at hsome
      simp at hsome
    have hsame := (happend.resolve_left fun hall => hstop hall.1).2
    rw [hsome, hsame, List.drop_append_of_le_length hlength]
    rw [portOf] at hsome
    rw [hsome, hhost, if_neg (by simp [hname]), Except.bind, List.cons_append, readPort,
      if_neg (by simp [hname])]
    refine Iff.trans ?_ (parsePort_blanks h hne hport)
    cases parsePort (isSpecial scheme) (digits ++ gap) with
    | error e => simp [Except.map]
    | ok found => simp [Except.map]

/-! ### Authorities with blanks after them -/

/-- Blanks can go on the host or the port of an address that is not one of the web. -/
def TakesBlanks (place gap : List Char) : Prop :=
  match portOf false place with
  | [] => place.head? ≠ some '[' ∧ ∀ c ∈ gap, c ∉ Host.opaqueForbidden
  | _ :: digits => ∃ c ∈ digits, c.isDigit = false

instance (place gap : List Char) : Decidable (TakesBlanks place gap) :=
  match h : portOf false place with
  | [] =>
    have := List.decidableBAll (fun c => c ∉ Host.opaqueForbidden) gap
    decidable_of_iff (place.head? ≠ some '[' ∧ ∀ c ∈ gap, c ∉ Host.opaqueForbidden)
      (by unfold TakesBlanks; rw [h])
  | _ :: digits =>
    have := List.decidableBEx (fun c => c.isDigit = false) digits
    decidable_of_iff (∃ c ∈ digits, c.isDigit = false) (by unfold TakesBlanks; rw [h])

/-- A port in an address of the web is made of digits only. -/
theorem isDigit_of_parsePort {digits : List Char} {found : Option Nat × List Char}
    (hbare : IsBare true digits) (h : parsePort true digits = .ok found) :
    ∀ c ∈ digits, c.isDigit = true := by
  dsimp only [parsePort] at h
  cases hrest : digits.dropWhile Char.isDigit with
  | nil => exact List.dropWhile_eq_nil_iff.mp hrest
  | cons d ds =>
      have hmem : d ∈ digits :=
        (List.dropWhile_sublist _).subset (hrest ▸ List.mem_cons_self)
      have hends := hbare d hmem
      have hback : d ≠ '\\' := by
        rintro rfl
        simp [endsAuthority] at hends
      simp [hrest, hends, hback] at h

/-- **Blanks after an authority leave it one only outside the web.** -/
theorem hasAuthority_blanks (h : IsBlanks gap) (hne : gap ≠ [])
    (hbare : IsBare (isSpecial scheme) authority) (hok : HasAuthority scheme authority) :
    HasAuthority scheme (authority ++ gap)
      ↔ isSpecial scheme = false ∧ TakesBlanks (placeOf authority) gap := by
  have hsign : '@' ∉ gap := fun hmem => h.ne hmem (d := '@') (by decide) rfl
  obtain ⟨user, password, hself⟩ := splitUser_bare hbare
  obtain ⟨user', password', hmore⟩ := splitUser_bare (hbare.append (h.isBare _))
  rw [hasAuthority_iff hself] at hok
  obtain ⟨host, port, rest, hplace, -⟩ := hok
  rw [placeOf_append _ hsign] at hmore
  have hblanks := parseHostPort_blanks h hne hbare.placeOf hplace
  obtain ⟨hhost, hport⟩ := parseHostPort_ok hbare.placeOf hplace
  have hany : HasAuthority scheme (authority ++ gap)
      ↔ ∃ found, parseHostPort scheme (placeOf authority ++ gap) = .ok found := by
    rw [hasAuthority_iff hmore]
    constructor
    · rintro ⟨host, port, rest, hfound, -⟩
      exact ⟨_, hfound⟩
    · rintro ⟨⟨host, port, rest⟩, hfound⟩
      refine ⟨host, port, rest, hfound, fun hempty => ?_⟩
      refine host_ne_empty (hbare.placeOf.append (h.isBare _)) ?_ hfound hempty.1
      simp [hne]
  rw [hany, hblanks]
  have hplaceBare := hbare.placeOf
  cases hspecial : isSpecial scheme with
  | false =>
      rw [hspecial] at hhost
      unfold TakesBlanks
      cases hrest : portOf false (placeOf authority) with
      | nil =>
          rw [hostChars_of_portOf hrest] at hhost
          simpa [readHost] using Host.parseOpaque_append hhost hne h
      | cons c digits => simp
  | true =>
      rw [hspecial] at hport hplaceBare
      refine iff_of_false ?_ fun hboth => absurd hboth.1 (by decide)
      rcases hport with hnone | ⟨-, digits, found, hsome, hport⟩
      · rw [hnone]
        rintro ⟨host', hread⟩
        obtain ⟨front, last, rfl⟩ := (List.eq_nil_or_concat gap).resolve_left hne
        have hlast : last.toNat ≤ 0x20 := h last (by simp)
        obtain ⟨e, he⟩ := Host.parse_concat hlast (placeOf authority ++ front)
        rw [List.append_assoc] at he
        rw [List.concat_eq_append, readHost, if_pos rfl, he] at hread
        simp at hread
      · rw [hsome]
        rintro ⟨c, hc, hnone⟩
        have hdigits : IsBare true digits := fun d hd =>
          hplaceBare d (List.mem_of_mem_drop (i := _) (hsome ▸ List.mem_cons_of_mem _ hd))
        rw [isDigit_of_parsePort hdigits hport c hc] at hnone
        simp at hnone

end ParameterManager.Url
