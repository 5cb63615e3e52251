/-
The address of the interface below the address of a server.

The version of the interface is put after a slash at the end of a text that is an address of
the web by itself.  Whatever that text is, the version comes to be the last segment of the
path, unless the text has a query or a fragment that takes it in.  What is read before the
path has no slash in it, so the version is still there when the path is read; and a text that
is no more than a scheme and slashes, to which the version would be a host, is no address.
-/
import ParameterManager.Client
import ParameterManager.Proofs.Url.Extend

namespace ParameterManager.Url

/-! ### What is read before a path -/

/-- A text is read up to some of its characters, and there is no slash before those. -/
def ReadsTo (cs after : List Char) : Prop := ∃ front, cs = front ++ after ∧ '/' ∉ front

theorem ReadsTo.refl (cs : List Char) : ReadsTo cs cs := ⟨[], rfl, List.not_mem_nil⟩

theorem ReadsTo.trans {cs ds es : List Char} (h : ReadsTo cs ds) (h' : ReadsTo ds es) :
    ReadsTo cs es := by
  obtain ⟨front, rfl, hfront⟩ := h
  obtain ⟨front', rfl, hfront'⟩ := h'
  refine ⟨front ++ front', (List.append_assoc ..).symm, ?_⟩
  rw [List.mem_append, not_or]
  exact ⟨hfront, hfront'⟩

/-- What starts with a slash at the end of a text is still there. -/
theorem ReadsTo.keeps_end {cs ds after : List Char} (h : ReadsTo (cs ++ '/' :: ds) after) :
    ∃ before, after = before ++ '/' :: ds := by
  obtain ⟨front, heq, hfront⟩ := h
  rcases List.append_eq_append_iff.mp heq with ⟨more, rfl, hmore⟩ | ⟨before, -, rfl⟩
  · cases more with
    | nil => exact ⟨[], hmore.symm⟩
    | cons c more =>
        obtain ⟨rfl, -⟩ := List.cons.inj hmore
        exact absurd (List.mem_append_right _ List.mem_cons_self) hfront
  · exact ⟨before, rfl⟩

theorem readsTo_hostChars (special bracket : Bool) (cs : List Char) :
    ReadsTo cs (cs.drop (hostChars special bracket cs).length) := by
  induction cs generalizing bracket with
  | nil => exact .refl []
  | cons c cs ih =>
      unfold hostChars
      split
      · exact .refl (c :: cs)
      · next hends =>
        obtain ⟨front, heq, hfront⟩ := ih ((bracket ∨ c = '[') ∧ c ≠ ']')
        refine ⟨c :: front, congrArg (c :: ·) heq, ?_⟩
        rw [List.mem_cons, not_or]
        refine ⟨?_, hfront⟩
        rintro rfl
        exact hends (Or.inr rfl)

/-- A check that has been passed. -/
theorem of_check {α : Type} {p : Prop} [Decidable p] {e : UrlError}
    {result : Except UrlError α} {a : α} (h : (if p then .error e else result) = .ok a) :
    result = .ok a := by
  split at h
  · simp at h
  · exact h

theorem readsTo_of_parsePort {special : Bool} {cs after : List Char} {port : Option Nat}
    (h : parsePort special cs = .ok (port, after)) : ReadsTo cs after := by
  have hafter : cs.dropWhile Char.isDigit = after := by
    dsimp only [parsePort] at h
    exact congrArg Prod.snd (Except.ok.inj (of_check h))
  refine ⟨cs.takeWhile Char.isDigit, ?_, ?_⟩
  · rw [← hafter, List.takeWhile_append_dropWhile]
  · intro hslash
    exact absurd (List.all_eq_true.mp List.all_takeWhile _ hslash) (by decide)

theorem readsTo_of_parseHostPort {scheme : String} {cs after : List Char} {host : Host}
    {port : Option Nat} (h : parseHostPort scheme cs = .ok (host, port, after)) :
    ReadsTo cs after := by
  have hname := readsTo_hostChars (isSpecial scheme) false cs
  unfold parseHostPort at h
  simp only [bind, Except.bind] at h
  generalize cs.drop (hostChars (isSpecial scheme) false cs).length = rest at h hname
  replace h := of_check h
  refine hname.trans ?_
  -- hosts of either kind are read before the same end: a port after a colon, or none
  split at h
  all_goals
    split at h
    · simp at h
    · split at h
      · next digits =>
        replace h := of_check h
        split at h
        · simp at h
        · next found hport =>
          obtain rfl : found.2 = after := congrArg (·.2.2) (Except.ok.inj h)
          have hcolon : ReadsTo (':' :: digits) digits := ⟨[':'], rfl, by decide⟩
          exact hcolon.trans (readsTo_of_parsePort hport)
      · obtain rfl : rest = after := congrArg (·.2.2) (Except.ok.inj h)
        exact .refl rest

theorem readsTo_of_splitUser {special : Bool} {cs after : List Char} {user : String}
    {password : Option String} (h : splitUser special cs = .ok (user, password, after)) :
    ReadsTo cs after := by
  dsimp only [splitUser] at h
  have hslash : '/' ∉ cs.takeWhile (!endsAuthority special ·) := fun hmem =>
    absurd (List.all_eq_true.mp List.all_takeWhile _ hmem) (by cases special <;> decide)
  have hcs := (List.takeWhile_append_dropWhile (p := (!endsAuthority special ·)) (l := cs)).symm
  generalize cs.takeWhile (!endsAuthority special ·) = authority at h hslash hcs
  generalize cs.dropWhile (!endsAuthority special ·) = rest at h hcs
  split at h
  · have hafter : (authority.reverse.takeWhile (· ≠ '@')).reverse ++ rest = after :=
      congrArg (·.2.2) (Except.ok.inj (of_check h))
    -- the host is what stands after the last at sign
    refine ⟨(authority.reverse.dropWhile (· ≠ '@')).reverse, ?_, ?_⟩
    · rw [← hafter, ← List.append_assoc, ← List.reverse_append, List.takeWhile_append_dropWhile,
        List.reverse_reverse]
      exact hcs
    · intro hmem
      have hrest := (List.dropWhile_sublist _).subset (List.mem_reverse.mp hmem)
      exact hslash (List.mem_reverse.mp hrest)
  · obtain rfl : cs = after := congrArg (·.2.2) (Except.ok.inj h)
    exact .refl cs

theorem parseAuthority_ok {scheme : String} {cs : List Char} {u : Url}
    (h : parseAuthority scheme cs = .ok u) :
    u.scheme = scheme ∧ ∃ after, ReadsTo cs after ∧
      u.path = .segments (parsePath (isSpecial scheme) after) ∧
      splitTail (isSpecial scheme) after = (u.query, u.fragment) := by
  simp only [parseAuthority, bind, Except.bind] at h
  split at h
  · simp at h
  · next user huser =>
    split at h
    · simp at h
    · next place hplace =>
      obtain rfl := Except.ok.inj (of_check h)
      exact ⟨rfl, _, (readsTo_of_splitUser huser).trans (readsTo_of_parseHostPort hplace), rfl, rfl⟩

/-- An authority that must have a host is not empty. -/
theorem parseAuthority_nil {scheme : String} (h : isSpecial scheme = true) (u : Url) :
    parseAuthority scheme [] ≠ .ok u := by
  intro hu
  simp [parseAuthority, parseHostPort, splitUser, hostChars, h, bind, Except.bind] at hu

/-! ### Paths without a tail -/

theorem dropWhile_ne_of_mem {d : Char} {cs : List Char} (h : d ∈ cs) :
    ∃ rest, cs.dropWhile (· ≠ d) = d :: rest := by
  induction cs with
  | nil => exact absurd h List.not_mem_nil
  | cons c cs ih =>
      by_cases hc : c = d
      · exact ⟨cs, by rw [List.dropWhile_cons_of_neg (by simpa using hc), hc]⟩
      · rw [List.dropWhile_cons_of_pos (by simpa using hc)]
        exact ih ((List.mem_cons.mp h).resolve_left (Ne.symm hc))

private theorem takeWhile_eq_self {holds : Char → Bool} {cs : List Char}
    (h : ∀ c ∈ cs, holds c = true) : cs.takeWhile holds = cs := by
  have hall : (cs ++ []).takeWhile holds = cs ++ [].takeWhile holds :=
    List.takeWhile_append_of_pos h
  rwa [List.takeWhile_nil, List.append_nil] at hall

/-- Without a query and a fragment all that follows an authority is the path. -/
theorem rawPath_eq_self {special : Bool} {cs : List Char}
    (h : splitTail special cs = (none, none)) : rawPath cs = cs := by
  have hfragment : '#' ∉ cs := by
    intro hmem
    obtain ⟨rest, hrest⟩ := dropWhile_ne_of_mem hmem
    have hnone := congrArg Prod.snd h
    simp only [splitTail, hrest, reduceCtorEq] at hnone
  have hbefore : cs.takeWhile (· ≠ '#') = cs :=
    takeWhile_eq_self fun c hc => decide_eq_true fun heq => hfragment (heq ▸ hc)
  have hquery : '?' ∉ cs := by
    intro hmem
    obtain ⟨rest, hrest⟩ := dropWhile_ne_of_mem hmem
    have hnone := congrArg Prod.fst h
    simp only [splitTail, hbefore, hrest, reduceCtorEq] at hnone
  exact takeWhile_eq_self fun c hc =>
    decide_eq_true ⟨fun heq => hquery (heq ▸ hc), fun heq => hfragment (heq ▸ hc)⟩

/-! ### The last segment of a path -/

/-- A raw segment that is no dot segment comes last in the path that it ends. -/
private theorem pushRaw_append {raw : List Char} (hdots : isDoubleDot raw = false)
    (hdot : isSingleDot raw = false) (stack : List String) (raws : List (List Char)) :
    ∃ stack', pushRaw stack (raws ++ [raw]) = String.ofList raw :: stack' := by
  induction raws generalizing stack with
  | nil =>
      refine ⟨stack, ?_⟩
      simp only [List.nil_append, pushRaw, hdots, hdot, Bool.false_eq_true, if_false]
  | cons r raws ih =>
      rw [List.cons_append, pushRaw]
      split
      · exact ih _
      split
      · exact ih _
      · exact ih _

/-- The last segment of a raw text without separators is encoded and put at the end. -/
theorem resolvePath_append {special : Bool} {last : List Char} (hslash : '/' ∉ last)
    (hback : '\\' ∉ last) (hdots : isDoubleDot (Percent.encodeChars Percent.inPath last) = false)
    (hdot : isSingleDot (Percent.encodeChars Percent.inPath last) = false) (segments : List String)
    {raw : List Char} (hraw : raw = last ∨ ∃ before, raw = before ++ '/' :: last) :
    ∃ list, resolvePath special segments raw
      = list ++ [String.ofList (Percent.encodeChars Percent.inPath last)] := by
  have hsame : last.map (fun c => if c = '\\' then '/' else c) = last := by
    refine (List.map_congr_left fun c hc => if_neg ?_).trans (List.map_id last)
    rintro rfl
    exact hback hc
  have hone : last.splitOn '/' = [last] := List.splitOn_eq_singleton hslash
  have hsplit : ∃ raws, splitPath special raw = raws ++ [last] := by
    rcases hraw with rfl | ⟨before, rfl⟩
    · refine ⟨[], ?_⟩
      cases special with
      | false => simp only [splitPath, Bool.false_eq_true, if_false, hone, List.nil_append]
      | true => simp only [splitPath, if_true, hsame, hone, List.nil_append]
    · cases special with
      | false =>
          refine ⟨before.splitOn '/', ?_⟩
          simp only [splitPath, Bool.false_eq_true, if_false, List.splitOn_append_cons_self, hone]
      | true =>
          refine ⟨(before.map fun c => if c = '\\' then '/' else c).splitOn '/', ?_⟩
          have hmap : (before ++ '/' :: last).map (fun c => if c = '\\' then '/' else c)
              = before.map (fun c => if c = '\\' then '/' else c) ++ '/' :: last := by
            rw [List.map_append, List.map_cons, hsame]
            rfl
          simp only [splitPath, if_true, hmap, List.splitOn_append_cons_self, hone]
  obtain ⟨raws, hsplit⟩ := hsplit
  obtain ⟨stack, hstack⟩ := pushRaw_append hdots hdot segments.reverse
    (raws.map (Percent.encodeChars Percent.inPath))
  refine ⟨stack.reverse, ?_⟩
  rw [resolvePath, hsplit, List.map_append, List.map_singleton, addSegments, hstack,
    List.reverse_cons]

/-- The version of the interface, which has nothing to be encoded. -/
def version : List Char := ['v', '1']

private theorem resolvePath_version {special : Bool} {raw : List Char} (segments : List String)
    (hraw : raw = version ∨ ∃ before, raw = before ++ '/' :: version) :
    ∃ list, resolvePath special segments raw = list ++ [Client.apiVersion] :=
  resolvePath_append (by decide) (by decide) (by decide +kernel) (by decide +kernel) segments hraw

theorem parsePath_version (special : Bool) {before : List Char}
    (h : rawPath (before ++ '/' :: version) = before ++ '/' :: version) :
    ∃ list, parsePath special (before ++ '/' :: version) = list ++ [Client.apiVersion] := by
  unfold parsePath
  rw [h]
  cases before with
  | nil =>
      simp only [List.nil_append, true_or, if_true]
      exact resolvePath_version [] (Or.inl rfl)
  | cons c before =>
      simp only [List.cons_append]
      split
      · exact resolvePath_version [] (Or.inr ⟨before, rfl⟩)
      · exact resolvePath_version [] (Or.inr ⟨c :: before, rfl⟩)

/-! ### Schemes -/

theorem scheme_of_parseFile {cs : List Char} {u : Url} (h : parseFile cs = .ok u) :
    u.scheme = "file" := by
  simp only [parseFile, bind, Except.bind] at h
  split at h
  · split at h
    · split at h
      · rw [← Except.ok.inj h]
      · split at h
        · simp at h
        · rw [← Except.ok.inj h]
    · rw [← Except.ok.inj h]
  · rw [← Except.ok.inj h]

theorem scheme_of_parseScheme {scheme : String} {rest : List Char} {u : Url}
    (h : parseScheme scheme rest = .ok u) : u.scheme = scheme := by
  unfold parseScheme at h
  split at h
  · next hfile => rw [scheme_of_parseFile h, hfile]
  split at h
  · exact (parseAuthority_ok h).1
  split at h
  · exact (parseAuthority_ok h).1
  · rw [← Except.ok.inj h]
  · rw [← Except.ok.inj h]

/-- An address of the web has an authority after any number of slashes. -/
theorem parseScheme_web {scheme : String} (h : scheme = "http" ∨ scheme = "https")
    (rest : List Char) :
    isSpecial scheme = true ∧
      parseScheme scheme rest = parseAuthority scheme (rest.dropWhile isSlash) := by
  have hfile : scheme ≠ "file" := by rcases h with rfl | rfl <;> decide
  have hspecial : isSpecial scheme = true := by rcases h with rfl | rfl <;> decide
  refine ⟨hspecial, ?_⟩
  unfold parseScheme
  rw [if_neg hfile, if_pos hspecial]

/-- What is put after an address with a scheme follows what follows the scheme. -/
theorem splitScheme?_append {cs rest : List Char} {scheme : String}
    (h : splitScheme? cs = some (scheme, rest)) (more : List Char) :
    splitScheme? (cs ++ more) = some (scheme, rest ++ more) := by
  dsimp only [splitScheme?] at h ⊢
  generalize (fun c : Char => c.isAlphanum || c == '+' || c == '-' || c == '.') = isPart at h ⊢
  split at h
  · next c name after htake hdrop =>
    -- the colon is in the text, so the scheme ends where it did
    have hshort : (cs.takeWhile isPart).length ≠ cs.length := by
      intro hall
      have hlen := congrArg List.length (List.takeWhile_append_dropWhile (p := isPart) (l := cs))
      rw [List.length_append, hall, hdrop, List.length_cons] at hlen
      omega
    have htake' : (cs ++ more).takeWhile isPart = c :: name := by
      rw [List.takeWhile_append, if_neg hshort, htake]
    have hdrop' : (cs ++ more).dropWhile isPart = ':' :: (after ++ more) := by
      rw [List.dropWhile_append, if_neg (by simp [hdrop]), hdrop, List.cons_append]
    rw [htake', hdrop']
    split at h
    · next halpha =>
      obtain ⟨rfl, rfl⟩ := Prod.mk.inj (Option.some.inj h)
      exact if_pos halpha
    · simp at h
  · simp at h

/-! ### Ends of texts -/

/-- What is left out at the end of a text only because it stands there. -/
def blanksAfter (s : String) : List Char :=
  (((s.toList.dropWhile isPadding).reverse.takeWhile isPadding).reverse).filter (!isLeftOut ·)

/-- It is not left out where the version follows it. -/
theorem clean_append_version (s : String) :
    clean (s ++ "/" ++ Client.apiVersion) = clean s ++ (blanksAfter s ++ '/' :: version) := by
  have hchars : (s ++ "/" ++ Client.apiVersion).toList = s.toList ++ '/' :: version := by
    simp [Client.apiVersion, version]
  have hfront : (s.toList ++ '/' :: version).dropWhile isPadding
      = s.toList.dropWhile isPadding ++ '/' :: version := by
    rw [List.dropWhile_append]
    split
    · next hall =>
      rw [List.isEmpty_iff.mp hall]
      decide
    · rfl
  unfold blanksAfter
  generalize hcs : s.toList.dropWhile isPadding = cs at hfront
  have hend : ((cs ++ '/' :: version).reverse.dropWhile isPadding).reverse
      = cs ++ '/' :: version := by
    rw [List.reverse_append, List.dropWhile_append]
    show (['1', 'v', '/'] ++ cs.reverse).reverse = _
    rw [List.reverse_append, List.reverse_reverse]
    rfl
  have hcut : cs = (cs.reverse.dropWhile isPadding).reverse
      ++ (cs.reverse.takeWhile isPadding).reverse := by
    rw [← List.reverse_append, List.takeWhile_append_dropWhile, List.reverse_reverse]
  have hkeep : ('/' :: version).filter (!isLeftOut ·) = '/' :: version := by decide
  rw [clean, hchars, hfront, hend, clean, hcs, List.filter_append, hkeep, ← List.append_assoc,
    ← List.filter_append, ← hcut]

/-! ### Base addresses -/

/-- An address of the web, and the address of the interface below it, which has neither a
query nor a fragment. -/
structure IsBase (serverUrl : String) (u : Url) : Prop where
  address : ∃ base, parse serverUrl = .ok base
  interface : parse (serverUrl ++ "/" ++ Client.apiVersion) = .ok u
  web : u.isWeb = true
  noQuery : u.query = none
  noFragment : u.fragment = none

private theorem toOption_eq_some {α : Type} {result : Except UrlError α} {a : α} :
    result.toOption = some a ↔ result = .ok a := by
  cases result with
  | ok b => simp [Except.toOption]
  | error e => simp [Except.toOption]

instance (serverUrl : String) (u : Url) : Decidable (IsBase serverUrl u) :=
  decidable_of_iff ((parse serverUrl).toOption.isSome = true ∧
      (parse (serverUrl ++ "/" ++ Client.apiVersion)).toOption = some u ∧
      u.isWeb = true ∧ u.query = none ∧ u.fragment = none) <| by
    simp only [Option.isSome_iff_exists, toOption_eq_some]
    exact ⟨fun ⟨h1, h2, h3, h4, h5⟩ => ⟨h1, h2, h3, h4, h5⟩,
      fun h => ⟨h.address, h.interface, h.web, h.noQuery, h.noFragment⟩⟩

/-- **The version of the interface is the last segment of its path.** -/
theorem IsBase.path {serverUrl : String} {u : Url} (h : IsBase serverUrl u) :
    ∃ list, u.path = .segments (list ++ [Client.apiVersion]) := by
  obtain ⟨base, hbase⟩ := h.address
  have hu := h.interface
  have hclean := clean_append_version serverUrl
  unfold parse at hbase hu
  cases hscheme : splitScheme? (clean serverUrl) with
  | none => simp [hscheme] at hbase
  | some found =>
      obtain ⟨scheme, rest⟩ := found
      simp only [hscheme] at hbase
      simp only [hclean, splitScheme?_append hscheme] at hu
      have hweb : scheme = "http" ∨ scheme = "https" := by
        have hisWeb := h.web
        rw [isWeb, scheme_of_parseScheme hu] at hisWeb
        simpa using hisWeb
      obtain ⟨hspecial, hrest⟩ := parseScheme_web hweb rest
      rw [hrest] at hbase
      rw [(parseScheme_web hweb _).2] at hu
      -- the text has more than a scheme and slashes, so the version is no host
      have hne : (rest.dropWhile isSlash).isEmpty = false := by
        rw [Bool.eq_false_iff]
        intro hnil
        rw [List.isEmpty_iff.mp hnil] at hbase
        exact parseAuthority_nil hspecial base hbase
      rw [List.dropWhile_append, hne, if_neg Bool.false_ne_true, ← List.append_assoc] at hu
      obtain ⟨-, after, hreads, hpath, htail⟩ := parseAuthority_ok hu
      obtain ⟨before, rfl⟩ := hreads.keeps_end
      rw [h.noQuery, h.noFragment] at htail
      obtain ⟨list, hlist⟩ := parsePath_version (isSpecial scheme) (rawPath_eq_self htail)
      exact ⟨list, by rw [hpath, hlist]⟩

end ParameterManager.Url
