/-
What a reader gives off a value does not depend on where the value stands.

That a value is read cannot be said of a value of any kind, since most readers want one of a kind
of their own.  But if a reader gives something off the text of a value, with some blanks before it
and something behind it, then it takes exactly that text, and it gives the same off it with any
other blanks before it and anything else behind it.  Every wire is `Steady` in this way: each goes
through a text in steps that the text alone settles.
-/
import ParameterManager.Proofs.Json.Denotation
import ParameterManager.Proofs.Json.Gives

namespace ParameterManager.Json

open Utf8 (Piece)

variable {α β : Type}

/-! ### What is read once is read always -/

/-- What a reader gives once off a text, another gives always, as long as what follows it is of
some kind. -/
def Repeats (r r' : Reader α) (cs : List Char) (follows : List Piece → Prop) : Prop :=
  ∀ ⦃c c' : Cursor⦄ ⦃a : α⦄ ⦃rest : List Piece⦄, follows rest → c.rest = cs.map .char ++ rest →
    r c = .ok (a, c') → c'.rest = rest ∧ ∀ rest', follows rest' → Reads r' cs a rest'

namespace Repeats

variable {r r' s s' : Reader α} {cs ds : List Char} {follows between : List Piece → Prop}

/-- A reader that always gives the same gives it again. -/
theorem of_reads {a : α} (h : ∀ rest, follows rest → Reads r cs a rest)
    (h' : ∀ rest, follows rest → Reads r' cs a rest) : Repeats r r' cs follows := by
  intro c c' a' rest hrest hc hok
  obtain ⟨rfl, hc'⟩ := (h rest hrest).eq_of_ok hc hok
  exact ⟨hc', h'⟩

theorem pure (a : α) : Repeats (Pure.pure a : Reader α) (Pure.pure a) [] follows :=
  of_reads (fun _ _ => Reads.pure) fun _ _ => Reads.pure

/-- A reader that gives nothing has nothing to repeat. -/
theorem of_never (h : Gives r fun _ => False) : Repeats r r' cs follows :=
  fun c c' a _ _ _ hok => (h c a c' hok).elim

/-- What two readers go on as decides. -/
theorem leads (h : ∀ rest, follows rest → Leads r cs s (ds.map .char ++ rest))
    (h' : ∀ rest, follows rest → Leads r' cs s' (ds.map .char ++ rest))
    (hs : Repeats s s' ds follows) : Repeats r r' (cs ++ ds) follows := by
  intro c c' a rest hrest hc hok
  rw [List.map_append, List.append_assoc] at hc
  obtain ⟨c1, hc1, hsame⟩ := h rest hrest c hc
  obtain ⟨hc', hall⟩ := hs hrest hc1 (hsame ▸ hok)
  exact ⟨hc', fun rest' hrest' => (h' rest' hrest').reads (hall rest' hrest')⟩

/-- Two readers, one after the other, repeat what both of them repeat. -/
theorem bind {q q' : Reader β} {f f' : β → Reader α} (hq : Repeats q q' cs between)
    (hbetween : ∀ rest, follows rest → between (ds.map .char ++ rest))
    (hf : ∀ b, Repeats (f b) (f' b) ds follows) :
    Repeats (q >>= f) (q' >>= f') (cs ++ ds) follows := by
  intro c c' a rest hrest hc hok
  rw [List.map_append, List.append_assoc] at hc
  obtain ⟨b, c1, hfirst, hsecond⟩ := Reads.bind_ok hok
  obtain ⟨hc1, hall⟩ := hq (hbetween rest hrest) hc hfirst
  obtain ⟨hc', hall'⟩ := hf b hrest hc1 hsecond
  exact ⟨hc', fun rest' hrest' => Reads.bind (hall _ (hbetween rest' hrest')) (hall' rest' hrest')⟩

/-- Of three readers the last two can be taken together. -/
theorem assoc {γ : Type} {q q' : Reader γ} {f f' : γ → Reader β} {g g' : β → Reader α}
    (h : Repeats (q >>= fun a => f a >>= g) (q' >>= fun a => f' a >>= g') cs follows) :
    Repeats (q >>= f >>= g) (q' >>= f' >>= g') cs follows := by
  intro c c' a rest hrest hc hok
  obtain ⟨b, c2, hfirst, hlast⟩ := Reads.bind_ok hok
  obtain ⟨d, c1, hq, hf⟩ := Reads.bind_ok hfirst
  have htogether : (q >>= fun a => f a >>= g) c = .ok (a, c') := by
    dsimp only [Bind.bind]
    simp only [hq, hf, hlast]
  obtain ⟨hc', hall⟩ := h hrest hc htogether
  exact ⟨hc', fun rest' hrest' => Reads.assoc (hall rest' hrest')⟩

/-- How much is left bounds a loop, and how far it is bounded does not matter. -/
theorem remaining {f : Nat → Reader α}
    (h : ∀ n n', cs.length ≤ n → cs.length ≤ n' → Repeats (f n) (f n') cs follows) :
    Repeats (Reader.remaining >>= f) (Reader.remaining >>= f) cs follows := by
  intro c c' a rest hrest hc hok
  have hlen : ∀ rest : List Piece, cs.length ≤ (cs.map Piece.char ++ rest).length := by
    intro rest
    rw [List.length_append, List.length_map]
    omega
  obtain ⟨n, c1, hfirst, hsecond⟩ := Reads.bind_ok hok
  have hremaining : Reads Reader.remaining [] _ (cs.map .char ++ rest) := Reads.remaining
  obtain ⟨rfl, hc1⟩ := hremaining.eq_of_ok hc hfirst
  refine ⟨(h _ _ (hlen rest) (hlen rest) hrest hc1 hsecond).1, fun rest' hrest' => ?_⟩
  exact Reads.look Reads.remaining
    ((h _ _ (hlen rest) (hlen rest') hrest hc1 hsecond).2 rest' hrest')

/-- A reader that looks at what comes next goes on from there. -/
theorem look {q q' : Reader β} {f f' : β → Reader α} (b : β)
    (h : ∀ rest, follows rest → Reads q [] b (cs.map .char ++ rest))
    (h' : ∀ rest, follows rest → Reads q' [] b (cs.map .char ++ rest))
    (hf : Repeats (f b) (f' b) cs follows) : Repeats (q >>= f) (q' >>= f') cs follows :=
  leads (fun rest hrest => Leads.of_reads (h rest hrest))
    (fun rest hrest => Leads.of_reads (h' rest hrest)) hf

/-- A reader that takes something goes on behind it. -/
theorem step {q q' : Reader β} {f f' : β → Reader α} (b : β)
    (h : ∀ rest, follows rest → Reads q cs b (ds.map .char ++ rest))
    (h' : ∀ rest, follows rest → Reads q' cs b (ds.map .char ++ rest))
    (hf : Repeats (f b) (f' b) ds follows) : Repeats (q >>= f) (q' >>= f') (cs ++ ds) follows :=
  leads (fun rest hrest => Leads.of_reads (h rest hrest))
    (fun rest hrest => Leads.of_reads (h' rest hrest)) hf

/-- A reader that takes nothing more comes after one that takes everything. -/
theorem then_nothing {q q' : Reader β} {f f' : β → Reader α} (hq : Repeats q q' cs follows)
    (hf : ∀ b, Repeats (f b) (f' b) [] follows) :
    Repeats (q >>= f) (q' >>= f') cs follows := by
  have h : Repeats (q >>= f) (q' >>= f') (cs ++ []) follows := bind hq (fun _ h => h) hf
  rwa [List.append_nil] at h

theorem taken {f f' : Unit → Reader α} {ch : Char} (hf : Repeats (f ()) (f' ()) cs follows) :
    Repeats (Reader.advance >>= f) (Reader.advance >>= f') (ch :: cs) follows := by
  have hadvance : ∀ rest, follows rest → Reads Reader.advance [ch] () (cs.map .char ++ rest) :=
    fun _ _ => Reads.advance
  exact step () hadvance hadvance hf

theorem token {f f' : Option Char → Reader α} {gap : List Char} {ch : Char} (hgap : Blank gap)
    (hch : isBlank ch = false) (hf : Repeats (f (some ch)) (f' (some ch)) (ch :: cs) follows) :
    Repeats (Reader.peekToken >>= f) (Reader.peekToken >>= f') (gap ++ ch :: cs) follows := by
  have hpeek : ∀ rest, follows rest →
      Reads Reader.peekToken gap (some ch) ((ch :: cs).map .char ++ rest) :=
    fun _ _ => Reads.peekToken hgap hch
  exact step (some ch) hpeek hpeek hf

end Repeats

/-! ### Values -/

/-- A reader gives something off the text of a value, with any blanks before it and whatever may
stand behind it. -/
def ReadsAnywhere (r : Reader α) (text : List Char) (a : α) : Prop :=
  ∀ gap rest, Blank gap → EndsNumber rest → Reads r (gap ++ text) a rest

theorem ReadsAnywhere.exists_ok {r : Reader α} {text : List Char} {a : α}
    (h : ReadsAnywhere r text a) : ∃ c c', c.rest = text.map .char ++ [] ∧ r c = .ok (a, c') := by
  have hreads : Reads r ([] ++ text) a [] := h [] [] blank_nil trivial
  have hc : text.map Piece.char = text.map Piece.char ++ [] := (List.append_nil _).symm
  obtain ⟨c', hok, -⟩ := hreads ⟨text.map .char, .start, false, false⟩ hc
  exact ⟨_, c', hc, hok⟩

/-- What a reader gives once off one text, it gives off another anywhere. -/
def Carries (r : Reader α) (text text' : List Char) : Prop :=
  ∀ ⦃gap : List Char⦄ ⦃c c' : Cursor⦄ ⦃a : α⦄ ⦃rest : List Piece⦄, Blank gap → EndsNumber rest →
    c.rest = (gap ++ text).map .char ++ rest → r c = .ok (a, c') →
    c'.rest = rest ∧ ReadsAnywhere r text' a

/-- What a reader gives once off the text of a value, it gives off it anywhere. -/
def Steady (r : Reader α) : Prop := ∀ ⦃text : List Char⦄, ValueText text → Carries r text text

namespace Carries

variable {r : Reader α} {text text' : List Char}

theorem repeats (h : Carries r text text) {gap : List Char} (hgap : Blank gap) :
    Repeats r r (gap ++ text) EndsNumber := by
  intro c c' a rest hrest hc hok
  obtain ⟨hc', hall⟩ := h hgap hrest hc hok
  exact ⟨hc', fun rest' => hall gap rest' hgap⟩

theorem readsAnywhere (h : Carries r text text') {a : α} (hread : ReadsAnywhere r text a) :
    ReadsAnywhere r text' a := by
  have hends : EndsNumber [] := trivial
  obtain ⟨c, c', hc, hok⟩ := hread.exists_ok
  exact (h blank_nil hends hc hok).2

/-- What is given may be changed, or refused. -/
theorem bind {f : α → Reader β} (h : Carries r text text')
    (hf : ∀ a, (∃ b, f a = pure b) ∨ Gives (f a) fun _ => False) :
    Carries (r >>= f) text text' := by
  intro gap c c' b rest hgap hrest hc hok
  obtain ⟨a, c1, hfirst, hsecond⟩ := Reads.bind_ok hok
  obtain ⟨hc1, hall⟩ := h hgap hrest hc hfirst
  rcases hf a with ⟨b', hb⟩ | hnever
  · rw [hb] at hsecond
    obtain ⟨rfl, rfl⟩ := Prod.mk.inj (Except.ok.inj hsecond)
    refine ⟨hc1, fun gap' rest' hgap' hrest' => ?_⟩
    refine Reads.then_nothing (hall gap' rest' hgap' hrest') ?_
    rw [hb]
    exact Reads.pure
  · exact (hnever c1 b c' hsecond).elim

theorem map {w : Wire α} (h : Carries w.read text text') (f : α → β) :
    Carries (w.map f).read text text' :=
  h.bind fun a => Or.inl ⟨f a, rfl⟩

/-- A text that is not `null` is read alike if it may be `null` and if it may not. -/
theorem optional {w : Wire α} (h : Carries w.read text text') {ch ch' : Char}
    {cs cs' : List Char} (htext : text = ch :: cs) (htext' : text' = ch' :: cs')
    (hch : isBlank ch = false) (hch' : isBlank ch' = false) (hn : ch ≠ 'n') (hn' : ch' ≠ 'n') :
    Carries (Wire.optional w).read text text' := by
  intro gap c c' a? rest hgap hrest hc hok
  subst htext htext'
  have hpeek : Reads Reader.peekToken gap (some ch) ((ch :: cs).map .char ++ rest) :=
    Reads.peekToken hgap hch
  have hsome := h.map some
  rw [List.map_append, List.append_assoc] at hc
  obtain ⟨ch?, c1, hfirst, hsecond⟩ := Reads.bind_ok hok
  obtain ⟨rfl, hc1⟩ := hpeek.eq_of_ok hc hfirst
  generalize hother : some ch = ch? at hsecond
  split at hsecond
  · exact absurd (Option.some.inj hother) hn
  obtain ⟨hc', hall⟩ := hsome blank_nil hrest hc1 hsecond
  refine ⟨hc', fun gap' rest' hgap' hrest' => Reads.token hgap' hch' ?_⟩
  generalize hother' : some ch' = ch?
  split
  · exact absurd (Option.some.inj hother') hn'
  exact hall [] rest' blank_nil hrest'

end Carries

namespace Steady

variable {r : Reader α}

/-- A reader that starts with the next token is steady if what it does from there is. -/
theorem ofToken {f : Char → Reader α}
    (h : ∀ ch cs, ValueText (ch :: cs) → Repeats (f ch) (f ch) (ch :: cs) EndsNumber) :
    Steady (withToken f) := by
  intro text htext gap c c' a rest hgap hrest hc hok
  obtain ⟨ch, cs, rfl, hch⟩ := htext.head
  have hpeek : Reads Reader.peekToken gap (some ch) ((ch :: cs).map .char ++ rest) :=
    Reads.peekToken hgap hch.apart.1
  rw [List.map_append, List.append_assoc] at hc
  obtain ⟨ch?, c1, hfirst, hsecond⟩ := Reads.bind_ok hok
  obtain ⟨rfl, hc1⟩ := hpeek.eq_of_ok hc hfirst
  obtain ⟨hc', hrepeats⟩ := h ch cs htext hrest hc1 hsecond
  exact ⟨hc', fun gap' rest' hgap' hrest' =>
    Reads.token hgap' hch.apart.1 (hrepeats rest' hrest')⟩

theorem map {w : Wire α} (h : Steady w.read) (f : α → β) : Steady (w.map f).read :=
  fun _ htext => (h htext).map f

theorem check {w : Wire α} (h : Steady w.read) (f : α → Except Cause β) :
    Steady (w.check f).read := by
  refine fun _ htext => (h htext).bind fun a => ?_
  cases f a with
  | ok b => exact Or.inl ⟨b, rfl⟩
  | error cause => exact Or.inr (Gives.failHere cause)

end Steady

/-! ### Texts and nothing -/

theorem repeats_stringRest {chars : List Char} (h : StringText chars)
    {follows : List Piece → Prop} :
    Repeats stringRest stringRest (chars ++ ['"']) follows := by
  intro c c' s rest _ hc hok
  obtain ⟨hc', hdenotes⟩ := denotes_of_stringRest h hc hok
  exact ⟨hc', fun rest' _ => hdenotes.reads rest'⟩

theorem steady_text (what : String) : Steady (Wire.text what).read := by
  refine Steady.ofToken fun ch cs htext => ?_
  split
  · next hch =>
    subst hch
    obtain ⟨chars, hchars, rfl⟩ := htext.string_of_quote
    exact Repeats.taken (repeats_stringRest hchars)
  · exact Repeats.of_never (Gives.mismatch what)

theorem steady_unit : Steady Wire.unit.read := by
  refine Steady.ofToken fun ch cs htext => ?_
  split
  · next hch =>
    subst hch
    obtain rfl := htext.null_of_n
    exact Repeats.taken (Repeats.of_reads (fun _ _ => Reads.word) fun _ _ => Reads.word)
  · exact Repeats.of_never (Gives.mismatch _)

theorem Steady.optional {w : Wire α} (h : Steady w.read) : Steady (Wire.optional w).read := by
  intro text htext
  obtain ⟨ch, cs, rfl, hch⟩ := htext.head
  by_cases hn : ch = 'n'
  · subst hn
    obtain rfl := htext.null_of_n
    have hnull : ∀ gap rest, Blank gap →
        Reads (Wire.optional w).read (gap ++ ['n', 'u', 'l', 'l']) none rest := by
      intro gap rest hgap
      have hword : Reads (Reader.word ['u', 'l', 'l']) ['u', 'l', 'l'] () rest := Reads.word
      exact Reads.token hgap (by decide) (Reads.taken (Reads.then_nothing hword Reads.pure))
    intro gap c c' a? rest hgap _ hc hok
    obtain ⟨rfl, hc'⟩ := (hnull gap rest hgap).eq_of_ok hc hok
    exact ⟨hc', fun gap' rest' hgap' _ => hnull gap' rest' hgap'⟩
  · exact (h htext).optional rfl rfl hch.apart.1 hch.apart.1 hn hn

/-! ### Numbers -/

private theorem repeats_floating (positive : Bool) (significand : Nat) (exponent : Int)
    {follows : List Piece → Prop} : Repeats (floating positive significand exponent)
      (floating positive significand exponent) [] follows := by
  unfold floating
  split
  · exact Repeats.pure _
  · exact Repeats.of_never (Gives.failHere _)

private theorem repeats_exponentPart {e : Char} {sign ds : List Char} (hsign : IsExponentSign sign)
    (hds : Digits ds) (positive : Bool) (significand : Nat) (exponent : Int) :
    Repeats (exponentPart positive significand exponent)
      (exponentPart positive significand exponent) (e :: (sign ++ ds)) EndsNumber := by
  obtain ⟨up, hup⟩ := reads_exponentSign hsign hds
  have hdigits : ∀ {rest}, EndsNumber rest → Reads Reader.digits ds ds rest :=
    fun h => reads_digits hds.2 h.digit
  obtain ⟨d, tail, rfl, hd⟩ := hds.head
  refine Repeats.taken (Repeats.step up (fun rest _ => hup rest) (fun rest _ => hup rest) ?_)
  refine Repeats.look (some d) (fun _ _ => Reads.peek) (fun _ _ => Reads.peek) ?_
  show Repeats (if (!d.isDigit) = true then _ else _) (if (!d.isDigit) = true then _ else _) _ _
  rw [if_neg (by rw [hd]; decide)]
  intro c c' number rest hrest hc hok
  obtain ⟨c1, hc1, hrest1⟩ := hdigits hrest c hc
  simp only [hc1] at hok
  cases hoverflow : exponentOverflow? 0 0 (d :: tail) with
  | none =>
      simp only [hoverflow] at hok
      obtain ⟨hc', hall⟩ := repeats_floating positive significand _ hrest hrest1 hok
      refine ⟨hc', fun rest' hrest' cur hcur => ?_⟩
      obtain ⟨cur1, hcur1, hleft⟩ := hdigits hrest' cur hcur
      simp only [hcur1, hoverflow]
      exact hall rest' hrest' cur1 hleft
  | some count =>
      simp only [hoverflow] at hok
      split at hok
      · cases hok
      next hsmall =>
      obtain ⟨rfl, rfl⟩ := Prod.mk.inj (Except.ok.inj hok)
      refine ⟨hrest1, fun rest' hrest' cur hcur => ?_⟩
      obtain ⟨cur1, hcur1, hleft⟩ := hdigits hrest' cur hcur
      simp only [hcur1, hoverflow, if_neg hsmall]
      exact ⟨cur1, rfl, hleft⟩

/-- Where the next character says whether an exponent follows, the text has one or it has none. -/
private theorem repeats_exponent {exponent : List Char} (h : ExponentText exponent)
    {positive : Bool} {significand : Nat} {e : Int} {f : Option Char → Reader Number}
    {otherwise : Reader Number}
    (hf : ∀ next, next ≠ some '.' → f next = if next = some 'e' ∨ next = some 'E' then
      exponentPart positive significand e else otherwise)
    (hotherwise : Repeats otherwise otherwise [] EndsNumber) :
    Repeats (Reader.peek >>= f) (Reader.peek >>= f) exponent EndsNumber := by
  have hleads : ∀ rest, EndsNumber rest → Leads (Reader.peek >>= f) []
      (if exponent = [] then otherwise else exponentPart positive significand e)
      (exponent.map .char ++ rest) := by
    intro rest hrest
    obtain ⟨hdot, hiff⟩ := next_of_exponent h hrest rfl
    refine Leads.look Reads.peek ?_
    rw [List.map_nil, List.nil_append, hf _ hdot]
    by_cases hempty : exponent = []
    · rw [if_pos hempty, if_neg fun he => hiff.mp he hempty]
      exact Leads.refl
    · rw [if_neg hempty, if_pos (hiff.mpr hempty)]
      exact Leads.refl
  refine Repeats.leads hleads hleads ?_
  cases h with
  | none => exact hotherwise
  | some _ hsign hds => exact repeats_exponentPart hsign hds positive significand e

private theorem repeats_fractionPart {ds exponent : List Char} (hds : Digits ds)
    (hexponent : ExponentText exponent) (positive : Bool) (significand : Nat) (e : Int) :
    Repeats (fractionPart positive significand e) (fractionPart positive significand e)
      ('.' :: (ds ++ exponent)) EndsNumber := by
  have hdigits : ∀ rest, EndsNumber rest →
      Reads Reader.digits ds ds (exponent.map .char ++ rest) :=
    fun rest h => reads_digits hds.2 (stops_afterWhole .none hexponent h)
  obtain ⟨d, tail, rfl, -⟩ := hds.head
  refine Repeats.taken (Repeats.step (d :: tail) hdigits hdigits ?_)
  exact repeats_exponent hexponent (fun _ _ => rfl) (repeats_floating _ _ _)

private theorem repeats_afterWhole {fraction exponent : List Char}
    (hfraction : FractionText fraction) (hexponent : ExponentText exponent) (positive : Bool)
    (ds : List Char) : Repeats (afterWhole positive ds) (afterWhole positive ds)
      (fraction ++ exponent) EndsNumber := by
  unfold afterWhole
  obtain ⟨significand, left⟩ := absorb 0 ds
  cases hfraction with
  | none =>
      refine repeats_exponent hexponent (fun next hdot => if_neg hdot) ?_
      split
      · exact Repeats.pure _
      · exact repeats_floating _ _ _
  | some hdigits =>
      refine Repeats.look (some '.') (fun _ _ => Reads.peek) (fun _ _ => Reads.peek) ?_
      rw [if_pos rfl]
      exact repeats_fractionPart hdigits hexponent positive significand left.length

theorem repeats_signedNumber {text : List Char} (h : NumberText text) :
    Repeats signedNumber signedNumber text EndsNumber := by
  have hunsigned : ∀ {ds fraction exponent : List Char} (positive : Bool), WholeText ds →
      FractionText fraction → ExponentText exponent →
      Repeats (numberRest positive) (numberRest positive) (ds ++ (fraction ++ exponent))
        EndsNumber := by
    intro ds fraction exponent positive hds hfraction hexponent
    have hleads : ∀ rest, EndsNumber rest → Leads (numberRest positive) ds
        (afterWhole positive ds) ((fraction ++ exponent).map .char ++ rest) := by
      intro rest hrest
      rw [numberRest_eq]
      exact leads_wholeThen hds (stops_afterWhole hfraction hexponent hrest)
    exact Repeats.leads hleads hleads (repeats_afterWhole hfraction hexponent positive ds)
  cases h with
  | minus hds hfraction hexponent =>
      refine Repeats.look (some '-') (fun _ _ => Reads.peek) (fun _ _ => Reads.peek) ?_
      exact Repeats.taken (hunsigned false hds hfraction hexponent)
  | plus hds hfraction hexponent =>
      have hall := hunsigned true hds hfraction hexponent
      obtain ⟨d, tail, rfl, hd⟩ := hds.1.head
      refine Repeats.look (some d) (fun _ _ => Reads.peek) (fun _ _ => Reads.peek) ?_
      split
      · next heq =>
        -- a digit is no sign
        exact absurd (Option.some.inj heq) (Text.ne_of_isDigit hd (by decide))
      · exact hall

theorem steady_count (bits : Nat) : Steady (Wire.count bits).read := by
  refine Steady.ofToken fun ch cs htext => ?_
  split
  · next hch =>
    refine Repeats.then_nothing (repeats_signedNumber (htext.number_of_digit hch)) fun n => ?_
    cases Wire.toCount bits n with
    | ok k => exact Repeats.pure k
    | error cause => exact Repeats.of_never (Gives.failHere cause)
  · exact Repeats.of_never (Gives.mismatch _)

/-! ### Choices -/

/-- A text that starts with the end of an object is no text of a string. -/
private theorem text_of_brace {what : String} {c c' : Cursor} {s : String} {rest : List Piece}
    (hc : c.rest = .char '}' :: rest) : (Wire.text what).read c ≠ .ok (s, c') := by
  intro hok
  obtain ⟨ch?, c1, hfirst, hsecond⟩ := Reads.bind_ok hok
  have hpeek : Reads Reader.peekToken [] (some '}') (.char '}' :: rest) :=
    Reads.peekToken blank_nil rfl
  obtain ⟨rfl, -⟩ := hpeek.eq_of_ok hc hfirst
  have hnever : Gives (mismatch what : Reader String) fun _ => False := Gives.mismatch what
  exact hnever c1 s c' hsecond

theorem steady_choice (variants : List (String × α)) : Steady (Wire.choice variants).read := by
  refine Steady.ofToken fun ch cs htext => ?_
  split
  · next hch =>
    subst hch
    exact ((steady_text "a string").check _ htext).repeats blank_nil
  split
  · next hch =>
    subst hch
    obtain ⟨members, hobject⟩ := htext.object_of_brace
    obtain ⟨body, hbody, hcs⟩ := hobject.written
    obtain rfl := (List.cons.inj hcs).2
    refine Repeats.taken ?_
    cases hbody with
    | nil hgap =>
        -- without a member there is no name to read
        refine Repeats.token hgap (by decide) fun c c' a rest _ hc hok => ?_
        obtain ⟨_, _, hname, -⟩ := Reads.bind_ok hok
        obtain ⟨_, _, htext, -⟩ := Reads.bind_ok hname
        exact absurd htext (text_of_brace hc)
    | @cons _ m _ sep text body hsep hmember hrest =>
        obtain ⟨gap, gap', hgap, hgap', hparts⟩ := hmember.parts
        have hname := (steady_text "variant identifier").check (Wire.chosen variants)
          (.string (hobject.names m List.mem_cons_self))
        have hvalue := (steady_unit (hobject.values m List.mem_cons_self)).repeats hgap'
        rw [List.append_assoc, List.append_assoc, hparts]
        refine Repeats.token hsep (by decide) ?_
        refine Repeats.bind (hname.repeats blank_nil) (fun rest _ => ?_) fun a => ?_
        · simp only [List.map_append, List.append_assoc]
          exact endsNumber_gap hgap rfl
        refine Repeats.step () (fun _ _ => Reads.colon hgap) (fun _ _ => Reads.colon hgap) ?_
        refine Repeats.bind hvalue (fun rest _ => ?_) fun _ => ?_
        · rw [List.map_append, List.append_assoc]
          exact hrest.ends rfl
        -- nothing but the end may follow
        cases hrest with
        | nil hgap => exact Repeats.token hgap (by decide) (Repeats.taken (Repeats.pure a))
        | cons hsep _ _ =>
            obtain ⟨gap, gap', hgap, -, rfl⟩ := hsep
            rw [List.append_assoc, List.append_assoc, List.cons_append]
            exact Repeats.token hgap (by decide) (Repeats.of_never (Gives.failHere _))
  · exact Repeats.of_never (Gives.failBeyond _)

end ParameterManager.Json
