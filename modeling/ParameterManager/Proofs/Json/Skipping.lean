/-
Every value can be skipped.

Skipping keeps the brackets that are still open in a list, so it does not follow the tree of a
value: having skipped one item it goes on inside the bracket above.  What it does from there to the
last bracket is therefore a reader of its own, `closing`, and a value is skipped if whatever it
stands inside is closed as well.  Nothing is lost in depth, since nothing is stacked but the list.
-/
import ParameterManager.Proofs.Json.Grammar

namespace ParameterManager.Json

open Utf8 (Piece)

/-! ### Strings -/

private theorem reads_skippedEscape_letter {c e : Char} (h : (c, e) ∈ escapeLetters)
    (rest : List Piece) : Reads skippedEscape [c] () rest := by
  have hsome : (letterEscape? c).isSome = true := by rw [letterEscape?_of_mem h]; rfl
  refine Reads.look Reads.peek ?_
  show Reads (if (letterEscape? c).isSome = true then _ else _) _ _ _
  rw [if_pos hsome]
  exact Reads.advance

private theorem reads_skippedEscape_number {quad : List Char} {n : Nat} (h : HexQuad quad n)
    (rest : List Piece) : Reads skippedEscape ('u' :: quad) () rest := by
  have hnone : ¬(letterEscape? 'u').isSome = true := by decide
  refine Reads.look Reads.peek ?_
  show Reads (if (letterEscape? 'u').isSome = true then _ else if 'u' = 'u' then _ else _) _ _ _
  rw [if_neg hnone, if_pos rfl]
  exact Reads.taken (Reads.then_nothing (h.reads rest) Reads.pure)

private theorem leads_skipStringBody_plain {c : Char} (h : IsPlainChar c) (n : Nat)
    (rest : List Piece) : Leads (skipStringBody (n + 1)) [c] (skipStringBody n) rest := by
  intro cur hcur
  replace hcur : cur.rest = .char c :: rest := hcur
  have hcontrol : ¬c.toNat < 0x20 := Nat.not_lt.mpr h.2.2
  refine ⟨cur.advance, by rw [Cursor.advance, hcur], ?_⟩
  simp only [skipStringBody, hcur, if_neg h.1, if_neg h.2.1, if_neg hcontrol]

private theorem leads_skipStringBody_escape {tail : List Char} {rest : List Piece}
    (h : Reads skippedEscape tail () rest) (n : Nat) :
    Leads (skipStringBody (n + 1)) ('\\' :: tail) (skipStringBody n) rest := by
  intro cur hcur
  replace hcur : cur.rest = .char '\\' :: (tail.map .char ++ rest) := hcur
  obtain ⟨c', hok, hc'⟩ := h cur.advance (by rw [Cursor.advance, hcur])
  have hne : ('\\' : Char) ≠ '"' := by decide
  refine ⟨c', hc', ?_⟩
  simp only [skipStringBody, hcur, if_neg hne, if_true, hok]

private theorem reads_skipStringBody {cs : List Char} (h : StringText cs) {n : Nat}
    (hn : cs.length < n) (rest : List Piece) :
    Reads (skipStringBody n) (cs ++ ['"']) () rest := by
  induction h generalizing n with
  | nil =>
      obtain ⟨m, rfl⟩ : ∃ m, n = m + 1 := ⟨n - 1, by simp at hn; omega⟩
      intro cur hcur
      replace hcur : cur.rest = .char '"' :: rest := hcur
      refine ⟨cur.advance, ?_, by rw [Cursor.advance, hcur]⟩
      simp only [skipStringBody, hcur, if_true]
  | plain hc _ ih =>
      obtain ⟨m, rfl⟩ : ∃ m, n = m + 1 := ⟨n - 1, by simp at hn; omega⟩
      have hm := ih (n := m) (by simp at hn; omega)
      exact (leads_skipStringBody_plain hc m _).reads hm
  | @letter c e cs hc _ ih =>
      obtain ⟨m, rfl⟩ : ∃ m, n = m + 1 := ⟨n - 1, by simp at hn; omega⟩
      have hm := ih (n := m) (by simp at hn; omega)
      exact (leads_skipStringBody_escape (reads_skippedEscape_letter hc _) m).reads hm
  | @number quad cs k hquad _ ih =>
      obtain ⟨m, rfl⟩ : ∃ m, n = m + 1 := ⟨n - 1, by simp at hn; omega⟩
      have hm := ih (n := m) (by simp at hn; omega)
      have hstep := leads_skipStringBody_escape (reads_skippedEscape_number hquad
        ((cs ++ ['"']).map .char ++ rest)) m
      have hall := hstep.reads hm
      rwa [List.cons_append, List.cons_append, ← List.append_assoc] at hall

theorem reads_skipString {cs : List Char} (h : StringText cs) (rest : List Piece) :
    Reads skipString (cs ++ ['"']) () rest := by
  intro cur hcur
  have hn : cs.length < cur.rest.length + 1 := by
    rw [hcur]
    simp only [List.length_append, List.length_map]
    omega
  exact reads_skipStringBody h hn rest cur hcur

/-! ### Numbers -/

private theorem reads_skipExponent {e : Char} {sign ds : List Char} (hsign : IsExponentSign sign)
    (hds : Digits ds) {rest : List Piece} (h : EndsNumber rest) :
    Reads skipExponent (e :: (sign ++ ds)) () rest := by
  obtain ⟨up, hup⟩ := reads_exponentSign hsign hds
  have hdigits := reads_digits hds.2 h.digit
  obtain ⟨d, tail, rfl, hd⟩ := hds.head
  refine Reads.taken (Reads.bind (hup rest) (Reads.look Reads.peek ?_))
  show Reads (if d.isDigit = true then _ else _) _ _ _
  rw [if_pos hd]
  exact Reads.then_nothing hdigits Reads.pure

private theorem reads_skipExponent_if {exponent : List Char} (hexponent : ExponentText exponent)
    {rest : List Piece} (h : EndsNumber rest) {next : Option Char}
    (hnext : (exponent.map Piece.char ++ rest).head?.map Piece.shown = next) :
    Reads (if next = some 'e' ∨ next = some 'E' then skipExponent else pure ()) exponent ()
      rest := by
  have hiff := (next_of_exponent hexponent h hnext).2
  cases hexponent with
  | none =>
      rw [if_neg fun he => hiff.mp he rfl]
      exact Reads.pure
  | some _ hsign hds =>
      rw [if_pos (hiff.mpr (List.cons_ne_nil _ _))]
      exact reads_skipExponent hsign hds h

private theorem reads_skipAfterWhole {fraction exponent : List Char}
    (hfraction : FractionText fraction) (hexponent : ExponentText exponent) {rest : List Piece}
    (h : EndsNumber rest) : Reads skipAfterWhole (fraction ++ exponent) () rest := by
  cases hfraction with
  | none =>
      refine Reads.look Reads.peek ?_
      rw [List.nil_append, if_neg (next_of_exponent hexponent h rfl).1]
      exact reads_skipExponent_if hexponent h rfl
  | @some ds hds =>
      have hstop := stops_afterWhole .none hexponent h
      have hempty : ¬ds.isEmpty = true := by simpa using hds.1
      refine Reads.look Reads.peek (Reads.taken ?_)
      refine Reads.bind (reads_digits hds.2 hstop) ?_
      rw [if_neg hempty]
      exact Reads.look Reads.peek (reads_skipExponent_if hexponent h rfl)

private theorem reads_skipStart_number {text : List Char} (h : NumberText text) {gap : List Char}
    (hgap : Blank gap) {rest : List Piece} (hrest : EndsNumber rest) :
    Reads skipStart (gap ++ text) none rest := by
  have hnumber : ∀ {whole fraction exponent : List Char}, WholeText whole →
      FractionText fraction → ExponentText exponent →
      Reads (skipNumberRest >>= fun _ => (pure none : Reader (Option Bracket)))
        (whole ++ (fraction ++ exponent)) none rest := by
    intro whole fraction exponent hwhole hfraction hexponent
    have hleads : Leads skipNumberRest whole skipAfterWhole
        ((fraction ++ exponent).map .char ++ rest) := by
      rw [skipNumberRest_eq]
      exact leads_wholeThen hwhole (stops_afterWhole hfraction hexponent hrest)
    exact Reads.then_nothing (hleads.reads (reads_skipAfterWhole hfraction hexponent hrest))
      Reads.pure
  cases h with
  | minus hwhole hfraction hexponent =>
      refine Reads.token hgap (by decide) ?_
      exact Reads.taken (hnumber hwhole hfraction hexponent)
  | plus hwhole hfraction hexponent =>
      have hall := hnumber hwhole hfraction hexponent
      obtain ⟨d, tail, rfl, hd⟩ := hwhole.1.head
      have hne : ∀ ch : Char, ch.isDigit = false → d ≠ ch := fun _ => Text.ne_of_isDigit hd
      refine Reads.token hgap (StartsValue.apart (Or.inr hd)).1 ?_
      show Reads (if d = 'n' then _ else if d = 't' then _ else if d = 'f' then _
        else if d = '-' then _ else if d.isDigit = true then _ else _) _ _ _
      rw [if_neg (hne 'n' (by decide)), if_neg (hne 't' (by decide)), if_neg (hne 'f' (by decide)),
        if_neg (hne '-' (by decide)), if_pos hd]
      exact hall

/-! ### Inside brackets -/

/-- What skipping does before the next item of the innermost bracket. -/
def skipOn (n : Nat) : List Bracket → Reader Unit
  | [] => pure ()
  | .list :: outer => skipWithin n (.list :: outer)
  | .object :: outer => do
    skipName
    skipWithin n (.object :: outer)

/-- What skipping does after an item, up to the last of the brackets it stands in. -/
def closing (n k : Nat) : List Bracket → Reader Unit
  | [] => pure ()
  | top :: outer => skipClosings k true top outer >>= skipOn n

private theorem skipWithin_succ (n : Nat) (stack : List Bracket) :
    skipWithin (n + 1) stack = skipStart >>= fun
      | some b => skipClosings n false b stack >>= skipOn n
      | none => closing n n stack := by
  have hon : (fun inner => match inner with
      | [] => pure ()
      | .list :: _ => skipWithin n inner
      | .object :: _ => do
        skipName
        skipWithin n inner) = skipOn n := by
    funext inner
    match inner with
    | [] => rfl
    | .list :: _ => rfl
    | .object :: _ => rfl
  rw [skipWithin, ← hon]
  congr
  funext opened
  cases opened with
  | some b => rfl
  | none =>
      cases stack with
      | nil => rfl
      | cons top outer =>
          exact congrArg (skipClosings n true top outer >>= ·) hon

/-- Some brackets can be closed by a text, whatever is behind it. -/
def Closes (stack : List Bracket) (tail : List Char) (rest : List Piece) : Prop :=
  ∀ n k, tail.length < n → tail.length < k → Reads (closing n k stack) tail () rest

/-- A text is skipped inside any brackets that are closed behind it. -/
def Skips (text : List Char) : Prop :=
  ∀ ⦃stack : List Bracket⦄ ⦃gap tail : List Char⦄ ⦃rest : List Piece⦄ ⦃n : Nat⦄, Blank gap →
    EndsNumber (tail.map .char ++ rest) → Closes stack tail rest →
    text.length + tail.length < n → Reads (skipWithin n stack) (gap ++ (text ++ tail)) () rest

/-- A text is skipped as an item inside a bracket of some kind, up to the last of the brackets. -/
structure SkipsIn (b : Bracket) (text : List Char) : Prop where
  head : ∃ ch cs, text = ch :: cs ∧ isBlank ch = false ∧ ch ≠ b.close
  item : ∀ ⦃outer : List Bracket⦄ ⦃gap tail : List Char⦄ ⦃rest : List Piece⦄ ⦃n : Nat⦄, Blank gap →
    EndsNumber (tail.map .char ++ rest) → Closes (b :: outer) tail rest →
    text.length + tail.length < n → Reads (skipOn n (b :: outer)) (gap ++ (text ++ tail)) () rest

private theorem Bracket.comma_ne_close (b : Bracket) : ',' ≠ b.close := by
  cases b <;> decide

/-- The items of a bracket are skipped one by one, then the bracket is closed, and then those that
it stands in. -/
private theorem reads_skipClosings {ι : Type} {one : ι → List Char → Prop} {items : List ι}
    {first : Bool} {body tail : List Char} {b : Bracket} {stack : List Bracket}
    {rest : List Piece} {n k : Nat}
    (hone : ∀ i ∈ items, ∀ text, one i text → SkipsIn b text) (hbody : Joined one first items body)
    (houter : Closes stack tail rest) (hn : (body ++ b.close :: tail).length < n)
    (hk : (body ++ b.close :: tail).length < k) :
    Reads (skipClosings k (!first) b stack >>= skipOn n) (body ++ b.close :: tail) () rest := by
  obtain ⟨j, rfl⟩ : ∃ j, k = j + 1 := ⟨k - 1, by omega⟩
  induction items generalizing first body n j with
  | nil =>
      cases hbody with
      | nil hgap =>
          have hclose : isBlank b.close = false := by cases b <;> rfl
          simp only [List.length_append, List.length_cons] at hn hk
          refine Reads.assoc (Reads.token hgap hclose ?_)
          show Reads ((if b.close = b.close then _ else _) >>= skipOn n) _ _ _
          rw [if_pos rfl]
          refine Reads.assoc (Reads.taken ?_)
          have hclosed := houter n j (by omega) (by omega)
          cases stack with
          | nil => exact hclosed
          | cons next outer => exact hclosed
  | cons i items ih =>
      cases hbody with
      | @cons _ _ _ sep text body hsep htext hrest =>
          have hitem := hone i List.mem_cons_self text htext
          have hclose : EndsNumber (.char b.close :: (tail.map .char ++ rest)) := by
            cases b <;> exact rfl
          have hends := hrest.ends hclose
          simp only [List.append_assoc, List.length_append, List.length_cons] at hn hk ⊢
          have hclosed : Closes (b :: stack) (body ++ b.close :: tail) rest := by
            intro m l hm hl
            obtain ⟨l, rfl⟩ : ∃ l', l = l' + 1 := ⟨l - 1, by omega⟩
            exact ih (fun d hd => hone d (List.mem_cons_of_mem _ hd)) hrest hm l hl
          have hall : ∀ {gap : List Char}, Blank gap → Reads (skipOn n (b :: stack))
              (gap ++ (text ++ (body ++ b.close :: tail))) () rest := by
            intro gap hgap
            refine hitem.item hgap ?_ hclosed ?_
            · simp only [List.map_append, List.append_assoc]
              exact hends
            · simp only [List.length_append, List.length_cons]
              omega
          cases first with
          | true =>
              obtain ⟨ch, cs, rfl, hch, hne⟩ := hitem.head
              refine Reads.assoc (Reads.token hsep hch ?_)
              show Reads ((if ch = b.close then _ else pure (b :: stack)) >>= skipOn n) _ _ _
              rw [if_neg hne]
              exact hall blank_nil
          | false =>
              obtain ⟨gap, gap', hgap, hgap', rfl⟩ := hsep
              rw [List.append_assoc, List.cons_append]
              refine Reads.assoc (Reads.token hgap (by decide) ?_)
              show Reads ((if ',' = b.close then _ else if ',' = ',' then _
                else Reader.failBeyond b.expectedComma) >>= skipOn n) _ _ _
              rw [if_neg b.comma_ne_close, if_pos rfl]
              exact Reads.assoc (Reads.taken (hall hgap'))

/-! ### Values -/

private theorem skips_scalar {text : List Char} (hne : text ≠ [])
    (h : ∀ gap rest, Blank gap → EndsNumber rest → Reads skipStart (gap ++ text) none rest) :
    Skips text := by
  intro stack gap tail rest n hgap hends hclosed hn
  have hpos := List.length_pos_iff.mpr hne
  obtain ⟨m, rfl⟩ : ∃ m, n = m + 1 := ⟨n - 1, by omega⟩
  rw [skipWithin_succ, ← List.append_assoc]
  exact Reads.bind (h gap _ hgap hends) (hclosed m m (by omega) (by omega))

private theorem skips_bracket {ι : Type} {one : ι → List Char → Prop} {items : List ι}
    {opening : Char} {body : List Char} {b : Bracket}
    (hopen : ∀ gap rest, Blank gap → Reads skipStart (gap ++ [opening]) (some b) rest)
    (hone : ∀ i ∈ items, ∀ text, one i text → SkipsIn b text) (hbody : Joined one true items body) :
    Skips (opening :: (body ++ [b.close])) := by
  intro stack gap tail rest n hgap _ hclosed hn
  obtain ⟨m, rfl⟩ : ∃ m, n = m + 1 := ⟨n - 1, by omega⟩
  have htext : gap ++ ((opening :: (body ++ [b.close])) ++ tail)
      = (gap ++ [opening]) ++ (body ++ b.close :: tail) := by simp
  have hm : (body ++ b.close :: tail).length < m := by
    simp only [List.length_append, List.length_cons, List.length_nil] at hn ⊢
    omega
  rw [skipWithin_succ, htext]
  exact Reads.bind (hopen gap _ hgap) (reads_skipClosings hone hbody hclosed hm hm)

private theorem SkipsIn.value {text : List Char} (htext : ValueText text) (h : Skips text) :
    SkipsIn .list text where
  head := by
    obtain ⟨ch, cs, rfl, hch⟩ := htext.head
    exact ⟨ch, cs, rfl, hch.apart.1, hch.apart.2.2.1⟩
  item _ _ _ _ _ hgap hends hclosed hn := h hgap hends hclosed hn

private theorem SkipsIn.member {m : MemberText} (hname : StringText m.name) (h : Skips m.value)
    {text : List Char} (htext : m.IsWritten text) : SkipsIn .object text := by
  obtain ⟨gap, gap', hgap, hgap', hparts⟩ := htext.parts
  refine ⟨?_, ?_⟩
  · obtain ⟨_, _, _, _, rfl⟩ := htext
    exact ⟨_, _, rfl, by decide, by decide⟩
  intro outer before tail rest n hbefore hends hclosed hn
  have hskipped : Reads skipName (before ++ '"' :: ((m.name ++ ['"']) ++ (gap ++ [':']))) ()
      ((gap' ++ (m.value ++ tail)).map .char ++ rest) :=
    Reads.token hbefore (by decide)
      (Reads.taken (Reads.bind (reads_skipString hname _) (Reads.colon hgap)))
  have hlen : m.value.length + tail.length < n := by
    rw [← List.length_append, hparts tail] at hn
    simp only [List.length_append] at hn
    omega
  have hall : Reads (skipOn n (.object :: outer)) _ () rest :=
    Reads.bind hskipped (h hgap' hends hclosed hlen)
  rw [hparts tail]
  simp only [List.append_assoc, List.cons_append] at hall ⊢
  exact hall

private theorem reads_word_then {c : Char} {cs : List Char} {α : Type} (a : α) (rest : List Piece) :
    Reads (do
      Reader.advance
      Reader.word cs
      pure a) (c :: cs) a rest := by
  have hword : Reads (Reader.word cs) cs () rest := Reads.word
  exact Reads.taken (Reads.then_nothing hword Reads.pure)

private theorem skips_of_valueText {text : List Char} (h : ValueText text) : Skips text := by
  induction h with
  | null =>
      refine skips_scalar (by simp) fun gap rest hgap _ => ?_
      exact Reads.token hgap (by decide) (reads_word_then none rest)
  | yes =>
      refine skips_scalar (by simp) fun gap rest hgap _ => ?_
      exact Reads.token hgap (by decide) (reads_word_then none rest)
  | no =>
      refine skips_scalar (by simp) fun gap rest hgap _ => ?_
      exact Reads.token hgap (by decide) (reads_word_then none rest)
  | number h =>
      obtain ⟨ch, cs, rfl, -⟩ := h.head
      exact skips_scalar (by simp) fun gap rest hgap hrest => reads_skipStart_number h hgap hrest
  | string h =>
      refine skips_scalar (by simp) fun gap rest hgap _ => Reads.token hgap (by decide) ?_
      exact Reads.taken (Reads.then_nothing (reads_skipString h rest) Reads.pure)
  | array hitems hbody ih =>
      have hopen : ∀ gap rest, Blank gap → Reads skipStart (gap ++ ['[']) (some .list) rest :=
        fun gap rest hgap => Reads.token hgap (by decide) (Reads.taken Reads.pure)
      have hone : ∀ v ∈ _, ∀ text, v = text → SkipsIn .list text := fun v hv text htext =>
        htext ▸ .value (hitems v hv) (ih v hv)
      exact skips_bracket hopen hone hbody
  | object hnames _ hbody ih =>
      have hopen : ∀ gap rest, Blank gap → Reads skipStart (gap ++ ['{']) (some .object) rest :=
        fun gap rest hgap => Reads.token hgap (by decide) (Reads.taken Reads.pure)
      exact skips_bracket hopen (fun m hm _ htext => .member (hnames m hm) (ih m hm) htext) hbody

/-- **Every value can be skipped**, however deep its brackets are. -/
theorem reads_skipValue {text : List Char} (h : ValueText text) {gap : List Char}
    (hgap : Blank gap) {rest : List Piece} (hrest : EndsNumber rest) :
    Reads skipValue (gap ++ text) () rest := by
  have hends : EndsNumber (([] : List Char).map .char ++ rest) := hrest
  have hclosed : Closes [] [] rest := fun _ _ _ _ => Reads.pure
  have hlen : text.length + 0 < ((gap ++ text).map Piece.char ++ rest).length + 1 := by
    simp only [List.length_append, List.length_map]
    omega
  have hall := skips_of_valueText h hgap hends hclosed hlen
  rw [List.append_nil] at hall
  exact Reads.look Reads.remaining hall

end ParameterManager.Json
