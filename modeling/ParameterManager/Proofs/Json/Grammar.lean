/-
The texts that are JSON.

Whatever is read or skipped, this is the grammar that says which texts there are, apart from any
reader: values, and the members of objects one by one, each with the text of its name and that of
its value.  A string may have escapes that name no character, halves of a pair that stand alone,
so not every string is a text.  `Denotes` says which text a string is if it is one.
-/
import ParameterManager.Proofs.Json.Spelling

namespace ParameterManager.Json

open Utf8 (Piece)

/-! ### Strings -/

/-- A character that stands for itself between the marks of a string. -/
def IsPlainChar (c : Char) : Prop := c ≠ '"' ∧ c ≠ '\\' ∧ 0x20 ≤ c.toNat

/-- The letters and signs behind a backslash, and what they stand for. -/
def escapeLetters : List (Char × Char) :=
  [('"', '"'), ('\\', '\\'), ('/', '/'), ('b', '\x08'), ('f', '\x0c'), ('n', '\n'), ('r', '\r'),
    ('t', '\t')]

/-- The digits of base sixteen. -/
def hexDigits : List (Char × Nat) :=
  "0123456789abcdef".toList.zipIdx ++ "ABCDEF".toList.zipIdx 10

/-- Four digits, and their number. -/
inductive HexQuad : List Char → Nat → Prop
  | mk {a b c d : Char} {v w x y : Nat} :
    (a, v) ∈ hexDigits → (b, w) ∈ hexDigits → (c, x) ∈ hexDigits → (d, y) ∈ hexDigits →
    HexQuad [a, b, c, d] (((v * 16 + w) * 16 + x) * 16 + y)

/-- What may stand between the marks of a string. -/
inductive StringText : List Char → Prop
  | nil : StringText []
  | plain {c : Char} {cs : List Char} : IsPlainChar c → StringText cs → StringText (c :: cs)
  | letter {c e : Char} {cs : List Char} :
    (c, e) ∈ escapeLetters → StringText cs → StringText ('\\' :: c :: cs)
  | number {quad cs : List Char} {n : Nat} :
    HexQuad quad n → StringText cs → StringText ('\\' :: 'u' :: (quad ++ cs))

/-- What stands behind a backslash for a character: a letter, a number, or the numbers of the two
halves of a pair. -/
inductive Escapes : List Char → Char → Prop
  | letter {c e : Char} : (c, e) ∈ escapeLetters → Escapes [c] e
  | number {quad : List Char} {n : Nat} :
    HexQuad quad n → n < 0xD800 ∨ 0xDFFF < n → Escapes ('u' :: quad) (Char.ofNat n)
  | pair {quad quad' : List Char} {n m : Nat} :
    HexQuad quad n → 0xD800 ≤ n → n ≤ 0xDBFF → HexQuad quad' m → 0xDC00 ≤ m → m ≤ 0xDFFF →
    Escapes ('u' :: (quad ++ '\\' :: 'u' :: quad'))
      (Char.ofNat (0x10000 + (n - 0xD800) * 0x400 + (m - 0xDC00)))

/-- What stands between the marks of a string is for some characters. -/
inductive Denotes : List Char → List Char → Prop
  | nil : Denotes [] []
  | plain {c : Char} {cs s : List Char} : IsPlainChar c → Denotes cs s → Denotes (c :: cs) (c :: s)
  | escape {tail cs s : List Char} {c : Char} :
    Escapes tail c → Denotes cs s → Denotes ('\\' :: (tail ++ cs)) (c :: s)

/-! ### Numbers -/

/-- One digit, or more. -/
def Digits (ds : List Char) : Prop := ds ≠ [] ∧ ∀ d ∈ ds, d.isDigit = true

/-- Digits before a point: no others stand behind a zero. -/
def WholeText (ds : List Char) : Prop := Digits ds ∧ ∀ rest, ds = '0' :: rest → rest = []

/-- A point and digits, or nothing. -/
inductive FractionText : List Char → Prop
  | none : FractionText []
  | some {ds : List Char} : Digits ds → FractionText ('.' :: ds)

/-- The sign of an exponent, if it has one. -/
def IsExponentSign (sign : List Char) : Prop := sign = [] ∨ sign = ['+'] ∨ sign = ['-']

/-- A power of ten, or nothing. -/
inductive ExponentText : List Char → Prop
  | none : ExponentText []
  | some {e : Char} {sign ds : List Char} :
    e = 'e' ∨ e = 'E' → IsExponentSign sign → Digits ds → ExponentText (e :: (sign ++ ds))

inductive NumberText : List Char → Prop
  | plus {whole fraction exponent : List Char} :
    WholeText whole → FractionText fraction → ExponentText exponent →
    NumberText (whole ++ (fraction ++ exponent))
  | minus {whole fraction exponent : List Char} :
    WholeText whole → FractionText fraction → ExponentText exponent →
    NumberText ('-' :: (whole ++ (fraction ++ exponent)))

/-! ### Values -/

/-- Some texts, with commas between them and blanks anywhere; the flag says whether nothing came
before. -/
inductive Joined {ι : Type} (one : ι → List Char → Prop) : Bool → List ι → List Char → Prop
  | nil {first : Bool} {gap : List Char} : Blank gap → Joined one first [] gap
  | cons {first : Bool} {i : ι} {items : List ι} {sep text body : List Char} :
    Separates first sep → one i text → Joined one false items body →
    Joined one first (i :: items) (sep ++ (text ++ body))

/-- The text of a member: what its name is between the marks, and its value. -/
structure MemberText where
  name : List Char
  value : List Char
  deriving DecidableEq

/-- A member is written, with blanks around the colon. -/
def MemberText.IsWritten (m : MemberText) (text : List Char) : Prop :=
  ∃ gap gap', Blank gap ∧ Blank gap' ∧
    text = '"' :: (m.name ++ '"' :: (gap ++ ':' :: (gap' ++ m.value)))

/-- A member has a name. -/
def MemberText.Named (m : MemberText) (name : String) : Prop := Denotes m.name name.toList

inductive ValueText : List Char → Prop
  | null : ValueText ['n', 'u', 'l', 'l']
  | yes : ValueText ['t', 'r', 'u', 'e']
  | no : ValueText ['f', 'a', 'l', 's', 'e']
  | number {text : List Char} : NumberText text → ValueText text
  | string {chars : List Char} : StringText chars → ValueText ('"' :: (chars ++ ['"']))
  | array {items : List (List Char)} {body : List Char} :
    (∀ v ∈ items, ValueText v) → Joined Eq true items body → ValueText ('[' :: (body ++ [']']))
  | object {members : List MemberText} {body : List Char} :
    (∀ m ∈ members, StringText m.name) → (∀ m ∈ members, ValueText m.value) →
    Joined MemberText.IsWritten true members body → ValueText ('{' :: (body ++ ['}']))

/-- A text is an object of some members, in their order. -/
structure ObjectText (members : List MemberText) (text : List Char) : Prop where
  names : ∀ m ∈ members, StringText m.name
  values : ∀ m ∈ members, ValueText m.value
  written : ∃ body, Joined MemberText.IsWritten true members body ∧ text = '{' :: (body ++ ['}'])

/-- Texts with commas between them are no more than there are characters, the first one apart. -/
theorem Joined.length_le {ι : Type} {one : ι → List Char → Prop} {first : Bool} {items : List ι}
    {body : List Char} (h : Joined one first items body) :
    items.length ≤ body.length + if first then 1 else 0 := by
  induction h with
  | nil _ => exact Nat.zero_le _
  | @cons first i items sep text body hsep _ _ ih =>
      have hbody : items.length ≤ body.length := ih
      simp only [List.length_cons, List.length_append]
      cases first with
      | true =>
          simp only [if_true]
          omega
      | false =>
          obtain ⟨gap, gap', -, -, rfl⟩ := hsep
          simp only [List.length_append, List.length_cons]
          omega

/-- The text of a member in the parts in which it is read, with whatever is behind it. -/
theorem MemberText.IsWritten.parts {m : MemberText} {text : List Char} (h : m.IsWritten text) :
    ∃ gap gap', Blank gap ∧ Blank gap' ∧ ∀ tail, text ++ tail
      = ('"' :: (m.name ++ ['"'])) ++ ((gap ++ [':']) ++ ((gap' ++ m.value) ++ tail)) := by
  obtain ⟨gap, gap', hgap, hgap', rfl⟩ := h
  exact ⟨gap, gap', hgap, hgap', fun tail => by simp⟩

/-! ### Texts without blanks

Any members, with any values and in any order, make an object.
-/

instance (c : Char) : Decidable (IsPlainChar c) :=
  inferInstanceAs (Decidable (c ≠ '"' ∧ c ≠ '\\' ∧ 0x20 ≤ c.toNat))

theorem Denotes.of_plain {cs : List Char} (h : cs.all (fun c => IsPlainChar c) = true) :
    Denotes cs cs := by
  induction cs with
  | nil => exact .nil
  | cons c cs ih =>
      rw [List.all_cons, Bool.and_eq_true] at h
      exact .plain (of_decide_eq_true h.1) (ih h.2)

theorem StringText.of_plain {cs : List Char} (h : cs.all (fun c => IsPlainChar c) = true) :
    StringText cs := by
  induction cs with
  | nil => exact .nil
  | cons c cs ih =>
      rw [List.all_cons, Bool.and_eq_true] at h
      exact .plain (of_decide_eq_true h.1) (ih h.2)

/-- A member without blanks. -/
def MemberText.compact (m : MemberText) : List Char := '"' :: (m.name ++ '"' :: ':' :: m.value)

/-- Members without blanks, behind one that came before or not. -/
def compactTexts : Bool → List MemberText → List Char
  | _, [] => []
  | first, m :: members =>
    (if first then [] else [',']) ++ (m.compact ++ compactTexts false members)

/-- An object without blanks. -/
def compactObject (members : List MemberText) : List Char :=
  '{' :: (compactTexts true members ++ ['}'])

private theorem joined_compactTexts (members : List MemberText) (first : Bool) :
    Joined MemberText.IsWritten first members (compactTexts first members) := by
  induction members generalizing first with
  | nil => exact .nil blank_nil
  | cons m members ih =>
      have hseparates : Separates first (if first then [] else [',']) := by
        cases first with
        | true => exact blank_nil
        | false => exact ⟨[], [], blank_nil, blank_nil, rfl⟩
      exact .cons hseparates ⟨[], [], blank_nil, blank_nil, rfl⟩ (ih false)

theorem objectText_compact {members : List MemberText} (hnames : ∀ m ∈ members, StringText m.name)
    (hvalues : ∀ m ∈ members, ValueText m.value) : ObjectText members (compactObject members) :=
  ⟨hnames, hvalues, _, joined_compactTexts members true, rfl⟩

theorem ObjectText.valueText {members : List MemberText} {text : List Char}
    (h : ObjectText members text) : ValueText text := by
  obtain ⟨hnames, hvalues, body, hbody, rfl⟩ := h
  exact .object hnames hvalues hbody

/-! ### First characters

The first character of a value says of which kind it is.  What follows an item of a list or a
member of an object ends a number if what follows the last of them does.
-/

/-- A value may start with a character. -/
def StartsValue (ch : Char) : Prop := ch ∈ ['n', 't', 'f', '"', '[', '{', '-'] ∨ ch.isDigit = true

theorem StartsValue.apart {ch : Char} (h : StartsValue ch) :
    isBlank ch = false ∧ ch ≠ ',' ∧ ch ≠ ']' ∧ ch ≠ '}' := by
  rcases h with h | h
  · have hall : ['n', 't', 'f', '"', '[', '{', '-'].all (fun ch =>
        isBlank ch = false ∧ ch ≠ ',' ∧ ch ≠ ']' ∧ ch ≠ '}') = true := by decide
    exact of_decide_eq_true (List.all_eq_true.mp hall ch h)
  · have hblank : isBlank ch = false := by
      rw [Bool.eq_false_iff]
      intro hblank
      simp only [isBlank, Bool.or_eq_true, beq_iff_eq] at hblank
      rcases hblank with ((rfl | rfl) | rfl) | rfl <;> simp at h
    exact ⟨hblank, Text.ne_of_isDigit h (by decide), Text.ne_of_isDigit h (by decide),
      Text.ne_of_isDigit h (by decide)⟩

theorem Digits.head {ds : List Char} (h : Digits ds) :
    ∃ d tail, ds = d :: tail ∧ d.isDigit = true := by
  obtain ⟨d, tail, rfl⟩ := List.exists_cons_of_ne_nil h.1
  exact ⟨d, tail, rfl, h.2 d List.mem_cons_self⟩

theorem NumberText.head {text : List Char} (h : NumberText text) :
    ∃ ch cs, text = ch :: cs ∧ (ch = '-' ∨ ch.isDigit = true) := by
  cases h with
  | plus hwhole _ _ =>
      obtain ⟨d, tail, rfl, hd⟩ := hwhole.1.head
      exact ⟨d, _, rfl, Or.inr hd⟩
  | minus _ _ _ => exact ⟨_, _, rfl, Or.inl rfl⟩

theorem ValueText.head {text : List Char} (h : ValueText text) :
    ∃ ch cs, text = ch :: cs ∧ StartsValue ch := by
  cases h with
  | null => exact ⟨_, _, rfl, Or.inl (by decide)⟩
  | yes => exact ⟨_, _, rfl, Or.inl (by decide)⟩
  | no => exact ⟨_, _, rfl, Or.inl (by decide)⟩
  | number h =>
      obtain ⟨ch, cs, rfl, rfl | hch⟩ := h.head
      · exact ⟨_, _, rfl, Or.inl (by decide)⟩
      · exact ⟨_, _, rfl, Or.inr hch⟩
  | string _ => exact ⟨_, _, rfl, Or.inl (by decide)⟩
  | array _ _ => exact ⟨_, _, rfl, Or.inl (by decide)⟩
  | object _ _ _ => exact ⟨_, _, rfl, Or.inl (by decide)⟩

section Kinds

variable {cs : List Char}

private theorem not_number_of {ch : Char} (h : NumberText (ch :: cs)) (hne : ch ≠ '-')
    (hdigit : ch.isDigit = false) : False := by
  obtain ⟨_, _, heq, rfl | hd⟩ := h.head
  · exact hne (List.cons.inj heq).1
  · rw [← (List.cons.inj heq).1, hdigit] at hd
    exact absurd hd (by decide)

theorem ValueText.null_of_n (h : ValueText ('n' :: cs)) : cs = ['u', 'l', 'l'] := by
  cases h with
  | null => rfl
  | number h => exact (not_number_of h (by decide) (by decide)).elim

theorem ValueText.string_of_quote (h : ValueText ('"' :: cs)) :
    ∃ chars, StringText chars ∧ cs = chars ++ ['"'] := by
  cases h with
  | string h => exact ⟨_, h, rfl⟩
  | number h => exact (not_number_of h (by decide) (by decide)).elim

theorem ValueText.array_of_bracket (h : ValueText ('[' :: cs)) :
    ∃ items body, (∀ v ∈ items, ValueText v) ∧ Joined Eq true items body ∧ cs = body ++ [']'] := by
  cases h with
  | array hitems hbody => exact ⟨_, _, hitems, hbody, rfl⟩
  | number h => exact (not_number_of h (by decide) (by decide)).elim

theorem ValueText.object_of_brace (h : ValueText ('{' :: cs)) :
    ∃ members, ObjectText members ('{' :: cs) := by
  cases h with
  | object hnames hvalues hbody => exact ⟨_, hnames, hvalues, _, hbody, rfl⟩
  | number h => exact (not_number_of h (by decide) (by decide)).elim

theorem ValueText.number_of_digit {ch : Char} (h : ValueText (ch :: cs))
    (hch : ch = '-' ∨ ch.isDigit = true) : NumberText (ch :: cs) := by
  have hne : ∀ other : Char, other ≠ '-' → other.isDigit = false → ch ≠ other := by
    rintro other hminus hdigit rfl
    rcases hch with rfl | hd
    · exact hminus rfl
    · rw [hdigit] at hd
      exact absurd hd (by decide)
  cases h with
  | number h => exact h
  | null => exact (hne 'n' (by decide) (by decide) rfl).elim
  | yes => exact (hne 't' (by decide) (by decide) rfl).elim
  | no => exact (hne 'f' (by decide) (by decide) rfl).elim
  | string _ => exact (hne '"' (by decide) (by decide) rfl).elim
  | array _ _ => exact (hne '[' (by decide) (by decide) rfl).elim
  | object _ _ _ => exact (hne '{' (by decide) (by decide) rfl).elim

end Kinds

theorem Joined.ends {ι : Type} {one : ι → List Char → Prop} {items : List ι} {body : List Char}
    (h : Joined one false items body) {rest : List Piece} (hrest : EndsNumber rest) :
    EndsNumber (body.map .char ++ rest) := by
  cases h with
  | nil hgap => exact endsNumber_gap hgap hrest
  | cons hsep _ _ =>
      obtain ⟨gap, gap', hgap, -, rfl⟩ := hsep
      simp only [List.map_append, List.append_assoc, List.map_cons, List.cons_append]
      exact endsNumber_gap hgap rfl

/-! ### The parts of a number -/

/-- The next character, if there is one, is of no class that the text stops at. -/
theorem StopsAt.next {p : Char → Bool} (hp : p '\uFFFD' = false) {rest : List Piece}
    (h : StopsAt p rest) {ch : Char} (hch : rest.head?.map Piece.shown = some ch) :
    p ch = false := by
  cases rest with
  | nil => simp at hch
  | cons x rest =>
      simp only [List.head?_cons, Option.map_some, Option.some.injEq] at hch
      subst hch
      cases x with
      | malformed _ => exact hp
      | char ch => exact h

/-- The digits before a point end where a fraction, an exponent or neither follows. -/
theorem stops_afterWhole {fraction exponent : List Char} (hfraction : FractionText fraction)
    (hexponent : ExponentText exponent) {rest : List Piece} (h : EndsNumber rest) :
    StopsAt Char.isDigit ((fraction ++ exponent).map .char ++ rest) := by
  cases hfraction with
  | some _ => exact rfl
  | none =>
      cases hexponent with
      | none => exact h.digit
      | some he _ _ => rcases he with rfl | rfl <;> exact rfl

/-- The digits before a point are taken, and then what follows them is looked at. -/
def wholeThen {α : Type} (missing : Reader α) (after : List Char → Reader α) : Reader α := do
  match ← Reader.peek with
  | none => missing
  | some ch =>
    if ch = '0' then do
      Reader.advance
      match ← Reader.peek with
      | some d => if d.isDigit then Reader.failBeyond .invalidNumber else after ['0']
      | none => after ['0']
    else if ch.isDigit then do
      let ds ← Reader.digits
      after ds
    else Reader.failBeyond .invalidNumber

theorem numberRest_eq (positive : Bool) :
    numberRest positive = wholeThen (Reader.failHere .endInValue) (afterWhole positive) := rfl

theorem skipNumberRest_eq :
    skipNumberRest = wholeThen (Reader.failBeyond .invalidNumber) fun _ => skipAfterWhole := rfl

/-- A zero is not followed by a digit, and other digits are all taken. -/
theorem leads_wholeThen {α : Type} {missing : Reader α} {after : List Char → Reader α}
    {ds : List Char} (hds : WholeText ds) {rest : List Piece} (h : StopsAt Char.isDigit rest) :
    Leads (wholeThen missing after) ds (after ds) rest := by
  have hdigits := reads_digits hds.1.2 h
  obtain ⟨d, tail, rfl, hd⟩ := hds.1.head
  refine Leads.look Reads.peek ?_
  show Leads (if d = '0' then _ else if d.isDigit = true then _ else _) _ _ _
  by_cases hzero : d = '0'
  · subst hzero
    obtain rfl := hds.2 tail rfl
    have hpeek : Reads Reader.peek [] (rest.head?.map Piece.shown) rest := Reads.peek
    rw [if_pos rfl]
    refine Leads.taken (Leads.look hpeek ?_)
    split
    · next ch hch =>
      rw [h.next (by decide) hch]
      exact Leads.refl
    · exact Leads.refl
  · rw [if_neg hzero, if_pos hd]
    exact Leads.of_reads hdigits

/-- The sign of an exponent is read, whatever it is. -/
theorem reads_exponentSign {sign ds : List Char} (hsign : IsExponentSign sign) (hds : Digits ds) :
    ∃ up, ∀ rest, Reads exponentSign sign up (ds.map .char ++ rest) := by
  rcases hsign with rfl | rfl | rfl
  · obtain ⟨d, tail, rfl, hd⟩ := hds.head
    refine ⟨true, fun rest => Reads.look Reads.peek ?_⟩
    split
    · next heq => exact absurd (Option.some.inj heq) (Text.ne_of_isDigit hd (by decide))
    · next heq => exact absurd (Option.some.inj heq) (Text.ne_of_isDigit hd (by decide))
    · exact Reads.pure
  · exact ⟨true, fun rest => Reads.look Reads.peek (Reads.taken Reads.pure)⟩
  · exact ⟨false, fun rest => Reads.look Reads.peek (Reads.taken Reads.pure)⟩

/-- The next character tells whether an exponent follows, and it is no point. -/
theorem next_of_exponent {exponent : List Char} (h : ExponentText exponent) {rest : List Piece}
    (hrest : EndsNumber rest) {next : Option Char}
    (hnext : (exponent.map Piece.char ++ rest).head?.map Piece.shown = next) :
    next ≠ some '.' ∧ ((next = some 'e' ∨ next = some 'E') ↔ exponent ≠ []) := by
  subst hnext
  cases h with
  | none =>
      refine ⟨fun hdot => (hrest.next hdot).2.1 rfl, ?_, fun hne => absurd rfl hne⟩
      rintro (he | he)
      · exact absurd rfl (hrest.next he).2.2.1
      · exact absurd rfl (hrest.next he).2.2.2
  | some he _ _ => rcases he with rfl | rfl <;> simp [Piece.shown]

/-! ### Letters and digits behind a backslash -/

theorem letterEscape?_of_mem {c e : Char} (h : (c, e) ∈ escapeLetters) :
    letterEscape? c = some e := by
  have hall : ∀ p ∈ escapeLetters, letterEscape? p.1 = some p.2 := by decide
  exact hall (c, e) h

theorem hexValue?_of_mem {c : Char} {n : Nat} (h : (c, n) ∈ hexDigits) :
    hexValue? c = some n := by
  have hall : ∀ p ∈ hexDigits, hexValue? p.1 = some p.2 := by decide
  exact hall (c, n) h

/-- Four digits are read as their number. -/
theorem HexQuad.reads {quad : List Char} {n : Nat} (h : HexQuad quad n) (rest : List Piece) :
    Reads hexQuad quad n rest := by
  cases h with
  | mk ha hb hc hd =>
      intro cur hcur
      refine ⟨cur.advance.advance.advance.advance, ?_, by simp [Cursor.advance, hcur]⟩
      simp [hexQuad, hexQuad?, hcur, hexValue?_of_mem ha, hexValue?_of_mem hb,
        hexValue?_of_mem hc, hexValue?_of_mem hd]

end ParameterManager.Json
