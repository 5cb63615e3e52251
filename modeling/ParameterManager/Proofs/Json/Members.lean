/-
Records and tables off any text of an object.

The members of an object are gone through one by one, each by its name: a record makes the change
of the field with that name, if it has one, and skips the value if it has none.  `ReadAs` says this
of the texts of the members, apart from the text that they stand in.  Whatever a record is read
off, its members are read in this way, and members that are read in this way are read off any text
of them.

So it can be said of the members alone what does not matter: their order, as long as the changes of
different fields may be made in either order, and members that no field is named for.
-/
import Mathlib.Data.List.Forall2
import ParameterManager.Proofs.Json.Record
import ParameterManager.Proofs.Json.Skipping
import ParameterManager.Proofs.Json.Steady

namespace ParameterManager.Json

open Utf8 (Piece)

variable {α : Type}

/-! ### Names -/

theorem repeats_memberName {chars : List Char} (h : StringText chars)
    {follows : List Piece → Prop} :
    Repeats memberName memberName ('"' :: (chars ++ ['"'])) follows :=
  Repeats.taken (repeats_stringRest h)

namespace MemberText

variable {m : MemberText} {name : String}

theorem Named.reads (h : m.Named name) (rest : List Piece) :
    Reads memberName ('"' :: (m.name ++ ['"'])) name rest :=
  Reads.taken (Denotes.reads h rest)

/-- A name that is read is one that the member has. -/
theorem named_of_ok (h : StringText m.name) {c c' : Cursor} {rest : List Piece}
    (hc : c.rest = ('"' :: (m.name ++ ['"'])).map .char ++ rest)
    (hok : memberName c = .ok (name, c')) : c'.rest = rest ∧ m.Named name := by
  have hadvance : Reads Reader.advance ['"'] () ((m.name ++ ['"']).map .char ++ rest) :=
    Reads.advance
  obtain ⟨_, c1, hfirst, hsecond⟩ := Reads.bind_ok hok
  obtain ⟨-, hc1⟩ := hadvance.eq_of_ok hc hfirst
  exact denotes_of_stringRest h hc1 hsecond

end MemberText

/-! ### The end of an object and the next member -/

/-- If a member follows, a reader goes on with it. -/
theorem leads_nextMember {k stop : Reader α} {first : Bool} {sep : List Char}
    (h : Separates first sep) {rest : List Piece} :
    Leads (do if ← Reader.nextMember first then k else stop) sep k (.char '"' :: rest) :=
  Leads.of_reads (reads_nextMember h rest)

/-- What follows the last member: the end of the object. -/
def AtEnd (rest : List Piece) : Prop := ∃ tail, rest = .char '\x7d' :: tail

theorem AtEnd.ends {rest : List Piece} (h : AtEnd rest) : EndsNumber rest := by
  obtain ⟨tail, rfl⟩ := h
  exact rfl

/-! ### Tables -/

private theorem repeats_readMembers {one : Reader α} (hone : Steady one)
    {members : List MemberText} {body : List Char} {n n' : Nat} (acc : List (String × α))
    (hnames : ∀ m ∈ members, StringText m.name) (hvalues : ∀ m ∈ members, ValueText m.value)
    (hbody : Joined MemberText.IsWritten acc.isEmpty members body) (hn : members.length < n)
    (hn' : members.length < n') :
    Repeats (readMembers one n acc) (readMembers one n' acc) body AtEnd := by
  induction members generalizing body n n' acc with
  | nil =>
      obtain ⟨k, rfl⟩ : ∃ k, n = k + 1 := ⟨n - 1, by simp at hn; omega⟩
      obtain ⟨k', rfl⟩ : ∃ k', n' = k' + 1 := ⟨n' - 1, by simp at hn'; omega⟩
      cases hbody with
      | nil hgap =>
          have hend : ∀ rest, AtEnd rest →
              Reads (Reader.nextMember acc.isEmpty) body false rest := by
            rintro _ ⟨tail, rfl⟩
            exact reads_nextMember_end hgap tail
          refine Repeats.of_reads (a := acc.reverse) (fun rest hrest => ?_) fun rest hrest => ?_
          · exact Reads.then_nothing (hend rest hrest) Reads.pure
          · exact Reads.then_nothing (hend rest hrest) Reads.pure
  | cons m members ih =>
      obtain ⟨k, rfl⟩ : ∃ k, n = k + 1 := ⟨n - 1, by simp at hn; omega⟩
      obtain ⟨k', rfl⟩ : ∃ k', n' = k' + 1 := ⟨n' - 1, by simp at hn'; omega⟩
      have hk : members.length < k := by simp at hn; omega
      have hk' : members.length < k' := by simp at hn'; omega
      cases hbody with
      | @cons _ _ _ sep text body hsep hmember hrest =>
          obtain ⟨gap, gap', hgap, hgap', hparts⟩ := hmember.parts
          have hname : Repeats memberName memberName _ fun _ => True :=
            repeats_memberName (hnames m List.mem_cons_self)
          rw [hparts]
          refine Repeats.leads (fun _ _ => leads_nextMember hsep)
            (fun _ _ => leads_nextMember hsep) ?_
          refine Repeats.bind hname (fun _ _ => trivial) fun name => ?_
          refine Repeats.step () (fun _ _ => Reads.colon hgap) (fun _ _ => Reads.colon hgap) ?_
          refine Repeats.bind ((hone (hvalues m List.mem_cons_self)).repeats hgap')
            (fun rest hend => hrest.ends hend.ends) fun a => ?_
          exact ih ((name, a) :: acc) (fun d hd => hnames d (List.mem_cons_of_mem _ hd))
            (fun d hd => hvalues d (List.mem_cons_of_mem _ hd)) hrest hk hk'

private theorem repeats_membersOf {one : Reader α} (hone : Steady one) {members : List MemberText}
    {body : List Char} (hobject : ObjectText members ('\x7b' :: (body ++ ['\x7d'])))
    (hbody : Joined MemberText.IsWritten true members body) :
    Repeats (membersOf one) (membersOf one) (body ++ ['\x7d']) EndsNumber := by
  refine Repeats.remaining fun n n' hn hn' => ?_
  have hlen : members.length ≤ body.length + 1 := hbody.length_le
  simp only [List.length_append, List.length_cons, List.length_nil] at hn hn'
  refine Repeats.bind (repeats_readMembers hone [] hobject.names hobject.values hbody
    (by omega) (by omega)) (fun rest _ => ⟨rest, rfl⟩) fun entries => ?_
  have hend : ∀ rest, EndsNumber rest → Reads (do
      let fault? ← Reader.endObject
      Reader.closed (.ok entries) fault?) ['\x7d'] entries rest := fun rest _ =>
    Reads.then_nothing (Reads.endObject [] blank_nil) (Reads.closed rfl)
  exact Repeats.of_reads hend hend

theorem Steady.table {w : Wire α} (h : Steady w.read) : Steady (Wire.table w).read := by
  refine Steady.ofToken fun ch cs htext => ?_
  split
  · next hch =>
    subst hch
    obtain ⟨members, hobject⟩ := htext.object_of_brace
    obtain ⟨body, hbody, hcs⟩ := hobject.written
    obtain rfl := (List.cons.inj hcs).2
    refine Repeats.taken
      (Repeats.then_nothing (repeats_membersOf h hobject hbody) fun entries => ?_)
    exact Repeats.pure _
  · exact Repeats.of_never (Gives.mismatch _)

/-! ### Records as objects -/

/-- A field makes a change, for some text. -/
def Field.Makes {σ : Type} (f : Field σ) (change : σ → σ) : Prop :=
  ∃ c c', f.wire.read c = .ok (change, c')

theorem ReadsAnywhere.makes {σ : Type} {f : Field σ} {text : List Char} {change : σ → σ}
    (h : ReadsAnywhere f.wire.read text change) : f.Makes change := by
  obtain ⟨c, c', -, hok⟩ := h.exists_ok
  exact ⟨c, c', hok⟩

namespace Record

variable {σ : Type} {r : Record σ}

/-- How a record is read off some members, from a record that is made of those before: each field
once, members of other names not at all, and nothing missing in the end. -/
inductive ReadAs (r : Record σ) (result : σ) : List MemberText → List String → σ → Prop
  | done {seen : List String} {state : σ} :
    r.complete seen state = .ok result → ReadAs r result [] seen state
  | skip {m : MemberText} {members : List MemberText} {seen : List String} {state : σ}
      {name : String} :
    m.Named name → r.field? name = none → ReadAs r result members seen state →
    ReadAs r result (m :: members) seen state
  | change {m : MemberText} {members : List MemberText} {seen : List String} {state : σ}
      {f : Field σ} {change : σ → σ} :
    m.Named f.name → r.field? f.name = some f → f.name ∉ seen →
    ReadsAnywhere f.wire.read m.value change →
    ReadAs r result members (f.name :: seen) (change state) →
    ReadAs r result (m :: members) seen state

/-- Members that are read in some way are read so off every text of them. -/
private theorem ReadAs.reads_members {result : σ} {members : List MemberText} {seen : List String}
    {state : σ} (h : r.ReadAs result members seen state)
    (hvalues : ∀ m ∈ members, ValueText m.value) {first : Bool} {body : List Char}
    (hbody : Joined MemberText.IsWritten first members body) {n : Nat} (hn : members.length < n)
    (rest : List Piece) :
    Reads (r.readMembers n first seen state) body (.ok result) (.char '}' :: rest) := by
  induction h generalizing first body n with
  | @done seen state hcomplete =>
      obtain ⟨k, rfl⟩ : ∃ k, n = k + 1 := ⟨n - 1, by simp at hn; omega⟩
      cases hbody with
      | nil hgap =>
          refine Reads.then_nothing (reads_nextMember_end hgap rest) ?_
          rw [← hcomplete]
          exact Reads.pure
  | @skip m members seen state name hname hfield _ ih =>
      obtain ⟨k, rfl⟩ : ∃ k, n = k + 1 := ⟨n - 1, by simp at hn; omega⟩
      have hk : members.length < k := by simp at hn; omega
      cases hbody with
      | @cons _ _ _ sep text body hsep hmember hrest =>
          obtain ⟨gap, gap', hgap, hgap', hparts⟩ := hmember.parts
          have hothers := ih (fun d hd => hvalues d (List.mem_cons_of_mem _ hd)) hrest hk
          rw [hparts]
          refine (leads_nextMember hsep).reads (Reads.bind (hname.reads _) ?_)
          rw [hfield]
          have hends : EndsNumber (body.map .char ++ .char '}' :: rest) := hrest.ends rfl
          have hskipped := reads_skipValue (hvalues m List.mem_cons_self) hgap' hends
          exact Reads.bind (Reads.colon hgap) (Reads.bind hskipped hothers)
  | @change m members seen state f change hname hfield hunseen hvalue _ ih =>
      obtain ⟨k, rfl⟩ : ∃ k, n = k + 1 := ⟨n - 1, by simp at hn; omega⟩
      have hk : members.length < k := by simp at hn; omega
      cases hbody with
      | @cons _ _ _ sep text body hsep hmember hrest =>
          obtain ⟨gap, gap', hgap, hgap', hparts⟩ := hmember.parts
          have hothers := ih (fun d hd => hvalues d (List.mem_cons_of_mem _ hd)) hrest hk
          rw [hparts]
          refine (leads_nextMember hsep).reads (Reads.bind (hname.reads _) ?_)
          rw [hfield]
          show Reads (if seen.contains f.name then _ else _) _ _ _
          rw [if_neg fun h => hunseen (List.contains_iff_mem.mp h)]
          refine Reads.bind (Reads.colon hgap) (Reads.bind ?_ hothers)
          exact hvalue gap' _ hgap' (hrest.ends rfl)

/-- Whatever a record is read off, its members are read in some way. -/
private theorem readAs_of_readMembers (hfields : ∀ f ∈ r.fields, Steady f.wire.read)
    {members : List MemberText} (hnames : ∀ m ∈ members, StringText m.name)
    (hvalues : ∀ m ∈ members, ValueText m.value) {first : Bool} {body : List Char}
    (hbody : Joined MemberText.IsWritten first members body) {n : Nat} {seen : List String}
    {state result : σ} {c c' : Cursor} {rest : List Piece}
    (hc : c.rest = body.map .char ++ .char '}' :: rest)
    (hok : r.readMembers n first seen state c = .ok (.ok result, c')) :
    c'.rest = .char '}' :: rest ∧ r.ReadAs result members seen state := by
  induction members generalizing first body n seen state c with
  | nil =>
      cases n with
      | zero => cases hok
      | succ n =>
          cases hbody with
          | nil hgap =>
              obtain ⟨more, c1, hfirst, hsecond⟩ := Reads.bind_ok hok
              obtain ⟨rfl, hc1⟩ := (reads_nextMember_end hgap rest).eq_of_ok hc hfirst
              obtain ⟨hcomplete, rfl⟩ := Prod.mk.inj (Except.ok.inj hsecond)
              exact ⟨hc1, .done hcomplete⟩
  | cons m members ih =>
      cases n with
      | zero => cases hok
      | succ n =>
          cases hbody with
          | @cons _ _ _ sep text body hsep hmember hrest =>
              have hothers : ∀ {seen state} {c : Cursor},
                  c.rest = body.map .char ++ .char '}' :: rest →
                  r.readMembers n false seen state c = .ok (.ok result, c') →
                  c'.rest = .char '}' :: rest ∧ r.ReadAs result members seen state :=
                fun hc hok => ih (fun d hd => hnames d (List.mem_cons_of_mem _ hd))
                  (fun d hd => hvalues d (List.mem_cons_of_mem _ hd)) hrest hc hok
              have hends : EndsNumber (body.map .char ++ .char '}' :: rest) := hrest.ends rfl
              obtain ⟨gap, gap', hgap, hgap', hparts⟩ := hmember.parts
              -- up to its colon every member is read alike
              rw [hparts, List.map_append, List.append_assoc] at hc
              obtain ⟨c1, hc1, hsame⟩ := leads_nextMember hsep c hc
              obtain ⟨name, c2, hname, hok⟩ := Reads.bind_ok (hsame.symm.trans hok)
              have hcolon : Reads Reader.colon (gap ++ [':']) ()
                  ((gap' ++ m.value).map .char ++ (body.map .char ++ .char '}' :: rest)) :=
                Reads.colon hgap
              have hc1' : c1.rest = ('"' :: (m.name ++ ['"'])).map .char ++
                  ((gap ++ [':']).map .char ++
                    ((gap' ++ m.value).map .char ++ (body.map .char ++ .char '}' :: rest))) := by
                rw [hc1]
                simp
              obtain ⟨hc2, hnamed⟩ :=
                MemberText.named_of_ok (hnames m List.mem_cons_self) hc1' hname
              cases hfield : r.field? name with
              | none =>
                  rw [hfield] at hok
                  obtain ⟨_, c3, hcolon', hok⟩ := Reads.bind_ok hok
                  obtain ⟨-, hc3⟩ := hcolon.eq_of_ok hc2 hcolon'
                  obtain ⟨_, c4, hskip, hok⟩ := Reads.bind_ok hok
                  obtain ⟨-, hc4⟩ := (reads_skipValue (hvalues m List.mem_cons_self) hgap'
                    hends).eq_of_ok hc3 hskip
                  obtain ⟨hc', hread⟩ := hothers hc4 hok
                  exact ⟨hc', .skip hnamed hfield hread⟩
              | some f =>
                  obtain ⟨hmem, rfl⟩ := field?_some hfield
                  rw [hfield] at hok
                  dsimp only at hok
                  split at hok
                  · cases hok
                  next hunseen =>
                  obtain ⟨_, c3, hcolon', hok⟩ := Reads.bind_ok hok
                  obtain ⟨-, hc3⟩ := hcolon.eq_of_ok hc2 hcolon'
                  obtain ⟨change, c4, hvalue, hok⟩ := Reads.bind_ok hok
                  obtain ⟨hc4, hall⟩ :=
                    hfields f hmem (hvalues m List.mem_cons_self) hgap' hends hc3 hvalue
                  obtain ⟨hc', hread⟩ := hothers hc4 hok
                  exact ⟨hc', .change hnamed hfield
                    (fun h => hunseen (List.contains_iff_mem.mpr h)) hall hread⟩

/-- What is read of an object from its opening bracket on. -/
def fromBrace (r : Record σ) : Reader σ := do
  Reader.advance
  let n ← Reader.remaining
  let content ← r.readMembers (n + 1) true [] r.initial
  let fault? ← Reader.endObject
  Reader.closed content fault?

private theorem ReadAs.reads_fromBrace {result : σ} {members : List MemberText} {text : List Char}
    (h : r.ReadAs result members [] r.initial) (hobject : ObjectText members text)
    (rest : List Piece) : Reads r.fromBrace text result rest := by
  obtain ⟨body, hbody, rfl⟩ := hobject.written
  have hlen : members.length ≤ body.length + 1 := hbody.length_le
  refine Reads.taken (Reads.look Reads.remaining ?_)
  refine Reads.bind (h.reads_members hobject.values hbody ?_ rest) ?_
  · simp only [List.length_append, List.length_map, List.length_cons, List.length_nil]
    omega
  · exact Reads.then_nothing (Reads.endObject [] blank_nil) (Reads.closed rfl)

private theorem readAs_of_fromBrace (hfields : ∀ f ∈ r.fields, Steady f.wire.read)
    {members : List MemberText} {text : List Char} (hobject : ObjectText members text)
    {c c' : Cursor} {result : σ} {rest : List Piece} (hc : c.rest = text.map .char ++ rest)
    (hok : r.fromBrace c = .ok (result, c')) :
    c'.rest = rest ∧ r.ReadAs result members [] r.initial := by
  obtain ⟨body, hbody, rfl⟩ := hobject.written
  have hadvance : Reads Reader.advance ['{'] () (body.map .char ++ .char '}' :: rest) :=
    Reads.advance
  have hbound : Reads Reader.remaining [] _ (body.map .char ++ .char '}' :: rest) :=
    Reads.remaining
  have hended : Reads Reader.endObject ['}'] none rest := Reads.endObject [] blank_nil
  have hc0 : c.rest = ['{'].map .char ++ (body.map .char ++ .char '}' :: rest) := by
    rw [hc]
    simp
  obtain ⟨_, c1, hfirst, hok⟩ := Reads.bind_ok hok
  obtain ⟨-, hc1⟩ := hadvance.eq_of_ok hc0 hfirst
  obtain ⟨n, c2, hremaining, hok⟩ := Reads.bind_ok hok
  obtain ⟨-, hc2⟩ := hbound.eq_of_ok hc1 hremaining
  obtain ⟨content, c3, hcontent, hok⟩ := Reads.bind_ok hok
  obtain ⟨fault?, c4, hend, hclosed⟩ := Reads.bind_ok hok
  -- whatever is wrong with the members shows at the end
  cases content with
  | error cause => cases fault? <;> cases hclosed
  | ok a =>
      obtain ⟨hc3, hread⟩ :=
        readAs_of_readMembers hfields hobject.names hobject.values hbody hc2 hcontent
      obtain ⟨rfl, hc4⟩ := hended.eq_of_ok hc3 hend
      obtain ⟨rfl, rfl⟩ := Prod.mk.inj (Except.ok.inj hclosed)
      exact ⟨hc4, hread⟩

/-- **Members that are read in some way are read so off any text of the object.** -/
theorem ReadAs.reads {result : σ} {members : List MemberText} {text : List Char}
    (h : r.ReadAs result members [] r.initial) (hobject : ObjectText members text) :
    ReadsAnywhere r.wire.read text result := by
  intro gap rest hgap _
  have hall := h.reads_fromBrace hobject rest
  obtain ⟨body, -, rfl⟩ := hobject.written
  exact Reads.token hgap (by decide) hall

/-- **If a record is read off an object, the members of the object are read in some way.** -/
theorem readAs_of_ok (hfields : ∀ f ∈ r.fields, Steady f.wire.read) {members : List MemberText}
    {text gap : List Char} (hobject : ObjectText members text) (hgap : Blank gap) {c c' : Cursor}
    {result : σ} {rest : List Piece} (hc : c.rest = (gap ++ text).map .char ++ rest)
    (hok : r.wire.read c = .ok (result, c')) :
    c'.rest = rest ∧ r.ReadAs result members [] r.initial := by
  obtain ⟨body, hbody, rfl⟩ := hobject.written
  have hpeek : Reads Reader.peekToken gap (some '{')
      (('{' :: (body ++ ['}'])).map .char ++ rest) := Reads.peekToken hgap rfl
  rw [List.map_append, List.append_assoc] at hc
  obtain ⟨ch?, c1, hfirst, hsecond⟩ := Reads.bind_ok hok
  obtain ⟨rfl, hc1⟩ := hpeek.eq_of_ok hc hfirst
  exact readAs_of_fromBrace hfields hobject hc1 hsecond

/-! ### Records as lists -/

private theorem reads_nextItem {first : Bool} {sep : List Char} (h : Separates first sep)
    {ch : Char} (hch : StartsValue ch) (rest : List Piece) :
    Reads (Reader.nextItem first) sep true (.char ch :: rest) := by
  obtain ⟨hblank, -, hne, -⟩ := hch.apart
  have hpeek : ∀ gap, Blank gap → Reads Reader.peekToken gap (some ch) (.char ch :: rest) :=
    fun gap hgap => Reads.peekToken hgap hblank
  cases first with
  | true =>
      refine Reads.then_nothing (hpeek sep h) ?_
      split
      · next heq => exact absurd (Option.some.inj heq) hne
      · exact Reads.pure
      · next heq => cases heq
  | false =>
      obtain ⟨gap, gap', hgap, hgap', rfl⟩ := h
      refine Reads.token hgap (by decide) (Reads.taken (Reads.then_nothing (hpeek gap' hgap') ?_))
      split
      · next heq => exact absurd (Option.some.inj heq) hne
      · exact Reads.pure
      · next heq => cases heq

private theorem reads_nextItem_end {first : Bool} {gap : List Char} (h : Blank gap)
    (rest : List Piece) : Reads (Reader.nextItem first) gap false (.char ']' :: rest) :=
  Reads.then_nothing (Reads.peekToken h rfl) Reads.pure

/-- The end of a list is found where nothing else stands. -/
private theorem token_of_endList {c c' : Cursor} (h : Reader.endList c = .ok (none, c')) :
    ∃ c1, Reader.peekToken c = .ok (some ']', c1) := by
  obtain ⟨ch?, c1, hfirst, hsecond⟩ := Reads.bind_ok h
  split at hsecond
  · exact ⟨c1, hfirst⟩
  · obtain ⟨_, c2, -, hsecond⟩ := Reads.bind_ok hsecond
    obtain ⟨ch?, c3, -, hsecond⟩ := Reads.bind_ok hsecond
    split at hsecond <;> cases hsecond
  · cases hsecond
  · cases hsecond

/-- The end of a list is not where another item follows. -/
private theorem endList_ne_none {first : Bool} {items : List (List Char)} {v body : List Char}
    (hv : ValueText v) (hbody : Joined Eq first (v :: items) body) {c c' : Cursor}
    {rest : List Piece} (hc : c.rest = body.map .char ++ rest) :
    Reader.endList c ≠ .ok (none, c') := by
  intro hend
  obtain ⟨c1, htoken⟩ := token_of_endList hend
  cases hbody with
  | @cons _ _ _ sep text body hsep htext hrest =>
      subst htext
      obtain ⟨ch, cs, rfl, hch⟩ := hv.head
      rw [List.map_append, List.append_assoc] at hc
      cases first with
      | true =>
          have hpeek : Reads Reader.peekToken sep (some ch)
              ((ch :: cs ++ body).map .char ++ rest) := Reads.peekToken hsep hch.apart.1
          exact hch.apart.2.2.1 (Option.some.inj (hpeek.eq_of_ok hc htoken).1).symm
      | false =>
          obtain ⟨gap, gap', hgap, -, rfl⟩ := hsep
          rw [List.map_append, List.append_assoc] at hc
          have hpeek : Reads Reader.peekToken gap (some ',')
              ((',' :: gap').map .char ++ ((ch :: cs ++ body).map .char ++ rest)) :=
            Reads.peekToken hgap rfl
          exact absurd (Option.some.inj (hpeek.eq_of_ok hc htoken).1) (by decide)

/-- What is read of a list from some field on. -/
def itemsFrom (r : Record σ) (fields : List (Field σ)) (index : Nat) (first : Bool) (state : σ) :
    Reader σ := do
  let content ← r.readItems fields index first state
  let fault? ← Reader.endList
  Reader.closed content fault?

private theorem repeats_itemsFrom {fields : List (Field σ)}
    (hfields : ∀ f ∈ fields, Steady f.wire.read) {items : List (List Char)}
    (hitems : ∀ v ∈ items, ValueText v) {first : Bool} {body : List Char}
    (hbody : Joined Eq first items body) (index : Nat) (state : σ) :
    Repeats (r.itemsFrom fields index first state) (r.itemsFrom fields index first state)
      (body ++ [']']) EndsNumber := by
  induction fields generalizing items first body index state with
  | nil =>
      cases items with
      | nil =>
          cases hbody with
          | nil hgap =>
              have hend : ∀ rest, EndsNumber rest →
                  Reads (r.itemsFrom [] index first state) (body ++ [']']) state rest :=
                fun rest _ =>
                  Reads.look Reads.pure (Reads.then_nothing
                    (Reads.token hgap (by decide) (Reads.taken Reads.pure)) (Reads.closed rfl))
              exact Repeats.of_reads hend hend
      | cons v items =>
          -- a list that is too long is not closed where the fields end
          intro c c' result rest _ hc hok
          obtain ⟨content, c1, hcontent, hok⟩ := Reads.bind_ok hok
          obtain ⟨rfl, rfl⟩ := Prod.mk.inj (Except.ok.inj hcontent)
          obtain ⟨fault?, c2, hend, hclosed⟩ := Reads.bind_ok hok
          rw [List.map_append, List.append_assoc] at hc
          cases fault? with
          | some fault => cases hclosed
          | none => exact absurd hend (endList_ne_none (hitems v List.mem_cons_self) hbody hc)
  | cons f fields ih =>
      have ih := @ih fun g hg => hfields g (List.mem_cons_of_mem _ hg)
      refine Repeats.assoc ?_
      cases hbody with
      | nil hgap =>
          have hnone : ∀ rest, EndsNumber rest →
              Reads (Reader.nextItem first) body false ([']'].map .char ++ rest) :=
            fun rest _ => reads_nextItem_end hgap rest
          refine Repeats.step false hnone hnone ?_
          show Repeats ((if f.presence = .defaulted then _ else _) >>= _)
            ((if f.presence = .defaulted then _ else _) >>= _) _ _
          split
          · exact ih hitems (.nil blank_nil) (index + 1) state
          · have hnever : Gives (do
                let fault? ← Reader.endList
                Reader.closed (.error (.wrongLength index r.whatList)) fault? : Reader σ)
                fun _ => False := Gives.after fun _ => Gives.closed fun _ h => nomatch h
            exact Repeats.of_never hnever
      | @cons _ v items sep text body hsep htext hrest =>
          subst htext
          have hv := hitems v List.mem_cons_self
          have hsome : ∀ rest, EndsNumber rest → Reads (Reader.nextItem first) sep true
              ((v ++ (body ++ [']'])).map .char ++ rest) := by
            obtain ⟨ch, cs, rfl, hch⟩ := hv.head
            exact fun rest _ => reads_nextItem hsep hch _
          rw [List.append_assoc, List.append_assoc]
          refine Repeats.step true hsome hsome (Repeats.assoc ?_)
          refine Repeats.bind ((hfields f List.mem_cons_self hv).repeats blank_nil)
            (fun rest _ => ?_) fun change => ?_
          · rw [List.map_append, List.append_assoc]
            exact hrest.ends rfl
          · exact ih (fun d hd => hitems d (List.mem_cons_of_mem _ hd)) hrest (index + 1)
              (change state)

/-- **A record is read steadily if each of its fields is.** -/
theorem steady (hfields : ∀ f ∈ r.fields, Steady f.wire.read) : Steady r.wire.read := by
  refine Steady.ofToken fun ch cs htext => ?_
  split
  · next hch =>
    subst hch
    obtain ⟨members, hobject⟩ := htext.object_of_brace
    intro c c' result rest _ hc hok
    obtain ⟨hc', hread⟩ := readAs_of_fromBrace hfields hobject hc hok
    exact ⟨hc', fun rest' _ => hread.reads_fromBrace hobject rest'⟩
  split
  · next hch =>
    subst hch
    obtain ⟨items, body, hitems, hbody, rfl⟩ := htext.array_of_bracket
    exact Repeats.taken (repeats_itemsFrom hfields hitems hbody 0 r.initial)
  · exact Repeats.of_never (Gives.mismatch _)

/-! ### What does not matter -/

private theorem complete_congr {seen seen' : List String} (h : ∀ name, name ∈ seen ↔ name ∈ seen')
    (state : σ) : r.complete seen state = r.complete seen' state := by
  have hcontains : ∀ name, seen.contains name = seen'.contains name := by
    intro name
    rw [Bool.eq_iff_iff, List.contains_iff_mem, List.contains_iff_mem]
    exact h name
  simp only [complete, missing?, hcontains]

/-- In which order the fields before have been read does not matter. -/
private theorem ReadAs.seen_congr {result state : σ} {members : List MemberText}
    {seen seen' : List String} (h : r.ReadAs result members seen state)
    (hseen : ∀ name, name ∈ seen ↔ name ∈ seen') : r.ReadAs result members seen' state := by
  induction h generalizing seen' with
  | done hcomplete => exact .done ((complete_congr hseen _).symm.trans hcomplete)
  | skip hname hfield _ ih => exact .skip hname hfield (ih hseen)
  | change hname hfield hunseen hvalue _ ih =>
      refine .change hname hfield (fun h => hunseen ((hseen _).mpr h)) hvalue (ih fun name => ?_)
      rw [List.mem_cons, List.mem_cons, hseen name]

/-- Two fields whose changes may be made in either order. -/
def Swap (f g : Field σ) : Prop :=
  ∀ c d, f.Makes c → g.Makes d → ∀ s, c (d s) = d (c s)

/-- A record that does not depend on the order in which its fields are read. -/
def Orderless (r : Record σ) : Prop := r.fields.Pairwise Swap

private theorem Orderless.swap (h : r.Orderless) {f g : Field σ} {change change' : σ → σ}
    (hf : r.field? f.name = some f) (hg : r.field? g.name = some g) (hne : f.name ≠ g.name)
    (hchange : f.Makes change) (hchange' : g.Makes change') (state : σ) :
    change (change' state) = change' (change state) :=
  forall_of_pairwise (fun _ _ hfg c d hc hd s => (hfg d c hd hc s).symm) h (field?_some hf).1
    (field?_some hg).1 hne change change' hchange hchange' state

/-- Fields that set two attributes may be read in either order. -/
theorem swap_of {α β : Type} {name name' : String} {presence presence' : Presence} {w : Wire α}
    {w' : Wire β} {set : α → σ → σ} {set' : β → σ → σ}
    (h : ∀ a b s, set a (set' b s) = set' b (set a s)) :
    Swap (Field.of name presence w set) (Field.of name' presence' w' set') := by
  rintro c d ⟨cur, cur', hc⟩ ⟨cur1, cur1', hd⟩ s
  obtain ⟨a, cur2, -, hset⟩ := Reads.bind_ok hc
  obtain ⟨b, cur3, -, hset'⟩ := Reads.bind_ok hd
  obtain ⟨rfl, -⟩ := Prod.mk.inj (Except.ok.inj hset)
  obtain ⟨rfl, -⟩ := Prod.mk.inj (Except.ok.inj hset')
  exact h a b s

/-- **Members may stand in any order.** -/
theorem ReadAs.perm (horder : r.Orderless) {result state : σ} {members others : List MemberText}
    {seen : List String} (hperm : members.Perm others) (h : r.ReadAs result members seen state) :
    r.ReadAs result others seen state := by
  induction hperm generalizing seen state with
  | nil => exact h
  | cons m _ ih =>
      cases h with
      | skip hname hfield hrest => exact .skip hname hfield (ih hrest)
      | change hname hfield hunseen hvalue hrest =>
          exact .change hname hfield hunseen hvalue (ih hrest)
  | swap first second members =>
      cases h with
      | skip hname hfield hrest =>
          cases hrest with
          | skip hname' hfield' hrest => exact .skip hname' hfield' (.skip hname hfield hrest)
          | change hname' hfield' hunseen hvalue hrest =>
              exact .change hname' hfield' hunseen hvalue (.skip hname hfield hrest)
      | @change _ _ _ _ f change hname hfield hunseen hvalue hrest =>
          cases hrest with
          | skip hname' hfield' hrest =>
              exact .skip hname' hfield' (.change hname hfield hunseen hvalue hrest)
          | @change _ _ _ _ g change' hname' hfield' hunseen' hvalue' hrest =>
              -- two fields, and not the same one twice
              obtain ⟨hne, hunseen'⟩ := not_or.mp fun h => hunseen' (List.mem_cons.mpr h)
              have hswap :=
                horder.swap hfield hfield' (Ne.symm hne) hvalue.makes hvalue'.makes state
              refine .change hname' hfield' hunseen' hvalue' (.change hname hfield ?_ hvalue ?_)
              · intro h
                rcases List.mem_cons.mp h with h | h
                · exact hne h.symm
                · exact hunseen h
              · rw [hswap]
                refine hrest.seen_congr fun name => ?_
                simp only [List.mem_cons]
                exact or_left_comm
  | trans _ _ ih ih' => exact ih' (ih h)

/-- **Members that no field is named for may stand anywhere.** -/
theorem ReadAs.further {result state : σ} {members further : List MemberText} {seen : List String}
    (h : r.ReadAs result members seen state)
    (hfurther : ∀ m ∈ further, ∃ name, m.Named name ∧ r.field? name = none) :
    r.ReadAs result (further ++ members) seen state := by
  induction further with
  | nil => exact h
  | cons m further ih =>
      obtain ⟨name, hname, hfield⟩ := hfurther m List.mem_cons_self
      exact .skip hname hfield (ih fun d hd => hfurther d (List.mem_cons_of_mem _ hd))

/-- Members may be replaced by others of their names off which the fields read the same. -/
theorem ReadAs.replaced {result state : σ} {members others : List MemberText} {seen : List String}
    (hothers : List.Forall₂ (fun m m' => (∀ name, m.Named name → m'.Named name) ∧
      ∀ f ∈ r.fields, m.Named f.name → Carries f.wire.read m.value m'.value) members others)
    (h : r.ReadAs result members seen state) : r.ReadAs result others seen state := by
  induction hothers generalizing seen state with
  | nil => exact h
  | cons hfirst _ ih =>
      cases h with
      | skip hnamed hfield hrest => exact .skip (hfirst.1 _ hnamed) hfield (ih hrest)
      | change hnamed hfield hunseen hread hrest =>
          have hcarries := hfirst.2 _ (field?_some hfield).1 hnamed
          exact .change (hfirst.1 _ hnamed) hfield hunseen (hcarries.readsAnywhere hread) (ih hrest)

end Record

end ParameterManager.Json
