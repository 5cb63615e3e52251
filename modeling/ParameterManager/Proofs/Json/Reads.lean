/-
Readers that take some characters off a text.

`Reads r cs a rest` says that `r` takes exactly the characters `cs`, gives `a`, and leaves
`rest`.  Many readers look at what comes next without taking it, so what follows is a part
of the statement; a reader that does not look further reads the same whatever follows.

Where a text comes from, and where in it the reader stands, matters to the places of
faults only.  A cursor therefore occurs here by what is left of its text and by nothing
else.
-/
import ParameterManager.Json.Wire

namespace ParameterManager.Json

open Utf8 (Piece)

variable {α β : Type}

/-- A reader takes some characters off a text, and leaves the rest. -/
def Reads (r : Reader α) (cs : List Char) (a : α) (rest : List Piece) : Prop :=
  ∀ c : Cursor, c.rest = cs.map .char ++ rest → ∃ c', r c = .ok (a, c') ∧ c'.rest = rest

/-- Blanks between two tokens. -/
def Blank (gap : List Char) : Prop := ∀ c ∈ gap, isBlank c = true

theorem blank_nil : Blank [] := fun _ h => absurd h List.not_mem_nil

/-- Whether the next character of a text is none of a class; a malformed run is of no class. -/
def StopsAt (p : Char → Bool) : List Piece → Prop
  | .char ch :: _ => p ch = false
  | _ => True

private theorem dropWhile_stops {p : Char → Bool} {rest : List Piece} (h : StopsAt p rest)
    (pos : Position) :
    dropWhile p rest pos = (rest, pos) := by
  unfold dropWhile
  split
  · next pos ch tail =>
    have hch : p ch = false := h
    rw [hch]
    rfl
  · rfl

/-- Exactly the characters of a class at the start of a text are dropped. -/
theorem dropWhile_append {p : Char → Bool} {rest : List Piece} {gap : List Char}
    (hgap : ∀ c ∈ gap, p c = true)
    (h : StopsAt p rest) (pos : Position) : (dropWhile p (gap.map .char ++ rest) pos).1 = rest := by
  induction gap generalizing pos with
  | nil =>
      rw [List.map_nil, List.nil_append, dropWhile_stops h]
  | cons c gap ih =>
      rw [List.map_cons, List.cons_append, dropWhile, if_pos (hgap c List.mem_cons_self)]
      exact ih (fun d hd => hgap d (List.mem_cons_of_mem _ hd)) _

namespace Reads

variable {r : Reader α} {f : α → Reader β} {cs ds : List Char} {a : α} {b : β} {rest : List Piece}

/-! ### One after the other -/

theorem pure : Reads (Pure.pure a) [] a rest := fun c hc => ⟨c, rfl, hc⟩

/-- Two readers, one after the other, take what both of them take. -/
theorem bind (hr : Reads r cs a (ds.map .char ++ rest)) (hf : Reads (f a) ds b rest) :
    Reads (r >>= f) (cs ++ ds) b rest := by
  intro c hc
  rw [List.map_append, List.append_assoc] at hc
  obtain ⟨c1, h1, hc1⟩ := hr c hc
  obtain ⟨c2, h2, hc2⟩ := hf c1 hc1
  refine ⟨c2, ?_, hc2⟩
  dsimp only [Bind.bind]
  rw [h1]
  exact h2

theorem look (hr : Reads r [] a (ds.map .char ++ rest)) (hf : Reads (f a) ds b rest) :
    Reads (r >>= f) ds b rest := bind hr hf

theorem then_nothing (hr : Reads r cs a rest) (hf : Reads (f a) [] b rest) :
    Reads (r >>= f) cs b rest := by
  have h : Reads (r >>= f) (cs ++ []) b rest := bind hr hf
  rwa [List.append_nil] at h

/-- What a reader takes and gives is all that it can take and give. -/
theorem eq_of_ok {c c' : Cursor} (h : Reads r cs a rest) (hc : c.rest = cs.map .char ++ rest)
    {a' : α} (hok : r c = .ok (a', c')) : a' = a ∧ c'.rest = rest := by
  obtain ⟨c1, hok1, hc1⟩ := h c hc
  rw [hok1] at hok
  obtain ⟨rfl, rfl⟩ := Prod.mk.inj (Except.ok.inj hok)
  exact ⟨rfl, hc1⟩

/-- What two readers give one after the other, the second gives on what the first gave. -/
theorem bind_ok {c c' : Cursor} (h : (r >>= f) c = .ok (b, c')) :
    ∃ a c1, r c = .ok (a, c1) ∧ f a c1 = .ok (b, c') := by
  dsimp only [Bind.bind] at h
  cases hc : r c with
  | error e => simp [hc] at h
  | ok result =>
      rw [hc] at h
      exact ⟨result.1, result.2, rfl, h⟩

/-- Of three readers the last two can be taken together. -/
theorem assoc {γ : Type} {g : β → Reader γ} {d : γ} (h : Reads (r >>= fun a => f a >>= g) cs d rest) :
    Reads (r >>= f >>= g) cs d rest := by
  intro c hc
  obtain ⟨c', hok, hc'⟩ := h c hc
  refine ⟨c', ?_, hc'⟩
  rw [← hok]
  dsimp only [Bind.bind]
  cases r c <;> rfl

/-! ### Characters and blanks -/

theorem advance {ch : Char} : Reads Reader.advance [ch] () rest := by
  intro c hc
  refine ⟨c.advance, rfl, ?_⟩
  rw [Cursor.advance, hc]
  rfl

theorem remaining : Reads Reader.remaining [] rest.length rest := by
  intro c hc
  refine ⟨c, ?_, hc⟩
  show Except.ok (c.rest.length, c) = _
  rw [hc]
  rfl

theorem peek : Reads Reader.peek [] (rest.head?.map Piece.shown) rest := by
  intro c hc
  refine ⟨{ c with looked := true }, ?_, hc⟩
  show Except.ok (c.rest.head?.map Piece.shown, _) = _
  rw [hc]
  rfl

/-- Looking for the next token takes the blanks before it. -/
theorem peekToken {gap : List Char} (hgap : Blank gap) (h : StopsAt isBlank rest) :
    Reads Reader.peekToken gap (rest.head?.map Piece.shown) rest := by
  intro c hc
  have hdrop := dropWhile_append hgap h c.position
  refine ⟨{ c with
    rest := (dropWhile isBlank c.rest c.position).1
    position := (dropWhile isBlank c.rest c.position).2
    looked := true }, ?_, ?_⟩
  · show Except.ok ((dropWhile isBlank c.rest c.position).1.head?.map Piece.shown, _) = _
    rw [hc, hdrop]
  · rw [hc]
    exact hdrop

/-- A token is found behind the blanks, and is still to be taken. -/
theorem token {g : Option Char → Reader β} {gap : List Char} {ch : Char} (hgap : Blank gap)
    (hch : isBlank ch = false) (hg : Reads (g (some ch)) (ch :: cs) b rest) :
    Reads (Reader.peekToken >>= g) (gap ++ ch :: cs) b rest :=
  bind (peekToken hgap hch) hg

theorem taken {g : Unit → Reader β} {ch : Char} (hg : Reads (g ()) cs b rest) :
    Reads (Reader.advance >>= g) (ch :: cs) b rest := by
  have hadvance : Reads Reader.advance [ch] () (cs.map .char ++ rest) := advance
  exact bind hadvance hg

/-! ### Fixed words and signs -/

theorem word : ∀ {cs : List Char}, Reads (Reader.word cs) cs () rest := by
  intro cs
  induction cs with
  | nil => exact pure
  | cons c cs ih =>
      refine look peek ?_
      show Reads (if c = c then _ else _) (c :: cs) () rest
      rw [if_pos rfl]
      exact taken ih

theorem colon {gap : List Char} (hgap : Blank gap) : Reads Reader.colon (gap ++ [':']) () rest :=
  token hgap (by decide) advance

theorem endObject (gap : List Char) (hgap : Blank gap) :
    Reads Reader.endObject (gap ++ ['}']) none rest :=
  token hgap (by decide) (taken pure)

theorem closed {content : Except Cause α} (h : content = .ok a) :
    Reads (Reader.closed content none) [] a rest := by
  subst h
  exact pure

/-- A whole text gives what a reader reads off it, if there are only blanks behind that. -/
theorem runAll_gap {c : Cursor} {gap : List Char} (hgap : Blank gap)
    (hc : c.rest = cs.map .char ++ gap.map .char) (hr : Reads r cs a (gap.map .char)) :
    r.runAll c = .ok a := by
  have hnone : Reads Reader.peekToken gap none [] := peekToken hgap trivial
  have hfinish : Reads Reader.finish gap () [] := then_nothing hnone pure
  have hgap' : Reads r cs a (gap.map .char ++ []) := by rwa [List.append_nil]
  have hall : Reads (r >>= fun a => Reader.finish >>= fun _ => (Pure.pure a : Reader α))
      (cs ++ gap) a [] := bind hgap' (then_nothing hfinish pure)
  obtain ⟨c', hok, -⟩ := hall c (by rw [hc, List.map_append, List.append_nil])
  show ((r >>= fun a => Reader.finish >>= fun _ => (Pure.pure a : Reader α)) c).map (·.1) = .ok a
  rw [hok]
  rfl

/-- A whole text gives what a reader reads off it. -/
theorem runAll {c : Cursor} (hc : c.rest = cs.map .char) (hr : Reads r cs a []) :
    r.runAll c = .ok a :=
  runAll_gap blank_nil (hc.trans (List.append_nil _).symm) hr

/-- What a whole text gives has been read off it. -/
theorem runAll_ok {c : Cursor} (h : r.runAll c = .ok a) : ∃ c', r c = .ok (a, c') := by
  replace h : ((r >>= fun a => Reader.finish >>= fun _ => (Pure.pure a : Reader α)) c).map (·.1)
    = .ok a := h
  cases hc : (r >>= fun a => Reader.finish >>= fun _ => (Pure.pure a : Reader α)) c with
  | error e =>
      rw [hc] at h
      cases h
  | ok result =>
      rw [hc] at h
      obtain ⟨a', c1, hfirst, hsecond⟩ := bind_ok hc
      obtain ⟨_, c2, -, hlast⟩ := bind_ok hsecond
      obtain ⟨rfl, -⟩ := Prod.mk.inj (Except.ok.inj hlast)
      obtain rfl := Except.ok.inj h
      exact ⟨c1, hfirst⟩

end Reads

/-! ### One reader going on as another

Where a reader may still fail, what it gives cannot be said, but what it does can: having taken
some characters it does what another reader does with the rest.
-/

/-- A reader takes some characters off a text, and goes on as another on the rest. -/
def Leads (r : Reader α) (cs : List Char) (r' : Reader α) (rest : List Piece) : Prop :=
  ∀ c : Cursor, c.rest = cs.map .char ++ rest → ∃ c', c'.rest = rest ∧ r c = r' c'

namespace Leads

variable {r r' r'' : Reader α} {f : α → Reader β} {cs ds : List Char} {a : α}
  {rest : List Piece}

theorem refl : Leads r [] r rest := fun c hc => ⟨c, hc, rfl⟩

theorem trans (h : Leads r cs r' (ds.map .char ++ rest)) (h' : Leads r' ds r'' rest) :
    Leads r (cs ++ ds) r'' rest := by
  intro c hc
  rw [List.map_append, List.append_assoc] at hc
  obtain ⟨c1, hc1, h1⟩ := h c hc
  obtain ⟨c2, hc2, h2⟩ := h' c1 hc1
  exact ⟨c2, hc2, h1.trans h2⟩

/-- A reader that gives something lets the next one go on. -/
theorem of_reads (h : Reads r cs a rest) : Leads (r >>= f) cs (f a) rest := by
  intro c hc
  obtain ⟨c1, h1, hc1⟩ := h c hc
  refine ⟨c1, hc1, ?_⟩
  dsimp only [Bind.bind]
  rw [h1]

/-- A reader that only looks lets the next one go on from the same place. -/
theorem look {g : Reader β} (hr : Reads r [] a (ds.map .char ++ rest))
    (h : Leads (f a) ds g rest) : Leads (r >>= f) ds g rest := by
  have hf : Leads (r >>= f) [] (f a) (ds.map .char ++ rest) := of_reads hr
  exact hf.trans h

theorem taken {g : Reader β} {f : Unit → Reader β} {ch : Char} (h : Leads (f ()) ds g rest) :
    Leads (Reader.advance >>= f) (ch :: ds) g rest := by
  have hadvance : Reads Reader.advance [ch] () (ds.map .char ++ rest) := Reads.advance
  have hf : Leads (Reader.advance >>= f) [ch] (f ()) (ds.map .char ++ rest) := of_reads hadvance
  exact hf.trans h

/-- What comes after a reader comes after the one it goes on as. -/
theorem bind (h : Leads r cs r' rest) : Leads (r >>= f) cs (r' >>= f) rest := by
  intro c hc
  obtain ⟨c1, hc1, h1⟩ := h c hc
  refine ⟨c1, hc1, ?_⟩
  dsimp only [Bind.bind]
  rw [h1]

/-- What the other gives off the rest, the reader gives off all of it. -/
theorem reads (h : Leads r cs r' (ds.map .char ++ rest)) (h' : Reads r' ds a rest) :
    Reads r (cs ++ ds) a rest := by
  intro c hc
  rw [List.map_append, List.append_assoc] at hc
  obtain ⟨c1, hc1, h1⟩ := h c hc
  rw [h1]
  exact h' c1 hc1

end Leads

end ParameterManager.Json
