/-
What a sink takes.

A sink may be full at any byte.  It takes what comes before that byte, however a line was
cut into pieces on its way there.  A sink without a bound takes everything.
-/
import ParameterManager.Operation

namespace ParameterManager

/-! ### Writing -/

namespace Sink

variable {s : Sink} {bs : Bytes}

/-- There is room for all of some bytes. -/
def Holds (s : Sink) (bs : Bytes) : Prop := ∀ room ∈ s.room?, bs.length ≤ room

/-- The part of some bytes for which there is room. -/
def fitting (s : Sink) (bs : Bytes) : Bytes :=
  match s.room? with
  | none => bs
  | some room => bs.take room

/-- A sink after it has taken what it can of some bytes. -/
def filled (s : Sink) (bs : Bytes) : Sink :=
  { s with written := s.written ++ s.fitting bs, room? := s.room?.map (· - bs.length) }

theorem snd_write (s : Sink) (bs : Bytes) : (s.write bs).2 = s.filled bs := by
  obtain ⟨written, _ | room, refusal⟩ := s
  · rfl
  · rfl

theorem write_of_holds (h : s.Holds bs) : s.write bs = (.ok (), s.filled bs) := by
  obtain ⟨written, _ | room, refusal⟩ := s
  · rfl
  · exact Prod.ext (if_pos (h room rfl)) rfl

theorem room?_of_not_holds (h : ¬s.Holds bs) : ∃ room, s.room? = some room ∧ room < bs.length := by
  simp only [Holds, Classical.not_forall, Nat.not_le] at h
  obtain ⟨room, hroom, hlt⟩ := h
  exact ⟨room, hroom, hlt⟩

theorem write_of_not_holds (h : ¬s.Holds bs) :
    s.write bs = (.error s.refusal.error, s.filled bs) := by
  obtain ⟨room, hroom, hlt⟩ := room?_of_not_holds h
  obtain ⟨written, _, refusal⟩ := s
  cases hroom
  exact Prod.ext (if_neg (Nat.not_le_of_lt hlt)) rfl

theorem holds_append {bs' : Bytes} :
    s.Holds (bs ++ bs') ↔ s.Holds bs ∧ (s.filled bs).Holds bs' := by
  obtain ⟨written, _ | room, refusal⟩ := s
  · simp [Holds, filled]
  · simp only [Holds, filled, Option.mem_def, Option.some.injEq, forall_eq', Option.map_some,
      List.length_append]
    omega

theorem filled_append (h : s.Holds bs) (bs' : Bytes) :
    s.filled (bs ++ bs') = (s.filled bs).filled bs' := by
  obtain ⟨written, _ | room, refusal⟩ := s
  · simp [filled, fitting]
  · have hroom : bs.length ≤ room := h room rfl
    simp [filled, fitting, List.take_append, List.take_of_length_le hroom, Nat.sub_sub]

/-- Nothing fits after bytes that did not fit. -/
theorem filled_append_of_not_holds (h : ¬s.Holds bs) (bs' : Bytes) :
    s.filled (bs ++ bs') = s.filled bs := by
  obtain ⟨room, hroom, hlt⟩ := room?_of_not_holds h
  obtain ⟨written, _, refusal⟩ := s
  cases hroom
  have hfull : room - (bs.length + bs'.length) = room - bs.length := by omega
  simp only [filled, fitting, Option.map_some, List.length_append,
    List.take_append_of_le_length (Nat.le_of_lt hlt), hfull]

/-- Writes pieces one after the other, up to the first that is not taken whole. -/
def writePieces (s : Sink) : List Bytes → ClientResult Unit × Sink
  | [] => (.ok (), s)
  | bs :: pieces =>
    match s.write bs with
    | (.ok (), s') => s'.writePieces pieces
    | (.error e, s') => (.error e, s')

/-- **Pieces make no difference.**  What is written in pieces is written at once. -/
theorem writePieces_eq (s : Sink) (pieces : List Bytes) :
    s.writePieces pieces = s.write pieces.flatten := by
  induction pieces generalizing s with
  | nil =>
      have hroom : s.Holds [] := fun room _ => Nat.zero_le room
      rw [List.flatten_nil, write_of_holds hroom]
      obtain ⟨written, _ | room, refusal⟩ := s
      · simp [writePieces, filled, fitting]
      · simp [writePieces, filled, fitting]
  | cons bs pieces ih =>
      rw [List.flatten_cons, writePieces]
      by_cases hroom : s.Holds bs
      · simp only [write_of_holds hroom]
        rw [ih]
        by_cases hrest : (s.filled bs).Holds pieces.flatten
        · rw [write_of_holds hrest, write_of_holds (holds_append.mpr ⟨hroom, hrest⟩),
            filled_append hroom]
        · rw [write_of_not_holds hrest,
            write_of_not_holds fun h => hrest (holds_append.mp h).2, filled_append hroom]
          rfl
      · simp only [write_of_not_holds hroom]
        rw [write_of_not_holds fun h => hroom (holds_append.mp h).1,
          filled_append_of_not_holds hroom]

end Sink

/-! ### Sinks without a bound -/

/-- A sink after it has taken a whole text. -/
def Sink.appended (s : Sink) (text : String) : Sink :=
  { s with written := s.written ++ Utf8.encode text }

theorem Sink.write_unbounded {s : Sink} (hs : s.room? = none) (text : String) :
    s.write (Utf8.encode text) = (.ok (), s.appended text) := by
  have hroom : s.Holds (Utf8.encode text) := fun room h => by simp [hs] at h
  rw [Sink.write_of_holds hroom]
  simp [Sink.filled, Sink.fitting, Sink.appended, hs]

/-! ### Reports -/

namespace Operation

variable {s : Sink} {line : Parameter → ClientResult String} {p : Parameter} {text : String}

theorem report_of_line_error {e : ClientError} (h : line p = .error e) :
    report s line (.ok p) = (.error e, s) := by
  simp only [report, h]

/-- A line is written to the sink, and what comes of that is what is reported. -/
theorem report_of_line (h : line p = .ok text) :
    report s line (.ok p) =
      ((s.write (Utf8.encode text)).1.map fun _ => p, s.filled (Utf8.encode text)) := by
  rw [← Sink.snd_write]
  simp only [report, h]
  rcases s.write (Utf8.encode text) with ⟨e | ⟨⟩, s'⟩
  · rfl
  · rfl

/-- A sink without a bound takes the line about a parameter. -/
theorem report_unbounded (hs : s.room? = none) (h : line p = .ok text) :
    report s line (.ok p) = (.ok p, s.appended text) := by
  rw [report_of_line h, ← Sink.snd_write, Sink.write_unbounded hs]
  rfl

/-- It has no bound afterwards. -/
theorem room?_report (hs : s.room? = none) (line : Parameter → ClientResult String)
    (answer : ClientResult Parameter) : (report s line answer).2.room? = none := by
  cases answer with
  | error e => exact hs
  | ok p =>
      cases hline : line p with
      | error e =>
          rw [report_of_line_error hline]
          exact hs
      | ok text =>
          rw [report_unbounded hs hline]
          exact hs

end Operation

end ParameterManager
