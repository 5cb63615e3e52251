/-
A command is its operation, and what is printed of that.

A command line that is understood names a configuration and one operation.  If the
configuration is found and can be read, the run is that operation: it sends what the operation
sends, it succeeds if the operation does, and otherwise it prints the error of the operation.
Nothing is printed before the operation has ended.

What an operation writes is a text about the parameter, so there is always something to print,
and no conversion on the way to the printout can fail.
-/
import ParameterManager.CommandLine.Run
import ParameterManager.Proofs.Http.Sent
import ParameterManager.Proofs.Operation
import ParameterManager.Proofs.Sink
import ParameterManager.Proofs.Text.Utf8

namespace ParameterManager

/-! ### Texts that are more than blanks -/

/-- A text starts with a character that is no blank. -/
def Text.StartsWord (s : String) : Prop := ∃ c rest, s.toList = c :: rest ∧ isBlank c = false

namespace Text

variable {s : String}

theorem StartsWord.ne_empty (h : StartsWord s) : s ≠ "" := by
  obtain ⟨c, rest, hchars, -⟩ := h
  rintro rfl
  simp at hchars

private theorem dropEndWhile_cons_ne_nil {p : Char → Bool} {c : Char} (h : p c = false)
    (rest : List Char) : dropEndWhile p (c :: rest) ≠ [] := by
  rw [dropEndWhile, List.reverse_cons, List.dropWhile_append]
  split
  · simp [h]
  · simp

/-- Such a text is not trimmed away. -/
theorem StartsWord.trimEnd_ne_empty (h : StartsWord s) : trimEnd s ≠ "" := by
  obtain ⟨c, rest, hchars, hc⟩ := h
  intro hempty
  have htrimmed := congrArg String.toList hempty
  rw [trimEnd, String.toList_ofList, hchars] at htrimmed
  exact dropEndWhile_cons_ne_nil hc rest htrimmed

theorem StartsWord.append (h : StartsWord s) (after : String) : StartsWord (s ++ after) := by
  obtain ⟨c, rest, hchars, hc⟩ := h
  exact ⟨c, rest ++ after.toList, by rw [String.toList_append, hchars]; rfl, hc⟩

end Text

/-! ### What was written -/

theorem Operation.report_eq_ok {s s' : Sink} {line : Parameter → ClientResult String}
    {answer : ClientResult Parameter} {p : Parameter} (hs : s.room? = none)
    (h : report s line answer = (.ok p, s')) : ∃ text, line p = .ok text ∧ s' = s.appended text := by
  obtain rfl := report_ok (congrArg Prod.fst h)
  cases hline : line p with
  | error e =>
      rw [report_of_line_error hline] at h
      simp at h
  | ok text =>
      rw [report_unbounded hs hline] at h
      exact ⟨text, rfl, (congrArg Prod.snd h).symm⟩

namespace KeyChange

variable {p : Parameter}

theorem line_startsWord {change : KeyChange} {text : String} (h : change.line p = .ok text) :
    Text.StartsWord text := by
  cases change with
  | set key =>
      have hword : Text.StartsWord "Updated parameter " := ⟨'U', _, rfl, by decide⟩
      cases hkey : p.kmsKey with
      | none =>
          rw [line_set_missing hkey] at h
          simp at h
      | some stored =>
          -- the line has the key that is stored, whatever key was asked for
          have hsame : (set stored).line p = .ok text := h
          rw [line_set hkey] at hsame
          obtain rfl := Except.ok.inj hsame
          exact (((hword.append _).append _).append _).append _
  | clear =>
      have hword : Text.StartsWord "Removed kms_key for parameter " := ⟨'R', _, rfl, by decide⟩
      rw [line_clear] at h
      obtain rfl := Except.ok.inj h
      exact (hword.append _).append _

/-- A change that is done has written its line. -/
theorem written_of_ok {σ : Type} {party : Exchange.Party σ} {conf : ClientConf} {files : FileTree}
    {now : Nat} {project parameter : String} (change : KeyChange) {s : σ} {sink : Sink}
    (h : (Exchange.run party (change.perform (conf.connector files now) {} project parameter) s).1
      = (.ok p, sink)) : ∃ text, change.line p = .ok text ∧ sink.written = Utf8.encode text := by
  rw [run_perform] at h
  split at h
  · simp at h
  · obtain ⟨text, hline, rfl⟩ := Operation.report_eq_ok rfl h
    exact ⟨text, hline, rfl⟩

end KeyChange

/-! ### Printing -/

/-- The line of a change is a text, and trimmed. -/
theorem Printout.ofChanged_eq {sink : Sink} {text : String} (h : sink.written = Utf8.encode text)
    (p : Parameter) : ofChanged p sink = .ok ⟨Text.trimEnd text, p⟩ := by
  unfold ofChanged
  rw [h, Utf8.decode?_encode]
  rfl

namespace ParameterCommand

variable {σ : Type} {party : Exchange.Party σ} {conf : ClientConf} {files : FileTree} {now : Nat}
  {s : σ} {p : Parameter} {sink : Sink}

/-- **What is done can be printed**, and it is more than nothing. -/
theorem printout_eq {command : ParameterCommand}
    (h : (Exchange.run party (command.operation (conf.connector files now) {}) s).1
      = (.ok p, sink)) :
    ∃ line, command.printout p sink = .ok ⟨line, p⟩ ∧ line ≠ "" := by
  cases command with
  | get project parameter =>
      have hword : Text.StartsWord "Found parameter " := ⟨'F', _, rfl, by decide⟩
      refine ⟨_, rfl, Text.StartsWord.ne_empty ?_⟩
      cases p.kmsKey with
      | some key => exact ((((hword.append _).append _).append _).append _).append _
      | none => exact ((hword.append _).append _).append _
  | updateKmsKey project parameter key =>
      obtain ⟨text, hline, hwritten⟩ := KeyChange.written_of_ok (.set key) h
      exact ⟨_, Printout.ofChanged_eq hwritten p, (KeyChange.line_startsWord hline).trimEnd_ne_empty⟩
  | removeKmsKey project parameter =>
      obtain ⟨text, hline, hwritten⟩ := KeyChange.written_of_ok .clear h
      exact ⟨_, Printout.ofChanged_eq hwritten p, (KeyChange.line_startsWord hline).trimEnd_ne_empty⟩

theorem conclude_error (command : ParameterCommand) (e : ClientError) (s : Sink) :
    command.conclude (.error e, s) = .error (.client e) := rfl

theorem conclude_ok (command : ParameterCommand) (p : Parameter) (s : Sink) :
    command.conclude (.ok p, s) = command.printout p s := rfl

end ParameterCommand

/-! ### Whole runs -/

/-- A run that fails prints an error, and nothing else. -/
structure Outcome.Fails (out : Outcome) (text : String) : Prop where
  exit : out.exit = 1
  stdout : out.stdout = ""
  stderr : out.stderr = s!"ERROR: {text}\n"

/-- A run that succeeds prints something, and no error. -/
structure Outcome.Prints (out : Outcome) (text : String) : Prop where
  exit : out.exit = 0
  stdout : out.stdout = text
  nonempty : text ≠ ""
  stderr : out.stderr = ""

/-- What a run leaves behind is what its operation comes to, and how that is printed. -/
structure Outcome.Shows (out : Outcome) (command : ParameterCommand) (format : Option Bytes)
    (done : ClientResult Parameter × Sink) : Prop where
  exit : out.exit = 0 ↔ ∃ p, done.1 = .ok p
  failed : ∀ e, done.1 = .error e → out.Fails e.message
  printed : ∀ p, done.1 = .ok p →
    ∃ printout, command.printout p done.2 = .ok printout ∧ out.Prints (printout.render format)

namespace Invocation

variable {σ : Type} {party : Exchange.Party σ} {i : Invocation} {env : Environment}
  {files : FileTree} {now : Nat} {s : σ}

private theorem runArguments_eq {args : List Bytes} (h : read args = .ok i) :
    runArguments args env files now = i.run env files now := by
  unfold runArguments
  simp only [h]

/-- A run that has its configuration is the operation, and what is made of it. -/
private theorem run_eq {conf : ClientConf} {files' : FileTree}
    (h : i.configure env files = (files', .ok conf)) :
    i.run env files now = i.command.operation (conf.connector files' now) {} >>= fun done =>
      pure (.ofPrintout env.format files' (i.command.conclude done)) := by
  unfold run
  simp only [h]
  exact Exchange.bind_assoc _ _ _

theorem does_configured (party : Exchange.Party σ) {args : List Bytes}
    (h : read args = .ok i) {conf : ClientConf} {files' : FileTree}
    (hconf : i.configure env files = (files', .ok conf)) (now : Nat) (s : σ) :
    let operation := i.command.operation (conf.connector files' now) {}
    Exchange.Does party (runArguments args env files now) s (Exchange.sent party operation s)
      (.ofPrintout env.format files' (i.command.conclude (Exchange.run party operation s).1))
      (Exchange.run party operation s).2 := by
  intro operation
  rw [runArguments_eq h, run_eq hconf, ← List.append_nil (Exchange.sent party operation s)]
  exact (Exchange.Does.self party operation s).bind (Exchange.Does.pure _ _)

theorem does_unconfigured (party : Exchange.Party σ) {args : List Bytes}
    (h : read args = .ok i) {e : CliError} {files' : FileTree}
    (hconf : i.configure env files = (files', .error e)) (now : Nat) (s : σ) :
    Exchange.Does party (runArguments args env files now) s [] (e.outcome files') s := by
  have hrun : i.run env files now = pure (e.outcome files') := by
    unfold run
    simp only [hconf]
  rw [runArguments_eq h, hrun]
  exact Exchange.Does.pure _ s

end Invocation

end ParameterManager
