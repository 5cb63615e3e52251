/-
What is printed of the line about a change.

A command takes the line that its operation has written, drops the blanks at its end, and ends
it again.  So what is printed is the line itself only if nothing but the end of the line was
dropped: if the name or the key with which it ends is there, and ends in no blank.
-/
import ParameterManager.Proofs.CommandLine

namespace ParameterManager

/-! ### Texts that end in a word -/

/-- A text ends in a character that is no blank. -/
def Text.EndsInWord (s : String) : Prop := ∃ c, s.toList.getLast? = some c ∧ isBlank c = false

namespace Text

variable {p : Char → Bool} {cs : List Char}

theorem dropEndWhile_concat {c : Char} (h : p c = true) :
    dropEndWhile p (cs ++ [c]) = dropEndWhile p cs := by
  simp [dropEndWhile, h]

/-- Nothing is dropped of what does not end in the class. -/
theorem dropEndWhile_eq_self :
    dropEndWhile p cs = cs ↔ ∀ c, cs.getLast? = some c → p c = false := by
  constructor
  · intro h c hc
    rw [← h] at hc
    exact getLast?_dropEndWhile hc
  · intro h
    rcases List.eq_nil_or_concat cs with rfl | ⟨front, c, rfl⟩
    · rfl
    · rw [List.concat_eq_append] at h ⊢
      exact dropEndWhile_append_singleton (h c (by simp))

theorem trimEnd_newline (s : String) : trimEnd (s ++ "\n") = trimEnd s := by
  have hchars : (s ++ "\n").toList = s.toList ++ ['\n'] := by simp
  rw [trimEnd, trimEnd, hchars, dropEndWhile_concat (by decide)]

/-- A line keeps its end exactly if it ends in a word, or is nothing at all. -/
theorem trimEnd_eq_self {s : String} (h : s ≠ "") : trimEnd s = s ↔ EndsInWord s := by
  have hchars : trimEnd s = s ↔ dropEndWhile isBlank s.toList = s.toList := by
    rw [← String.toList_inj, trimEnd, String.toList_ofList]
  rw [hchars, dropEndWhile_eq_self]
  constructor
  · intro hlast
    obtain ⟨front, c, hc⟩ := (List.eq_nil_or_concat s.toList).resolve_left (by simpa using h)
    exact ⟨c, by simp [hc], hlast c (by simp [hc])⟩
  · rintro ⟨c, hc, hblank⟩ c' hc'
    rw [hc] at hc'
    rwa [← Option.some.inj hc']

/-- After a blank, a text ends in the word in which it goes on. -/
theorem endsInWord_append_blank (front last : String) :
    EndsInWord (front ++ " " ++ last) ↔ EndsInWord last := by
  unfold EndsInWord
  rw [String.toList_append, List.getLast?_append]
  cases last.toList.getLast? with
  | some c => simp
  | none =>
      have hblank : isBlank ' ' = true := by decide
      simp [hblank]

end Text

/-! ### Lines about changes -/

namespace KeyChange

variable {p : Parameter}

/-- The command that makes a change. -/
def command (project parameter : String) : KeyChange → ParameterCommand
  | set key => .updateKmsKey project parameter key
  | clear => .removeKmsKey project parameter

/-- What the line about a change says last: the key that was answered, or the name. -/
def saidLast (p : Parameter) : KeyChange → String
  | set _ => p.kmsKey.getD ""
  | clear => p.name

/-- The line about a change, in full. -/
def fullLine (p : Parameter) : KeyChange → String
  | set _ =>
    let key := p.kmsKey.getD ""
    s!"Updated parameter {p.name} with kms_key {key}\n"
  | clear => s!"Removed kms_key for parameter {p.name}\n"

theorem fullLine_set {key : String} (h : p.kmsKey = some key) (asked : String) :
    (set asked).fullLine p = s!"Updated parameter {p.name} with kms_key {key}\n" := by
  unfold fullLine
  rw [h]
  rfl

theorem fullLine_of_line {change : KeyChange} {text : String} (h : change.line p = .ok text) :
    text = change.fullLine p := by
  cases change with
  | set asked =>
      cases hkey : p.kmsKey with
      | none =>
          rw [line_set_missing hkey] at h
          simp at h
      | some key =>
          have hline : (set asked).line p = (set key).line p := rfl
          rw [hline, line_set hkey] at h
          rw [fullLine_set hkey]
          exact (Except.ok.inj h).symm
  | clear =>
      rw [line_clear] at h
      exact (Except.ok.inj h).symm

/-- The last word of a line stands between a blank and the end. -/
theorem fullLine_eq (change : KeyChange) (p : Parameter) :
    ∃ front, change.fullLine p = front ++ " " ++ change.saidLast p ++ "\n" := by
  cases change with
  | set asked =>
      refine ⟨"Updated parameter " ++ p.name ++ " with kms_key", ?_⟩
      have hblank : " with kms_key " = " with kms_key" ++ " " := by decide
      show "Updated parameter " ++ p.name ++ " with kms_key " ++ p.kmsKey.getD "" ++ "\n" = _
      rw [hblank, ← String.append_assoc]
      rfl
  | clear =>
      refine ⟨"Removed kms_key for parameter", ?_⟩
      have hblank : "Removed kms_key for parameter " = "Removed kms_key for parameter" ++ " " := by
        decide
      show "Removed kms_key for parameter " ++ p.name ++ "\n" = _
      rw [hblank]
      rfl

/-- **What is printed is the line exactly if it ends in a word.** -/
theorem trimmed_fullLine (change : KeyChange) (p : Parameter) :
    Text.trimEnd (change.fullLine p) ++ "\n" = change.fullLine p ↔
      Text.EndsInWord (change.saidLast p) := by
  obtain ⟨front, hline⟩ := change.fullLine_eq p
  have hne : front ++ " " ++ change.saidLast p ≠ "" := by
    intro h
    have hchars := congrArg String.toList h
    simp at hchars
  rw [hline, Text.trimEnd_newline, String.append_left_inj, Text.trimEnd_eq_self hne,
    Text.endsInWord_append_blank]

end KeyChange

/-! ### What is printed -/

theorem Utf8.encode_injective {s t : String} (h : encode s = encode t) : s = t := by
  have htext := congrArg text? h
  rw [text?_encode, text?_encode] at htext
  exact Option.some.inj htext

/-- What a change that is done has written, and what is printed of it. -/
structure KeyChange.Prints (change : KeyChange) (p : Parameter) (written : Bytes) (stdout : String) :
    Prop where
  line : written = Utf8.encode (change.fullLine p)
  /-- A key that was set is there. -/
  key : ∀ asked, change = .set asked → p.kmsKey = some (change.saidLast p)
  printed : stdout = Text.trimEnd (change.fullLine p) ++ "\n"
  same : Utf8.encode stdout = written ↔ Text.EndsInWord (change.saidLast p)

/-- What is printed of a line that has been written, if no document is asked for. -/
theorem KeyChange.prints_render {change : KeyChange} {p : Parameter} {sink : Sink} {text : String}
    (hline : change.line p = .ok text) (hsink : sink.written = Utf8.encode text)
    {format : Option Bytes} (hformat : Printout.asksJson format = false) :
    change.Prints p sink.written (Printout.render ⟨Text.trimEnd text, p⟩ format) := by
  have htrimmed : Text.trimEnd text ≠ "" := (line_startsWord hline).trimEnd_ne_empty
  have hprinted : Printout.render ⟨Text.trimEnd text, p⟩ format =
      Text.trimEnd (change.fullLine p) ++ "\n" := by
    unfold Printout.render Printout.text
    rw [hformat, if_neg (by simp), if_neg (by simpa using htrimmed), fullLine_of_line hline]
  rw [hprinted, hsink, fullLine_of_line hline]
  exact {
    line := rfl
    key := by
      rintro asked rfl
      cases hkey : p.kmsKey with
      | none =>
          rw [line_set_missing hkey] at hline
          simp at hline
      | some key => simp [saidLast, hkey]
    printed := rfl
    same := by
      rw [← trimmed_fullLine]
      exact ⟨Utf8.encode_injective, congrArg Utf8.encode⟩ }

namespace Invocation

variable {σ : Type} {party : Exchange.Party σ} {i : Invocation} {env : Environment}
  {files : FileTree}

/-- **The line about a change is printed without the blanks at its end.**

Of a command that changes a key, whoever answers and whatever is answered: if it succeeds, and no
document is asked for, then the operation that it makes has written the line about the parameter
that was answered, and what is printed is this line, trimmed and ended again.  That is the line
itself exactly if the key that was answered, or for a key that is removed the name, is there and
ends in no blank. -/
theorem printed_line_is_trimmed (party : Exchange.Party σ) {args : List Bytes}
    (h : read args = .ok i) {project parameter : String} {change : KeyChange}
    (hcommand : i.command = change.command project parameter)
    (hformat : Printout.asksJson env.format = false) (files : FileTree) (now : Nat) (s : σ)
    (hexit : (Exchange.run party (runArguments args env files now) s).1.exit = 0) :
    ∃ conf files' p sink, i.configure env files = (files', .ok conf) ∧
      (Exchange.run party (change.perform (conf.connector files' now) {} project parameter) s).1 =
        (.ok p, sink) ∧
      change.Prints p sink.written (Exchange.run party (runArguments args env files now) s).1.stdout := by
  rcases hconf : i.configure env files with ⟨files', e | conf⟩
  · rw [(does_unconfigured party h hconf now s).value] at hexit
    exact absurd hexit Nat.one_ne_zero
  · have hvalue := (does_configured party h hconf now s).value
    have hoperation : i.command.operation (conf.connector files' now) {} =
        change.perform (conf.connector files' now) {} project parameter := by
      rw [hcommand]
      cases change with
      | set key => rfl
      | clear => rfl
    rw [hoperation] at hvalue
    rw [hvalue] at hexit ⊢
    rcases hdone : (Exchange.run party
      (change.perform (conf.connector files' now) {} project parameter) s).1 with ⟨e | p, sink⟩
    · rw [hdone] at hexit
      exact absurd hexit Nat.one_ne_zero
    · obtain ⟨text, hline, hsink⟩ := change.written_of_ok hdone
      refine ⟨conf, files', p, sink, rfl, hdone, ?_⟩
      have hprintout : i.command.conclude (.ok p, sink) = .ok ⟨Text.trimEnd text, p⟩ := by
        rw [hcommand, ParameterCommand.conclude_ok]
        cases change with
        | set key => exact Printout.ofChanged_eq hsink p
        | clear => exact Printout.ofChanged_eq hsink p
      rw [hprintout]
      exact KeyChange.prints_render hline hsink hformat

/-- A key that ends in a blank is printed without it. -/
theorem blank_after_key_dropped :
    let args := ["--conf", "c", "parameters", "update-kms-key", "-p", "p", "-i", "db", "-k",
      "key "].map Utf8.encode
    let change := KeyChange.set "key "
    let i : Invocation := { conf := some (.ofString "c"), command := change.command "p" "db" }
    let files : FileTree :=
      { entries := [([Utf8.encode "c"], .file (Utf8.encode
          "\x7b\"parameter_manager_url\":\"http://localhost\",\"access_token\":\"t\"\x7d"))]
        start := [] }
    let script : Script := { responses :=
      [{ status := .ok, body := Utf8.encode "\x7b\"name\":\"db\",\"kmsKey\":\"key \"\x7d" }] }
    let out := (Exchange.run Script.answer (runArguments args {} files 0) script).1
    read args = .ok i ∧ out.exit = 0 ∧
      (∃ conf files' p sink, i.configure {} files = (files', .ok conf) ∧
        (Exchange.run Script.answer (change.perform (conf.connector files' 0) {} "p" "db") script).1 =
          (.ok p, sink) ∧
        change.Prints p sink.written out.stdout) ∧
      out.stdout = "Updated parameter db with kms_key key\n" := by
  intro args change i files script out
  have hread : read args = .ok i := by decide +kernel
  have hexit : out.exit = 0 := by decide +kernel
  exact ⟨hread, hexit, printed_line_is_trimmed Script.answer hread rfl rfl files 0 script hexit,
    by decide +kernel⟩

end Invocation

end ParameterManager
