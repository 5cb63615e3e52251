/-
A document tells what a line tells.

A command that is asked for a document prints the line and the parameter as the two members of an
object.  Whatever the strings are, the text is read as one value, its first member is the line to
the letter and its second is taken for the parameter.  Nothing else of the run depends on what was
asked for, so the line is the one that is printed otherwise.
-/
import Mathlib.Data.List.Forall2
import ParameterManager.Proofs.CommandLine
import ParameterManager.Proofs.Parameter

namespace ParameterManager

open Json (Wire Spells Writable ordered ReadsValue readValue)

/-! ### Letters of either case -/

/-- A text is a word, each of its letters small or capital. -/
def Text.InEitherCase (word s : String) : Prop :=
  List.Forall₂ (fun c d => d = c ∨ d = c.toUpper) word.toList s.toList

namespace Text

variable {c d : Char} {word s : String}

private theorem eq_of_toLower (h : d.toLower = c) : d = c ∨ d = c.toUpper := by
  by_cases hupper : d.isUpper = true
  · have hback : d.isUpper = true → d.toLower.toUpper = d :=
      forall_ascii (p := fun d => d.isUpper = true → d.toLower.toUpper = d) (by decide)
        (ascii_of_isUpper hupper)
    exact Or.inr (by rw [← h, hback hupper])
  · have hsame : d.toLower = d := dif_neg fun h => hupper (decide_eq_true h)
    exact Or.inl (hsame ▸ h)

private theorem toLower_of_letter (hc : c.isLower = true) (h : d = c ∨ d = c.toUpper) :
    d.toLower = c := by
  have hboth : c.isLower = true → c.toLower = c ∧ c.toUpper.toLower = c :=
    forall_ascii (p := fun c => c.isLower = true → c.toLower = c ∧ c.toUpper.toLower = c)
      (by decide) (ascii_of_isLower hc)
  rcases h with rfl | rfl
  · exact (hboth hc).1
  · exact (hboth hc).2

theorem inEitherCase_iff (hword : ∀ c ∈ word.toList, c.isLower = true) :
    InEitherCase word s ↔ s.toList.map Char.toLower = word.toList := by
  unfold InEitherCase
  generalize word.toList = letters at hword ⊢
  generalize s.toList = chars
  induction letters generalizing chars with
  | nil => simp
  | cons c letters ih =>
      have hothers := ih fun d hd => hword d (List.mem_cons_of_mem _ hd)
      cases chars with
      | nil => simp
      | cons d chars =>
          rw [List.forall₂_cons, hothers, List.map_cons, List.cons.injEq]
          exact and_congr_left' ⟨toLower_of_letter (hword c List.mem_cons_self), eq_of_toLower⟩

end Text

namespace Printout

/-- A document is asked for: by a word, in letters of either case. -/
def AsksDocument (format : Option Bytes) : Prop :=
  ∃ s, format = some (Utf8.encode s) ∧ Text.InEitherCase jsonFormat s

theorem asksJson_iff (format : Option Bytes) : asksJson format = true ↔ AsksDocument format := by
  have hword : ∀ c ∈ jsonFormat.toList, c.isLower = true := List.all_eq_true.mp (by decide)
  unfold asksJson AsksDocument
  cases htext : format.bind Utf8.text? with
  | none =>
      refine iff_of_false (by simp) ?_
      rintro ⟨s, rfl, -⟩
      simp [Utf8.text?_encode] at htext
  | some s =>
      obtain ⟨bs, rfl, hbs⟩ := Option.bind_eq_some_iff.mp htext
      obtain rfl := Utf8.encode_of_text? hbs
      simp only [beq_iff_eq, ← Text.inEitherCase_iff hword]
      constructor
      · exact fun hcase => ⟨s, rfl, hcase⟩
      · rintro ⟨s', hs', hcase⟩
        rw [Option.some.injEq] at hs'
        rw [hs', Utf8.text?_encode, Option.some.injEq] at hbs
        exact hbs ▸ hcase

/-! ### Documents -/

/-- A document, its labels written in some way. -/
def documentWith (write : Table String → Json) (p : Printout) : Json :=
  .object [("stdout", .string p.line), ("parameter", .object (p.parameter.membersWith write))]

variable {write : Table String → Json}

private theorem forall_documentWith (holds : Json → Prop) {p : Printout}
    (hline : holds (.string p.line))
    (hparameter : holds (.object (p.parameter.membersWith write))) :
    ∀ m ∈ [("stdout", Json.string p.line),
      ("parameter", .object (p.parameter.membersWith write))], holds m.2 := by
  intro m hm
  simp only [List.mem_cons, List.not_mem_nil, or_false] at hm
  rcases hm with rfl | rfl
  · exact hline
  · exact hparameter

/-- A document is read as one value. -/
private theorem any_ofString_pretty (hwrite : WritesTables write) (p : Printout) :
    Wire.any.ofString (p.documentWith write).pretty = .ok (ordered (p.documentWith write)) := by
  have hwritable : Writable (p.documentWith write) :=
    .object (forall_documentWith Writable (.string p.line)
      (p.parameter.writable_membersWith hwrite))
  let holds (j : Json) : Prop := ReadsValue (readValue 126) j (ordered j)
  have hreads : ReadsValue (readValue Json.maxDepth) (p.documentWith write)
      (ordered (p.documentWith write)) :=
    Wire.readsValue_object (forall_documentWith holds (Wire.readsValue_string 126 p.line)
      (p.parameter.readsValue_membersWith hwrite 124))
  have htakes : Wire.any.Takes (p.documentWith write) (ordered (p.documentWith write)) :=
    ⟨hreads, rfl⟩
  exact (htakes.readsBack hwritable).pretty.ofString

/-- A text is a document of a line and a parameter: it is read as one value, of which the line is
one member to the letter, and another is taken for the parameter. -/
def Carries (text line : String) (p : Parameter) : Prop :=
  ∃ document, Wire.any.ofString text = .ok document ∧
    document.member? "stdout" = some (.string line) ∧
    ∃ j, document.member? "parameter" = some j ∧ Parameter.wire.ofValue j = .ok p

/-- **A document carries its line and its parameter**, in whatever order the labels are written. -/
theorem carries_documentWith (hwrite : WritesTables write) (p : Printout) :
    Carries (p.documentWith write).pretty p.line p.parameter := by
  let parameter : Json := .object (p.parameter.membersWith write)
  have hnames : ([("stdout", Json.string p.line), ("parameter", parameter)].map (·.1)).Nodup := by
    show ["stdout", "parameter"].Nodup
    decide
  refine ⟨_, any_ofString_pretty hwrite p, ?_, ordered parameter, ?_, ?_⟩
  · exact Wire.member?_ordered List.mem_cons_self hnames
  · exact Wire.member?_ordered (List.mem_cons_of_mem _ List.mem_cons_self) hnames
  · exact (p.parameter.takes_membersWith hwrite).ofValue

end Printout

/-! ### What is printed -/

namespace Printout

variable {p : Printout} {format : Option Bytes}

theorem render_of_asksDocument (h : AsksDocument format) :
    p.render format = p.document.pretty ++ "\n" :=
  if_pos ((asksJson_iff format).mpr h)

theorem render_of_not_asksDocument (h : ¬AsksDocument format) (hline : p.line ≠ "") :
    p.render format = p.line ++ "\n" := by
  rw [render, if_neg (mt (asksJson_iff format).mp h), text, if_neg (by simpa using hline)]

end Printout

namespace Invocation

variable {σ : Type} {i : Invocation} {env : Environment}

/-- **A document and a line are about the same result.**

Of a command that succeeds, whoever answers and whatever is answered: if a document is asked for,
by the word in letters of either case, what is printed is one, and the end of a line.  It carries
the parameter that the operation of the command has given, and the line that the same command
prints if no document is asked for; and so does the document with its labels in another order. -/
theorem document_carries_line (party : Exchange.Party σ) {args : List Bytes}
    (h : read args = .ok i) (hdocument : Printout.AsksDocument env.format) {other : Option Bytes}
    (hother : ¬Printout.AsksDocument other) (files : FileTree) (now : Nat) (s : σ)
    (hexit : (Exchange.run party (runArguments args env files now) s).1.exit = 0) :
    let out := (Exchange.run party (runArguments args env files now) s).1
    let plain := (Exchange.run party (runArguments args { env with format := other } files now) s).1
    ∃ conf files' p sink document line, i.configure env files = (files', .ok conf) ∧
      (Exchange.run party (i.command.operation (conf.connector files' now) {}) s).1 = (.ok p, sink) ∧
      out.stdout = document ++ "\n" ∧ Printout.Carries document line p ∧
      plain.exit = 0 ∧ plain.stdout = line ++ "\n" ∧
      ∀ write, WritesTables write →
        Printout.Carries (Printout.documentWith write ⟨line, p⟩).pretty line p := by
  intro out plain
  rcases hconf : i.configure env files with ⟨files', e | conf⟩
  · rw [(does_unconfigured party h hconf now s).value] at hexit
    exact absurd hexit Nat.one_ne_zero
  · -- what is asked for has no part in the configuration
    have hconf' : i.configure { env with format := other } files = (files', .ok conf) := hconf
    have hout := (does_configured party h hconf now s).value
    have hplain := (does_configured party h hconf' now s).value
    rcases hdone : (Exchange.run party (i.command.operation (conf.connector files' now) {}) s).1
      with ⟨e | p, sink⟩
    · rw [hout, hdone] at hexit
      exact absurd hexit Nat.one_ne_zero
    · obtain ⟨line, hprintout, hline⟩ := ParameterCommand.printout_eq hdone
      rw [hdone, i.command.conclude_ok, hprintout] at hout hplain
      let shown : Printout := ⟨line, p⟩
      refine ⟨conf, files', p, sink, shown.document.pretty, line, rfl, hdone, ?_, ?_, ?_, ?_, ?_⟩
      · exact (congrArg Outcome.stdout hout).trans
          (Printout.render_of_asksDocument (p := shown) hdocument)
      · exact Printout.carries_documentWith writesTables_textTable shown
      · exact congrArg Outcome.exit hplain
      · exact (congrArg Outcome.stdout hplain).trans
          (Printout.render_of_not_asksDocument (p := shown) hother hline)
      · exact fun write hwrite => Printout.carries_documentWith hwrite shown

/-- A parameter whose name needs an escape, as a document and as a line. -/
theorem quoted_name_in_document :
    let args := ["--conf", "c", "parameters", "get", "-p", "p", "-i", "db"].map Utf8.encode
    let i : Invocation := { conf := some (.ofString "c"), command := .get "p" "db" }
    let env : Environment := { format := some (Utf8.encode "JsOn") }
    let files : FileTree :=
      { entries := [([Utf8.encode "c"], .file (Utf8.encode
          "\x7b\"parameter_manager_url\":\"http://localhost\",\"access_token\":\"t\"\x7d"))]
        start := [] }
    let script : Script := { responses :=
      [{ status := .ok, body := Utf8.encode "\x7b\"name\":\"a\\\"b\"\x7d" }] }
    let out := (Exchange.run Script.answer (runArguments args env files 0) script).1
    let plain := (Exchange.run Script.answer (runArguments args {} files 0) script).1
    read args = .ok i ∧ Printout.AsksDocument env.format ∧ ¬Printout.AsksDocument none ∧
      out.exit = 0 ∧
      (∃ conf files' p sink document line, i.configure env files = (files', .ok conf) ∧
        (Exchange.run Script.answer (i.command.operation (conf.connector files' 0) {}) script).1
          = (.ok p, sink) ∧
        out.stdout = document ++ "\n" ∧ Printout.Carries document line p ∧
        plain.exit = 0 ∧ plain.stdout = line ++ "\n" ∧
        ∀ write, WritesTables write →
          Printout.Carries (Printout.documentWith write ⟨line, p⟩).pretty line p) ∧
      plain.stdout = "Found parameter a\"b with format PARAMETER_FORMAT_UNSPECIFIED\n" := by
  intro args i env files script out plain
  have hread : read args = .ok i := by decide +kernel
  have hdocument : Printout.AsksDocument env.format :=
    (Printout.asksJson_iff env.format).mp (by decide +kernel)
  have hother : ¬Printout.AsksDocument none := mt (Printout.asksJson_iff none).mpr (by decide)
  have hexit : out.exit = 0 := by decide +kernel
  exact ⟨hread, hdocument, hother, hexit,
    document_carries_line Script.answer hread hdocument hother files 0 script hexit,
    by decide +kernel⟩

end Invocation

end ParameterManager
