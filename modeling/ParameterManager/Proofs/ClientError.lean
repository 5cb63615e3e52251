/-
An error tells its causes twice, and in the same way.

Three kinds of error wrap another one, and may be wrapped themselves, so every error is an
innermost one in some wrappers.  Its wording is what the wrappers say, one after the other, and
then the wording of the innermost error.  Whoever asks for the causes meets the same errors, from
the outermost to the innermost, and each one's wording is the end of the one before.  A command
that fails with the error shows neither more nor less.
-/
import Mathlib.Data.List.Basic
import ParameterManager.ClientError

namespace ParameterManager.ClientError

/-! ### Wrappers -/

/-- A kind of error that wraps another one. -/
inductive Wrapper
  | clientInitialization
  | getParameter
  | updateParameter
  deriving DecidableEq, Repr

/-- An error in a wrapper. -/
def Wrapper.wrap : Wrapper → ClientError → ClientError
  | clientInitialization => .clientInitialization
  | getParameter => .getParameter
  | updateParameter => .updateParameter

/-- What a wrapper says before the wording of what it wraps. -/
def Wrapper.text : Wrapper → String
  | clientInitialization => "failed to create Parameter Manager client: "
  | getParameter => "failed to get parameter: "
  | updateParameter => "failed to update parameter: "

/-- An error in some wrappers, the outermost first. -/
def nested (wrappers : List Wrapper) (inner : ClientError) : ClientError :=
  wrappers.foldr Wrapper.wrap inner

/-- The errors that are wrapped in a nested one, from the outermost to the innermost. -/
def wrapped : List Wrapper → ClientError → List ClientError
  | [], _ => []
  | _ :: wrappers, inner => nested wrappers inner :: wrapped wrappers inner

/-- An error that wraps no other. -/
def IsInnermost (e : ClientError) : Prop := ∀ (w : Wrapper) (cause : ClientError), e ≠ w.wrap cause

/-- **Every error is an innermost one in some wrappers.** -/
theorem exists_nested (e : ClientError) :
    ∃ wrappers inner, IsInnermost inner ∧ nested wrappers inner = e := by
  have hself : ∀ e : ClientError, IsInnermost e →
      ∃ wrappers inner, IsInnermost inner ∧ nested wrappers inner = e :=
    fun e h => ⟨[], e, h, rfl⟩
  have hwrap : ∀ (w : Wrapper) (e : ClientError),
      (∃ wrappers inner, IsInnermost inner ∧ nested wrappers inner = e) →
      ∃ wrappers inner, IsInnermost inner ∧ nested wrappers inner = w.wrap e := by
    rintro w e ⟨wrappers, inner, hinner, rfl⟩
    exact ⟨w :: wrappers, inner, hinner, rfl⟩
  induction e with
  | clientInitialization cause ih => exact hwrap .clientInitialization cause ih
  | getParameter cause ih => exact hwrap .getParameter cause ih
  | updateParameter cause ih => exact hwrap .updateParameter cause ih
  | _ => exact hself _ fun w _ => by cases w <;> simp [Wrapper.wrap]

/-! ### Wordings -/

theorem message_wrap (w : Wrapper) (e : ClientError) :
    (w.wrap e).message = w.text ++ e.message := by
  cases w with
  | clientInitialization => rfl
  | getParameter => rfl
  | updateParameter => rfl

theorem message_nested (wrappers : List Wrapper) (inner : ClientError) :
    (nested wrappers inner).message = String.join (wrappers.map Wrapper.text) ++ inner.message := by
  induction wrappers with
  | nil => rw [List.map_nil, String.join_nil, String.empty_append]; rfl
  | cons w wrappers ih =>
      show (w.wrap (nested wrappers inner)).message = _
      rw [message_wrap, ih, List.map_cons, String.join_cons, String.append_assoc]

/-- A text is the end of another. -/
def IsEndOf (cause outer : String) : Prop := cause.toList <:+ outer.toList

/-- The wording of each error is the end of the one before. -/
theorem isChain_wrapped (wrappers : List Wrapper) (inner : ClientError) :
    List.IsChain (fun outer cause => IsEndOf cause outer)
      ((nested wrappers inner :: wrapped wrappers inner).map message) := by
  induction wrappers with
  | nil => exact .singleton _
  | cons w wrappers ih =>
      refine List.isChain_cons_cons.mpr ⟨?_, ih⟩
      show IsEndOf _ (w.wrap (nested wrappers inner)).message
      rw [message_wrap, IsEndOf, String.toList_append]
      exact List.suffix_append _ _

/-! ### Causes -/

/-- Whoever asks for the cause of an error, and then for the cause of that, as long as there is
one, meets some errors. -/
inductive Meets : Option ClientError → List ClientError → Prop
  | nothing : Meets none []
  | cause {e : ClientError} {others : List ClientError} :
    Meets e.cause? others → Meets (some e) (e :: others)

theorem cause?_wrap (w : Wrapper) (e : ClientError) : (w.wrap e).cause? = some e := by
  cases w with
  | clientInitialization => rfl
  | getParameter => rfl
  | updateParameter => rfl

theorem IsInnermost.cause? {e : ClientError} (h : IsInnermost e) : e.cause? = none := by
  cases e with
  | clientInitialization cause => exact absurd rfl (h .clientInitialization cause)
  | getParameter cause => exact absurd rfl (h .getParameter cause)
  | updateParameter cause => exact absurd rfl (h .updateParameter cause)
  | _ => rfl

/-- Nobody meets anything but the causes of an error. -/
theorem meets_iff {e : ClientError} {met : List ClientError} :
    Meets e.cause? met ↔ met = e.causes := by
  have hnone : ∀ met, Meets none met ↔ met = [] := by
    intro met
    constructor
    · intro hmet
      cases hmet
      rfl
    · rintro rfl
      exact .nothing
  have hsome : ∀ (cause : ClientError) (others : List ClientError),
      (∀ met, Meets cause.cause? met ↔ met = others) →
      ∀ met, Meets (some cause) met ↔ met = cause :: others := by
    intro cause others ih met
    constructor
    · intro hmet
      cases hmet with
      | cause hothers => rw [(ih _).mp hothers]
    · rintro rfl
      exact .cause ((ih _).mpr rfl)
  induction e generalizing met with
  | clientInitialization cause ih => exact hsome cause cause.causes (fun _ => ih) met
  | getParameter cause ih => exact hsome cause cause.causes (fun _ => ih) met
  | updateParameter cause ih => exact hsome cause cause.causes (fun _ => ih) met
  | _ => exact hnone met

theorem causes_nested (wrappers : List Wrapper) {inner : ClientError} (h : IsInnermost inner) :
    (nested wrappers inner).causes = wrapped wrappers inner := by
  induction wrappers with
  | nil =>
      have hmet : Meets inner.cause? [] := h.cause? ▸ .nothing
      exact (meets_iff.mp hmet).symm
  | cons w wrappers ih =>
      have hmet : Meets (w.wrap (nested wrappers inner)).cause?
          (nested wrappers inner :: (nested wrappers inner).causes) := by
        rw [cause?_wrap]
        exact .cause (meets_iff.mpr rfl)
      show (w.wrap (nested wrappers inner)).causes = _ :: _
      rw [← ih, meets_iff.mp hmet]

theorem length_wrapped (wrappers : List Wrapper) (inner : ClientError) :
    (wrapped wrappers inner).length = wrappers.length := by
  induction wrappers with
  | nil => rfl
  | cons w wrappers ih => exact congrArg (· + 1) ih

/-! ### Both -/

/-- What is shown of an error, its wording and its first cause, tells of an innermost error in
some wrappers. -/
structure Tells (wrappers : List Wrapper) (inner : ClientError) (text : String)
    (cause? : Option ClientError) : Prop where
  wording : text = String.join (wrappers.map Wrapper.text) ++ inner.message
  /-- The causes are the wrapped errors in their order, and no others, -/
  met : ∀ met, Meets cause? met ↔ met = wrapped wrappers inner
  /-- one for each wrapper. -/
  steps : (wrapped wrappers inner).length = wrappers.length
  ends : List.IsChain (fun outer cause => IsEndOf cause outer)
    (text :: (wrapped wrappers inner).map message)

/-- **Nested errors keep every cause**, shown as they are and as errors of a command.

Every error is an innermost one in some wrappers, however many.  Its wording is what they say and
that of the innermost error behind it, and its causes are the errors inside. -/
theorem nested_keeps_causes :
    (∀ e, ∃ wrappers inner, IsInnermost inner ∧ nested wrappers inner = e) ∧
      ∀ wrappers inner, IsInnermost inner →
        let e := nested wrappers inner
        Tells wrappers inner e.message e.cause? ∧
          Tells wrappers inner (CliError.client e).message (CliError.client e).cause? := by
  refine ⟨exists_nested, ?_⟩
  intro wrappers inner hinner e
  have htells : Tells wrappers inner e.message e.cause? := {
    wording := message_nested wrappers inner
    met := fun met => by rw [meets_iff, causes_nested wrappers hinner]
    steps := length_wrapped wrappers inner
    ends := isChain_wrapped wrappers inner }
  exact ⟨htells, htells⟩

/-- Three wrappers, of which two are alike, around a refusal. -/
theorem refusal_nested_thrice :
    let wrappers := [Wrapper.clientInitialization, .updateParameter, .updateParameter]
    let inner := ClientError.requestFailed "NOT_FOUND"
    let e := nested wrappers inner
    IsInnermost inner ∧
      (Tells wrappers inner e.message e.cause? ∧
        Tells wrappers inner (CliError.client e).message (CliError.client e).cause?) ∧
      e.message = "failed to create Parameter Manager client: failed to update parameter: " ++
        "failed to update parameter: REST Request Failed: NOT_FOUND" := by
  intro wrappers inner e
  have hinner : IsInnermost inner := by
    intro w cause
    cases w <;> simp [inner, Wrapper.wrap]
  exact ⟨hinner, nested_keeps_causes.2 wrappers inner hinner, by decide⟩

end ParameterManager.ClientError
