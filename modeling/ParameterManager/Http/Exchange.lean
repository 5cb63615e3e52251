/-
Computations that talk over HTTP.

An `Exchange` is a tree: it is done with a value, or it asks something and goes on with
what comes back.  It says nothing about who answers.  `run` gives the questions to a
party with a state of its own; `Script` is a party that answers from a list and keeps
what it was asked.
-/
import ParameterManager.Http.Message
import ParameterManager.Url.Basic

namespace ParameterManager

/-- Where a request is sent. -/
structure Origin where
  secure : Bool
  host : Host
  port : Nat
  deriving DecidableEq, Repr

/-- A computation that may send requests; an answer that is none was lost. -/
inductive Exchange (α : Type)
  | done (value : α)
  | ask (origin : Origin) (request : Request) (next : Option Response → Exchange α)

namespace Exchange

variable {α β σ : Type}

/-- The computation that goes on with the value of another one. -/
def bind : Exchange α → (α → Exchange β) → Exchange β
  | done a, f => f a
  | ask origin request next, f => ask origin request fun response => bind (next response) f

instance : Monad Exchange where
  pure := done
  bind := bind

/-- Who answers requests, in a state of its own. -/
abbrev Party (σ : Type) := Origin → Request → StateM σ (Option Response)

/-- A party that is reached at one place only. -/
def Party.located (home : Origin) (party : Party σ) : Party σ := fun origin request =>
  if origin = home then party origin request else pure none

/-- Runs a computation against a party. -/
def run (party : Party σ) : Exchange α → StateM σ α
  | done a => pure a
  | ask origin request next => do
    let response ← party origin request
    run party (next response)

@[simp] theorem pure_eq_done (a : α) : (pure a : Exchange α) = done a := rfl

@[simp] theorem bind_eq_bind (x : Exchange α) (f : α → Exchange β) : x >>= f = bind x f := rfl

@[simp] theorem bind_done (a : α) (f : α → Exchange β) : bind (done a) f = f a := rfl

/-- Running a computation that goes on is running it and then what it goes on with. -/
theorem run_bind (party : Party σ) (x : Exchange α) (f : α → Exchange β) :
    run party (x.bind f) = run party x >>= fun a => run party (f a) := by
  induction x with
  | done a => rfl
  | ask origin request next ih =>
    simp only [bind, run, bind_assoc]
    congr
    funext response
    exact ih response

end Exchange

/-! ### Answers from a list -/

/-- Responses still to be given, and the requests seen so far, the latest first. -/
structure Script where
  responses : List Response
  seen : List Request := []

namespace Script

/-- The response after the last one of a list. -/
def exhausted : Response := .empty .internalServerError

/-- Answers with the next response, wherever a request is sent. -/
def answer : Exchange.Party Script := fun _ request script =>
  match script.responses with
  | [] => (some exhausted, { script with seen := request :: script.seen })
  | response :: rest => (some response, ⟨rest, request :: script.seen⟩)

/-- The requests seen, in order. -/
def requests (s : Script) : List Request := s.seen.reverse

end Script

end ParameterManager
