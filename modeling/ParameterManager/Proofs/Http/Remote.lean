/-
Running a computation that may fail, one part at a time.

A remote computation is an exchange that ends in a value or in an error.  The lemmas here
take its parts apart: what asks nothing does not concern the party that answers, and what
comes after an error is not run.
-/
import ParameterManager.Http.Agent

namespace ParameterManager

variable {α β σ : Type} {party : Exchange.Party σ}

theorem Exchange.run_pure_apply (a : α) (s : σ) : run party (pure a) s = (a, s) := rfl

/-- A computation that goes on is run from the state that the first part leaves. -/
theorem Exchange.run_bind_apply (x : Exchange α) (f : α → Exchange β) (s : σ) :
    run party (x >>= f) s = run party (f (run party x s).1) (run party x s).2 :=
  congrFun (run_bind party x f) s

namespace Remote

/-- Runs a computation that may fail against a party. -/
def run (party : Exchange.Party σ) (x : Remote α) (s : σ) : ClientResult α × σ :=
  (Exchange.run party (ExceptT.run x)) s

theorem run_pure (a : α) (s : σ) : run party (pure a) s = (.ok a, s) := rfl

theorem run_ofResult (x : ClientResult α) (s : σ) : run party (ofResult x) s = (x, s) := rfl

/-- What follows a computation is run on its value, if it has one. -/
theorem run_bind (x : Remote α) (f : α → Remote β) (s : σ) :
    run party (x >>= f) s = match run party x s with
      | (.ok a, s') => run party (f a) s'
      | (.error e, s') => (.error e, s') := by
  unfold run
  show Exchange.run party (ExceptT.run x >>= ExceptT.bindCont f) s = _
  rw [Exchange.run_bind_apply]
  rcases Exchange.run party (ExceptT.run x) s with ⟨a | a, s'⟩
  · rfl
  · rfl

theorem run_ofResult_bind {a : α} {x : ClientResult α} (h : x = .ok a) (f : α → Remote β) (s : σ) :
    run party (ofResult x >>= f) s = run party (f a) s := by
  rw [run_bind, run_ofResult, h]

theorem run_ask (origin : Origin) (q : Request) (next : Option Response → Remote α) (s : σ) :
    run party (.ask origin q next : Exchange (ClientResult α)) s
      = run party (next (party origin q s).1) (party origin q s).2 := rfl

end Remote

end ParameterManager
