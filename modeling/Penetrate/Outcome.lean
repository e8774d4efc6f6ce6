/-
  File:      Penetrate/Outcome.lean
  Subject:   COMPUTATIONS THAT RETURN, FAIL OR PANIC. Names nothing of a particular program.

  * `Outcome` -- a monad: the first failure or panic is the outcome;
  * `ofResult`, `context` -- a result of other code, and what is said of its failure; `expect`,
    `unwrap`, `unwrapResult` -- the ways to insist on a value;
  * `NoPanic` -- `noPanic_bind`: a computation does not panic precisely where its first part does
    not, nor the rest on what it returns.
-/
import Mathlib.Tactic.Common

namespace Fallible

universe u

/-- An error is the chain of what was said of it, the outermost first. -/
inductive Outcome (α : Type u) where
  | ok (a : α)
  | err (chain : List String)
  | panic (message : String)

namespace Outcome

variable {α β : Type u}

protected def bind (x : Outcome α) (f : α → Outcome β) : Outcome β :=
  match x with
  | .ok a => f a
  | .err e => .err e
  | .panic m => .panic m

instance : Monad Outcome where
  pure := .ok
  bind := Outcome.bind

/-- A result of other code, as `?` takes it. -/
def ofResult : Except String α → Outcome α
  | .ok a => .ok a
  | .error e => .err [e]

def context (x : Outcome α) (message : String) : Outcome α :=
  match x with
  | .err e => .err (message :: e)
  | x => x

def expect (o : Option α) (message : String) : Outcome α :=
  match o with
  | some a => .ok a
  | none => .panic message

def unwrap (o : Option α) : Outcome α :=
  expect o "called `Option::unwrap()` on a `None` value"

/-- `unwrap` of a result. -/
def unwrapResult : Except String α → Outcome α
  | .ok a => .ok a
  | .error e => .panic ("called `Result::unwrap()` on an `Err` value: " ++ e)

/-! ## What is returned -/

@[simp] theorem pure_eq (a : α) : (pure a : Outcome α) = .ok a := rfl

@[simp] theorem ok_bind (a : α) (f : α → Outcome β) : (.ok a >>= f) = f a := rfl

@[simp] theorem err_bind (e : List String) (f : α → Outcome β) : (.err e >>= f) = .err e := rfl

@[simp] theorem panic_bind (m : String) (f : α → Outcome β) : (.panic m >>= f) = .panic m := rfl

theorem bind_eq_ok {x : Outcome α} {f : α → Outcome β} {b : β} :
    (x >>= f) = .ok b ↔ ∃ a, x = .ok a ∧ f a = .ok b := by
  cases x <;> simp

@[simp] theorem ofResult_eq_ok {r : Except String α} {a : α} : ofResult r = .ok a ↔ r = .ok a := by
  cases r <;> simp [ofResult]

@[simp] theorem context_eq_ok {x : Outcome α} {m : String} {a : α} :
    x.context m = .ok a ↔ x = .ok a := by
  cases x <;> simp [context]

@[simp] theorem expect_eq_ok {o : Option α} {m : String} {a : α} :
    expect o m = .ok a ↔ o = some a := by
  cases o <;> simp [expect]

@[simp] theorem unwrap_eq_ok {o : Option α} {a : α} : unwrap o = .ok a ↔ o = some a := expect_eq_ok

@[simp] theorem unwrapResult_eq_ok {r : Except String α} {a : α} :
    unwrapResult r = .ok a ↔ r = .ok a := by
  cases r <;> simp [unwrapResult]

/-! ## Panics -/

def NoPanic (x : Outcome α) : Prop := ∀ m, x ≠ .panic m

@[simp] theorem noPanic_ok (a : α) : (Outcome.ok a).NoPanic := fun _ h => by cases h

@[simp] theorem noPanic_err (e : List String) : (Outcome.err e : Outcome α).NoPanic :=
  fun _ h => by cases h

@[simp] theorem not_noPanic (m : String) : ¬ (Outcome.panic m : Outcome α).NoPanic := fun h => h m rfl

/-- **The rule for what follows.** -/
theorem noPanic_bind {x : Outcome α} {f : α → Outcome β} :
    (x >>= f).NoPanic ↔ x.NoPanic ∧ ∀ a, x = .ok a → (f a).NoPanic := by
  cases x <;> simp

@[simp] theorem noPanic_ofResult (r : Except String α) : (ofResult r).NoPanic := by
  cases r <;> simp [ofResult]

@[simp] theorem noPanic_context {x : Outcome α} {m : String} :
    (x.context m).NoPanic ↔ x.NoPanic := by
  cases x <;> simp [context]

@[simp] theorem noPanic_expect {o : Option α} {m : String} :
    (expect o m).NoPanic ↔ o.isSome = true := by
  cases o <;> simp [expect]

@[simp] theorem noPanic_unwrap {o : Option α} : (unwrap o).NoPanic ↔ o.isSome = true := noPanic_expect

@[simp] theorem noPanic_unwrapResult {r : Except String α} :
    (unwrapResult r).NoPanic ↔ ∃ a, r = .ok a := by
  cases r <;> simp [unwrapResult]

end Outcome

end Fallible
