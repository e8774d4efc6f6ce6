/-
  File:      Penetrate/Collections/Component.lean
  Subject:   COMPONENTS THAT ANSWER OPERATIONS, AND WHEN ONE REFINES ANOTHER. Names nothing of a
             particular program.

  * `Component` -- a start state and an answer to each operation; `run` is a sequence of them;
  * `Simulates` -- a relation between the states of two components that the start states have and
    every operation keeps, with equal answers;
  * `Simulates.run` -- **then all answers of all sequences are equal**.
-/
import Mathlib.Tactic.Common

namespace Collections

/-- A component: its operations `ι` each give an answer in `ω` and a new state. -/
structure Component (σ ι ω : Type*) where
  start : σ
  apply : σ → ι → ω × σ

namespace Component

variable {σ τ ι ω : Type*}

/-- The answers to a sequence of operations, and the state after it. -/
def runFrom (C : Component σ ι ω) : σ → List ι → List ω × σ
  | s, [] => ([], s)
  | s, op :: ops =>
      let (answer, s') := C.apply s op
      let (answers, s'') := C.runFrom s' ops
      (answer :: answers, s'')

def run (C : Component σ ι ω) (ops : List ι) : List ω × σ := C.runFrom C.start ops

/-- `R` relates the states of `C` to those of `D`: the two cannot be told apart. -/
structure Simulates (C : Component σ ι ω) (D : Component τ ι ω) (R : σ → τ → Prop) : Prop where
  start : R C.start D.start
  apply : ∀ s t op, R s t → (C.apply s op).1 = (D.apply t op).1 ∧
    R (C.apply s op).2 (D.apply t op).2

theorem Simulates.runFrom {C : Component σ ι ω} {D : Component τ ι ω} {R : σ → τ → Prop}
    (h : C.Simulates D R) {s : σ} {t : τ} (hR : R s t) (ops : List ι) :
    (C.runFrom s ops).1 = (D.runFrom t ops).1 ∧ R (C.runFrom s ops).2 (D.runFrom t ops).2 := by
  induction ops generalizing s t with
  | nil => exact ⟨rfl, hR⟩
  | cons op ops ih =>
      obtain ⟨ha, hR'⟩ := h.apply s t op hR
      obtain ⟨hr, hR''⟩ := ih hR'
      refine ⟨?_, hR''⟩
      show _ :: _ = _ :: _
      rw [ha, hr]

/-- **Answers agree on every sequence of operations.** -/
theorem Simulates.run {C : Component σ ι ω} {D : Component τ ι ω} {R : σ → τ → Prop}
    (h : C.Simulates D R) (ops : List ι) :
    (C.run ops).1 = (D.run ops).1 ∧ R (C.run ops).2 (D.run ops).2 :=
  h.runFrom h.start ops

end Component

end Collections
