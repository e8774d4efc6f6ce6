/-
  File:      Penetrate/Due.lean
  Subject:   THE STEPS DUE of the loop of `run` and its instance, and whom the loop waits for.

  * `Supervisor.due`, `loop_due` -- the measure: every step but a rescan is one due;
  * `Joins`, `joins_step` -- whom the router waits for is there, and has been told.
-/
import Penetrate.Supervisor

namespace Penetrate

open Concurrent Machine

section

variable {Seed : Type} {toml : Seed → String → Except String Config} {digest : Bytes → Digest}
  {args : Cli}

/-! ## 1. The measure -/

def Task.due : Task → Nat
  | .starting _ => 2
  | .running _ => 1
  | .hung _ => 1
  | _ => 0

def Router.due : Router → Nat
  | .recv => 1
  | .forwarding _ => 3
  | .restarting _ => 4
  | .stopped => 0

def LastInstance.due (i : LastInstance) : Nat := i.task.due + i.updates.items.length

/-- The steps due of the loop and its instance. A change is routed, forwarded and applied, or the
    instance ends and the next one starts. -/
def Supervisor.due (s : Supervisor) : Nat :=
  4 * s.events.length + s.router.due + (s.last_instance.map LastInstance.due).getD 0

theorem alive_due {t : Task} (h : t.alive = true) : 0 < t.due := by
  cases t with
  | starting c => simp [Task.due]
  | running i => simp [Task.due]
  | hung i => simp [Task.due]
  | finished => cases h
  | failed => cases h

/-- **Every step of the loop is one due.** -/
theorem loop_due {s s' : Supervisor} {a : SupervisorAct Seed} (ha : ∀ σ t, a ≠ .rescan σ t)
    (h : SupervisorStep toml digest args s a s') : s'.due < s.due := by
  cases h with
  | rescanInvalid σ text hp => exact absurd rfl (ha σ text)
  | rescan σ text new hp => exact absurd rfl (ha σ text)
  | first config rest hr he hi =>
      simp only [Supervisor.due, hr, he, hi, Option.map_some, Option.map_none, Option.getD_some,
        Option.getD_none, LastInstance.due, spawn, Task.due, Mpsc.empty, List.length_cons,
        List.length_nil]
      omega
  | general config rest i hr he hi hal =>
      simp only [Supervisor.due, hr, he, hi, Option.map_some, Option.getD_some, LastInstance.due,
        Router.due, List.length_cons]
      omega
  | generalDead config rest i hr he hi hal =>
      simp only [Supervisor.due, hr, he, Router.due, List.length_cons]
      omega
  | drop ev rest hr he hn hi =>
      simp only [Supervisor.due, he, List.length_cons]
      omega
  | route ev rest i hr he hn hi =>
      simp only [Supervisor.due, hr, he, Router.due, List.length_cons]
      omega
  | forward ev i q hr hi hal hq =>
      simp only [Supervisor.due, hr, hi, Router.due, Option.map_some, Option.getD_some,
        LastInstance.due, (Mpsc.send_eq_some hq).1, List.length_append, List.length_singleton]
      omega
  | forwardDead ev i hr hi hal =>
      simp only [Supervisor.due, hr, Router.due]
      omega
  | restart config i hr hi ht =>
      simp only [Supervisor.due, hr, hi, Router.due, Option.map_some, Option.getD_some,
        LastInstance.due, spawn, Task.due, Mpsc.empty, List.length_nil]
      omega
  | restartFailed config i hr hi ht =>
      simp only [Supervisor.due, hr, Router.due]
      omega
  | boot config i r hi ht hr =>
      simp only [Supervisor.due, hi, ht, Option.map_some, Option.getD_some, LastInstance.due,
        Task.due]
      omega
  | bootFailed config i hi ht hr =>
      simp only [Supervisor.due, hi, ht, Option.map_some, Option.getD_some, LastInstance.due,
        Task.due]
      omega
  | apply i r r' e q hi ht hq hr =>
      simp only [Supervisor.due, hi, ht, Option.map_some, Option.getD_some, LastInstance.due,
        Task.due, Mpsc.recv_eq_some hq, List.length_cons]
      omega
  | applyFailed i r e q hi ht hq hr =>
      simp only [Supervisor.due, hi, ht, Option.map_some, Option.getD_some, LastInstance.due,
        Task.due, Mpsc.recv_eq_some hq, List.length_cons]
      omega
  | hang i r r' e q hi ht hq hg hr =>
      simp only [Supervisor.due, hi, ht, Option.map_some, Option.getD_some, LastInstance.due,
        Task.due, Mpsc.recv_eq_some hq, List.length_cons]
      omega
  | stop i r hi ht hs =>
      simp only [Supervisor.due, hi, ht, Option.map_some, Option.getD_some, LastInstance.due,
        Task.due]
      omega
  | fail i hi hal =>
      have hd := alive_due hal
      have hz : Task.failed.due = 0 := rfl
      simp only [Supervisor.due, hi, Option.map_some, Option.getD_some, LastInstance.due, hz]
      omega

/-! ## 2. The join -/

/-- Whom the router waits for is there, and has been told. -/
structure Joins (router : Router) (last_instance : Option LastInstance) : Prop where
  forwarding : ∀ ev, router = .forwarding ev → ∃ i, last_instance = some i
  restarting : ∀ c, router = .restarting c → ∃ i, last_instance = some i ∧ i.shutdown = true

theorem Joins.idle {router : Router} (hr : router = .recv ∨ router = .stopped)
    (li : Option LastInstance) : Joins router li := by
  rcases hr with rfl | rfl
  · exact ⟨(fun _ h => by cases h), fun _ h => by cases h⟩
  · exact ⟨(fun _ h => by cases h), fun _ h => by cases h⟩

/-- The instance takes a step of its own. -/
theorem Joins.instance {router : Router} {i i' : LastInstance} (hJ : Joins router (some i))
    (hs : i'.shutdown = i.shutdown) : Joins router (some i') := by
  refine ⟨fun _ _ => ⟨i', rfl⟩, fun c hc => ⟨i', rfl, ?_⟩⟩
  obtain ⟨j, hj, hsd⟩ := hJ.restarting c hc
  cases hj
  exact hs.trans hsd

theorem joins_step {s s' : Supervisor} {a : SupervisorAct Seed}
    (hJ : Joins s.router s.last_instance) (h : SupervisorStep toml digest args s a s') :
    Joins s'.router s'.last_instance := by
  cases h with
  | rescanInvalid | rescan => exact hJ
  | first config rest hr he hi => exact .idle (.inl hr) _
  | general config rest i hr he hi hal =>
      exact ⟨(fun ev h => by cases h), fun c h => ⟨_, rfl, rfl⟩⟩
  | generalDead | restartFailed => exact .idle (.inr rfl) _
  | drop ev rest hr he hn hi => exact .idle (.inl hr) _
  | route ev rest i hr he hn hi => exact ⟨fun _ _ => ⟨i, hi⟩, fun c h => by cases h⟩
  | forward | forwardDead | restart => exact .idle (.inl rfl) _
  | boot _ _ _ hi _ _ | bootFailed _ _ hi _ _ | apply _ _ _ _ _ hi _ _ _
  | applyFailed _ _ _ _ hi _ _ _ | hang _ _ _ _ _ hi _ _ _ _ | stop _ _ hi _ _ | fail _ hi _ =>
      rw [hi] at hJ
      exact hJ.instance rfl

end

end Penetrate
