/-
  File:      Penetrate/Restart.lean
  Subject:   WHETHER A GENERAL CHANGE TAKES EFFECT: the router of `lib::run` against every sequence
             of events and every fate of the instances.

  To restart, the router sends the shutdown signal and joins the old task, and passes the error of
  either on with `?`. The signal has no receiver once the old instance has died, the join fails where
  it panics, and it never returns where it hangs. So a failed instance takes the process with it, and
  one that hangs every later change.

  * `router` -- the steps of `Supervisor.step`, with any events in place of the watcher's;
  * `TakesEffect` -- the router is there, its instance is the one the last general change asked for,
    and a restart comes to its end;
  * `joins_iff` -- which instances can be joined: those that `Ends`;
  * `takesEffect_iff` -- **exactly** when general changes take effect in all states of a run.
-/
import Penetrate.Due

namespace Penetrate

open Concurrent Machine

/-- The supervisor, with what it has been asked for and what it has started. -/
structure Routed where
  sup : Supervisor
  /-- the configuration of the last general change taken up -/
  general : Option Config
  /-- the configuration of the last instance started -/
  started : Option Config
  /-- the tasks of the instances replaced, as they were at that moment -/
  replaced : List Task

/-- An event comes in, or the supervisor or its instance takes a step. There is no seed to rescan
    with, so the watcher takes none. -/
inductive RoutedAct where
  | event (ev : ConfigChange)
  | act (a : SupervisorAct Empty)

section

variable (digest : Bytes → Digest) (args : Cli)

/-- What a step of the supervisor to `sup` does to the records. -/
def Routed.record (s : Routed) (a : SupervisorAct Empty) (sup : Supervisor) : Routed :=
  match a, s.sup.router, s.sup.events, s.sup.last_instance, sup.router with
  | .route, .recv, .general config :: _, none, _ =>
      { s with sup := sup, general := some config, started := some config }
  | .route, .recv, .general config :: _, some _, _ => { s with sup := sup, general := some config }
  | .restart, .restarting config, _, some i, .recv =>
      { s with sup := sup, started := some config, replaced := i.task :: s.replaced }
  | _, _, _, _, _ => { s with sup := sup }

def Routed.step (s : Routed) : RoutedAct → Option Routed
  | .event ev => some { s with sup := { s.sup with events := s.sup.events ++ [ev] } }
  | .act a => (Supervisor.step (fun σ : Empty => σ.elim) digest args s.sup a).map (s.record a)

/-- **The router of `lib::run`**, before its first event. -/
def router : Machine Routed RoutedAct where
  start s := s.sup.events = [] ∧ s.sup.router = .recv ∧ s.sup.last_instance = none ∧
    s.general = none ∧ s.started = none ∧ s.replaced = []
  step := Routed.step digest args

end

variable {digest : Bytes → Digest} {args : Cli}

/-- A step of the restart: of the router, or of the instance it joins, and no mishap. -/
def RoutedAct.OfRestart : RoutedAct → Prop
  | .act .boot => True
  | .act .apply => True
  | .act .stop => True
  | .act .restart => True
  | _ => False

variable (digest args) in
/-- **General changes take effect.** -/
structure TakesEffect (s : Routed) : Prop where
  /-- the process has not ended -/
  alive : s.sup.router ≠ .stopped
  /-- between two changes the instance is one started with what was asked for last -/
  current : (∀ config, s.sup.router ≠ .restarting config) → s.started = s.general
  /-- a restart is for what was asked for last, and comes to its end: the old task is joined and an
      instance started with it -/
  joins : ∀ config, s.sup.router = .restarting config → s.general = some config ∧
    (router digest args).Completes RoutedAct.OfRestart
      (fun t => t.sup.router = .recv ∧ t.started = some config) s
  /-- an instance in its first step has the configuration it was started with -/
  started : ∀ i config, s.sup.last_instance = some i → i.task = .starting config →
    s.started = some config
  exists_iff : s.sup.last_instance.isSome = s.started.isSome
  /-- whoever was replaced had finished -/
  finished : ∀ t ∈ s.replaced, t = .finished

theorem record_sup (s : Routed) (a : SupervisorAct Empty) (sup : Supervisor) :
    (s.record a sup).sup = sup := by
  unfold Routed.record
  split <;> rfl

/-! ## 1. Which instances can be joined -/

variable (digest) in
/-- None of these changes makes the instance panic. -/
def Instance.Survives : Instance → List ConfigChange → Prop
  | _, [] => True
  | r, e :: es => ∃ r', r.handle_hot_reload digest e = some r' ∧ r'.Survives es

variable (digest args) in
/-- The task ends on the shutdown signal, whatever it makes of its update queue before. -/
def Task.Ends (updates : List ConfigChange) : Task → Prop
  | .starting config => ∃ r, run_instance digest args config = some r ∧ r.Survives digest updates
  | .running r => r.Survives digest updates
  | .finished => True
  | _ => False

/-- A restart under way. -/
structure Restarting (s : Routed) (config : Config) (i : LastInstance) : Prop where
  router : s.sup.router = .restarting config
  instance_ : s.sup.last_instance = some i
  told : i.shutdown = true

/-- The instance takes a step. -/
theorem Restarting.moves {s : Routed} {config : Config} {i : LastInstance}
    (hR : Restarting s config i) (task : Task) (updates : Mpsc ConfigChange 1024) :
    Restarting { s with sup := { s.sup with
        last_instance := some { i with task := task, updates := updates } } } config
      { i with task := task, updates := updates } :=
  ⟨hR.router, rfl, hR.told⟩

/-- A failed instance ends the restart, and the process. -/
theorem not_completes_failed {s : Routed} {config : Config} {i : LastInstance}
    (hR : Restarting s config i) (ht : i.task = .failed) :
    ¬ (router digest args).Completes RoutedAct.OfRestart
      (fun t => t.sup.router = .recv ∧ t.started = some config) s := by
  intro h
  have hstep : (router digest args).step s (.act .restart) =
      some { s with sup := { s.sup with router := .stopped } } := by
    simp only [router, Routed.step, Supervisor.step, hR.router, hR.instance_, ht, Option.map_some,
      Routed.record]
  have ha : RoutedAct.OfRestart (.act .restart) := trivial
  refine absurd ((h.step ha hstep).stuck fun a t ha hat => ?_).1 (by simp)
  cases a with
  | event ev => exact ha
  | act b =>
      obtain ⟨sup, hsup, -⟩ := Option.map_eq_some_iff.mp hat
      cases b with
      | boot | apply | stop | restart =>
          simp only [Supervisor.step, hR.instance_, ht, reduceCtorEq] at hsup
      | rescan | route | forward | hang | fail => exact ha

/-- Nor can one that hangs be joined. -/
theorem not_completes_hung {s : Routed} {config : Config} {i : LastInstance} {r : Instance}
    (hR : Restarting s config i) (ht : i.task = .hung r) :
    ¬ (router digest args).Completes RoutedAct.OfRestart
      (fun t => t.sup.router = .recv ∧ t.started = some config) s := by
  intro h
  refine absurd (hR.router.symm.trans (h.stuck fun a t ha hat => ?_).1) (by simp)
  cases a with
  | event ev => exact ha
  | act b =>
      obtain ⟨sup, hsup, -⟩ := Option.map_eq_some_iff.mp hat
      cases b with
      | boot | apply | stop | restart =>
          simp only [Supervisor.step, hR.router, hR.instance_, ht, reduceCtorEq] at hsup
      | rescan | route | forward | hang | fail => exact ha

/-- The instance that is to be joined applies what is in its queue, and survives it. -/
theorem survives_of_completes {s : Routed} {config : Config} {i : LastInstance} {r : Instance}
    (hR : Restarting s config i) (ht : i.task = .running r)
    (h : (router digest args).Completes RoutedAct.OfRestart
      (fun t => t.sup.router = .recv ∧ t.started = some config) s) :
    r.Survives digest i.updates.items := by
  cases hq : i.updates.recv with
  | none =>
      rw [Mpsc.recv_eq_none.mp hq]
      trivial
  | some p =>
      obtain ⟨e, q⟩ := p
      have hitems := Mpsc.recv_eq_some hq
      have ha : RoutedAct.OfRestart (.act .apply) := trivial
      rw [hitems]
      cases hr : r.handle_hot_reload digest e with
      | none =>
          have hstep : (router digest args).step s (.act .apply) = some { s with sup := { s.sup with
              last_instance := some { i with task := .failed, updates := q } } } := by
            simp only [router, Routed.step, Supervisor.step, hR.instance_, ht, hq, hr,
              Option.map_some, Routed.record]
          exact absurd (h.step ha hstep) (not_completes_failed (hR.moves .failed q) rfl)
      | some r' =>
          have hstep : (router digest args).step s (.act .apply) = some { s with sup := { s.sup with
              last_instance := some { i with task := .running r', updates := q } } } := by
            simp only [router, Routed.step, Supervisor.step, hR.instance_, ht, hq, hr,
              Option.map_some, Routed.record]
          have hlt : q.items.length < i.updates.items.length := by
            rw [hitems, List.length_cons]
            exact Nat.lt_succ_self _
          have hR' := hR.moves (.running r') q
          exact ⟨r', hr, survives_of_completes hR' rfl (h.step ha hstep)⟩
termination_by i.updates.items.length

/-- A restart that comes to its end is of an instance that ends. -/
theorem ends_of_completes {s : Routed} {config : Config} {i : LastInstance}
    (hR : Restarting s config i) (h : (router digest args).Completes RoutedAct.OfRestart
      (fun t => t.sup.router = .recv ∧ t.started = some config) s) :
    i.task.Ends digest args i.updates.items := by
  cases ht : i.task with
  | starting c =>
      have ha : RoutedAct.OfRestart (.act .boot) := trivial
      cases hr : run_instance digest args c with
      | none =>
          have hstep : (router digest args).step s (.act .boot) = some { s with sup := { s.sup with
              last_instance := some { i with task := .failed } } } := by
            simp only [router, Routed.step, Supervisor.step, hR.instance_, ht, hr, Option.map_some,
              Routed.record]
          exact absurd (h.step ha hstep) (not_completes_failed (hR.moves .failed i.updates) rfl)
      | some r =>
          have hstep : (router digest args).step s (.act .boot) = some { s with sup := { s.sup with
              last_instance := some { i with task := .running r } } } := by
            simp only [router, Routed.step, Supervisor.step, hR.instance_, ht, hr, Option.map_some,
              Routed.record]
          have hsurv := survives_of_completes (hR.moves (.running r) i.updates) rfl
            (h.step ha hstep)
          exact ⟨r, hr, hsurv⟩
  | running r => exact survives_of_completes hR ht h
  | hung r => exact absurd h (not_completes_hung hR ht)
  | finished => trivial
  | failed => exact absurd h (not_completes_failed hR ht)

/-- What the steps of a restart keep: it is under way with an instance that ends, or done. -/
def Joinable (digest : Bytes → Digest) (args : Cli) (config : Config) (s : Routed) : Prop :=
  (∃ i, Restarting s config i ∧ i.task.Ends digest args i.updates.items) ∨
    s.sup.router = .recv ∧ s.started = some config

theorem joinable_step {s s' : Routed} {config : Config} {a : RoutedAct}
    (hI : Joinable digest args config s) (ha : a.OfRestart)
    (h : (router digest args).step s a = some s') :
    Joinable digest args config s' ∧ s'.sup.due < s.sup.due := by
  cases a with
  | event ev => exact ha.elim
  | act b =>
      obtain ⟨sup, hs, rfl⟩ := Option.map_eq_some_iff.mp h
      have hcases := supervisor_cases hs
      refine ⟨?_, by rw [record_sup]; exact loop_due (fun σ => σ.elim) hcases⟩
      rcases hI with ⟨i, hR, hE⟩ | ⟨hr, hs0⟩
      · have hi := hR.instance_
        cases hcases with
        | boot c j r hj ht hrun =>
            cases hi.symm.trans hj
            rw [ht] at hE
            obtain ⟨r', hr', hsurv⟩ := hE
            cases hrun.symm.trans hr'
            exact .inl ⟨_, hR.moves _ _, hsurv⟩
        | bootFailed c j hj ht hrun =>
            cases hi.symm.trans hj
            rw [ht] at hE
            obtain ⟨r', hr', -⟩ := hE
            cases hrun.symm.trans hr'
        | apply j r r' e q hj ht hq hrun =>
            cases hi.symm.trans hj
            rw [ht, Mpsc.recv_eq_some hq] at hE
            obtain ⟨r'', hr'', hsurv⟩ := hE
            cases hrun.symm.trans hr''
            exact .inl ⟨_, hR.moves _ _, hsurv⟩
        | applyFailed j r e q hj ht hq hrun =>
            cases hi.symm.trans hj
            rw [ht, Mpsc.recv_eq_some hq] at hE
            obtain ⟨r'', hr'', -⟩ := hE
            cases hrun.symm.trans hr''
        | stop j r hj ht hsd =>
            cases hi.symm.trans hj
            exact .inl ⟨_, hR.moves _ _, trivial⟩
        | restart c j hr hj ht =>
            cases hR.router.symm.trans hr
            refine .inr ?_
            simp only [Routed.record, hr, hj, and_self]
        | restartFailed c j hr hj ht =>
            cases hi.symm.trans hj
            rw [ht] at hE
            exact hE.elim
        | _ => exact ha.elim
      · refine .inr ?_
        cases hcases with
        | boot | bootFailed | apply | applyFailed | stop => exact ⟨hr, hs0⟩
        | restart c j hr' | restartFailed c j hr' =>
            rw [hr] at hr'
            cases hr'
        | _ => exact ha.elim

/-- **A restart comes to its end precisely where the instance to be joined ends.** -/
theorem joins_iff {s : Routed} {config : Config} {i : LastInstance} (hR : Restarting s config i) :
    (router digest args).Completes RoutedAct.OfRestart
        (fun t => t.sup.router = .recv ∧ t.started = some config) s ↔
      i.task.Ends digest args i.updates.items := by
  refine ⟨ends_of_completes hR, fun hE => Completes.of_measure (I := Joinable digest args config)
    (fun t => t.sup.due) (fun _ _ _ hI ha h => joinable_step hI ha h) (fun t hI => ?_)
    (.inl ⟨i, hR, hE⟩)⟩
  rcases hI with ⟨j, hR, hE⟩ | hdone
  · refine .inr ?_
    have hgo {a : SupervisorAct Empty} (ha : RoutedAct.OfRestart (.act a))
        (h : (Supervisor.step (fun σ : Empty => σ.elim) digest args t.sup a).isSome = true) :
        ∃ a u, a.OfRestart ∧ (router digest args).step t a = some u := by
      obtain ⟨sup, hs⟩ := Option.isSome_iff_exists.mp h
      exact ⟨.act a, t.record a sup, ha, by simp only [router, Routed.step, hs, Option.map_some]⟩
    cases ht : j.task with
    | starting c => exact hgo (a := .boot) trivial (by simp [Supervisor.step, hR.instance_, ht])
    | running r =>
        exact hgo (a := .stop) trivial (by simp [Supervisor.step, hR.instance_, ht, hR.told])
    | finished =>
        exact hgo (a := .restart) trivial
          (by simp [Supervisor.step, hR.router, hR.instance_, ht])
    | hung r | failed =>
        rw [ht] at hE
        exact hE.elim
  · exact .inl hdone

/-! ## 2. Whether every change takes effect -/

/-- The router takes up a change that is no general one. -/
theorem record_incremental {s : Routed} {ev : ConfigChange} {rest : List ConfigChange}
    (hr : s.sup.router = .recv) (he : s.sup.events = ev :: rest) (hn : ∀ c, ev ≠ .general c)
    (sup : Supervisor) : s.record .route sup = { s with sup := sup } := by
  cases ev with
  | general c => exact absurd rfl (hn c)
  | _ => simp only [Routed.record, hr, he]

variable (digest args) in
/-- What a step has to be like. A general change that is taken up meets a live instance, which will
    end; while the router joins it, it neither fails nor comes to wait for ever. -/
def Graceful (s : Routed) : RoutedAct → Prop
  | .act .route => ∀ config rest i, s.sup.router = .recv →
      s.sup.events = .general config :: rest → s.sup.last_instance = some i →
      i.task.alive = true ∧ i.task.Ends digest args i.updates.items
  | .act .fail => ∀ config, s.sup.router ≠ .restarting config
  | .act .hang => ∀ config, s.sup.router ≠ .restarting config
  | _ => True

theorem graceful_incremental {s : Routed} {ev : ConfigChange} {rest : List ConfigChange}
    (he : s.sup.events = ev :: rest) (hn : ∀ c, ev ≠ .general c) :
    Graceful digest args s (.act .route) := by
  intro c r i _ he' _
  cases he.symm.trans he'
  exact absurd rfl (hn c)

theorem takesEffect_start {s : Routed} (h : (router digest args).start s) :
    TakesEffect digest args s := by
  obtain ⟨he, hr, hi, hg, hs, hrep⟩ := h
  refine ⟨by rw [hr]; simp, fun _ => hs.trans hg.symm, fun c hc => ?_, fun i c h => ?_, ?_, ?_⟩
  · rw [hr] at hc
    cases hc
  · rw [hi] at h
    cases h
  · rw [hi, hs]
    rfl
  · rw [hrep]
    simp

/-- A restart under way is of an instance that ends. -/
theorem TakesEffect.ends {s : Routed} {config : Config} (hP : TakesEffect digest args s)
    (hJ : Joins s.sup.router s.sup.last_instance) (hr : s.sup.router = .restarting config) :
    ∃ i, Restarting s config i ∧ i.task.Ends digest args i.updates.items := by
  obtain ⟨i, hi, hsd⟩ := hJ.restarting config hr
  have hR : Restarting s config i := ⟨hr, hi, hsd⟩
  exact ⟨i, hR, (joins_iff hR).mp (hP.joins config hr).2⟩

/-- A step between two changes keeps it. -/
theorem TakesEffect.idle {s : Routed} {sup : Supervisor} (hP : TakesEffect digest args s)
    (hr : ∀ config, s.sup.router ≠ .restarting config) (ha : sup.router ≠ .stopped)
    (hr' : ∀ config, sup.router ≠ .restarting config)
    (hi : ∀ i c, sup.last_instance = some i → i.task = .starting c →
      ∃ j, s.sup.last_instance = some j ∧ j.task = .starting c)
    (hx : sup.last_instance.isSome = s.sup.last_instance.isSome) :
    TakesEffect digest args { s with sup := sup } := by
  refine ⟨ha, fun _ => hP.current hr, fun c hc => absurd hc (hr' c), fun i c h ht => ?_,
    hx.trans hP.exists_iff, hP.finished⟩
  obtain ⟨j, hj, htj⟩ := hi i c h ht
  exact hP.started j c hj htj

/-- So does a step of the instance, of an event or of the file, if the restart under way still comes
    to its end. -/
theorem TakesEffect.same {s : Routed} {sup : Supervisor} (hP : TakesEffect digest args s)
    (hr : sup.router = s.sup.router)
    (hi : ∀ i c, sup.last_instance = some i → i.task = .starting c →
      ∃ j, s.sup.last_instance = some j ∧ j.task = .starting c)
    (hx : sup.last_instance.isSome = s.sup.last_instance.isSome)
    (hj : ∀ config, s.sup.router = .restarting config →
      (router digest args).Completes RoutedAct.OfRestart
        (fun t => t.sup.router = .recv ∧ t.started = some config) { s with sup := sup }) :
    TakesEffect digest args { s with sup := sup } := by
  refine ⟨?_, fun h => hP.current ?_, fun c hc => ?_, fun i c h ht => ?_,
    hx.trans hP.exists_iff, hP.finished⟩
  · show sup.router ≠ .stopped
    rw [hr]
    exact hP.alive
  · intro c hc
    exact h c (hr.trans hc)
  · have hc' : s.sup.router = .restarting c := hr.symm.trans hc
    exact ⟨(hP.joins c hc').1, hj c hc'⟩
  · obtain ⟨j, hj, htj⟩ := hi i c h ht
    exact hP.started j c hj htj

/-- The instance goes on, and no mishap. -/
theorem TakesEffect.instance {s : Routed} {i : LastInstance} {task : Task}
    {updates : Mpsc ConfigChange 1024} {a : SupervisorAct Empty} (hP : TakesEffect digest args s)
    (hi : s.sup.last_instance = some i) (ht : ∀ c, task ≠ .starting c)
    (ha : RoutedAct.OfRestart (.act a))
    (h : (router digest args).step s (.act a) = some { s with sup := { s.sup with
      last_instance := some { i with task := task, updates := updates } } }) :
    TakesEffect digest args { s with sup := { s.sup with
      last_instance := some { i with task := task, updates := updates } } } := by
  refine hP.same rfl (fun j c hj htj => ?_) (by rw [hi]; rfl) fun c hc => ?_
  · cases hj
    exact absurd htj (ht c)
  · exact (hP.joins c hc).2.step ha h

/-- The instance fails, or hangs: the restart under way, if there is one, never comes to its end. -/
theorem takesEffect_mishap {s : Routed} {i : LastInstance} {task : Task}
    {updates : Mpsc ConfigChange 1024} (hP : TakesEffect digest args s)
    (hJ : Joins s.sup.router s.sup.last_instance) (hi : s.sup.last_instance = some i)
    (ht : ∀ c, task ≠ .starting c) (hE : ¬ task.Ends digest args updates.items) :
    TakesEffect digest args { s with sup := { s.sup with
        last_instance := some { i with task := task, updates := updates } } } ↔
      ∀ config, s.sup.router ≠ .restarting config := by
  constructor
  · intro h c hc
    obtain ⟨j, hj, hsd⟩ := hJ.restarting c hc
    cases hi.symm.trans hj
    have hR : Restarting s c i := ⟨hc, hi, hsd⟩
    exact hE ((joins_iff (hR.moves task updates)).mp (h.joins c hc).2)
  · intro hr
    refine hP.same rfl (fun j c hj htj => ?_) (by rw [hi]; rfl) fun c hc => absurd hc (hr c)
    cases hj
    exact absurd htj (ht c)

/-- **One step keeps this precisely where it is a graceful one.** -/
theorem takesEffect_step {s s' : Routed} {a : RoutedAct}
    (hJ : Joins s.sup.router s.sup.last_instance) (hP : TakesEffect digest args s)
    (h : (router digest args).step s a = some s') :
    TakesEffect digest args s' ↔ Graceful digest args s a := by
  cases a with
  | event ev =>
      cases h
      refine iff_of_true (hP.same rfl (fun i c hi ht => ⟨i, hi, ht⟩) rfl fun c hc => ?_) trivial
      obtain ⟨i, hR, hE⟩ := hP.ends hJ hc
      have hR' : Restarting { s with sup := { s.sup with events := s.sup.events ++ [ev] } } c i :=
        ⟨hR.router, hR.instance_, hR.told⟩
      exact (joins_iff hR').mpr hE
  | act a =>
      have hstep := h
      obtain ⟨sup, hs, rfl⟩ := Option.map_eq_some_iff.mp h
      cases supervisor_cases hs with
      | rescanInvalid σ text hp => exact σ.elim
      | rescan σ text new hp => exact σ.elim
      | first config rest hr he hi =>
          simp only [Routed.record, hr, he, hi]
          refine iff_of_true ⟨by simp, fun _ => rfl, fun c hc => ?_, fun i c h ht => ?_, rfl,
            hP.finished⟩ ?_
          · cases hc
          · cases h
            cases ht
            rfl
          · intro c r i _ _ h
            rw [hi] at h
            cases h
      | general config rest i hr he hi ha =>
          simp only [Routed.record, hr, he, hi]
          have hR : Restarting { s with
              sup := { s.sup with
                events := rest
                router := .restarting config
                last_instance := some { i with shutdown := true } }
              general := some config } config { i with shutdown := true } := ⟨rfl, rfl, rfl⟩
          refine ⟨fun h c r j _ he' hj => ?_, fun hG => ?_⟩
          · cases he.symm.trans he'
            cases hi.symm.trans hj
            exact ⟨ha, (joins_iff hR).mp (h.joins config rfl).2⟩
          · refine ⟨by simp, fun h => absurd rfl (h config), fun c hc => ?_, fun j c h ht => ?_, ?_,
              hP.finished⟩
            · cases hc
              exact ⟨rfl, (joins_iff hR).mpr (hG config rest i hr he hi).2⟩
            · cases h
              exact hP.started i c hi ht
            · rw [← hP.exists_iff, hi]
              rfl
      | generalDead config rest i hr he hi ha =>
          simp only [Routed.record, hr, he, hi]
          refine iff_of_false (fun h => h.alive rfl) fun h => ?_
          have halive := (h config rest i hr he hi).1
          rw [ha] at halive
          cases halive
      | drop ev rest hr he hn hi =>
          rw [record_incremental hr he hn]
          exact iff_of_true (hP.idle (by simp [hr]) (by simp [hr]) (by simp [hr])
            (fun i c h ht => ⟨i, h, ht⟩) rfl) (graceful_incremental he hn)
      | route ev rest i hr he hn hi =>
          rw [record_incremental hr he hn]
          exact iff_of_true (hP.idle (by simp [hr]) (by simp) (by simp)
            (fun i c h ht => ⟨i, h, ht⟩) rfl) (graceful_incremental he hn)
      | forward ev i q hr hi ha hq =>
          refine iff_of_true (hP.idle (by simp [hr]) (by simp) (by simp) (fun j c h ht => ?_)
            (by rw [hi]; rfl)) trivial
          cases h
          exact ⟨i, hi, ht⟩
      | forwardDead ev i hr hi ha =>
          exact iff_of_true (hP.idle (by simp [hr]) (by simp) (by simp)
            (fun i c h ht => ⟨i, h, ht⟩) rfl) trivial
      | restart config i hr hi ht =>
          simp only [Routed.record, hr, hi]
          refine iff_of_true ⟨by simp, fun _ => (hP.joins config hr).1.symm, fun c hc => ?_,
            fun j c h htj => ?_, rfl, fun t hm => ?_⟩ trivial
          · cases hc
          · cases h
            cases htj
            rfl
          · rcases List.mem_cons.mp hm with rfl | hm
            · exact ht
            · exact hP.finished t hm
      | restartFailed config i hr hi ht =>
          -- a failed instance is none that ends
          obtain ⟨j, hR, hE⟩ := hP.ends hJ hr
          cases hi.symm.trans hR.instance_
          rw [ht] at hE
          exact hE.elim
      | boot config i r hi ht hr =>
          exact iff_of_true (hP.instance hi (by simp) (a := .boot) trivial hstep) trivial
      | bootFailed config i hi ht hr =>
          exact iff_of_true (hP.instance hi (by simp) (a := .boot) trivial hstep) trivial
      | apply i r r' e q hi ht hq hr =>
          exact iff_of_true (hP.instance hi (by simp) (a := .apply) trivial hstep) trivial
      | applyFailed i r e q hi ht hq hr =>
          exact iff_of_true (hP.instance hi (by simp) (a := .apply) trivial hstep) trivial
      | hang i r r' e q hi ht hq hg hr =>
          exact takesEffect_mishap hP hJ hi (by simp) fun h => h
      | stop i r hi ht hs =>
          exact iff_of_true (hP.instance hi (by simp) (a := .stop) trivial hstep) trivial
      | fail i hi ha => exact takesEffect_mishap hP hJ hi (by simp) fun h => h

theorem router_joins_step {s s' : Routed} {a : RoutedAct}
    (hJ : Joins s.sup.router s.sup.last_instance) (h : (router digest args).step s a = some s') :
    Joins s'.sup.router s'.sup.last_instance := by
  cases a with
  | event ev =>
      cases h
      exact hJ
  | act a =>
      obtain ⟨sup, hs, rfl⟩ := Option.map_eq_some_iff.mp h
      rw [record_sup]
      exact joins_step hJ (supervisor_cases hs)

/-- **General changes take effect, exactly.** In a run of the router against any sequence of events
    and any instances, in every state the process goes on, its instance is the one last asked for
    and a restart under way comes to its end, precisely when every step of the run is a graceful
    one. -/
theorem takesEffect_iff {tr : List (Routed × RoutedAct)} {s : Routed}
    (r : (router digest args).Run tr s) :
    Throughout (TakesEffect digest args) tr s ↔ Guarded (Graceful digest args) tr := by
  have h0 : ∀ s, (router digest args).start s →
      Joins s.sup.router s.sup.last_instance ∧ TakesEffect digest args s :=
    fun s h => ⟨.idle (.inl h.2.1) _, takesEffect_start h⟩
  exact r.throughout_iff (I := fun s => Joins s.sup.router s.sup.last_instance) h0
    (fun _ _ _ hJ h => router_joins_step hJ h) fun s a s' hJ hP h => takesEffect_step hJ hP h

/-- The first instance fails, and the configuration is corrected. -/
def corrected : List RoutedAct :=
  [.event (.general (webConfig "0.0.0.0:80")), .act .route, .act .fail,
    .event (.general (webConfig "0.0.0.0:81")), .act .route]

def unrouted : Routed := ⟨⟨webConfig "0.0.0.0:80", [], .recv, none⟩, none, none, []⟩

/-- **The correction ends the process**: the claim that a general change always takes effect is
    false. -/
theorem correction_ends_process : ¬ ∀ (digest : Bytes → Digest) (args : Cli)
    (tr : List (Routed × RoutedAct)) (s : Routed), (router digest args).Run tr s →
      TakesEffect digest args s := by
  intro hall
  have hex : ∃ s, (router webDigest ⟨false, false⟩).exec unrouted corrected = some s ∧
      s.sup.router = .stopped := ⟨_, rfl, rfl⟩
  obtain ⟨s, hs, hstop⟩ := hex
  have hstart : (router webDigest ⟨false, false⟩).start unrouted := ⟨rfl, rfl, rfl, rfl, rfl, rfl⟩
  obtain ⟨tr, r⟩ := run_exec (.start hstart) hs
  exact (hall webDigest ⟨false, false⟩ _ s r).alive hstop

/-- A healthy instance is replaced. -/
theorem takesEffect_iff_restart : ∃ tr s, (router webDigest ⟨false, false⟩).Run tr s ∧
    s.started = some (webConfig "0.0.0.0:81") ∧
    Throughout (TakesEffect webDigest ⟨false, false⟩) tr s := by
  have r : ∃ tr s, (router webDigest ⟨false, false⟩).Run tr s ∧
      s.started = some (webConfig "0.0.0.0:81") ∧
      Guarded (Graceful webDigest ⟨false, false⟩) tr := by
    refine ⟨_, _, .step (a := .act .restart) (.step (a := .act .stop) (.step (a := .act .route)
      (.step (a := .event (.general (webConfig "0.0.0.0:81"))) (.step (a := .act .boot)
      (.step (a := .act .route) (.step (a := .event (.general (webConfig "0.0.0.0:80")))
      (.start (s := unrouted) ⟨rfl, rfl, rfl, rfl, rfl, rfl⟩) rfl) rfl) rfl) rfl) rfl) rfl) rfl,
      rfl, ?_⟩
    simp only [guarded_cons]
    refine ⟨trivial, trivial, fun config rest i _ _ hi => ?_, trivial, trivial,
      fun config rest i _ _ hi => ?_, trivial, by simp [Guarded]⟩
    · cases hi
      exact ⟨rfl, trivial⟩
    · cases hi
  obtain ⟨tr, s, r, hs, hg⟩ := r
  exact ⟨tr, s, r, hs, (takesEffect_iff r).mpr hg⟩

end Penetrate
