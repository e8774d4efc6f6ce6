/-
  File:      Penetrate/Supervisor.lean
  Subject:   HOT RELOAD END TO END: the watcher, the router of `lib::run`, the current instance.

  `config_watcher` rescans the file and sends events, `run` restarts the instance at a general one
  and forwards every other one into the instance's update queue, and the instance applies what it
  finds there. The contents of the file come as the machine runs; what the instance does with its
  connections is left open: it may fail at any time (`fail`), and a server that applies a change may
  wait for ever for a guard of its tables (`hang`), as TableFreeze.lean shows.

  * `Supervisor.step`, `supervisor` -- the machine; `supervisor_cases` lists its rules;
  * `Tracks` -- **the invariant**: the changes still under way turn what the current instance has
    in force into what an instance started from the watcher's configuration would have;
  * `hot_reload_eq_restart` -- once nothing is under way the two are the same.
-/
import Penetrate.Instance
import Penetrate.Concurrent.Machine
import Penetrate.Concurrent.Mpsc

namespace Penetrate

open Concurrent Machine

/-! ## 1. The machine -/

/-- Where the task of `run_instance` is. -/
inductive Task where
  | starting (config : Config)
  | running (i : Instance)
  /-- in `handle_hot_reload`, where it waits for a guard that is never granted; with it, `i` -/
  | hung (i : Instance)
  | finished
  /-- it panicked: its result was an error, or an unwrap failed -/
  | failed

/-- The channels and the task of `last_instance`. -/
structure LastInstance where
  task : Task
  updates : Mpsc ConfigChange 1024
  shutdown : Bool

/-- Where the loop of `run` is. -/
inductive Router where
  | recv
  /-- in `service_update_tx.send(ev)` -/
  | forwarding (ev : ConfigChange)
  /-- the shutdown signal is sent; in `i.await` -/
  | restarting (config : Config)
  | stopped

structure Supervisor where
  old : Config
  events : List ConfigChange
  router : Router
  last_instance : Option LastInstance

inductive SupervisorAct (Seed : Type) where
  /-- the watcher finds the content `text` -/
  | rescan (σ : Seed) (text : String)
  | route
  | forward
  | restart
  | boot
  /-- `handle_hot_reload`, with all its guards -/
  | apply
  | hang
  | stop
  | fail

/-- The task still owns its ends of the channels. -/
def Task.alive : Task → Bool
  | .starting _ => true
  | .running _ => true
  | .hung _ => true
  | _ => false

/-- To apply the change a server takes the guards of its tables; a client takes none. -/
def Instance.takesGuards : Instance → ConfigChange → Bool
  | .server _, .serverChange _ => true
  | _, _ => false

def spawn (config : Config) : LastInstance := ⟨.starting config, .empty, false⟩

section

variable {Seed : Type} (toml : Seed → String → Except String Config) (digest : Bytes → Digest)
  (args : Cli)

def Supervisor.step (s : Supervisor) : SupervisorAct Seed → Option Supervisor
  | .rescan σ text => match s.router with
    | .stopped => none
    | _ => match Config.from_str toml σ text with
      | .error _ => some s
      | .ok new =>
          some { s with events := s.events ++ (calculate_events s.old new).getD [], old := new }
  | .route => match s.router, s.events with
    | .recv, .general config :: rest => match s.last_instance with
      | none => some { s with events := rest, last_instance := some (spawn config) }
      | some i =>
          -- `shutdown_tx.send(true)?`: an error when nobody is left to receive
          if i.task.alive then
            some { s with
              events := rest
              router := .restarting config
              last_instance := some { i with shutdown := true } }
          else some { s with events := rest, router := .stopped }
    | .recv, ev :: rest => match s.last_instance with
      | none => some { s with events := rest }
      | some _ => some { s with events := rest, router := .forwarding ev }
    | _, _ => none
  | .forward => match s.router, s.last_instance with
    | .forwarding ev, some i =>
        if i.task.alive then
          (i.updates.send ev).map fun q =>
            { s with router := .recv, last_instance := some { i with updates := q } }
        else some { s with router := .recv }
    | _, _ => none
  | .restart => match s.router, s.last_instance with
    | .restarting config, some i => match i.task with
      | .finished => some { s with router := .recv, last_instance := some (spawn config) }
      | .failed => some { s with router := .stopped }
      | _ => none
    | _, _ => none
  | .boot => match s.last_instance with
    | some i => match i.task with
      | .starting config =>
          let task := match run_instance digest args config with
            | some r => .running r
            | none => .failed
          some { s with last_instance := some { i with task := task } }
      | _ => none
    | none => none
  | .apply => match s.last_instance with
    | some i => match i.task with
      | .running r => i.updates.recv.map fun (e, q) =>
          let task := match r.handle_hot_reload digest e with
            | some r' => .running r'
            | none => .failed
          { s with last_instance := some { i with task := task, updates := q } }
      | _ => none
    | none => none
  | .hang => match s.last_instance with
    | some i => match i.task with
      | .running r => i.updates.recv.bind fun (e, q) =>
          if r.takesGuards e then
            (r.handle_hot_reload digest e).map fun r' =>
              { s with last_instance := some { i with task := .hung r', updates := q } }
          else none
      | _ => none
    | none => none
  | .stop => match s.last_instance with
    | some i => match i.task with
      | .running _ =>
          if i.shutdown then some { s with last_instance := some { i with task := .finished } }
          else none
      | _ => none
    | none => none
  | .fail => match s.last_instance with
    | some i =>
        if i.task.alive then some { s with last_instance := some { i with task := .failed } }
        else none
    | none => none

/-- **The program**, started on a file with the content `text`. -/
def supervisor (text : String) : Machine Supervisor (SupervisorAct Seed) where
  start s := ∃ σ config, Config.from_str toml σ text = .ok config ∧
    s = ⟨config, [.general config], .recv, none⟩
  step := Supervisor.step toml digest args

/-! ## 2. The rules -/

inductive SupervisorStep (s : Supervisor) : SupervisorAct Seed → Supervisor → Prop where
  | rescanInvalid (σ : Seed) (text : String) (hp : ∀ c, Config.from_str toml σ text ≠ .ok c) :
      SupervisorStep s (.rescan σ text) s
  | rescan (σ : Seed) (text : String) (new : Config) (hp : Config.from_str toml σ text = .ok new) :
      SupervisorStep s (.rescan σ text)
        { s with events := s.events ++ (calculate_events s.old new).getD [], old := new }
  | first (config : Config) (rest : List ConfigChange) (hr : s.router = .recv)
      (he : s.events = .general config :: rest) (hi : s.last_instance = none) :
      SupervisorStep s .route { s with events := rest, last_instance := some (spawn config) }
  | general (config : Config) (rest : List ConfigChange) (i : LastInstance) (hr : s.router = .recv)
      (he : s.events = .general config :: rest) (hi : s.last_instance = some i)
      (ha : i.task.alive = true) :
      SupervisorStep s .route
        { s with
          events := rest
          router := .restarting config
          last_instance := some { i with shutdown := true } }
  | generalDead (config : Config) (rest : List ConfigChange) (i : LastInstance)
      (hr : s.router = .recv) (he : s.events = .general config :: rest)
      (hi : s.last_instance = some i) (ha : i.task.alive = false) :
      SupervisorStep s .route { s with events := rest, router := .stopped }
  | drop (ev : ConfigChange) (rest : List ConfigChange) (hr : s.router = .recv)
      (he : s.events = ev :: rest) (hn : ∀ c, ev ≠ .general c) (hi : s.last_instance = none) :
      SupervisorStep s .route { s with events := rest }
  | route (ev : ConfigChange) (rest : List ConfigChange) (i : LastInstance) (hr : s.router = .recv)
      (he : s.events = ev :: rest) (hn : ∀ c, ev ≠ .general c) (hi : s.last_instance = some i) :
      SupervisorStep s .route { s with events := rest, router := .forwarding ev }
  | forward (ev : ConfigChange) (i : LastInstance) (q : Mpsc ConfigChange 1024)
      (hr : s.router = .forwarding ev) (hi : s.last_instance = some i) (ha : i.task.alive = true)
      (hq : i.updates.send ev = some q) :
      SupervisorStep s .forward
        { s with router := .recv, last_instance := some { i with updates := q } }
  | forwardDead (ev : ConfigChange) (i : LastInstance) (hr : s.router = .forwarding ev)
      (hi : s.last_instance = some i) (ha : i.task.alive = false) :
      SupervisorStep s .forward { s with router := .recv }
  | restart (config : Config) (i : LastInstance) (hr : s.router = .restarting config)
      (hi : s.last_instance = some i) (ht : i.task = .finished) :
      SupervisorStep s .restart { s with router := .recv, last_instance := some (spawn config) }
  | restartFailed (config : Config) (i : LastInstance) (hr : s.router = .restarting config)
      (hi : s.last_instance = some i) (ht : i.task = .failed) :
      SupervisorStep s .restart { s with router := .stopped }
  | boot (config : Config) (i : LastInstance) (r : Instance) (hi : s.last_instance = some i)
      (ht : i.task = .starting config) (hr : run_instance digest args config = some r) :
      SupervisorStep s .boot { s with last_instance := some { i with task := .running r } }
  | bootFailed (config : Config) (i : LastInstance) (hi : s.last_instance = some i)
      (ht : i.task = .starting config) (hr : run_instance digest args config = none) :
      SupervisorStep s .boot { s with last_instance := some { i with task := .failed } }
  | apply (i : LastInstance) (r r' : Instance) (e : ConfigChange) (q : Mpsc ConfigChange 1024)
      (hi : s.last_instance = some i) (ht : i.task = .running r) (hq : i.updates.recv = some (e, q))
      (hr : r.handle_hot_reload digest e = some r') :
      SupervisorStep s .apply
        { s with last_instance := some { i with task := .running r', updates := q } }
  | applyFailed (i : LastInstance) (r : Instance) (e : ConfigChange) (q : Mpsc ConfigChange 1024)
      (hi : s.last_instance = some i) (ht : i.task = .running r) (hq : i.updates.recv = some (e, q))
      (hr : r.handle_hot_reload digest e = none) :
      SupervisorStep s .apply
        { s with last_instance := some { i with task := .failed, updates := q } }
  | hang (i : LastInstance) (r r' : Instance) (e : ConfigChange) (q : Mpsc ConfigChange 1024)
      (hi : s.last_instance = some i) (ht : i.task = .running r) (hq : i.updates.recv = some (e, q))
      (hg : r.takesGuards e = true) (hr : r.handle_hot_reload digest e = some r') :
      SupervisorStep s .hang
        { s with last_instance := some { i with task := .hung r', updates := q } }
  | stop (i : LastInstance) (r : Instance) (hi : s.last_instance = some i)
      (ht : i.task = .running r) (hs : i.shutdown = true) :
      SupervisorStep s .stop { s with last_instance := some { i with task := .finished } }
  | fail (i : LastInstance) (hi : s.last_instance = some i) (ha : i.task.alive = true) :
      SupervisorStep s .fail { s with last_instance := some { i with task := .failed } }

variable {toml digest args}

theorem supervisor_cases {s s' : Supervisor} {a : SupervisorAct Seed}
    (h : Supervisor.step toml digest args s a = some s') :
    SupervisorStep toml digest args s a s' := by
  unfold Supervisor.step at h
  split at h
  · rename_i σ text
    split at h
    · cases h
    · split at h
      · rename_i e he
        cases h
        exact .rescanInvalid σ text fun c hc => by rw [he] at hc; cases hc
      · rename_i new hn
        cases h
        exact .rescan σ text new hn
  · split at h
    · rename_i config rest hr he
      split at h
      · rename_i hi
        cases h
        exact .first config rest hr he hi
      · rename_i i hi
        split at h
        · rename_i ha
          cases h
          exact .general config rest i hr he hi ha
        · rename_i ha
          cases h
          exact .generalDead config rest i hr he hi (by simpa using ha)
    · rename_i ev rest hn hr he
      have hn' : ∀ c, ev ≠ .general c := fun c e => hn c e
      split at h
      · rename_i hi
        cases h
        exact .drop ev rest hr he hn' hi
      · rename_i i hi
        cases h
        exact .route ev rest i hr he hn' hi
    · cases h
  · split at h
    · rename_i ev i hr hi
      split at h
      · rename_i ha
        obtain ⟨q, hq, rfl⟩ := Option.map_eq_some_iff.mp h
        exact .forward ev i q hr hi ha hq
      · rename_i ha
        cases h
        exact .forwardDead ev i hr hi (by simpa using ha)
    · cases h
  · split at h
    · rename_i config i hr hi
      split at h
      · rename_i ht
        cases h
        exact .restart config i hr hi ht
      · rename_i ht
        cases h
        exact .restartFailed config i hr hi ht
      · cases h
    · cases h
  · split at h
    · rename_i i hi
      split at h
      · rename_i config ht
        cases hr : run_instance digest args config with
        | some r =>
            simp only [hr] at h
            cases h
            exact .boot config i r hi ht hr
        | none =>
            simp only [hr] at h
            cases h
            exact .bootFailed config i hi ht hr
      · cases h
    · cases h
  · split at h
    · rename_i i hi
      split at h
      · rename_i r ht
        obtain ⟨⟨e, q⟩, hq, rfl⟩ := Option.map_eq_some_iff.mp h
        cases hr : r.handle_hot_reload digest e with
        | some r' => simpa only [hr] using .apply i r r' e q hi ht hq hr
        | none => simpa only [hr] using .applyFailed i r e q hi ht hq hr
      · cases h
    · cases h
  · split at h
    · rename_i i hi
      split at h
      · rename_i r ht
        obtain ⟨⟨e, q⟩, hq, h⟩ := Option.bind_eq_some_iff.mp h
        dsimp only at h
        split at h
        · rename_i hg
          obtain ⟨r', hr, rfl⟩ := Option.map_eq_some_iff.mp h
          exact .hang i r r' e q hi ht hq hg hr
        · cases h
      · cases h
    · cases h
  · split at h
    · rename_i i hi
      split at h
      · rename_i r ht
        split at h
        · rename_i hs
          cases h
          exact .stop i r hi ht hs
        · cases h
      · cases h
    · cases h
  · split at h
    · rename_i i hi
      split at h
      · rename_i ha
        cases h
        exact .fail i hi ha
      · cases h
    · cases h

/-! ## 3. The invariant -/

/-- The change the router has in hand. -/
def Router.hand : Router → List ConfigChange
  | .forwarding ev => [ev]
  | _ => []

/-- The changes the instance has not applied yet. -/
def Supervisor.queued (s : Supervisor) : List ConfigChange :=
  match s.last_instance with
  | some i => i.updates.items
  | none => []

variable (digest args) in
/-- What the instance has in force, or will have once it has started, or would have with its guard;
    `none` once it has ended. -/
def Task.inForce : Task → Option (Option Effective)
  | .starting config => some (fresh digest args config)
  | .running i => some (some i.effective)
  | .hung i => some (some i.effective)
  | _ => none

variable (digest args) in
/-- The same of the supervisor; before the first instance nothing is in force. -/
def Supervisor.inForce (s : Supervisor) : Option (Option Effective) :=
  match s.last_instance with
  | some i => i.task.inForce digest args
  | none => some none

theorem queued_some {s : Supervisor} {i : LastInstance} (h : s.last_instance = some i) :
    s.queued = i.updates.items := by
  unfold Supervisor.queued
  rw [h]

theorem queued_none {s : Supervisor} (h : s.last_instance = none) : s.queued = [] := by
  unfold Supervisor.queued
  rw [h]

theorem inForce_some {s : Supervisor} {i : LastInstance} (h : s.last_instance = some i) :
    s.inForce digest args = i.task.inForce digest args := by
  unfold Supervisor.inForce
  rw [h]

theorem inForce_none {s : Supervisor} (h : s.last_instance = none) :
    s.inForce digest args = some none := by
  unfold Supervisor.inForce
  rw [h]

theorem inForce_alive {t : Task} (h : t.alive = true) :
    ∃ x, t.inForce digest args = some x := by
  cases t with
  | starting c => exact ⟨_, rfl⟩
  | running r => exact ⟨_, rfl⟩
  | hung r => exact ⟨_, rfl⟩
  | finished => cases h
  | failed => cases h

theorem inForce_dead {t : Task} (h : t.alive = false) : t.inForce digest args = none := by
  cases t with
  | starting c => cases h
  | running r => cases h
  | hung r => cases h
  | finished => rfl
  | failed => rfl

variable (digest args) in
/-- **The changes under way lead to the watcher's configuration.** -/
structure Tracks (s : Supervisor) : Prop where
  current : (s.router = .recv ∨ ∃ ev, s.router = .forwarding ev) → ∀ x,
    s.inForce digest args = some x →
      replay digest args x (s.queued ++ s.router.hand ++ s.events) = fresh digest args s.old
  next : ∀ c, s.router = .restarting c →
    replay digest args (fresh digest args c) s.events = fresh digest args s.old
  incremental : ∀ e ∈ s.queued ++ s.router.hand, ∀ c, e ≠ .general c

theorem replay_cons {args : Cli} {e : ConfigChange} (hn : ∀ c, e ≠ .general c)
    (x : Option Effective) (evs : List ConfigChange) :
    replay digest args x (e :: evs) = replay digest args (x.map (·.apply digest e)) evs := by
  cases e with
  | general c => exact absurd rfl (hn c)
  | serverChange => rfl
  | clientChange => rfl

/-- A restart makes the changes before it irrelevant. -/
theorem replay_general {args : Cli} {evs : List ConfigChange} (h : ∀ e ∈ evs, ∀ c, e ≠ .general c)
    (x : Option Effective) (c : Config) (rest : List ConfigChange) :
    replay digest args x (evs ++ .general c :: rest) =
      replay digest args (fresh digest args c) rest := by
  induction evs generalizing x with
  | nil => rfl
  | cons e evs ih =>
      rw [List.cons_append, replay_cons (h e List.mem_cons_self)]
      exact ih (fun e' he' => h e' (List.mem_cons_of_mem _ he')) _

/-- The instance moves on, the changes under way unchanged, with the same in force or dead. -/
theorem Tracks.task {s : Supervisor} (hI : Tracks digest args s) {i : LastInstance}
    (hi : s.last_instance = some i) {i' : LastInstance} (hu : i'.updates = i.updates)
    (ht : ∀ x, i'.task.inForce digest args = some x → i.task.inForce digest args = some x) :
    Tracks digest args { s with last_instance := some i' } := by
  have hq' : Supervisor.queued { s with last_instance := some i' } = s.queued := by
    rw [queued_some hi, ← hu]
    rfl
  constructor
  · intro hr x hx
    rw [hq']
    exact hI.current hr x ((inForce_some hi).trans (ht x hx))
  · exact hI.next
  · rw [hq']
    exact hI.incremental

/-- Once the router has stopped, nothing is promised any more. -/
theorem Tracks.stopped {s : Supervisor} (hI : Tracks digest args s) (evs : List ConfigChange) :
    Tracks digest args { s with events := evs, router := .stopped } := by
  constructor
  · intro hr x _
    rcases hr with hr | ⟨ev, hr⟩ <;> cases hr
  · intro c hc
    cases hc
  · intro e hm
    have hm' : e ∈ s.queued ++ [] := hm
    rw [List.append_nil] at hm'
    exact hI.incremental e (List.mem_append_left _ hm')

/-- The invariant where the router has nothing in hand. -/
theorem Tracks.of_recv {s : Supervisor} (hr : s.router = .recv)
    (hcur : ∀ x, s.inForce digest args = some x →
      replay digest args x (s.queued ++ s.events) = fresh digest args s.old)
    (hinc : ∀ e ∈ s.queued, ∀ c, e ≠ .general c) : Tracks digest args s := by
  have hhand : s.queued ++ s.router.hand = s.queued := by
    rw [hr]
    exact List.append_nil _
  constructor
  · intro _ x hx
    rw [hhand]
    exact hcur x hx
  · intro c hc
    rw [hr] at hc
    cases hc
  · rw [hhand]
    exact hinc

/-- The instance takes the next change from its queue. -/
theorem Tracks.received {s : Supervisor} (hI : Tracks digest args s) {i : LastInstance}
    {e : ConfigChange} {q : Mpsc ConfigChange 1024} (hi : s.last_instance = some i)
    (hq : i.updates.recv = some (e, q)) {t : Task}
    (ht : ∀ y, t.inForce digest args = some y → ∃ x, i.task.inForce digest args = some x ∧
      x.map (·.apply digest e) = y) :
    Tracks digest args { s with last_instance := some { i with task := t, updates := q } } := by
  have hitems : s.queued = e :: q.items := (queued_some hi).trans (Mpsc.recv_eq_some hq)
  have hn : ∀ c, e ≠ .general c := by
    refine hI.incremental e (List.mem_append_left _ ?_)
    rw [hitems]
    exact List.mem_cons_self
  constructor
  · intro hrt y hy
    obtain ⟨x, hx, rfl⟩ := ht y hy
    have hcur := hI.current hrt x ((inForce_some hi).trans hx)
    rw [hitems, List.cons_append, List.cons_append, replay_cons hn] at hcur
    exact hcur
  · exact hI.next
  · intro e' hm
    refine hI.incremental e' ?_
    rw [hitems, List.cons_append]
    exact List.mem_cons_of_mem _ hm

/-- **One step keeps the invariant**; a rescan, as far as no two service names collide. -/
theorem tracks_step {s s' : Supervisor} {a : SupervisorAct Seed} (hI : Tracks digest args s)
    (hv : s.old.Valid)
    (hinj : Set.InjOn (nameDigest digest) (s.old.serverNames ∪ s'.old.serverNames))
    (h : SupervisorStep toml digest args s a s') : Tracks digest args s' := by
  cases h with
  | rescanInvalid => exact hI
  | rescan σ text new hp =>
      have hnew := Config.from_str_valid hp
      have hpatch := replay_calculate_events args hv hnew hinj
      constructor
      · intro hr x hx
        show replay digest args x (s.queued ++ s.router.hand ++ (s.events ++ _)) = _
        rw [← List.append_assoc, replay_append, hI.current hr x hx]
        exact hpatch
      · intro c hc
        show replay digest args _ (s.events ++ _) = _
        rw [replay_append, hI.next c hc]
        exact hpatch
      · exact hI.incremental
  | first config rest hr he hi =>
      have hcur := hI.current (Or.inl hr) none (inForce_none hi)
      rw [queued_none hi, hr, he] at hcur
      refine .of_recv hr (fun x hx => ?_) fun e hm => by cases hm
      cases hx
      exact hcur
  | general config rest i hr he hi ha =>
      constructor
      · intro hr' x _
        rcases hr' with hr' | ⟨ev, hr'⟩ <;> cases hr'
      · intro c hc
        cases hc
        obtain ⟨x, hx⟩ : ∃ x, i.task.inForce digest args = some x := inForce_alive ha
        have hcur := hI.current (Or.inl hr) x ((inForce_some hi).trans hx)
        rw [he, replay_general hI.incremental] at hcur
        exact hcur
      · intro e hm
        have hm' : e ∈ i.updates.items ++ [] := hm
        rw [List.append_nil, ← queued_some hi] at hm'
        exact hI.incremental e (List.mem_append_left _ hm')
  | generalDead config rest i hr he hi ha => exact hI.stopped rest
  | drop ev rest hr he hn hi =>
      have hcur := hI.current (Or.inl hr) none (inForce_none hi)
      rw [queued_none hi, hr, he] at hcur
      refine .of_recv hr (fun x hx => ?_) fun e hm => hI.incremental e (List.mem_append_left _ hm)
      have hx' : some none = some x := (inForce_none hi).symm.trans hx
      cases hx'
      show replay digest args none (s.queued ++ rest) = _
      rw [queued_none hi, ← hcur]
      exact (replay_cons hn none rest).symm
  | route ev rest i hr he hn hi =>
      constructor
      · intro _ x hx
        have hcur := hI.current (Or.inl hr) x hx
        rw [hr, he] at hcur
        show replay digest args x (s.queued ++ [ev] ++ rest) = _
        rw [← hcur]
        simp [Router.hand]
      · intro c hc
        cases hc
      · intro e hm
        rcases List.mem_append.mp hm with hm | hm
        · exact hI.incremental e (List.mem_append_left _ hm)
        · rw [List.mem_singleton.mp hm]
          exact hn
  | forward ev i q hr hi ha hq =>
      have hitems : q.items = s.queued ++ s.router.hand := by
        rw [(Mpsc.send_eq_some hq).1, hr, queued_some hi]
        rfl
      refine .of_recv rfl (fun x hx => ?_) fun e hm => ?_
      · have hcur := hI.current (Or.inr ⟨ev, hr⟩) x ((inForce_some hi).trans hx)
        show replay digest args x (q.items ++ s.events) = _
        rw [hitems]
        exact hcur
      · have hm' : e ∈ q.items := hm
        rw [hitems] at hm'
        exact hI.incremental e hm'
  | forwardDead ev i hr hi ha =>
      refine .of_recv rfl (fun x hx => ?_) fun e hm => hI.incremental e (List.mem_append_left _ hm)
      have hx' : s.inForce digest args = some x := hx
      rw [inForce_some hi, inForce_dead ha] at hx'
      cases hx'
  | restart config i hr hi ht =>
      refine .of_recv rfl (fun x hx => ?_) fun e hm => by cases hm
      cases hx
      exact hI.next config hr
  | restartFailed config i hr hi ht => exact hI.stopped s.events
  | boot config i r hi ht hr =>
      refine hI.task hi rfl fun x hx => ?_
      cases hx
      rw [ht]
      show some (fresh digest args config) = _
      rw [fresh, hr]
      rfl
  | bootFailed config i hi ht hr => exact hI.task hi rfl fun x hx => by cases hx
  | apply i r r' e q hi ht hq hr | hang i r r' e q hi ht hq _ hr =>
      refine hI.received hi hq fun y hy => ⟨some r.effective, by rw [ht]; rfl, ?_⟩
      cases hy
      rw [handle_hot_reload_effective hr]
      rfl
  | applyFailed i r e q hi ht hq hr => exact hI.received hi hq fun y hy => by cases hy
  | stop i r hi ht hs => exact hI.task hi rfl fun x hx => by cases hx
  | fail i hi ha => exact hI.task hi rfl fun x hx => by cases hx

/-! ## 4. Hot reload equals restart -/

variable (toml) in
/-- The last valid content the watcher has seen, the latest step first. -/
def lastValid (text : String) : List (Supervisor × SupervisorAct Seed) → String
  | [] => text
  | (_, .rescan σ new) :: tr => match Config.from_str toml σ new with
    | .ok _ => new
    | .error _ => lastValid text tr
  | _ :: tr => lastValid text tr

variable (toml) in
/-- The names of the server's services in the contents the watcher has seen. -/
def serviceNames (text : String) (tr : List (Supervisor × SupervisorAct Seed)) : Set String :=
  {n | ∃ t, (t = text ∨ ∃ s σ, (s, .rescan σ t) ∈ tr) ∧
    ∃ σ c, Config.from_str toml σ t = .ok c ∧ n ∈ c.serverNames}

theorem serviceNames_cons (text : String) (p : Supervisor × SupervisorAct Seed)
    (tr : List (Supervisor × SupervisorAct Seed)) :
    serviceNames toml text tr ⊆ serviceNames toml text (p :: tr) := by
  intro n hn
  obtain ⟨t, ht, hc⟩ := hn
  refine ⟨t, ?_, hc⟩
  rcases ht with ht | ⟨s, σ, ht⟩
  · exact Or.inl ht
  · exact Or.inr ⟨s, σ, List.mem_cons_of_mem _ ht⟩

theorem lastValid_seen (text : String) (tr : List (Supervisor × SupervisorAct Seed)) :
    lastValid toml text tr = text ∨ ∃ s σ, (s, .rescan σ (lastValid toml text tr)) ∈ tr := by
  induction tr with
  | nil => exact Or.inl rfl
  | cons p tr ih =>
      have hweak : lastValid toml text tr = text ∨
          ∃ s σ, (s, .rescan σ (lastValid toml text tr)) ∈ p :: tr := by
        rcases ih with h | ⟨s, σ, h⟩
        · exact Or.inl h
        · exact Or.inr ⟨s, σ, List.mem_cons_of_mem _ h⟩
      obtain ⟨s, a⟩ := p
      cases a with
      | rescan σ new =>
          rw [lastValid]
          split
          · exact Or.inr ⟨s, σ, List.mem_cons_self⟩
          · exact hweak
      | _ => exact hweak

/-- On every run the watcher's configuration is read from the last valid content, and the changes
    under way lead to it. -/
theorem tracks_run {text : String} {tr : List (Supervisor × SupervisorAct Seed)} {s : Supervisor}
    (r : (supervisor toml digest args text).Run tr s)
    (hinj : Set.InjOn (nameDigest digest) (serviceNames toml text tr)) :
    (∃ σ, Config.from_str toml σ (lastValid toml text tr) = .ok s.old) ∧ Tracks digest args s := by
  induction r with
  | start h =>
      obtain ⟨σ, config, hp, rfl⟩ := h
      refine ⟨⟨σ, hp⟩, ⟨fun _ x hx => ?_, fun c hc => ?_, fun e he => ?_⟩⟩
      · cases hx
        rfl
      · cases hc
      · cases he
  | @step tr s s' a r h ih =>
      have hstep := supervisor_cases h
      obtain ⟨⟨σ0, h0⟩, hI⟩ := ih (hinj.mono (serviceNames_cons text (s, a) tr))
      have hold : s.old.serverNames ⊆ serviceNames toml text ((s, a) :: tr) := by
        refine Set.Subset.trans (fun n hn => ?_) (serviceNames_cons text (s, a) tr)
        exact ⟨_, lastValid_seen text tr, σ0, s.old, h0, hn⟩
      have hread : ∃ σ, Config.from_str toml σ (lastValid toml text ((s, a) :: tr)) = .ok s'.old := by
        cases hstep with
        | rescanInvalid σ new hp =>
            refine ⟨σ0, ?_⟩
            rw [lastValid]
            split
            · rename_i c hc
              exact absurd hc (hp c)
            · exact h0
        | rescan σ new c hp =>
            refine ⟨σ, ?_⟩
            rw [lastValid, hp]
            exact hp
        | _ => exact ⟨σ0, h0⟩
      refine ⟨hread, tracks_step hI (Config.from_str_valid h0) (hinj.mono ?_) hstep⟩
      obtain ⟨σ1, h1⟩ := hread
      exact Set.union_subset hold fun n hn => ⟨_, lastValid_seen text _, σ1, s'.old, h1, hn⟩

/-- Every change has been routed and applied. -/
structure Supervisor.Quiescent (s : Supervisor) : Prop where
  events : s.events = []
  router : s.router = .recv
  queued : s.queued = []

/-- **Hot reload equals restart**: where every change has been routed and applied and the instance
    runs, it has in force what an instance freshly started from the last valid content has. An
    invalid content changes nothing; the last valid content seen once more sends nothing and is
    read as an equal configuration. -/
theorem hot_reload_eq_restart (htoml : Config.SeedBlind toml) {text : String}
    {tr : List (Supervisor × SupervisorAct Seed)} {s : Supervisor}
    (r : (supervisor toml digest args text).Run tr s)
    (hinj : Set.InjOn (nameDigest digest) (serviceNames toml text tr)) :
    (s.Quiescent → ∀ l i, s.last_instance = some l → l.task = .running i →
      ∀ σ, ∃ c, Config.from_str toml σ (lastValid toml text tr) = .ok c ∧
        fresh digest args c = some i.effective) ∧
    ∀ σ new s', Supervisor.step toml digest args s (.rescan σ new) = some s' →
      ((∀ c, Config.from_str toml σ new ≠ .ok c) → s' = s) ∧
      (new = lastValid toml text tr → s.old.eq s'.old = true ∧ s' = { s with old := s'.old }) := by
  obtain ⟨⟨σ0, h0⟩, hI⟩ := tracks_run r hinj
  refine ⟨fun hq l i hl ht σ => ?_, fun σ new s' h => ?_⟩
  · obtain ⟨c, hc, heq⟩ := Config.from_str_congr htoml σ h0
    have hx : s.inForce digest args = some (some i.effective) := by
      rw [inForce_some hl, ht]
      rfl
    have hcur := hI.current (Or.inl hq.router) _ hx
    rw [hq.events, hq.router, hq.queued] at hcur
    have hnames : s.old.serverNames ∪ c.serverNames ⊆ serviceNames toml text tr :=
      Set.union_subset (fun n hn => ⟨_, lastValid_seen text tr, σ0, s.old, h0, hn⟩)
        fun n hn => ⟨_, lastValid_seen text tr, σ, c, hc, hn⟩
    refine ⟨c, hc, ?_⟩
    rw [← fresh_congr args (Config.from_str_valid h0) (Config.from_str_valid hc)
      (hinj.mono hnames) heq]
    exact hcur.symm
  · cases supervisor_cases h with
    | rescanInvalid _ _ hp =>
        refine ⟨fun _ => rfl, fun hnew => ?_⟩
        obtain ⟨c, hc, -⟩ := Config.from_str_congr htoml σ h0
        rw [hnew] at hp
        exact absurd hc (hp c)
    | rescan _ _ c hp =>
        refine ⟨fun hinv => absurd hp (hinv c), fun hnew => ?_⟩
        rw [hnew] at hp
        obtain ⟨c', hc', heq⟩ := Config.from_str_congr htoml σ h0
        rw [hp] at hc'
        cases hc'
        refine ⟨heq, ?_⟩
        have hnone : calculate_events s.old c = none := if_pos heq
        rw [hnone]
        show { s with events := s.events ++ [], old := c } = _
        rw [List.append_nil]

end

/-! A server whose one service moves to another port while it runs. -/

def webText (bind_addr : String) : String :=
  "[server]\nbind_addr = \"0.0.0.0:2333\"\ndefault_token = \"secret\"\n" ++
    "[server.services.web]\nbind_addr = \"" ++ bind_addr ++ "\"\n"

/-- What the parser makes of `webText`; serde skips the name. -/
def webConfig (bind_addr : String) : Config where
  server := some
    { bind_addr := "0.0.0.0:2333"
      default_token := some "secret"
      services := AList.singleton "web" ⟨.tcp, "", bind_addr, none, none⟩
      transport := ⟨.tcp, ⟨true, 20, 8, none⟩, none, none⟩
      heartbeat_interval := 30 }
  client := none

def webToml (_ : Unit) (text : String) : Except String Config :=
  if text = webText "0.0.0.0:80" then .ok (webConfig "0.0.0.0:80")
  else if text = webText "0.0.0.0:81" then .ok (webConfig "0.0.0.0:81")
  else .error "TOML parse error"

/-- The hash of `web`, the one name hashed here. -/
def webDigest (_ : Bytes) : Digest :=
  #v[0x4b, 0x5e, 0x57, 0xf6, 0xeb, 0x2f, 0x42, 0xb9, 0x03, 0x9b, 0x3d, 0x1e, 0x13, 0x92, 0x92, 0x95,
    0xf2, 0x31, 0x74, 0x9c, 0x51, 0x0c, 0xbe, 0x34, 0x1c, 0xd6, 0x80, 0x36, 0xd9, 0xaf, 0x97, 0xe2]

theorem webToml_seedBlind : Config.SeedBlind webToml :=
  fun _ _ _ a h => ⟨a, h, (Bool.and_eq_true _ _).mpr
    ⟨optEq_refl ServerConfig.eq_refl _, optEq_refl ClientConfig.eq_refl _⟩⟩

/-- Only `web` is ever read. -/
theorem webNames {σ : Unit} {text : String} {c : Config}
    (h : Config.from_str webToml σ text = .ok c) : c.serverNames ⊆ {"web"} := by
  obtain ⟨c0, h0, hv⟩ := Config.from_str_ok h
  have hval : ∀ b, Config.validate (webConfig b) = .ok c → c.serverNames ⊆ {"web"} := by
    intro b hb n hn
    obtain ⟨s, hs, hmem⟩ := hn
    cases hb
    cases hs
    exact List.mem_singleton.mp (AList.mem_keys.mp hmem)
  unfold webToml at h0
  split at h0
  · cases h0
    exact hval _ hv
  · split at h0
    · cases h0
      exact hval _ hv
    · cases h0

/-- The server starts, the file changes, the change is routed and applied: the new port is in
    force, as after a restart. -/
theorem hot_reload_eq_restart_web : ∃ tr s i,
    (supervisor webToml webDigest ⟨false, false⟩ (webText "0.0.0.0:80")).Run tr s ∧
      lastValid webToml (webText "0.0.0.0:80") tr = webText "0.0.0.0:81" ∧
      (∃ c, Config.from_str webToml () (webText "0.0.0.0:81") = .ok c ∧
        fresh webDigest ⟨false, false⟩ c = some i) ∧
      s.inForce webDigest ⟨false, false⟩ = some (some i) := by
  have r : ∃ l i old tr, (supervisor webToml webDigest ⟨false, false⟩ (webText "0.0.0.0:80")).Run tr
      ⟨old, [], .recv, some ⟨.running i, .empty, l⟩⟩ ∧
      lastValid webToml (webText "0.0.0.0:80") tr = webText "0.0.0.0:81" := by
    refine ⟨_, _, _, _, .step (a := .apply) (.step (a := .forward) (.step (a := .route)
      (.step (a := .rescan () (webText "0.0.0.0:81")) (.step (a := .boot) (.step (a := .route)
        (.start ⟨(), _, rfl, rfl⟩) rfl) rfl) rfl) rfl) rfl) rfl, rfl⟩
  obtain ⟨l, i, old, tr, r, hlast⟩ := r
  have hinj : Set.InjOn (nameDigest webDigest) (serviceNames webToml (webText "0.0.0.0:80") tr) := by
    intro n hn m hm _
    obtain ⟨_, _, _, _, hc, hnc⟩ := hn
    obtain ⟨_, _, _, _, hc', hmc⟩ := hm
    exact (webNames hc hnc).trans (webNames hc' hmc).symm
  obtain ⟨c, hc, hf⟩ := (hot_reload_eq_restart webToml_seedBlind r hinj).1 ⟨rfl, rfl, rfl⟩ _ i rfl rfl ()
  rw [hlast] at hc
  exact ⟨tr, _, i.effective, r, hlast, ⟨c, hc, hf⟩, rfl⟩

end Penetrate
