/-
  File:      Penetrate/Client/ControlChannel.lean
  Subject:   THE CONTROL CHANNELS OF A CLIENT: `Client::run`, the handles it keeps and the tasks of
             `ControlChannelHandle::new`.

  A task calls `ControlChannel::run` until it returns `Ok`. The oneshot signal of the handle is
  looked at in the `select!` of `run` and once after an error; the sleep before the next `run` and
  the awaits of the handshake do not look at it.

  * `ControlTask.step` -- one task: every await of `run` ends well or with an error;
  * `Services.step` -- the client: it starts a task per service, replaces or removes handles on a
    hot reload, and drains them at the shutdown;
  * `HandleInv` -- the signal of a task says whether its handle is still there;
  * `TaskStep.goes_on`, `ControlTask.advance` -- a dropped task only goes on, and up to the `Auth` it
    can; what comes of that at the server is in Replacement.lean.
-/
import Penetrate.ConfigWatcher
import Penetrate.Concurrent.Machine

namespace Penetrate.Client

open Collections Concurrent Machine

/-! ## 1. One task -/

/-- The awaits of `ControlChannel::run`, in their order. -/
inductive RunPhase where
  | resolve
  | connect
  | sendHello
  | readHello
  | sendAuth
  | readAck
  | select
  deriving DecidableEq, Repr

inductive TaskPhase where
  /-- spawned and not polled yet -/
  | spawned
  | running (r : RunPhase)
  /-- `run` has returned an error; `try_recv` comes next -/
  | failed
  /-- in the backoff sleep -/
  | sleeping
  | ended
  deriving DecidableEq, Repr

/-- The oneshot channel between the handle and the task. -/
inductive Signal where
  | held
  | dropped
  | sent
  deriving DecidableEq, Repr

/-- The task of a `ControlChannelHandle`, with what it has done so far. -/
structure ControlTask where
  service : ClientServiceConfig
  signal : Signal
  phase : TaskPhase
  /-- calls of `ControlChannel::run` -/
  runs : Nat
  /-- connections opened to the server -/
  connections : Nat
  /-- messages of the handshake sent: `Hello`s and `Auth`s -/
  messages : Nat

inductive TaskAct where
  | begin
  /-- the await of `run` ends; in `select!`, the read of a command -/
  | proceed (ok : Bool)
  | timedOut
  | shutdown
  | check
  | wake
  deriving DecidableEq, Repr

def ControlTask.new (service : ClientServiceConfig) : ControlTask where
  service := service
  signal := .held
  phase := .spawned
  runs := 0
  connections := 0
  messages := 0

/-- The task goes into `ControlChannel::run`. -/
def ControlTask.beginRun (t : ControlTask) : ControlTask :=
  { t with phase := .running .resolve, runs := t.runs + 1 }

def ControlTask.step (heartbeat_timeout : UInt64) (t : ControlTask) (a : TaskAct) :
    Option ControlTask :=
  match a, t.phase with
  | .begin, .spawned => some t.beginRun
  | .proceed false, .running _ => some { t with phase := .failed }
  | .proceed true, .running .resolve => some { t with phase := .running .connect }
  | .proceed true, .running .connect =>
      some { t with phase := .running .sendHello, connections := t.connections + 1 }
  | .proceed true, .running .sendHello =>
      some { t with phase := .running .readHello, messages := t.messages + 1 }
  | .proceed true, .running .readHello => some { t with phase := .running .sendAuth }
  | .proceed true, .running .sendAuth =>
      some { t with phase := .running .readAck, messages := t.messages + 1 }
  | .proceed true, .running .readAck => some { t with phase := .running .select }
  | .proceed true, .running .select => some t
  | .timedOut, .running .select =>
      if heartbeat_timeout ≠ 0 then some { t with phase := .failed } else none
  | .shutdown, .running .select =>
      if t.signal = .held then none else some { t with phase := .ended }
  | .check, .failed =>
      if t.signal = .held then some { t with phase := .sleeping } else some { t with phase := .ended }
  -- the sleep ends whatever the signal says
  | .wake, .sleeping => some t.beginRun
  | _, _ => none

/-! ## 2. The client -/

/-- Where `Client::run` is. -/
inductive ClientPhase where
  | loop
  | draining
  | ended
  deriving DecidableEq, Repr

/-- `service_handles` holds a handle as the number of its task. -/
structure Services where
  phase : ClientPhase
  service_handles : HashMap String Nat
  tasks : List ControlTask

inductive ServicesAct where
  | task (i : Nat) (a : TaskAct)
  | hotReload (change : ClientServiceChange)
  | shutdown
  /-- `handle.shutdown()` on the next handle drained -/
  | drain (name : String)
  | finish

def ControlTask.signalled (signal : Signal) (t : ControlTask) : ControlTask :=
  { t with signal := signal }

/-- The handle of `name` goes, and signals its task. -/
def Services.release (s : Services) (name : String) (signal : Signal) : Services :=
  match s.service_handles.lookup name with
  | none => s
  | some i =>
      { s with
        service_handles := s.service_handles.erase name
        tasks := s.tasks.modify i (ControlTask.signalled signal) }

/-- `ControlChannelHandle::new` and `service_handles.insert`; the handle displaced is dropped. -/
def Services.insertHandle (s : Services) (name : String) (cfg : ClientServiceConfig) : Services :=
  let s := s.release name .dropped
  { s with
    service_handles := s.service_handles.insert name s.tasks.length
    tasks := s.tasks ++ [.new cfg] }

/-- `Client::run` panics: the client is dropped, with all its handles. -/
def Services.dropAll (s : Services) : Services where
  phase := .ended
  service_handles := ∅
  tasks := s.tasks.map (ControlTask.signalled .dropped)

/-- `Client::run` up to its loop: a handle for each service. -/
def Services.initial (config : ClientConfig) : Services :=
  config.services.entries.foldl (fun s e => s.insertHandle e.1 e.2) ⟨.loop, ∅, []⟩

def Services.step (heartbeat_timeout : UInt64) (s : Services) (a : ServicesAct) :
    Option Services :=
  match a, s.phase with
  | .task i a, _ =>
      match s.tasks[i]? with
      | none => none
      | some t => (t.step heartbeat_timeout a).map fun t' => { s with tasks := s.tasks.set i t' }
  | .hotReload (.add cfg), .loop =>
      -- the unwrap in `ControlChannelHandle::new`
      if cfg.retry_interval.isNone then some s.dropAll else some (s.insertHandle cfg.name cfg)
  | .hotReload (.delete name), .loop => some (s.release name .dropped)
  | .shutdown, .loop => some { s with phase := .draining }
  | .drain name, .draining =>
      if (s.service_handles.lookup name).isSome then some (s.release name .sent) else none
  | .finish, .draining => if s.service_handles = ∅ then some { s with phase := .ended } else none
  | _, _ => none

/-- **The control channels of a client**, against every server and every order of its events. -/
def controlChannels (config : ClientConfig) : Machine Services ServicesAct where
  start s := s = .initial config
  step := Services.step config.heartbeat_timeout

/-- The client still has the handle of task `i`. -/
def Services.Owned (s : Services) (i : Nat) : Prop := ∃ name, s.service_handles.lookup name = some i

/-- **The invariant of the handles.** -/
structure HandleInv (s : Services) : Prop where
  bound : ∀ name i, s.service_handles.lookup name = some i → i < s.tasks.length
  once : ∀ name name' i, s.service_handles.lookup name = some i →
    s.service_handles.lookup name' = some i → name = name'
  held : ∀ i t, s.tasks[i]? = some t → (t.signal = .held ↔ s.Owned i)

theorem not_owned_of_empty {s : Services} (h : s.service_handles = ∅) (i : Nat) : ¬ s.Owned i := by
  intro ho
  obtain ⟨name, hn⟩ := ho
  rw [h] at hn
  cases (AList.lookup_empty name).symm.trans hn

theorem HandleInv.release {s : Services} (hI : HandleInv s) (name : String) {signal : Signal}
    (hs : signal ≠ .held) : HandleInv (s.release name signal) := by
  unfold Services.release
  split
  · exact hI
  · rename_i i hi
    have hlook (n : String) (j : Nat) : (s.service_handles.erase name).lookup n = some j ↔
        n ≠ name ∧ s.service_handles.lookup n = some j := HashMap.lookup_erase_eq_some
    refine ⟨fun n j h => ?_, fun n n' j h h' => ?_, fun j t h => ?_⟩
    · rw [List.length_modify]
      exact hI.bound n j ((hlook n j).mp h).2
    · exact hI.once n n' j ((hlook n j).mp h).2 ((hlook n' j).mp h').2
    · have howned : Services.Owned { s with
          service_handles := s.service_handles.erase name
          tasks := s.tasks.modify i (ControlTask.signalled signal) } j ↔ s.Owned j ∧ j ≠ i := by
        constructor
        · rintro ⟨n, hn⟩
          obtain ⟨hne, hn'⟩ := (hlook n j).mp hn
          refine ⟨⟨n, hn'⟩, ?_⟩
          rintro rfl
          exact hne (hI.once _ _ _ hn' hi)
        · rintro ⟨⟨n, hn⟩, hne⟩
          refine ⟨n, (hlook n j).mpr ⟨?_, hn⟩⟩
          rintro rfl
          exact hne (Option.some.inj (hn.symm.trans hi))
      rw [howned]
      rw [List.getElem?_modify] at h
      obtain ⟨t0, ht0, rfl⟩ := Option.map_eq_some_iff.mp h
      by_cases e : i = j
      · subst e
        simp [ControlTask.signalled, hs]
      · rw [if_neg e]
        simp only [ne_eq, Ne.symm e, not_false_eq_true, and_true]
        exact hI.held j t0 ht0

theorem HandleInv.insertHandle {s : Services} (hI : HandleInv s) (name : String)
    (cfg : ClientServiceConfig) : HandleInv (s.insertHandle name cfg) := by
  have hR : HandleInv (s.release name .dropped) := hI.release name (by decide)
  have hfree : (s.release name .dropped).service_handles.lookup name = none := by
    unfold Services.release
    split
    · assumption
    · exact AList.lookup_erase name s.service_handles
  unfold Services.insertHandle
  generalize s.release name .dropped = s at hR hfree ⊢
  have hlook (n : String) (j : Nat) :
      (s.service_handles.insert name s.tasks.length).lookup n = some j ↔
        (n = name ∧ j = s.tasks.length) ∨ s.service_handles.lookup n = some j := by
    rw [HashMap.lookup_insert_eq_some]
    refine or_congr_right ⟨fun h => h.2, fun h => ⟨fun e => ?_, h⟩⟩
    rw [e, hfree] at h
    cases h
  refine ⟨fun n j h => ?_, fun n n' j h h' => ?_, fun j t h => ?_⟩
  · rw [List.length_append, List.length_singleton]
    rcases (hlook n j).mp h with ⟨_, rfl⟩ | h
    · omega
    · have := hR.bound n j h
      omega
  · rcases (hlook n j).mp h with ⟨hn, hj⟩ | h <;>
      rcases (hlook n' j).mp h' with ⟨hn', hj'⟩ | h'
    · rw [hn, hn']
    · have := hR.bound _ _ h'
      omega
    · have := hR.bound _ _ h
      omega
    · exact hR.once n n' j h h'
  · have howned : Services.Owned { s with
        service_handles := s.service_handles.insert name s.tasks.length
        tasks := s.tasks ++ [.new cfg] } j ↔ j = s.tasks.length ∨ s.Owned j := by
      constructor
      · rintro ⟨n, hn⟩
        rcases (hlook n j).mp hn with ⟨_, he⟩ | hn
        · exact Or.inl he
        · exact Or.inr ⟨n, hn⟩
      · rintro (he | ⟨n, hn⟩)
        · exact ⟨name, (hlook name j).mpr (Or.inl ⟨rfl, he⟩)⟩
        · exact ⟨n, (hlook n j).mpr (Or.inr hn)⟩
    rw [howned]
    by_cases hj : j < s.tasks.length
    · rw [List.getElem?_append_left hj] at h
      have hne : j ≠ s.tasks.length := Nat.ne_of_lt hj
      simp only [hne, false_or]
      exact hR.held j t h
    · rw [List.getElem?_append_right (by omega), List.getElem?_singleton] at h
      split at h
      · cases h
        exact iff_of_true rfl (Or.inl (by omega))
      · cases h

theorem HandleInv.dropAll {s : Services} : HandleInv s.dropAll := by
  refine ⟨fun n j h => ?_, fun n n' j h => ?_, fun j t h => ?_⟩
  · cases (AList.lookup_empty n).symm.trans h
  · cases (AList.lookup_empty n).symm.trans h
  · have h' : (s.tasks.map (ControlTask.signalled .dropped))[j]? = some t := h
    rw [List.getElem?_map] at h'
    obtain ⟨t0, _, rfl⟩ := Option.map_eq_some_iff.mp h'
    exact iff_of_false (by simp [ControlTask.signalled]) (not_owned_of_empty rfl j)

theorem handleInv_initial (config : ClientConfig) : HandleInv (.initial config) := by
  have hfold : ∀ (entries : List (Sigma fun _ : String => ClientServiceConfig)) (s : Services),
      HandleInv s → HandleInv (entries.foldl (fun s e => s.insertHandle e.1 e.2) s) := by
    intro entries
    induction entries with
    | nil => exact fun s hI => hI
    | cons e entries ih => exact fun s hI => ih _ (hI.insertHandle e.1 e.2)
  refine hfold _ _ ⟨fun n i h => ?_, fun n n' i h => ?_, fun i t h => ?_⟩
  · cases (AList.lookup_empty n).symm.trans h
  · cases (AList.lookup_empty n).symm.trans h
  · cases h

/-! ## 3. The rules -/

inductive TaskStep (heartbeat_timeout : UInt64) (t : ControlTask) : TaskAct → ControlTask → Prop where
  | begin (hp : t.phase = .spawned) : TaskStep heartbeat_timeout t .begin t.beginRun
  | fails (r : RunPhase) (hp : t.phase = .running r) :
      TaskStep heartbeat_timeout t (.proceed false) { t with phase := .failed }
  | resolved (hp : t.phase = .running .resolve) :
      TaskStep heartbeat_timeout t (.proceed true) { t with phase := .running .connect }
  | connected (hp : t.phase = .running .connect) :
      TaskStep heartbeat_timeout t (.proceed true)
        { t with phase := .running .sendHello, connections := t.connections + 1 }
  | helloSent (hp : t.phase = .running .sendHello) :
      TaskStep heartbeat_timeout t (.proceed true)
        { t with phase := .running .readHello, messages := t.messages + 1 }
  | helloRead (hp : t.phase = .running .readHello) :
      TaskStep heartbeat_timeout t (.proceed true) { t with phase := .running .sendAuth }
  | authSent (hp : t.phase = .running .sendAuth) :
      TaskStep heartbeat_timeout t (.proceed true)
        { t with phase := .running .readAck, messages := t.messages + 1 }
  | established (hp : t.phase = .running .readAck) :
      TaskStep heartbeat_timeout t (.proceed true) { t with phase := .running .select }
  | command (hp : t.phase = .running .select) : TaskStep heartbeat_timeout t (.proceed true) t
  | timedOut (hp : t.phase = .running .select) (hh : heartbeat_timeout ≠ 0) :
      TaskStep heartbeat_timeout t .timedOut { t with phase := .failed }
  | shutdown (hp : t.phase = .running .select) (hs : t.signal ≠ .held) :
      TaskStep heartbeat_timeout t .shutdown { t with phase := .ended }
  | retry (hp : t.phase = .failed) (hs : t.signal = .held) :
      TaskStep heartbeat_timeout t .check { t with phase := .sleeping }
  | signalled (hp : t.phase = .failed) (hs : t.signal ≠ .held) :
      TaskStep heartbeat_timeout t .check { t with phase := .ended }
  | wake (hp : t.phase = .sleeping) : TaskStep heartbeat_timeout t .wake t.beginRun

theorem task_cases {heartbeat_timeout : UInt64} {t t' : ControlTask} {a : TaskAct}
    (h : t.step heartbeat_timeout a = some t') : TaskStep heartbeat_timeout t a t' := by
  unfold ControlTask.step at h
  split at h
  · rename_i hp
    cases h
    exact .begin hp
  · rename_i r hp
    cases h
    exact .fails r hp
  · rename_i hp
    cases h
    exact .resolved hp
  · rename_i hp
    cases h
    exact .connected hp
  · rename_i hp
    cases h
    exact .helloSent hp
  · rename_i hp
    cases h
    exact .helloRead hp
  · rename_i hp
    cases h
    exact .authSent hp
  · rename_i hp
    cases h
    exact .established hp
  · rename_i hp
    cases h
    exact .command hp
  · rename_i hp
    split at h
    · rename_i hh
      cases h
      exact .timedOut hp hh
    · cases h
  · rename_i hp
    split at h
    · cases h
    · rename_i hs
      cases h
      exact .shutdown hp hs
  · rename_i hp
    split at h
    · rename_i hs
      cases h
      exact .retry hp hs
    · rename_i hs
      cases h
      exact .signalled hp hs
  · rename_i hp
    cases h
    exact .wake hp
  · cases h

/-- No step of a task touches its signal. -/
theorem TaskStep.signal_eq {heartbeat_timeout : UInt64} {t t' : ControlTask} {a : TaskAct}
    (h : TaskStep heartbeat_timeout t a t') : t'.signal = t.signal := by
  cases h <;> rfl

/-- **What one step of the client can do.** -/
inductive ServicesStep (heartbeat_timeout : UInt64) (s : Services) :
    ServicesAct → Services → Prop where
  | task (i : Nat) (a : TaskAct) (t t' : ControlTask) (ht : s.tasks[i]? = some t)
      (h : TaskStep heartbeat_timeout t a t') :
      ServicesStep heartbeat_timeout s (.task i a) { s with tasks := s.tasks.set i t' }
  | add (cfg : ClientServiceConfig) :
      ServicesStep heartbeat_timeout s (.hotReload (.add cfg)) (s.insertHandle cfg.name cfg)
  | addPanics (cfg : ClientServiceConfig) :
      ServicesStep heartbeat_timeout s (.hotReload (.add cfg)) s.dropAll
  | delete (name : String) :
      ServicesStep heartbeat_timeout s (.hotReload (.delete name)) (s.release name .dropped)
  | drain (name : String) :
      ServicesStep heartbeat_timeout s (.drain name) (s.release name .sent)
  | moves (a : ServicesAct) (p : ClientPhase) : ServicesStep heartbeat_timeout s a { s with phase := p }

theorem services_cases {heartbeat_timeout : UInt64} {s s' : Services} {a : ServicesAct}
    (h : s.step heartbeat_timeout a = some s') : ServicesStep heartbeat_timeout s a s' := by
  unfold Services.step at h
  split at h
  · rename_i i a
    split at h
    · cases h
    · rename_i t ht
      obtain ⟨t', h', rfl⟩ := Option.map_eq_some_iff.mp h
      exact .task i a t t' ht (task_cases h')
  · rename_i cfg _
    split at h
    · cases h
      exact .addPanics cfg
    · cases h
      exact .add cfg
  · cases h
    exact .delete _
  · cases h
    exact .moves _ _
  · split at h
    · cases h
      exact .drain _
    · cases h
  · split at h
    · cases h
      exact .moves _ _
    · cases h
  · cases h

theorem handleInv_step {heartbeat_timeout : UInt64} {s s' : Services} {a : ServicesAct}
    (hI : HandleInv s) (h : ServicesStep heartbeat_timeout s a s') : HandleInv s' := by
  cases h with
  | task i a t t' ht h =>
      refine ⟨fun n j hj => ?_, hI.once, fun j t1 hj => ?_⟩
      · rw [List.length_set]
        exact hI.bound n j hj
      · rw [List.getElem?_set] at hj
        split at hj
        · rename_i e
          subst e
          split at hj
          · cases hj
            rw [h.signal_eq]
            exact hI.held _ t ht
          · cases hj
        · exact hI.held j t1 hj
  | add cfg => exact hI.insertHandle _ cfg
  | addPanics cfg => exact .dropAll
  | delete name => exact hI.release name (by decide)
  | drain name => exact hI.release name (by decide)
  | moves a p => exact ⟨hI.bound, hI.once, hI.held⟩

theorem handleInv_reachable {config : ClientConfig} {s : Services}
    (h : (controlChannels config).Reachable s) : HandleInv s := by
  obtain ⟨tr, r⟩ := h
  exact r.invariant (M := controlChannels config) (I := HandleInv)
    (fun _ h => h ▸ handleInv_initial config)
    fun s a s' hI h => handleInv_step hI (services_cases h)

/-! ## 4. A dropped task goes on -/

/-- What the claim of a service on the server is made of. -/
inductive Deed where
  /-- `ControlChannel::run` is called -/
  | run
  /-- a connection to the server is opened -/
  | connection
  /-- a message of the handshake is sent -/
  | message
  deriving DecidableEq, Repr

def ControlTask.deeds (t : ControlTask) : Deed → Nat
  | .run => t.runs
  | .connection => t.connections
  | .message => t.messages

/-- How far a task is that will not sleep again. -/
def TaskPhase.rank : TaskPhase → Nat
  | .spawned => 0
  | .sleeping => 0
  | .running .resolve => 1
  | .running .connect => 2
  | .running .sendHello => 3
  | .running .readHello => 4
  | .running .sendAuth => 5
  | .running .readAck => 6
  | .running .select => 7
  | .failed => 8
  | .ended => 9

/-- Where such a task does the last of these. -/
def Deed.last : Deed → Nat
  | .run => 0
  | .connection => 2
  | .message => 5

/-- A dropped task only goes on: it takes no step back, and does nothing it is past. -/
theorem TaskStep.goes_on {heartbeat_timeout : UInt64} {t t' : ControlTask} {a : TaskAct}
    (h : TaskStep heartbeat_timeout t a t') (hs : t.signal ≠ .held) :
    t.phase.rank ≤ t'.phase.rank ∧ ∀ d : Deed, d.last < t.phase.rank → t'.deeds d = t.deeds d := by
  cases h with
  | retry hp hs' => exact absurd hs' hs
  | fails r hp =>
      rw [hp]
      exact ⟨by cases r <;> simp [TaskPhase.rank], fun d _ => by cases d <;> rfl⟩
  | command hp => exact ⟨Nat.le_refl _, fun d _ => rfl⟩
  | begin hp | resolved hp | connected hp | helloSent hp | helloRead hp | authSent hp
  | established hp | timedOut hp _ | shutdown hp _ | signalled hp _ | wake hp =>
      rw [hp]
      refine ⟨by simp [TaskPhase.rank, ControlTask.beginRun], fun d hd => ?_⟩
      cases d <;>
        simp_all [TaskPhase.rank, Deed.last, ControlTask.deeds]

/-- Up to the `Auth`, a task can go on whatever its signal says. -/
theorem ControlTask.advance (heartbeat_timeout : UInt64) {t : ControlTask}
    (h : t.phase.rank ≤ 5) :
    ∃ a t', t.step heartbeat_timeout a = some t' ∧ t'.phase.rank = t.phase.rank + 1 ∧
      ∀ d : Deed, t.deeds d ≤ t'.deeds d ∧ (d.last = t.phase.rank → t.deeds d < t'.deeds d) := by
  cases hp : t.phase with
  | spawned =>
      refine ⟨.begin, t.beginRun, by simp only [step, hp], rfl, fun d => ?_⟩
      cases d <;> simp [deeds, beginRun, Deed.last, TaskPhase.rank]
  | sleeping =>
      refine ⟨.wake, t.beginRun, by simp only [step, hp], rfl, fun d => ?_⟩
      cases d <;> simp [deeds, beginRun, Deed.last, TaskPhase.rank]
  | failed => simp [hp, TaskPhase.rank] at h
  | ended => simp [hp, TaskPhase.rank] at h
  | running r =>
      rw [hp] at h
      cases r with
      | readAck => simp [TaskPhase.rank] at h
      | select => simp [TaskPhase.rank] at h
      | resolve | connect | sendHello | readHello | sendAuth =>
          refine ⟨.proceed true, _, by simp only [step, hp]; rfl, rfl, fun d => ?_⟩
          cases d <;> simp [deeds, Deed.last, TaskPhase.rank]

/-- What task `i` has done so far. -/
def Services.deeds (s : Services) (i : Nat) (d : Deed) : Nat :=
  match s.tasks[i]? with
  | none => 0
  | some t => t.deeds d

theorem deeds_eq {s : Services} {i : Nat} {t : ControlTask} (h : s.tasks[i]? = some t) (d : Deed) :
    s.deeds i d = t.deeds d := by
  unfold Services.deeds
  rw [h]

/-- To task `i` a step is one of its own, or touches at most its signal. -/
theorem ServicesStep.at {heartbeat_timeout : UInt64} {s s' : Services} {a : ServicesAct} {i : Nat}
    {t : ControlTask} (h : ServicesStep heartbeat_timeout s a s') (ht : s.tasks[i]? = some t) :
    (∃ b t', TaskStep heartbeat_timeout t b t' ∧ s'.tasks[i]? = some t' ∧
      s'.service_handles = s.service_handles) ∨
    ∃ signal, s'.tasks[i]? = some (t.signalled signal) ∧ (signal = t.signal ∨ signal ≠ .held) := by
  have hrelease : ∀ name signal, signal ≠ .held → ∃ signal',
      (s.release name signal).tasks[i]? = some (t.signalled signal') ∧
        (signal' = t.signal ∨ signal' ≠ .held) := by
    intro name signal hs
    unfold Services.release
    split
    · exact ⟨t.signal, ht, Or.inl rfl⟩
    · rename_i j _
      by_cases e : j = i
      · exact ⟨signal, by simp [ht, e], Or.inr hs⟩
      · exact ⟨t.signal, by simp [ht, e]; rfl, Or.inl rfl⟩
  cases h with
  | task j b t0 t' ht0 h =>
      by_cases e : j = i
      · subst e
        cases ht0.symm.trans ht
        have hlt := (List.getElem?_eq_some_iff.mp ht).1
        exact Or.inl ⟨b, t', h, by simp [hlt], rfl⟩
      · exact Or.inr ⟨t.signal, by simp [e, ht]; rfl, Or.inl rfl⟩
  | add cfg =>
      obtain ⟨signal, hs, hor⟩ := hrelease cfg.name .dropped (by decide)
      have hlt := (List.getElem?_eq_some_iff.mp hs).1
      refine Or.inr ⟨signal, ?_, hor⟩
      show ((s.release cfg.name .dropped).tasks ++ [ControlTask.new cfg])[i]? = _
      rw [List.getElem?_append_left hlt]
      exact hs
  | addPanics cfg =>
      refine Or.inr ⟨.dropped, ?_, Or.inr (by decide)⟩
      show (s.tasks.map (ControlTask.signalled .dropped))[i]? = _
      rw [List.getElem?_map, ht]
      rfl
  | delete name => exact Or.inr (hrelease name .dropped (by decide))
  | drain name => exact Or.inr (hrelease name .sent (by decide))
  | moves a p => exact Or.inr ⟨t.signal, ht, Or.inl rfl⟩

/-- Task `i` has lost its handle and is past the last of its deeds `d`, of which it did `n`. -/
def Services.Past (s : Services) (i : Nat) (d : Deed) (n : Nat) : Prop :=
  ∃ t, s.tasks[i]? = some t ∧ t.signal ≠ .held ∧ d.last < t.phase.rank ∧ t.deeds d = n

theorem past_step {heartbeat_timeout : UInt64} {s s' : Services} {a : ServicesAct} {i : Nat}
    {d : Deed} {n : Nat} (hP : s.Past i d n) (h : ServicesStep heartbeat_timeout s a s') :
    s'.Past i d n := by
  obtain ⟨t, ht, hs, hr, hn⟩ := hP
  rcases h.at ht with ⟨b, t', hb, ht', _⟩ | ⟨signal, ht', hor⟩
  · obtain ⟨hrank, hdeeds⟩ := hb.goes_on hs
    exact ⟨t', ht', by rw [hb.signal_eq]; exact hs, Nat.lt_of_lt_of_le hr hrank,
      (hdeeds d hr).trans hn⟩
  · refine ⟨_, ht', ?_, hr, hn⟩
    rcases hor with rfl | hne
    · exact hs
    · exact hne

/-- Where task `i` is. -/
def Services.PhaseOf (s : Services) (i : Nat) (p : TaskPhase) : Prop :=
  ∃ t, s.tasks[i]? = some t ∧ t.phase = p

/-- The task has sent the `Auth` of its run, or `try_recv` comes before anything else. -/
def TaskPhase.Harmless : TaskPhase → Prop
  | .running .readAck => True
  | .running .select => True
  | .failed => True
  | .ended => True
  | _ => False

theorem harmless_iff {p : TaskPhase} : p.Harmless ↔ 5 < p.rank := by
  cases p with
  | running r => cases r <;> simp [TaskPhase.Harmless, TaskPhase.rank]
  | _ => simp [TaskPhase.Harmless, TaskPhase.rank]

/-- The step that takes a task's handle away leaves the task where it is. -/
theorem dropped_at {config : ClientConfig} {s s' : Services} {a : ServicesAct} {i : Nat}
    (hs : (controlChannels config).Reachable s) (h : (controlChannels config).step s a = some s')
    (ho : s.Owned i) (hd : ¬ s'.Owned i) : ∃ t signal, s.tasks[i]? = some t ∧
      s'.tasks[i]? = some (t.signalled signal) ∧ signal ≠ .held := by
  have hI := handleInv_reachable hs
  have hI' := handleInv_reachable (hs.leads (.of_step h))
  obtain ⟨name, hn⟩ := ho
  have hlt := hI.bound name i hn
  have ht := List.getElem?_eq_getElem hlt
  rcases (services_cases h).at ht with ⟨b, t', _, _, heq⟩ | ⟨signal, ht', _⟩
  · exact absurd ⟨name, heq ▸ hn⟩ hd
  · exact ⟨_, signal, ht, ht', fun he => hd ((hI'.held i _ ht').mp he)⟩

end Penetrate.Client
