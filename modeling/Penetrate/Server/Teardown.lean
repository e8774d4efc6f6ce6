/-
  File:      Penetrate/Server/Teardown.lean
  Subject:   A DROPPED HANDLE TAKES ITS SERVICE DOWN.

  Nobody tells the tasks of a service to stop: the broadcast channel closes with the handle, the
  queue of data channels with its sender, `data_ch_req` with the pool and the listener. Each task
  waits at several points, some of them outside any `select!`: the listener sleeps after an
  `accept` that failed, the UDP pool reads the rest of a packet whose first byte has come.

  * `tasks` -- the service with these two; `run_service` -- its runs are runs of the service;
  * `TaskAct.unaided` -- what a task does with no visitor, no new data channel and nothing from the
    client: a write that returns, the end of a packet, a queue, a closed channel;
  * `Tasks.work` -- what is left to do, `work_step` -- **each such step leaves less**;
  * `Tasks.proceeds` -- **and one of them is enabled as long as a task has not ended**.
-/
import Penetrate.Server.Service

namespace Penetrate.Server

open Concurrent Machine

/-! ## 1. The tasks, with every point where they wait -/

/-- A service, and where two of its tasks are in the middle of a branch. -/
structure Tasks where
  service : Service
  /-- the listener sleeps, `accept` has failed -/
  sleeping : Bool
  /-- the UDP pool has the first byte of a packet -/
  reading : Bool

inductive TaskAct where
  | service (a : ServiceAct)
  | acceptError
  | wake
  | firstByte
  /-- the data channel is lost before a first byte -/
  | lost
  deriving DecidableEq, Repr

/-- The rest of a packet has been read, or has not. -/
def ServiceAct.isRead : ServiceAct → Bool
  | .pool (.relay (.read _)) => true
  | _ => false

/-- A task in the middle of a branch does nothing else; the rest of a packet follows its first
    byte. -/
def Tasks.blocks (s : Tasks) : ServiceAct → Bool
  | .listener _ => s.sleeping
  | .pool a => s.reading != (ServiceAct.pool a).isRead
  | _ => false

def Tasks.step (s : Tasks) : TaskAct → Option Tasks
  | .service a =>
      if s.blocks a then none
      else (s.service.step a).map fun t => ⟨t, s.sleeping, s.reading && !a.isRead⟩
  | .acceptError => match s.service.pool with
    | .tcp .select _ _ => if s.sleeping then none else some { s with sleeping := true }
    | _ => none
  | .wake => if s.sleeping then some { s with sleeping := false } else none
  | .firstByte => match s.service.pool with
    | .udp (.relaying .select) => if s.reading then none else some { s with reading := true }
    | _ => none
  | .lost =>
      if s.reading then none
      else (s.service.step (.pool (.relay (.read none)))).map fun t => ⟨t, s.sleeping, s.reading⟩

/-- **The tasks of one service**, against every client and all visitors. -/
def tasks (service_type : ServiceType) (heartbeat_interval : UInt64) : Machine Tasks TaskAct where
  start s := s = ⟨.new service_type heartbeat_interval, false, false⟩
  step := Tasks.step

/-- **What one step of the tasks can do.** -/
inductive TasksStep (s : Tasks) : TaskAct → Tasks → Prop where
  | service (a : ServiceAct) (t : Service) (hb : s.blocks a = false) (h : ServiceStep s.service a t) :
      TasksStep s (.service a) ⟨t, s.sleeping, s.reading && !a.isRead⟩
  | acceptError (visitors : Mpsc Nat CHAN_SIZE) (p : TcpPool)
      (hp : s.service.pool = .tcp .select visitors p) :
      TasksStep s .acceptError { s with sleeping := true }
  | wake (hs : s.sleeping = true) : TasksStep s .wake { s with sleeping := false }
  | firstByte (hp : s.service.pool = .udp (.relaying .select)) (hr : s.reading = false) :
      TasksStep s .firstByte { s with reading := true }
  | lost (t : Service) (hr : s.reading = false)
      (h : ServiceStep s.service (.pool (.relay (.read none))) t) :
      TasksStep s .lost ⟨t, s.sleeping, s.reading⟩

theorem tasks_cases {s s' : Tasks} {a : TaskAct} (h : s.step a = some s') : TasksStep s a s' := by
  cases a with
  | service a =>
      unfold Tasks.step at h
      dsimp only at h
      split at h
      · cases h
      · rename_i hb
        obtain ⟨t, ht, rfl⟩ := Option.map_eq_some_iff.mp h
        exact .service a t (by simpa using hb) (service_cases ht)
  | acceptError =>
      unfold Tasks.step at h
      dsimp only at h
      split at h
      · rename_i visitors p hp
        split at h
        · cases h
        · cases h
          exact .acceptError visitors p hp
      · cases h
  | wake =>
      unfold Tasks.step at h
      dsimp only at h
      split at h
      · rename_i hs
        cases h
        exact .wake hs
      · cases h
  | firstByte =>
      unfold Tasks.step at h
      dsimp only at h
      split at h
      · rename_i hp
        split at h
        · cases h
        · rename_i hr
          cases h
          exact .firstByte hp (by simpa using hr)
      · cases h
  | lost =>
      unfold Tasks.step at h
      dsimp only at h
      split at h
      · cases h
      · rename_i hr
        obtain ⟨t, ht, rfl⟩ := Option.map_eq_some_iff.mp h
        exact .lost t (by simpa using hr) (service_cases ht)

/-- The step of the service in a step of the tasks. -/
def TaskAct.inner : TaskAct → Option ServiceAct
  | .service a => some a
  | .lost => some (.pool (.relay (.read none)))
  | _ => none

/-- **A run of the tasks is a run of the service**: what waits longer does nothing else. -/
theorem run_service {service_type : ServiceType} {heartbeat_interval : UInt64}
    {tr : List (Tasks × TaskAct)} {s : Tasks} (r : (tasks service_type heartbeat_interval).Run tr s) :
    (service service_type heartbeat_interval).Run
      (project Tasks.service (fun _ a => a.inner) tr) s.service := by
  refine r.project (fun s h => ?_) (fun s a s' b h hb => ?_) fun s a s' h hn => ?_
  · rw [show s = _ from h]
    rfl
  · have h' : s.step a = some s' := h
    cases a with
    | service a =>
        cases hb
        unfold Tasks.step at h'
        dsimp only at h'
        split at h'
        · cases h'
        · obtain ⟨t, ht, rfl⟩ := Option.map_eq_some_iff.mp h'
          exact ht
    | lost =>
        cases hb
        unfold Tasks.step at h'
        dsimp only at h'
        split at h'
        · cases h'
        · obtain ⟨t, ht, rfl⟩ := Option.map_eq_some_iff.mp h'
          exact ht
    | acceptError => cases hb
    | wake => cases hb
    | firstByte => cases hb
  · cases tasks_cases h with
    | service _ _ _ _ => cases hn
    | lost _ _ _ => cases hn
    | acceptError _ _ _ | wake _ | firstByte _ _ => rfl

/-! ## 2. Where the longer waits are -/

/-- The listener sleeps and the pool reads only in their loops; the loop of the UDP pool is left
    with its task. -/
structure TasksInv (s : Tasks) : Prop where
  sleeping : s.sleeping = true → ∃ visitors p, s.service.pool = .tcp .select visitors p
  reading : s.reading = true → s.service.pool = .udp (.relaying .select)
  relaying : ∀ why, s.service.pool ≠ .udp (.relaying (.ended why))

theorem TasksInv.tcp {s : Tasks} (hI : TasksInv s) {l : Listener} {visitors : Mpsc Nat CHAN_SIZE}
    {p : TcpPool} (hp : s.service.pool = .tcp l visitors p) :
    s.reading = false ∧ (s.sleeping = true → l = .select) := by
  constructor
  · by_contra hr
    have hu := hI.reading (by simpa using hr)
    rw [hp] at hu
    cases hu
  · intro hs
    obtain ⟨_, _, hl⟩ := hI.sleeping hs
    rw [hp] at hl
    cases hl
    rfl

theorem TasksInv.udp {s : Tasks} (hI : TasksInv s) {p : UdpPool} (hp : s.service.pool = .udp p) :
    s.sleeping = false ∧ (s.reading = true → p = .relaying .select) ∧
      ∀ why, p ≠ .relaying (.ended why) := by
  refine ⟨?_, fun hr => ?_, fun why e => ?_⟩
  · by_contra hs
    obtain ⟨_, _, hl⟩ := hI.sleeping (by simpa using hs)
    rw [hp] at hl
    cases hl
  · have hu := hI.reading hr
    rw [hp] at hu
    cases hu
    rfl
  · exact hI.relaying why (hp.trans (congrArg PoolTask.udp e))

theorem TasksInv.of_tcp {s : Tasks} {l : Listener} {visitors : Mpsc Nat CHAN_SIZE} {p : TcpPool}
    (hp : s.service.pool = .tcp l visitors p) (hr : s.reading = false)
    (hs : s.sleeping = true → l = .select) : TasksInv s where
  sleeping e := ⟨visitors, p, by rw [hp, hs e]⟩
  reading e := by
    rw [e] at hr
    cases hr
  relaying why e := by
    rw [hp] at e
    cases e

theorem TasksInv.of_udp {s : Tasks} {p : UdpPool} (hp : s.service.pool = .udp p)
    (hs : s.sleeping = false) (hr : s.reading = true → p = .relaying .select)
    (hn : ∀ why, p ≠ .relaying (.ended why)) : TasksInv s where
  sleeping e := by
    rw [e] at hs
    cases hs
  reading e := by rw [hp, hr e]
  relaying why e := by
    rw [hp] at e
    cases e
    exact hn why rfl

/-- A step that leaves the pool where it is. -/
theorem TasksInv.same {s : Tasks} (hI : TasksInv s) {t : Service} (hp : t.pool = s.service.pool)
    (b : Bool) : TasksInv ⟨t, s.sleeping, s.reading && b⟩ where
  sleeping e := by
    obtain ⟨visitors, p, hs⟩ := hI.sleeping e
    exact ⟨visitors, p, hp.trans hs⟩
  reading e := hp.trans (hI.reading (Bool.and_eq_true_iff.mp e).1)
  relaying why e := hI.relaying why (hp.symm.trans e)

theorem ListenerStep.pool {s t : Service} {l : Listener} {visitors : Mpsc Nat CHAN_SIZE} {p : TcpPool}
    {a : ListenerAct} (h : ListenerStep s l visitors p a t) :
    ∃ l' visitors', t.pool = .tcp l' visitors' p := by
  cases h <;> exact ⟨_, _, rfl⟩

theorem TcpPoolStep.pool {s t : Service} {l : Listener} {visitors : Mpsc Nat CHAN_SIZE} {p : TcpPool}
    {a : PoolAct} (h : TcpPoolStep s l visitors p a t) :
    ∃ visitors' p', t.pool = .tcp l visitors' p' := by
  cases h <;> exact ⟨_, _, rfl⟩

/-- The UDP pool does not stay in a loop that has been left. -/
theorem UdpPoolStep.pool {s t : Service} {p : UdpPool} {a : PoolAct} (h : UdpPoolStep s p a t) :
    ∃ p', t.pool = .udp p' ∧ ∀ why, p' ≠ .relaying (.ended why) := by
  cases h with
  | relay e q q' _ _ _ hn =>
      refine ⟨_, rfl, fun why e => ?_⟩
      cases e
      exact hn why rfl
  | written _ _ => exact ⟨_, rfl, fun why e => by cases e⟩
  | bound _ | shutdown _ _ | recvDataChannel _ _ _ _ | dataChannelsClosed _ _ _ | writeError _ _
  | relayEnds _ _ _ _ _ _ => exact ⟨_, rfl, fun why e => by cases e⟩

theorem tasksInv_service {s : Tasks} {t : Service} {a : ServiceAct} (hI : TasksInv s)
    (hb : s.blocks a = false) (h : ServiceStep s.service a t) :
    TasksInv ⟨t, s.sleeping, s.reading && !a.isRead⟩ := by
  have hread {b : PoolAct} (hb : s.blocks (.pool b) = false) :
      (s.reading && !(ServiceAct.pool b).isRead) = false := by
    have hx : (s.reading != (ServiceAct.pool b).isRead) = false := hb
    cases hs : s.reading <;> cases hi : (ServiceAct.pool b).isRead <;> simp [hs, hi] at hx ⊢
  cases h with
  | control h => exact hI.same (by cases h <;> rfl) _
  | client h => exact hI.same (by cases h <;> rfl) _
  | drop _ => exact hI.same (t := { s.service with handle := false }) rfl _
  | listener hp h =>
      obtain ⟨l', visitors', ht⟩ := h.pool
      have hs : s.sleeping = false := hb
      refine .of_tcp ht ?_ fun e => ?_
      · rw [(hI.tcp hp).1]
        rfl
      · rw [show s.sleeping = true from e] at hs
        cases hs
  | tcpPool hp h =>
      obtain ⟨visitors', p', ht⟩ := h.pool
      exact .of_tcp ht (hread hb) (hI.tcp hp).2
  | udpPool hp h =>
      obtain ⟨p', ht, hn⟩ := h.pool
      refine .of_udp ht (hI.udp hp).1 (fun e => ?_) hn
      exact absurd ((hread hb).symm.trans e) Bool.false_ne_true

theorem tasksInv_step {s s' : Tasks} {a : TaskAct} (hI : TasksInv s) (h : TasksStep s a s') :
    TasksInv s' := by
  cases h with
  | service a t hb h => exact tasksInv_service hI hb h
  | acceptError visitors p hp => exact .of_tcp hp (hI.tcp hp).1 fun _ => rfl
  | wake _ => exact ⟨fun e => (by cases e), hI.reading, hI.relaying⟩
  | firstByte hp _ => exact .of_udp hp (hI.udp hp).1 (fun _ => rfl) (hI.udp hp).2.2
  | lost t hr h =>
      cases h with
      | tcpPool hp h => cases h
      | udpPool hp h =>
          obtain ⟨p', ht, hn⟩ := h.pool
          refine .of_udp ht (hI.udp hp).1 (fun e => ?_) hn
          rw [show s.reading = true from e] at hr
          cases hr

theorem tasksInv {service_type : ServiceType} {heartbeat_interval : UInt64}
    {tr : List (Tasks × TaskAct)} {s : Tasks} (r : (tasks service_type heartbeat_interval).Run tr s) :
    TasksInv s := by
  have hstep (s : Tasks) (a : TaskAct) (s' : Tasks) (hI : TasksInv s) (h : s.step a = some s') :
      TasksInv s' := tasksInv_step hI (tasks_cases h)
  refine r.invariant (fun s h => ?_) hstep
  rw [show s = _ from h]
  cases service_type with
  | tcp => exact ⟨fun e => (by cases e), fun e => (by cases e), fun why e => (by cases e)⟩
  | udp => exact ⟨fun e => (by cases e), fun e => (by cases e), fun why e => (by cases e)⟩

/-! ## 3. What is left to do -/

/-- What the tasks do with no visitor, no new data channel, nothing from the client and no timer of
    the heartbeat: a write that returns, the rest of a packet, a queue, a channel that has closed. -/
def TaskAct.unaided : TaskAct → Bool
  | .service (.control .heartbeat) => false
  | .service (.control _) => true
  | .service (.listener .enqueue) => true
  | .service (.listener .shutdown) => true
  | .service (.pool .bound) => false
  | .service (.pool (.relay (.recvFrom _))) => false
  | .service (.pool _) => true
  | .wake => true
  | _ => false

def Control.work : Control → Nat
  | .ended => 0
  | .select => 1
  | .writing _ => 2

def Listener.work : Listener → Nat
  | .ended => 0
  | .binding => 1
  | .select => 1
  | .announcing _ => 3

def TcpPool.work : TcpPool → Nat
  | .ended => 0
  | .recvVisitor => 1
  | .recvDataChannel _ => 1
  | .writing _ _ => 4

def PoolPhase.work : PoolPhase → Nat
  | .ended _ => 0
  | .select => 1
  | .writing _ => 2
  | .sending _ => 2

def UdpPool.work : UdpPool → Nat
  | .ended => 0
  | .binding => 1
  | .recvDataChannel => 1
  | .writing _ => 4
  | .relaying p => p.work

def PoolTask.work : PoolTask → Nat
  | .tcp l visitors p => l.work + visitors.items.length + p.work
  | .udp p => p.work

/-- A request costs a command, a data channel of the queue a write. -/
def Service.work (s : Service) : Nat :=
  2 * s.data_ch_req + s.control.work + 4 * s.data_ch.items.length + s.pool.work

/-- **What is left to do**, at most. -/
def Tasks.work (s : Tasks) : Nat :=
  s.service.work + (if s.sleeping then 1 else 0) + (if s.reading then 2 else 0)

/-- The control channel alone. -/
def Service.drain (s : Service) : Nat := 2 * s.data_ch_req + s.control.work

section Work

variable {s t : Service}

theorem control_work {a : ControlAct} (h : ControlStep s a t) (hb : a ≠ .heartbeat) :
    t.work < s.work ∧ t.drain < s.drain := by
  unfold Service.work Service.drain
  cases h with
  | heartbeat _ _ => exact absurd rfl hb
  | request hc hr =>
      simp only [hc, Control.work]
      omega
  | requestsClosed hc _ _ | shutdown hc _ | written _ hc | writeError _ hc =>
      simp only [hc, Control.work]
      omega

theorem listener_work {l : Listener} {visitors : Mpsc Nat CHAN_SIZE} {p : TcpPool} {a : ListenerAct}
    (h : ListenerStep s l visitors p a t) (hp : s.pool = .tcp l visitors p)
    (ha : a = .enqueue ∨ a = .shutdown) : t.work < s.work := by
  unfold Service.work
  cases h with
  | bound _ | acceptClosed _ _ | accept _ _ => simp at ha
  | enqueueClosed v hl _ =>
      simp only [hp, hl, PoolTask.work, Listener.work]
      omega
  | enqueue v q hl _ hq =>
      simp only [hp, hl, PoolTask.work, Listener.work, (Mpsc.send_eq_some hq).1, List.length_append,
        List.length_singleton]
      omega
  | shutdown hl _ =>
      rcases hl with hl | hl <;> simp only [hp, hl, PoolTask.work, Listener.work] <;> omega

theorem tcpPool_work {l : Listener} {visitors : Mpsc Nat CHAN_SIZE} {p : TcpPool} {a : PoolAct}
    (h : TcpPoolStep s l visitors p a t) (hp : s.pool = .tcp l visitors p) : t.work < s.work := by
  unfold Service.work
  cases h with
  | recvVisitor v q hq hr =>
      simp only [hp, hq, PoolTask.work, TcpPool.work, Mpsc.recv_eq_some hr, List.length_cons]
      omega
  | recvDataChannel v ch q hq hr =>
      simp only [hp, hq, PoolTask.work, TcpPool.work, Mpsc.recv_eq_some hr, List.length_cons]
      omega
  | visitorsClosed hq _ _ | dataChannelsClosed _ hq _ _ | written _ _ hq | brokenClosed _ _ hq _
  | broken _ _ hq _ =>
      simp only [hp, hq, PoolTask.work, TcpPool.work]
      omega

/-- A packet that has been read is one more datagram to send. -/
theorem relay_work {q q' : PoolPhase} {e : PoolEvent} (h : runUdpConnectionPool q e = some q')
    (he : ∀ r, e ≠ .recvFrom r) :
    q'.work < q.work + if (ServiceAct.pool (.relay e)).isRead then 2 else 0 := by
  unfold runUdpConnectionPool at h
  split at h <;> cases h <;> simp_all [PoolPhase.work, ServiceAct.isRead]

theorem udpPool_work {p : UdpPool} {a : PoolAct} (h : UdpPoolStep s p a t) (hp : s.pool = .udp p)
    (hb : a ≠ .bound) (he : ∀ r, a ≠ .relay (.recvFrom r)) :
    t.work < s.work + if (ServiceAct.pool a).isRead then 2 else 0 := by
  unfold Service.work
  cases h with
  | bound _ => exact absurd rfl hb
  | recvDataChannel ch q hq hr =>
      simp only [hp, hq, PoolTask.work, UdpPool.work, Mpsc.recv_eq_some hr, List.length_cons]
      omega
  | shutdown hq _ | dataChannelsClosed hq _ _ | written _ hq | writeError _ hq =>
      simp only [hp, hq, PoolTask.work, UdpPool.work, PoolPhase.work]
      omega
  | relay e q q' hq _ hr _ =>
      have hlt := relay_work hr fun r hr => he r (congrArg PoolAct.relay hr)
      simp only [hp, hq, PoolTask.work, UdpPool.work]
      omega
  | relayEnds e q why hq _ hr =>
      have hlt := Nat.lt_of_le_of_lt (Nat.zero_le _)
        (relay_work hr fun r hr => he r (congrArg PoolAct.relay hr))
      simp only [hp, hq, PoolTask.work, UdpPool.work]
      omega

end Work

/-- **Every step a task takes unaided leaves less to do.** -/
theorem work_step {s s' : Tasks} {a : TaskAct} (h : TasksStep s a s') (ha : a.unaided = true) :
    s'.work < s.work := by
  unfold Tasks.work
  cases h with
  | acceptError _ _ _ | firstByte _ _ | lost _ _ _ => cases ha
  | wake hs =>
      simp only [hs, if_true, Bool.false_eq_true, if_false]
      omega
  | service a t hb h =>
      cases h with
      | client _ | drop _ => cases ha
      | @control b _ h =>
          have hlt := (control_work h (by rintro rfl; cases ha)).1
          simp only [ServiceAct.isRead, Bool.not_false, Bool.and_true]
          omega
      | @listener b _ l visitors p hp h =>
          have hb : b = .enqueue ∨ b = .shutdown := by
            cases b with
            | bound | accept => cases ha
            | enqueue => exact Or.inl rfl
            | shutdown => exact Or.inr rfl
          have hlt := listener_work h hp hb
          simp only [ServiceAct.isRead, Bool.not_false, Bool.and_true]
          omega
      | @tcpPool b _ l visitors p hp h =>
          have hlt := tcpPool_work h hp
          have hr : (if (s.reading && !(ServiceAct.pool b).isRead) = true then 2 else 0) ≤
              if s.reading = true then 2 else 0 := by
            cases s.reading <;> cases (ServiceAct.pool b).isRead <;> simp
          dsimp only
          omega
      | @udpPool b _ p hp h =>
          have hlt := udpPool_work h hp (by rintro rfl; cases ha) (by rintro r rfl; cases ha)
          -- the pool reads exactly where the step is the end of a packet
          have hr : s.reading = (ServiceAct.pool b).isRead := by
            have hx : (s.reading != (ServiceAct.pool b).isRead) = false := hb
            simpa using hx
          rw [hr]
          cases hi : (ServiceAct.pool b).isRead <;> simp [hi] at hlt ⊢ <;> omega

/-! ## 4. Nothing is stuck -/

/-- Every task has ended. -/
def Tasks.Ended (s : Tasks) : Prop :=
  s.service.control = .ended ∧ match s.service.pool with
    | .tcp l _ p => l = .ended ∧ p = .ended
    | .udp p => p = .ended

/-- Some task has a step it takes unaided. -/
def Tasks.Proceeds (s : Tasks) : Prop := ∃ a t, a.unaided = true ∧ s.step a = some t

theorem Tasks.Proceeds.of_service {s : Tasks} {a : ServiceAct} (ha : (TaskAct.service a).unaided = true)
    (hb : s.blocks a = false) (h : s.service.step a ≠ none) : s.Proceeds := by
  obtain ⟨t, ht⟩ := Option.ne_none_iff_exists'.mp h
  refine ⟨.service a, ⟨t, s.sleeping, s.reading && !a.isRead⟩, ha, ?_⟩
  unfold Tasks.step
  simp [hb, ht]

/-- The control channel leaves its `select!` with the handle, and its writes return. -/
theorem control_proceeds {s : Tasks} (hh : s.service.handle = false) (hc : s.service.control ≠ .ended) :
    s.Proceeds := by
  cases hs : s.service.control with
  | ended => exact absurd hs hc
  | select =>
      refine .of_service (a := .control .shutdown) rfl rfl ?_
      simp [Service.step, ControlChannel.run, hs, hh]
  | writing cmd =>
      refine .of_service (a := .control (.written true)) rfl rfl ?_
      simp [Service.step, ControlChannel.run, hs]

/-- The TCP pool waits for a visitor alone, and for the listener. -/
theorem tcpPool_proceeds {s : Tasks} (hI : TasksInv s) (hh : s.service.handle = false) {l : Listener}
    {visitors : Mpsc Nat CHAN_SIZE} {p : TcpPool} (hp : s.service.pool = .tcp l visitors p)
    (he : p ≠ .ended) (hv : p = .recvVisitor → visitors.recv ≠ none ∨ l = .ended) : s.Proceeds := by
  have hblock (a : PoolAct) (ha : (ServiceAct.pool a).isRead = false) : s.blocks (.pool a) = false := by
    simp [Tasks.blocks, ha, (hI.tcp hp).1]
  cases p with
  | ended => exact absurd rfl he
  | recvVisitor =>
      refine .of_service (a := .pool .recvVisitor) rfl (hblock _ rfl) ?_
      cases hq : visitors.recv with
      | some x => simp [Service.step, runPool, hp, run_tcp_connection_pool, hq]
      | none =>
          have hl : l = .ended := (hv rfl).resolve_left fun h => h hq
          simp [Service.step, runPool, hp, run_tcp_connection_pool, hq, hl]
  | recvDataChannel v =>
      refine .of_service (a := .pool .recvDataChannel) rfl (hblock _ rfl) ?_
      cases hq : s.service.data_ch.recv with
      | some x => simp [Service.step, runPool, hp, run_tcp_connection_pool, hq]
      | none => simp [Service.step, runPool, hp, run_tcp_connection_pool, hq, hh]
  | writing v ch =>
      refine .of_service (a := .pool (.written true)) rfl (hblock _ rfl) ?_
      simp [Service.step, runPool, hp, run_tcp_connection_pool]

/-- The listener waits for a place in the queue of visitors, which the pool makes. -/
theorem tcp_proceeds {s : Tasks} (hI : TasksInv s) (hh : s.service.handle = false) {l : Listener}
    {visitors : Mpsc Nat CHAN_SIZE} {p : TcpPool} (hp : s.service.pool = .tcp l visitors p)
    (he : l ≠ .ended ∨ p ≠ .ended) : s.Proceeds := by
  cases hs : s.sleeping with
  | true =>
      refine ⟨.wake, { s with sleeping := false }, rfl, ?_⟩
      unfold Tasks.step
      simp [hs]
  | false =>
      cases l with
      | ended => exact tcpPool_proceeds hI hh hp (he.resolve_left fun h => h rfl) fun _ => Or.inr rfl
      | binding =>
          refine .of_service (a := .listener .shutdown) rfl hs ?_
          simp [Service.step, tcp_listen_and_send, hp, hh]
      | select =>
          refine .of_service (a := .listener .shutdown) rfl hs ?_
          simp [Service.step, tcp_listen_and_send, hp, hh]
      | announcing v =>
          by_cases hpe : p = .ended
          · refine .of_service (a := .listener .enqueue) rfl hs ?_
            simp [Service.step, tcp_listen_and_send, hp, hpe]
          · cases hq : visitors.send v with
            | some q =>
                refine .of_service (a := .listener .enqueue) rfl hs ?_
                simp [Service.step, tcp_listen_and_send, hp, hpe, hq]
            | none =>
                -- the queue is full: the pool has a visitor to take
                refine tcpPool_proceeds hI hh hp hpe fun _ => Or.inl fun hr => ?_
                have hfull := Mpsc.full_iff.mp (Mpsc.send_eq_none.mp hq)
                rw [Mpsc.recv_eq_none.mp hr] at hfull
                cases hfull

/-- The UDP pool leaves its `select!` with the handle, and ends its packet. -/
theorem udp_proceeds {s : Tasks} (hI : TasksInv s) (hh : s.service.handle = false) {p : UdpPool}
    (hp : s.service.pool = .udp p) (he : p ≠ .ended) : s.Proceeds := by
  have hrun (a : PoolAct) (ha : (TaskAct.service (.pool a)).unaided = true)
      (hb : s.reading = (ServiceAct.pool a).isRead)
      (hx : run_udp_connection_pool s.service p a ≠ none) : s.Proceeds := by
    refine .of_service ha (by simp [Tasks.blocks, hb]) ?_
    simpa [Service.step, runPool, hp] using hx
  obtain ⟨_, hread, hn⟩ := hI.udp hp
  cases hr : s.reading with
  | true =>
      obtain rfl := hread hr
      exact hrun (.relay (.read none)) rfl hr
        (by simp [run_udp_connection_pool, runUdpConnectionPool])
  | false =>
      cases p with
      | ended => exact absurd rfl he
      | binding => exact hrun .shutdown rfl hr (by simp [run_udp_connection_pool, hh])
      | recvDataChannel =>
          refine hrun .recvDataChannel rfl hr ?_
          cases hq : s.service.data_ch.recv <;> simp [run_udp_connection_pool, hq, hh]
      | writing ch => exact hrun (.written true) rfl hr (by simp [run_udp_connection_pool])
      | relaying q =>
          cases q with
          | ended why => exact absurd rfl (hn why)
          | select =>
              exact hrun (.relay .shutdown) rfl hr
                (by simp [run_udp_connection_pool, runUdpConnectionPool, hh])
          | writing u =>
              exact hrun (.relay (.written true)) rfl hr
                (by simp [run_udp_connection_pool, runUdpConnectionPool])
          | sending u =>
              exact hrun (.relay (.sentTo true)) rfl hr
                (by simp [run_udp_connection_pool, runUdpConnectionPool])

/-- **With the handle dropped, a task that has not ended goes on, or another one does.** -/
theorem Tasks.proceeds {s : Tasks} (hI : TasksInv s) (hh : s.service.handle = false) :
    s.Ended ∨ s.Proceeds := by
  by_cases hc : s.service.control = .ended
  · cases hp : s.service.pool with
    | tcp l visitors p =>
        by_cases he : l = .ended ∧ p = .ended
        · exact Or.inl ⟨hc, by rw [hp]; exact he⟩
        · exact Or.inr (tcp_proceeds hI hh hp (not_and_or.mp he))
    | udp p =>
        by_cases he : p = .ended
        · exact Or.inl ⟨hc, by rw [hp]; exact he⟩
        · exact Or.inr (udp_proceeds hI hh hp he)
  · exact Or.inr (control_proceeds hh hc)

/-! ## 5. The teardown -/

/-- A handle that has been dropped stays dropped. -/
theorem handle_dropped {s t : Service} {a : ServiceAct} (h : ServiceStep s a t)
    (hh : s.handle = false) : t.handle = false := by
  cases h with
  | control h => cases h <;> exact hh
  | listener _ h => cases h <;> exact hh
  | tcpPool _ h => cases h <;> exact hh
  | udpPool _ h => cases h <;> exact hh
  | client h => cases h <;> exact hh
  | drop _ => rfl

theorem tasks_handle_dropped {s s' : Tasks} {a : TaskAct} (h : TasksStep s a s')
    (hh : s.service.handle = false) : s'.service.handle = false := by
  cases h with
  | service _ _ _ h | lost _ _ h => exact handle_dropped h hh
  | acceptError _ _ _ | wake _ | firstByte _ _ => exact hh

/-- What the control channel does with the requests it has, its handle put aside. -/
def TaskAct.drains : TaskAct → Bool
  | .service (.control .request) => true
  | .service (.control .requestsClosed) => true
  | .service (.control (.written _)) => true
  | _ => false

/-- Where nobody is left to send a request, the control channel works off those it has. -/
theorem drain_step {s s' : Tasks} {a : TaskAct} (hp : s.service.pool.requestsClosed = true)
    (h : TasksStep s a s') (ha : a.drains = true) :
    s'.service.pool.requestsClosed = true ∧ s'.service.drain < s.service.drain := by
  cases h with
  | acceptError _ _ _ | wake _ | firstByte _ _ | lost _ _ _ => cases ha
  | service b t hb h =>
      cases h with
      | control h =>
          refine ⟨?_, (control_work h (by rintro rfl; cases ha)).2⟩
          cases h <;> exact hp
      | listener _ _ | tcpPool _ _ | udpPool _ _ | client _ | drop _ => cases ha

theorem drain_proceeds {s : Tasks} (hp : s.service.pool.requestsClosed = true) :
    s.service.control = .ended ∨ ∃ a t, a.drains = true ∧ s.step a = some t := by
  have hstep (a : ControlAct) (ha : (TaskAct.service (.control a)).drains = true)
      (h : ControlChannel.run s.service a ≠ none) : ∃ a t, a.drains = true ∧ s.step a = some t := by
    obtain ⟨t, ht⟩ := Option.ne_none_iff_exists'.mp h
    refine ⟨.service (.control a), ⟨t, s.sleeping, s.reading && !(ServiceAct.control a).isRead⟩, ha, ?_⟩
    unfold Tasks.step
    simp [Tasks.blocks, Service.step, ht]
  cases hc : s.service.control with
  | ended => exact Or.inl rfl
  | writing cmd => exact Or.inr (hstep (.written true) rfl (by simp [ControlChannel.run, hc]))
  | select =>
      by_cases hr : 0 < s.service.data_ch_req
      · exact Or.inr (hstep .request rfl (by simp [ControlChannel.run, hc, hr]))
      · have h0 : s.service.data_ch_req = 0 := by omega
        exact Or.inr (hstep .requestsClosed rfl (by simp [ControlChannel.run, hc, h0, hp]))

variable {service_type : ServiceType} {heartbeat_interval : UInt64}

/-- **A dropped handle takes its service down.** In every reachable state with the handle dropped,
    some task goes on unaided until all have ended, and whatever the order of such steps, they come
    to an end. Where the pool and the listener have ended, so does the control channel, by the
    requests it has and nothing else. -/
theorem service_torn_down {tr : List (Tasks × TaskAct)} {s : Tasks}
    (r : (tasks service_type heartbeat_interval).Run tr s) :
    (s.service.handle = false → (s.Ended ∨ s.Proceeds) ∧
      (tasks service_type heartbeat_interval).Completes (fun a => a.unaided = true) Tasks.Ended s) ∧
    (s.service.pool.requestsClosed = true →
      (tasks service_type heartbeat_interval).Completes (fun a => a.drains = true)
        (fun s => s.service.control = .ended) s) := by
  have hI := tasksInv r
  refine ⟨fun hh => ⟨Tasks.proceeds hI hh, ?_⟩, fun hp => ?_⟩
  · refine .of_measure (I := fun s => TasksInv s ∧ s.service.handle = false) Tasks.work
      (fun s a s' hI ha h => ?_) (fun s hI => ?_) ⟨hI, hh⟩
    · have hs := tasks_cases h
      exact ⟨⟨tasksInv_step hI.1 hs, tasks_handle_dropped hs hI.2⟩, work_step hs ha⟩
    · exact Tasks.proceeds hI.1 hI.2
  · exact .of_measure (I := fun s => s.service.pool.requestsClosed = true)
      (fun s => s.service.drain) (fun s a s' hI ha h => drain_step hI (tasks_cases h) ha)
      (fun s hI => drain_proceeds hI) hp

/-- The handle of a service is dropped while its listener sleeps; the listener and the pool end, and
    leave the control channel with the requests of the pool. -/
theorem service_torn_down_sleeping : ∃ tr s, (tasks .tcp 30).Run tr s ∧ ¬ s.Ended ∧ s.Proceeds ∧
    (tasks .tcp 30).Completes (fun a => a.unaided = true) Tasks.Ended s ∧
    (tasks .tcp 30).Completes (fun a => a.drains = true) (fun s => s.service.control = .ended) s := by
  have r0 : (tasks .tcp 30).Run [] ⟨.new .tcp 30, false, false⟩ := .start rfl
  have h : ((tasks .tcp 30).exec ⟨.new .tcp 30, false, false⟩
      [.service (.listener .bound), .acceptError, .service .drop, .wake,
        .service (.listener .shutdown), .service (.pool .recvVisitor)]).map
        (fun s => (s.service.handle, s.service.pool.requestsClosed, s.service.control)) =
      some (false, true, .select) := rfl
  obtain ⟨s, hs, he⟩ := Option.map_eq_some_iff.mp h
  obtain ⟨hh, hp, hc⟩ : s.service.handle = false ∧ s.service.pool.requestsClosed = true ∧
      s.service.control = .select := by simpa only [Prod.mk.injEq] using he
  have r := run_trace r0 hs
  have hne : ¬ s.Ended := by
    rintro ⟨e, _⟩
    rw [hc] at e
    cases e
  have ht := (service_torn_down r).1 hh
  exact ⟨_, s, r, hne, ht.1.resolve_left hne, ht.2, (service_torn_down r).2 hp⟩

end Penetrate.Server
