/-
  File:      Penetrate/Server/TableLock.lean
  Subject:   WHO IS STUCK WITH A GUARD OF THE TABLE.

  Two tasks wait for something other than the lock while they hold a guard of the table: a control
  channel handshake that writes its acknowledgement, and a data channel handshake that sends into
  the queue of a handle. The queue is emptied by the pool, which takes one data channel for a
  visitor (TCP), or a single one (UDP).

  * `LockInv` -- what every task holds of the lock, by where it is;
  * `Service.Accepts` -- the queue takes one more data channel, now or as soon as the pool has done
    what it has to do; `accepts_own`, `accepts_send` -- what becomes of that;
  * `AllProceed`, `KeepsMoving` -- nobody is stuck; the condition on a step;
  * `ConnTo`, `Step.connTo` -- what a step makes of a connection;
  * `AllProceed.step`, `keepsMoving_of` -- **a step leaves nobody stuck precisely when it meets the
    condition.**
-/
import Penetrate.Server.Table

namespace Penetrate.Server

open Concurrent Machine

section

variable {digest : Bytes → Digest} {heartbeat_interval : UInt64}

/-! ## 1. The lock -/

/-- What the main task has to do with the lock of the table. -/
def Main.holds : Main → RwLock Task → Prop
  | .addTable _, l => l.Asked .main [] .write
  | .delTable _, l => l.Asked .main [] .write
  | _, l => l.Idle .main []

/-- What connection task `n` has to do with it. -/
def ConnPhase.holds (n : Nat) : ConnPhase → RwLock Task → Prop
  | .awaitTable _ _ _, l => l.Asked (.conn n) [] .write
  | .acking _ _ _, l => l.Idle (.conn n) [.write]
  | .awaitFind _, l => l.Asked (.conn n) [] .read
  | .sending _, l => l.Idle (.conn n) [.read]
  | _, l => l.Idle (.conn n) []

/-- A connection that is not there yet holds what an ended one does. -/
def State.phaseOf (s : State) (n : Nat) : ConnPhase :=
  match s.conns[n]? with
  | some c => c.phase
  | none => .ended

structure LockInv (s : State) : Prop where
  main : s.main.holds s.channelsLock
  conn : ∀ n, (s.phaseOf n).holds n s.channelsLock

theorem Main.holds_mono {m : Main} {l l' : RwLock Task} (h : m.holds l)
    (hu : l.Undisturbed l' .main) : m.holds l' := by
  cases m <;> first | exact hu.1 _ h | exact hu.2 _ _ h

theorem ConnPhase.holds_mono {p : ConnPhase} {n : Nat} {l l' : RwLock Task} (h : p.holds n l)
    (hu : l.Undisturbed l' (.conn n)) : p.holds n l' := by
  cases p <;> first | exact hu.1 _ h | exact hu.2 _ _ h

theorem lockInv_initial (config : ServerConfig) : LockInv (initial digest config) where
  main := RwLock.idle_free _
  conn _ := RwLock.idle_free _

/-- A step of connection task `n` alone. -/
theorem LockInv.conn_step {s s' : State} (hI : LockInv s) {n : Nat} {c c' : Conn}
    (hc : s.conns[n]? = some c) (hm : s'.main = s.main) (hs : s'.conns = s.conns.set n c')
    (hu : ∀ t, t ≠ .conn n → s.channelsLock.Undisturbed s'.channelsLock t)
    (hp : c'.phase.holds n s'.channelsLock) : LockInv s' where
  main := by
    rw [hm]
    exact Main.holds_mono hI.main (hu _ (by simp))
  conn m := by
    have hn := (List.getElem?_eq_some_iff.mp hc).1
    by_cases e : n = m
    · subst e
      have hph : s'.phaseOf n = c'.phase := by
        unfold State.phaseOf
        rw [hs, List.getElem?_set_self hn]
      rw [hph]
      exact hp
    · have hph : s'.phaseOf m = s.phaseOf m := by
        unfold State.phaseOf
        rw [hs, List.getElem?_set_ne e]
      rw [hph]
      exact ConnPhase.holds_mono (hI.conn m) (hu _ (by simpa using Ne.symm e))

/-- Connection task `n` returns from a state `t` in which it has no guard left. -/
theorem LockInv.endConn {s t : State} (hI : LockInv s) {n : Nat} {c c' : Conn}
    (hc : s.conns[n]? = some c) (hm : t.main = s.main) (hs : t.conns = s.conns)
    (hu : ∀ u, u ≠ .conn n → s.channelsLock.Undisturbed t.channelsLock u)
    (hp : t.channelsLock.Idle (.conn n) []) : LockInv (t.endConn n c') := by
  have hs' : (t.endConn n c').conns = s.conns.set n { c' with phase := .ended } := by
    rw [endConn_conns, hs]
  refine hI.conn_step hc ((endConn_main ..).trans hm) hs' ?_ ?_
  · rw [endConn_channelsLock]
    exact hu
  · rw [endConn_channelsLock]
    exact hp

/-- A step of the main task alone. -/
theorem LockInv.main_step {s s' : State} (hI : LockInv s) (hp : ∀ n, s'.phaseOf n = s.phaseOf n ∨
      s.phaseOf n = .ended ∧ s'.phaseOf n = .readHello)
    (hu : ∀ t, t ≠ .main → s.channelsLock.Undisturbed s'.channelsLock t)
    (hm : s'.main.holds s'.channelsLock) : LockInv s' where
  main := hm
  conn n := by
    have hn := ConnPhase.holds_mono (hI.conn n) (hu _ (by simp))
    rcases hp n with e | ⟨e, e'⟩
    · rw [e]
      exact hn
    · rw [e] at hn
      rw [e']
      exact hn

theorem phaseOf_eq {s : State} {n : Nat} {c : Conn} (hc : s.conns[n]? = some c) :
    s.phaseOf n = c.phase := by
  unfold State.phaseOf
  rw [hc]

theorem phaseOf_spawn (s : State) (room n : Nat) :
    ({ s with main := .select, conns := s.conns ++ [⟨.readHello, room⟩] } : State).phaseOf n =
        s.phaseOf n ∨
      s.phaseOf n = .ended ∧
        ({ s with main := .select, conns := s.conns ++ [⟨.readHello, room⟩] } : State).phaseOf n =
          .readHello := by
  unfold State.phaseOf
  rcases Nat.lt_trichotomy n s.conns.length with h | h | h
  · refine Or.inl ?_
    rw [show State.conns _ = _ from rfl, List.getElem?_append_left h]
  · subst h
    refine Or.inr ⟨?_, ?_⟩ <;> simp
  · refine Or.inl ?_
    rw [List.getElem?_eq_none (by simp; omega), List.getElem?_eq_none (by omega)]

theorem lockInv_main {s s' : State} {a : MainAct} (hI : LockInv s) (h : MainStep digest s a s') :
    LockInv s' := by
  have hm := hI.main
  have hsame (l : RwLock Task) : ∀ t, t ≠ .main → l.Undisturbed l t := fun t _ => .refl l t
  cases h with
  | accept h | handshakeFailed h | reloadAdd _ h | reloadDelete _ h =>
      rw [h] at hm
      exact hI.main_step (fun _ => Or.inl rfl) (hsame _) hm
  | spawn room h =>
      rw [h] at hm
      exact hI.main_step (phaseOf_spawn s room) (hsame _) hm
  | reloadIgnored _ _ => exact hI
  | addServices cfg h _ =>
      rw [h] at hm
      exact hI.main_step (fun _ => Or.inl rfl)
        (fun t ht => RwLock.undisturbed_request _ _ ht) (RwLock.Idle.request hm _)
  | delServices name h _ =>
      rw [h] at hm
      exact hI.main_step (fun _ => Or.inl rfl) (hsame _) hm
  | wantTable name h =>
      rw [h] at hm
      exact hI.main_step (fun _ => Or.inl rfl)
        (fun t ht => RwLock.undisturbed_request _ _ ht) (RwLock.Idle.request hm _)
  | addTable cfg h hw | delTable name h hw =>
      rw [h] at hm
      exact hI.main_step (fun _ => Or.inl rfl)
        (fun t ht => RwLock.undisturbed_release _ _ ht) (RwLock.Asked.granted hm hw).release
  | shutdown h =>
      rw [h] at hm
      refine hI.main_step (fun n => Or.inl ?_) ?_ ?_
      · unfold State.phaseOf
        rw [settle_conns]
      · rw [settle_channelsLock]
        exact hsame _
      · rw [settle_main, settle_channelsLock]
        exact hm

theorem lockInv_conn {s s' : State} {n : Nat} {c : Conn} {a : ConnAct} (hI : LockInv s)
    (hc : s.conns[n]? = some c) (h : ConnStep digest heartbeat_interval s n c a s') : LockInv s' := by
  have hp := hI.conn n
  rw [phaseOf_eq hc] at hp
  have hsame (l : RwLock Task) : ∀ t, t ≠ .conn n → l.Undisturbed l t := fun t _ => .refl l t
  cases h with
  | ends a c' hph =>
      refine hI.endConn hc rfl rfl (hsame _) ?_
      rcases hph with e | ⟨d, e⟩ | ⟨d, cfg, k, e⟩ | e <;> (rw [e] at hp; exact hp)
  | endsServices a c' hph _ =>
      refine LockInv.endConn hI hc rfl rfl (hsame _) ?_
      rcases hph with e | ⟨d, nonce, e⟩ <;> (rw [e] at hp; exact hp)
  | ackError d cfg k hph =>
      rw [hph] at hp
      exact LockInv.endConn hI hc rfl rfl (fun t ht => RwLock.undisturbed_release _ _ ht)
        (RwLock.Idle.release hp)
  | notFound nonce hph hw _ =>
      rw [hph] at hp
      exact LockInv.endConn hI hc rfl rfl (fun t ht => RwLock.undisturbed_release _ _ ht)
        (RwLock.Asked.granted hp hw).release
  | peerReads k => exact hI.conn_step hc rfl rfl (hsame _) hp
  | helloControl d hph =>
      rw [hph] at hp
      exact hI.conn_step hc rfl rfl (hsame _) hp
  | helloData nonce hph =>
      rw [hph] at hp
      exact hI.conn_step hc rfl rfl (fun t ht => RwLock.undisturbed_request _ _ ht)
        (RwLock.Idle.request hp _)
  | sendHello d nonce c' hph _ =>
      rw [hph] at hp
      exact hI.conn_step hc rfl rfl (hsame _) hp
  | lookupMissing d nonce hph _ _ =>
      rw [hph] at hp
      exact hI.conn_step hc rfl rfl (hsame _) hp
  | lookup d nonce cfg t hph _ _ _ =>
      rw [hph] at hp
      exact hI.conn_step hc rfl rfl (hsame _) hp
  | auth d cfg k hph =>
      rw [hph] at hp
      exact hI.conn_step hc rfl rfl (fun t ht => RwLock.undisturbed_request _ _ ht)
        (RwLock.Idle.request hp _)
  | authWrong d cfg k x hph _ =>
      rw [hph] at hp
      exact hI.conn_step hc rfl rfl (hsame _) hp
  | takeTable d cfg k hph hw =>
      rw [hph] at hp
      exact hI.conn_step hc rfl rfl (hsame _) (RwLock.Asked.granted hp hw)
  | ack d cfg k c' hph _ =>
      rw [hph] at hp
      exact LockInv.endConn hI hc (register_main ..) (register_conns ..)
        (fun t ht => RwLock.undisturbed_release _ _ ht) (RwLock.Idle.release hp)
  | findSent nonce h x state hph hw _ _ _ _ =>
      rw [hph] at hp
      exact LockInv.endConn hI hc rfl rfl (fun t ht => RwLock.undisturbed_release _ _ ht)
        (RwLock.Asked.granted hp hw).release
  | findWaits nonce h x hph hw _ _ _ _ =>
      rw [hph] at hp
      exact hI.conn_step hc rfl rfl (hsame _) (RwLock.Asked.granted hp hw)
  | send h x state hph _ _ =>
      rw [hph] at hp
      exact LockInv.endConn hI hc rfl rfl (fun t ht => RwLock.undisturbed_release _ _ ht)
        (RwLock.Idle.release hp)

theorem lockInv_step {s s' : State} {a : Action} (hI : LockInv s)
    (h : Step digest heartbeat_interval s a s') : LockInv s' := by
  cases h with
  | main h => exact lockInv_main hI h
  | conn c hc h => exact lockInv_conn hI hc h
  | service k a x state _ _ _ => exact ⟨hI.main, hI.conn⟩

/-! ## 2. The queue of a handle -/

/-- Without a further visitor the pool will take one more data channel, or end. -/
def PoolTask.takesMore : PoolTask → Bool
  | .tcp .ended _ _ => true
  | .tcp (.announcing _) _ _ => true
  | .tcp _ _ (.recvDataChannel _) => true
  | .tcp _ visitors _ => !visitors.items.isEmpty
  | .udp .binding => true
  | .udp .recvDataChannel => true
  | .udp _ => false

/-- The queue takes `k` more data channels: there is room for them, or the pool makes room. -/
def Service.Accepts (s : Service) (k : Nat) : Prop :=
  s.pool.ended = true ∨ s.pool.takesMore = true ∨ s.data_ch.items.length + k ≤ CHAN_SIZE * 2

theorem accepts_of_recv {s : Service} {ch : Nat} {q : Mpsc Nat (CHAN_SIZE * 2)}
    (hq : s.data_ch.recv = some (ch, q)) : q.items.length + 1 ≤ CHAN_SIZE * 2 := by
  have hb := s.data_ch.bound
  rw [Mpsc.recv_eq_some hq] at hb
  exact hb

theorem accepts_listener {s s' : Service} {l : Listener} {visitors : Mpsc Nat CHAN_SIZE} {p : TcpPool}
    {a : ListenerAct} {k : Nat} (hp : s.pool = .tcp l visitors p) (h : ListenerStep s l visitors p a s')
    (ha : s.Accepts k) : s'.Accepts k := by
  unfold Service.Accepts at ha ⊢
  rw [hp] at ha
  cases h with
  | bound hl =>
      subst hl
      cases p <;> exact ha
  | acceptClosed hl hc => exact Or.inr (Or.inl rfl)
  | accept hl hc => exact Or.inr (Or.inl rfl)
  | enqueueClosed v hl he =>
      subst he
      exact Or.inl rfl
  | enqueue v q hl hn hq =>
      refine Or.inr (Or.inl ?_)
      have hi := (Mpsc.send_eq_some hq).1
      cases p <;> simp [PoolTask.takesMore, hi]
  | shutdown hl hh => exact Or.inr (Or.inl rfl)

theorem accepts_tcpPool {s s' : Service} {l : Listener} {visitors : Mpsc Nat CHAN_SIZE} {p : TcpPool}
    {a : PoolAct} (hp : s.pool = .tcp l visitors p) (h : TcpPoolStep s l visitors p a s')
    (ha : s.Accepts 1) : s'.Accepts 1 := by
  unfold Service.Accepts at ha ⊢
  rw [hp] at ha
  cases h with
  | recvVisitor v q hr hq => exact Or.inr (Or.inl (by cases l <;> rfl))
  | visitorsClosed hr hq hl => exact Or.inl rfl
  | recvDataChannel v ch q hr hq => exact Or.inr (Or.inr (accepts_of_recv hq))
  | dataChannelsClosed v hr hq hh => exact Or.inl rfl
  | written v ch hr =>
      subst hr
      cases l <;> exact ha
  | brokenClosed v ch hr hc => exact Or.inl rfl
  | broken v ch hr hc => exact Or.inr (Or.inl (by cases l <;> rfl))

theorem accepts_udpPool {s s' : Service} {p : UdpPool} {a : PoolAct} (hp : s.pool = .udp p)
    (h : UdpPoolStep s p a s') (ha : s.Accepts 1) : s'.Accepts 1 := by
  unfold Service.Accepts at ha ⊢
  rw [hp] at ha
  cases h with
  | bound hr => exact Or.inr (Or.inl rfl)
  | shutdown hr hh => exact Or.inl rfl
  | recvDataChannel ch q hr hq => exact Or.inr (Or.inr (accepts_of_recv hq))
  | dataChannelsClosed hr hq hh => exact Or.inl rfl
  | written ch hr =>
      subst hr
      exact ha
  | writeError ch hr => exact Or.inl rfl
  | relay e q q' hr _ _ _ =>
      subst hr
      exact ha
  | relayEnds e q why hr _ _ => exact Or.inl rfl

/-- **No task of the service itself fills the queue.** -/
theorem accepts_own {s s' : Service} {a : ServiceAct} (h : ServiceStep s a s') (ho : a.own = true)
    (ha : s.Accepts 1) : s'.Accepts 1 := by
  cases h with
  | control h => cases h <;> exact ha
  | listener hp h => exact accepts_listener hp h ha
  | tcpPool hp h => exact accepts_tcpPool hp h ha
  | udpPool hp h => exact accepts_udpPool hp h ha
  | client _ => cases ho
  | drop _ => cases ho

/-- A data channel in the queue leaves room for one less. -/
theorem accepts_send {s s' : Service} {k : Nat} (h : s.sendDataChannel = some s') :
    s'.Accepts k ↔ s.Accepts (k + 1) := by
  unfold Service.Accepts
  rcases sendDataChannel_cases h with ⟨he, rfl⟩ | ⟨q, _, hq, rfl⟩
  · exact iff_of_true (Or.inl he) (Or.inl he)
  · have hl : q.items.length = s.data_ch.items.length + 1 := by
      rw [(Mpsc.send_eq_some hq).1, List.length_append, List.length_singleton]
    simp only [hl, Nat.add_assoc, Nat.add_comm 1 k]

/-- The task of connection `c` is not stuck with a guard of the table: its acknowledgement fits
    the send buffer, its data channel fits the queue. -/
def State.Moves (s : State) (c : Conn) : Prop :=
  match c.phase with
  | .acking _ _ _ => ACK_LEN ≤ c.room
  | .sending h => ∃ x, s.handles[h]? = some x ∧ x.state.Accepts 1
  | _ => True

def AllProceed (s : State) : Prop := ∀ (n : Nat) (c : Conn), s.conns[n]? = some c → s.Moves c

/-- **The condition on a step.** Who takes the write guard can acknowledge at once; who finds its
    handle finds a queue that accepts one more; and who sends while another task waits for the same
    queue leaves it a place. -/
def KeepsMoving (s : State) : Action → Prop
  | .conn n .takeTable => ∀ c d cfg k, s.conns[n]? = some c → c.phase = .awaitTable d cfg k →
      ACK_LEN ≤ c.room
  | .conn n .find => ∀ c nonce h x, s.conns[n]? = some c → c.phase = .awaitFind nonce →
      s.control_channels.get2 nonce = some h → s.handles[h]? = some x → x.state.Accepts 1
  | .conn n .send => ∀ c h x, s.conns[n]? = some c → c.phase = .sending h →
      s.handles[h]? = some x → (∃ m, m ≠ n ∧ s.phaseOf m = .sending h) → x.state.Accepts 2
  | _ => True

/-- The phases in which a task waits for something other than the lock, with a guard of it. -/
def ConnPhase.Blocking (p : ConnPhase) : Prop :=
  (∃ d cfg k, p = .acking d cfg k) ∨ ∃ h, p = .sending h

theorem moves_of_not_blocking (s : State) {c : Conn} (h : ¬ c.phase.Blocking) : s.Moves c := by
  unfold State.Moves
  split
  · rename_i d cfg k hp
    exact absurd (Or.inl ⟨d, cfg, k, hp⟩) h
  · rename_i k hp
    exact absurd (Or.inr ⟨k, hp⟩) h
  · trivial

/-- **What one step makes of connection `m`.** -/
inductive ConnTo (s s' : State) (m : Nat) : Action → Conn → Prop where
  | kept (a : Action) (c c' : Conn) (hc : s.conns[m]? = some c) (hp : c'.phase = c.phase)
      (hr : c.room ≤ c'.room) (ha : ∀ b, a = .conn m b → ∃ k, b = .peerReads k) : ConnTo s s' m a c'
  | free (a : Action) (c' : Conn) (hp : ¬ c'.phase.Blocking) : ConnTo s s' m a c'
  | takes (c : Conn) (d : ServiceDigest) (cfg : ServerServiceConfig) (k : Digest)
      (hc : s.conns[m]? = some c) (hp : c.phase = .awaitTable d cfg k) :
      ConnTo s s' m (.conn m .takeTable) { c with phase := .acking d cfg k }
  | waits (c : Conn) (nonce : Nonce) (h : Nat) (x : Handle) (hc : s.conns[m]? = some c)
      (hp : c.phase = .awaitFind nonce) (hf : s.control_channels.get2 nonce = some h)
      (hx : s.handles[h]? = some x) (hh : s'.handles = s.handles) :
      ConnTo s s' m (.conn m .find) { c with phase := .sending h }

theorem not_blocking_ended : ¬ ConnPhase.Blocking .ended := by simp [ConnPhase.Blocking]

theorem connTo_main {s s' : State} {a : MainAct} (h : MainStep digest s a s') {m : Nat} {c' : Conn}
    (hc' : s'.conns[m]? = some c') : ConnTo s s' m (.main a) c' := by
  have hk (hs : s'.conns = s.conns) : ConnTo s s' m (.main a) c' :=
    .kept _ c' c' (by rw [← hs]; exact hc') rfl (Nat.le_refl _) (fun b e => by cases e)
  cases h with
  | spawn room hm =>
      rcases Nat.lt_or_ge m s.conns.length with h | h
      · refine .kept _ c' c' ?_ rfl (Nat.le_refl _) (fun b e => by cases e)
        rw [← List.getElem?_append_left h]
        exact hc'
      · refine .free _ _ ?_
        rw [show State.conns _ = _ from rfl, List.getElem?_append_right h] at hc'
        have he := List.mem_singleton.mp (List.mem_of_getElem? hc')
        rw [he]
        simp [ConnPhase.Blocking]
  | shutdown hm => exact hk (settle_conns _)
  | _ => exact hk rfl

theorem connTo_conn {s s' : State} {n : Nat} {c : Conn} {a : ConnAct} (hc : s.conns[n]? = some c)
    (h : ConnStep digest heartbeat_interval s n c a s') {m : Nat} {c' : Conn}
    (hc' : s'.conns[m]? = some c') : ConnTo s s' m (.conn n a) c' := by
  have hn := (List.getElem?_eq_some_iff.mp hc).1
  have hset : ∃ d, s'.conns = s.conns.set n d ∧ (m = n → ConnTo s s' m (.conn n a) d) := by
    cases h with
    | ends _ _ _ => exact ⟨_, endConn_conns .., fun _ => .free _ _ not_blocking_ended⟩
    | endsServices _ _ _ _ => exact ⟨_, endConn_conns .., fun _ => .free _ _ not_blocking_ended⟩
    | ackError _ _ _ _ => exact ⟨_, endConn_conns .., fun _ => .free _ _ not_blocking_ended⟩
    | notFound _ _ _ _ => exact ⟨_, endConn_conns .., fun _ => .free _ _ not_blocking_ended⟩
    | findSent _ _ _ _ _ _ _ _ _ _ => exact ⟨_, endConn_conns .., fun _ => .free _ _ not_blocking_ended⟩
    | send _ _ _ _ _ _ => exact ⟨_, endConn_conns .., fun _ => .free _ _ not_blocking_ended⟩
    | ack _ _ _ _ _ _ =>
        refine ⟨_, (by simp only [endConn_conns, register_conns]; rfl), fun _ => .free _ _ not_blocking_ended⟩
    | peerReads k =>
        refine ⟨_, rfl, fun e => ?_⟩
        subst e
        refine .kept _ c _ hc rfl (Nat.le_add_right _ _) fun b e => ?_
        cases e
        exact ⟨k, rfl⟩
    | takeTable d cfg k hp hw =>
        refine ⟨_, rfl, fun e => ?_⟩
        subst e
        exact .takes c d cfg k hc hp
    | findWaits nonce h x hp hw hf hx he hs =>
        refine ⟨_, rfl, fun e => ?_⟩
        subst e
        exact .waits c nonce h x hc hp hf hx rfl
    | _ => exact ⟨_, rfl, fun _ => .free _ _ (by simp [ConnPhase.Blocking])⟩
  obtain ⟨d, hs, hd⟩ := hset
  rw [hs] at hc'
  by_cases e : n = m
  · subst e
    rw [List.getElem?_set_self hn] at hc'
    cases hc'
    exact hd rfl
  · rw [List.getElem?_set_ne e] at hc'
    refine .kept _ c' c' hc' rfl (Nat.le_refl _) fun b eb => ?_
    cases eb
    exact absurd rfl e

theorem Step.connTo {s s' : State} {a : Action} (hs : Step digest heartbeat_interval s a s') {m : Nat}
    {c' : Conn} (hc' : s'.conns[m]? = some c') : ConnTo s s' m a c' := by
  cases hs with
  | main h => exact connTo_main h hc'
  | conn c hc h => exact connTo_conn hc h hc'
  | service _ _ _ _ _ _ _ =>
      exact .kept _ c' c' hc' rfl (Nat.le_refl _) fun b e => by cases e

theorem HasHandle.accepts {hs : List Handle} {k j : Nat} {x : Handle} (h : HasHandle hs k x)
    (ha : x.state.Accepts j) : ∃ x', hs[k]? = some x' ∧ x'.state.Accepts j := by
  rcases h with h | h
  · exact ⟨_, h, ha⟩
  · exact ⟨_, h, ha⟩

/-- The queue a task waits for goes on accepting: only another task's send takes a place of it. -/
theorem Step.accepts {s s' : State} {a : Action} (hs : Step digest heartbeat_interval s a s')
    {m k : Nat} (hm : s.phaseOf m = .sending k) (ha : a ≠ .conn m .send) (hok : KeepsMoving s a)
    {x : Handle} (hx : s.handles[k]? = some x) (hacc : x.state.Accepts 1) :
    ∃ x', s'.handles[k]? = some x' ∧ x'.state.Accepts 1 := by
  obtain ⟨state, hst, hh⟩ := hs.handle hx
  refine hh.accepts ?_
  cases hst with
  | same _ => exact hacc
  | own sa _ ho hs => exact accepts_own hs ho hacc
  | found n _ hn hs =>
      rcases hn with hn | he
      · have hsome : s.someoneSends k = true := by
          unfold State.phaseOf at hm
          split at hm
          · rename_i c hc
            exact List.any_eq_true.mpr ⟨c, List.mem_of_getElem? hc, by simpa using hm⟩
          · cases hm
        rw [hsome] at hn
        cases hn
      · exact (accepts_send hs).mpr (Or.inl he)
  | sent n c _ hc hp hs =>
      refine (accepts_send hs).mpr (hok c k x hc hp hx ⟨m, ?_, hm⟩)
      intro e
      subst e
      exact ha rfl

/-- A step that meets the condition leaves nobody stuck. -/
theorem AllProceed.step {s s' : State} {a : Action} (hP : AllProceed s)
    (hs : Step digest heartbeat_interval s a s') (hok : KeepsMoving s a) : AllProceed s' := by
  intro m c' hc'
  cases hs.connTo hc' with
  | kept _ c _ hc hp hr ha =>
      have hmv := hP m c hc
      unfold State.Moves at hmv ⊢
      rw [hp]
      split
      · rename_i d cfg k hph
        rw [hph] at hmv
        exact Nat.le_trans hmv hr
      · rename_i k hph
        rw [hph] at hmv
        obtain ⟨x, hx, hacc⟩ := hmv
        refine hs.accepts ((phaseOf_eq hc).trans hph) (fun e => ?_) hok hx hacc
        obtain ⟨j, hj⟩ := ha _ e
        cases hj
      · trivial
  | free _ _ hp => exact moves_of_not_blocking s' hp
  | takes c d cfg k hc hp => exact hok c d cfg k hc hp
  | waits c nonce h x hc hp hf hx hh =>
      refine ⟨x, ?_, hok c nonce h x hc hp hf hx⟩
      rw [hh]
      exact hx

/-- A task that waits for the queue of handle `h` and is not stuck sees it accept one more. -/
theorem AllProceed.accepts {s : State} (hP : AllProceed s) {m h : Nat} {x : Handle}
    (hm : s.phaseOf m = .sending h) (hx : HasHandle s.handles h x) : x.state.Accepts 1 := by
  unfold State.phaseOf at hm
  split at hm
  · rename_i c hc
    have hmv := hP m c hc
    unfold State.Moves at hmv
    rw [hm] at hmv
    obtain ⟨z, hz, hacc⟩ := hmv
    rcases hx with hx | hx
    · rw [hx] at hz
      cases hz
      exact hacc
    · rw [hx] at hz
      cases hz
      exact hacc
  · cases hm

end

end Penetrate.Server
