/-
  File:      Penetrate/Server/Settles.lean
  Subject:   WHOM A TCP SERVICE SERVES IN THE END.

  While the control channel is up, the steps that move a request, a data channel or a visitor on
  come to an end in whatever order the four tasks and the client take them. What is left then is
  exact: one visitor waits for each attempt of the client that has failed beyond the initial
  requests and the data channels nobody asked for.

  * `MovesOn` -- those steps; `Service.due`, `due_step` -- the measure;
  * `settling_step` -- they keep the control channel up and the balance;
  * `rests_or_moves` -- a service at rest has no request under way, or nobody waiting;
  * `service_settles` -- **the count**.
-/
import Penetrate.Server.Requests

namespace Penetrate.Server

open Concurrent Machine

/-! ## 1. The steps and their measure -/

/-- What moves a request, a data channel or a visitor on. New visitors, heartbeats, failures and
    what ends the service are not among it. -/
def MovesOn : ServiceAct → Prop
  | .control .request => True
  | .control (.written true) => True
  | .listener .bound => True
  | .listener .enqueue => True
  | .pool .recvVisitor => True
  | .pool .recvDataChannel => True
  | .pool (.written true) => True
  | .client .command => True
  | .client .deliver => True
  | _ => False

def Control.due : Control → Nat
  | .select => 0
  | .writing .createDataChannel => 4
  | .writing .heartBeat => 1
  | .ended => 0

def Listener.due : Listener → Nat
  | .binding => 1
  | .announcing _ => 4
  | _ => 0

def TcpPool.due : TcpPool → Nat
  | .recvDataChannel _ => 2
  | .writing _ _ => 1
  | _ => 0

def PoolTask.due : PoolTask → Nat
  | .tcp l visitors p => l.due + 3 * visitors.items.length + p.due
  | .udp _ => 0

/-- The steps due. A request goes through the control channel, the client and the queue of data
    channels, a visitor through its queue and the pool. -/
def Service.due (s : Service) : Nat :=
  5 * s.data_ch_req + s.control.due + 3 * s.commands + 2 * s.attempts + s.data_ch.items.length +
    s.pool.due

/-- A service whose control channel is up, after `failed` attempts and `stray` data channels. -/
structure Settling (failed stray : Nat) (s : Service) : Prop where
  tcp : s.pool.serviceType = .tcp
  up : s.Up
  balanced : Balanced s failed stray

theorem Settling.pool {failed stray : Nat} {s : Service} (hI : Settling failed stray s) :
    ∃ l visitors p, s.pool = .tcp l visitors p ∧ l ≠ .ended ∧ p ≠ .ended ∧
      s.outstanding + failed =
        TCP_POOL_SIZE + stray + (PoolTask.tcp l visitors p).visitorsWaiting := by
  have hb := hI.balanced hI.up
  cases hp : s.pool with
  | tcp l visitors p =>
      rw [hp] at hb
      exact ⟨l, visitors, p, rfl, hb.1, hb.2.1, hb.2.2⟩
  | udp p =>
      have ht := hI.tcp
      rw [hp] at ht
      cases ht

theorem not_ended {l : Listener} {visitors : Mpsc Nat CHAN_SIZE} {p : TcpPool} (h : p ≠ .ended) :
    PoolTask.ended (.tcp l visitors p) = false := by
  cases p <;> first | rfl | exact absurd rfl h

/-- **Every step is one due.** -/
theorem due_step {failed stray : Nat} {s s' : Service} {a : ServiceAct}
    (hI : Settling failed stray s) (ha : MovesOn a) (h : ServiceStep s a s') :
    s'.Up ∧ s'.due < s.due := by
  obtain ⟨l, visitors, p, hp, hl, hpe, -⟩ := hI.pool
  obtain ⟨hh, hc⟩ := hI.up
  cases h with
  | control h =>
      cases h with
      | request hc' hr =>
          refine ⟨⟨hh, by simp⟩, ?_⟩
          simp only [Service.due, Control.due, hc']
          omega
      | written cmd hc' =>
          refine ⟨⟨hh, by simp⟩, ?_⟩
          cases cmd <;> simp only [Service.due, Control.due, hc', if_true, reduceCtorEq, if_false] <;>
            omega
      | requestsClosed | heartbeat | shutdown | writeError => exact ha.elim
  | listener hp' h =>
      obtain ⟨rfl, rfl, rfl⟩ := PoolTask.tcp.inj (hp.symm.trans hp')
      cases h with
      | bound hl' =>
          refine ⟨⟨hh, hc⟩, ?_⟩
          simp only [Service.due, PoolTask.due, Listener.due, hp, hl']
          omega
      | enqueueClosed v hl' he => exact absurd he hpe
      | enqueue v q hl' he hq =>
          refine ⟨⟨hh, hc⟩, ?_⟩
          simp only [Service.due, PoolTask.due, Listener.due, hp, hl', (Mpsc.send_eq_some hq).1,
            List.length_append, List.length_singleton]
          omega
      | acceptClosed | accept | shutdown => exact ha.elim
  | tcpPool hp' h =>
      obtain ⟨rfl, rfl, rfl⟩ := PoolTask.tcp.inj (hp.symm.trans hp')
      cases h with
      | recvVisitor v q he hq =>
          refine ⟨⟨hh, hc⟩, ?_⟩
          simp only [Service.due, PoolTask.due, TcpPool.due, hp, he, Mpsc.recv_eq_some hq,
            List.length_cons]
          omega
      | visitorsClosed he hq hl' => exact absurd hl' hl
      | recvDataChannel v ch q he hq =>
          refine ⟨⟨hh, hc⟩, ?_⟩
          simp only [Service.due, PoolTask.due, TcpPool.due, hp, he, Mpsc.recv_eq_some hq,
            List.length_cons]
          omega
      | dataChannelsClosed v he hq hh' => exact absurd (hh.symm.trans hh') (by simp)
      | written v ch he =>
          refine ⟨⟨hh, hc⟩, ?_⟩
          simp only [Service.due, PoolTask.due, TcpPool.due, hp, he]
          omega
      | brokenClosed | broken => exact ha.elim
  | udpPool hp' h =>
      rw [hp] at hp'
      cases hp'
  | client h =>
      cases h with
      | command hc' =>
          refine ⟨⟨hh, hc⟩, ?_⟩
          simp only [Service.due]
          omega
      | deliver q ha' hh' hp' hq =>
          refine ⟨⟨hh, hc⟩, ?_⟩
          simp only [Service.due, (Mpsc.send_eq_some hq).1, List.length_append,
            List.length_singleton]
          omega
      | deliverLost ha' hh' hp' =>
          rw [hp, not_ended hpe] at hp'
          cases hp'
      | attemptFails | stray | strayLost => exact ha.elim
  | drop => exact ha.elim

theorem settling_step {failed stray : Nat} {s s' : Service} {a : ServiceAct}
    (hI : Settling failed stray s) (ha : MovesOn a) (h : ServiceStep s a s') :
    Settling failed stray s' ∧ s'.due < s.due := by
  obtain ⟨hup, hdue⟩ := due_step hI ha h
  have hf : fails a = 0 := by
    unfold fails
    rw [if_neg]
    rintro rfl
    exact ha
  have hs : strays a = 0 := by
    unfold strays
    rw [if_neg]
    rintro rfl
    exact ha
  have hb := balanced_step hI.balanced h
  rw [hf, hs] at hb
  exact ⟨⟨(serviceType_step h).trans hI.tcp, hup, hb⟩, hdue⟩

/-! ## 2. At rest -/

/-- Exactly the visitors that attempts have failed for are left waiting. -/
def AtRest (failed stray : Nat) (s : Service) : Prop :=
  s.Up ∧ s.pool.visitorsWaiting = failed - (TCP_POOL_SIZE + stray)

/-- None of these steps can be taken. -/
def Stuck (s : Service) : Prop := ∀ a, MovesOn a → s.step a = none

theorem stuck_control {s : Service} (hup : s.Up) (hn : Stuck s) :
    s.control = .select ∧ s.data_ch_req = 0 ∧ s.commands = 0 := by
  have hcmd : s.commands = 0 := by
    have h := hn (.client .command) trivial
    simpa [Service.step, clientSide] using h
  cases hc : s.control with
  | select =>
      have h := hn (.control .request) trivial
      refine ⟨rfl, ?_, hcmd⟩
      simpa [Service.step, ControlChannel.run, hc] using h
  | writing cmd =>
      have h := hn (.control (.written true)) trivial
      simp [Service.step, ControlChannel.run, hc] at h
  | ended => exact absurd hc hup.2

/-- The listener waits for visitors, once there is room in their queue. -/
theorem stuck_listener {s : Service} {l : Listener} {visitors : Mpsc Nat CHAN_SIZE} {p : TcpPool}
    (hp : s.pool = .tcp l visitors p) (hl : l ≠ .ended) (hpe : p ≠ .ended)
    (hq : visitors.items = []) (hn : Stuck s) : l = .select := by
  cases l with
  | select => rfl
  | ended => exact absurd rfl hl
  | binding =>
      have h := hn (.listener .bound) trivial
      simp [Service.step, tcp_listen_and_send, hp] at h
  | announcing v =>
      have h := hn (.listener .enqueue) trivial
      simp [Service.step, tcp_listen_and_send, hp, hpe, Mpsc.send, hq, CHAN_SIZE] at h

/-- The client has no attempt left to finish, once there is room in the queue of data channels. -/
theorem stuck_client {s : Service} (hh : s.handle = true) (he : s.pool.ended = false)
    (hq : s.data_ch.items = []) (hn : Stuck s) : s.attempts = 0 := by
  have h := hn (.client .deliver) trivial
  simpa [Service.step, clientSide, Service.sendDataChannel, Mpsc.send, hh, he, hq, CHAN_SIZE]
    using h

/-- **A service at rest has no request under way, or nobody waiting.** -/
theorem rests_or_moves {failed stray : Nat} {s : Service} (hI : Settling failed stray s) :
    AtRest failed stray s ∨ ∃ a s', MovesOn a ∧ s.step a = some s' := by
  by_cases hm : ∃ a s', MovesOn a ∧ s.step a = some s'
  · exact Or.inr hm
  · have hn : Stuck s := fun a ha => Option.eq_none_iff_forall_ne_some.mpr fun s' h =>
      hm ⟨a, s', ha, h⟩
    refine Or.inl ⟨hI.up, ?_⟩
    obtain ⟨l, visitors, p, hp, hl, hpe, hb⟩ := hI.pool
    obtain ⟨hc, hr, hcmd⟩ := stuck_control hI.up hn
    rw [hp]
    cases p with
    | ended => exact absurd rfl hpe
    | writing v ch =>
        have h := hn (.pool (.written true)) trivial
        simp [Service.step, runPool, hp, run_tcp_connection_pool] at h
    | recvVisitor =>
        have hq : visitors.items = [] := by
          have h := hn (.pool .recvVisitor) trivial
          cases hrecv : visitors.recv with
          | none => exact Mpsc.recv_eq_none.mp hrecv
          | some q => simp [Service.step, runPool, hp, run_tcp_connection_pool, hrecv] at h
        have hsel := stuck_listener hp hl hpe hq hn
        simp only [PoolTask.visitorsWaiting, Listener.visitorsWaiting, TcpPool.visitorsWaiting, hsel,
          hq, List.length_nil] at hb ⊢
        omega
    | recvDataChannel v =>
        have hq : s.data_ch.items = [] := by
          have h := hn (.pool .recvDataChannel) trivial
          cases hrecv : s.data_ch.recv with
          | none => exact Mpsc.recv_eq_none.mp hrecv
          | some q => simp [Service.step, runPool, hp, run_tcp_connection_pool, hrecv] at h
        have hatt := stuck_client hI.up.1 (by rw [hp]; rfl) hq hn
        have hout : s.outstanding = 0 := by
          simp [Service.outstanding, hr, hc, hcmd, hatt, hq]
        omega

/-- **The visitors left waiting are those attempts have failed for.** From any state of a run in
    which the control channel is up, the tasks of the service and the client come to rest in
    whatever order they take their steps, and then exactly as many visitors wait as attempts have
    failed beyond the initial requests and the data channels nobody asked for; all others have
    been given theirs. -/
theorem service_settles {hb : UInt64} {tr : List (Service × ServiceAct)} {s : Service}
    (r : (service .tcp hb).Run tr s) (hup : s.Up) :
    (service .tcp hb).Completes MovesOn (AtRest (failures tr) (strayChannels tr)) s :=
  Completes.of_measure (M := service .tcp hb) (I := Settling (failures tr) (strayChannels tr))
    Service.due (fun _ _ _ hI ha h => settling_step hI ha (service_cases h))
    (fun _ hI => rests_or_moves hI) ⟨serviceType_run r, hup, balanced_run r⟩

/-- Nine attempts fail, one more than the initial requests, and two visitors come. -/
def failing : List ServiceAct :=
  [.listener .bound, .listener .accept] ++ (List.replicate 9 failedAttempt).flatten ++
    [.listener .enqueue, .listener .accept]

theorem service_settles_failing : ∃ tr s, (service .tcp 30).Run tr s ∧ failures tr = 9 ∧
    s.visitors = 2 ∧ (service .tcp 30).Completes MovesOn (AtRest 9 0) s := by
  have hex : ∃ s, (service .tcp 30).exec (.new .tcp 30) failing = some s ∧ s.Up ∧
      s.visitors = 2 := ⟨_, rfl, ⟨rfl, by decide⟩, rfl⟩
  obtain ⟨s, hs, hup, hv⟩ := hex
  have hf : failures ((service .tcp 30).trace (.new .tcp 30) failing ++ []) = 9 := rfl
  have hst : strayChannels ((service .tcp 30).trace (.new .tcp 30) failing ++ []) = 0 := rfl
  have r := run_trace (.start rfl) hs
  have hc := service_settles r hup
  rw [hf, hst] at hc
  exact ⟨_, s, r, hf, hv, hc⟩

end Penetrate.Server
