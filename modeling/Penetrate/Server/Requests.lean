/-
  File:      Penetrate/Server/Requests.lean
  Subject:   WHETHER A WAITING POOL HAS A DATA CHANNEL COMING.

  A request is outstanding from the moment it is sent until its data channel is taken by the pool:
  queued, written as a command, read by the client, or delivered. A request is lost where the
  client's attempt fails: the client only logs that, and nobody asks again.

  * `Balanced` -- **the balance**: outstanding and failed requests make up for the initial ones and
    the visitors still to be served, as long as the control channel is up;
  * `channel_coming_iff` -- a waiting pool has a data channel coming precisely when fewer attempts
    have failed than that.
-/
import Penetrate.Server.Service

namespace Penetrate.Server

open Concurrent Machine

/-! ## 1. The balance -/

/-- The control channel is up, and so is its handle. -/
def Service.Up (s : Service) : Prop := s.handle = true ∧ s.control ≠ .ended

/-- The requests under way: queued, being written, written, served by the client, delivered. -/
def Service.outstanding (s : Service) : Nat :=
  s.data_ch_req + (if s.control = .writing .createDataChannel then 1 else 0) + s.commands +
    s.attempts + s.data_ch.items.length

/-- The pool waits in `data_ch_rx.recv()`: with a visitor in hand, or for its one channel. -/
def Service.Waiting (s : Service) : Prop :=
  (∃ l visitors v, s.pool = .tcp l visitors (.recvDataChannel v)) ∨ s.pool = .udp .recvDataChannel

/-- The visitors announced that have no data channel yet: just accepted, queued, in hand. -/
def Listener.visitorsWaiting : Listener → Nat
  | .announcing _ => 1
  | _ => 0

def TcpPool.visitorsWaiting : TcpPool → Nat
  | .recvDataChannel _ => 1
  | _ => 0

def PoolTask.visitorsWaiting : PoolTask → Nat
  | .tcp l visitors p => l.visitorsWaiting + visitors.items.length + p.visitorsWaiting
  | .udp _ => 0

/-- The pool has its one data channel, or has given up. -/
def UdpPool.served : UdpPool → Bool
  | .binding => false
  | .recvDataChannel => false
  | _ => true

/-- `n` requests make up for the initial ones, the visitors still waiting and `m` data channels
    nobody asked for. A UDP pool takes one data channel and no more. -/
def PoolTask.Balance (n m : Nat) : PoolTask → Prop
  | .tcp l visitors p => l ≠ .ended ∧ p ≠ .ended ∧
      n = TCP_POOL_SIZE + m + (PoolTask.tcp l visitors p).visitorsWaiting
  | .udp p => p.served = false → n = UDP_POOL_SIZE + m

/-- **The balance of a service** whose control channel is up. -/
def Balanced (s : Service) (failed stray : Nat) : Prop :=
  s.Up → s.pool.Balance (s.outstanding + failed) stray

theorem PoolTask.Balance.add {p : PoolTask} {n m : Nat} (h : p.Balance n m) (k : Nat) :
    p.Balance (n + k) (m + k) := by
  cases p with
  | tcp l visitors p =>
      obtain ⟨h1, h2, h3⟩ := h
      exact ⟨h1, h2, by rw [h3]; omega⟩
  | udp p =>
      intro hs
      rw [h hs]
      omega

/-- A pool that has ended owes nothing: with the control channel up it is a UDP pool. -/
theorem PoolTask.Balance.of_ended {p : PoolTask} {n m : Nat} (h : p.Balance n m)
    (he : p.ended = true) (n' m' : Nat) : p.Balance n' m' := by
  cases p with
  | tcp l visitors p =>
      obtain ⟨_, h2, _⟩ := h
      cases p <;> first | exact absurd rfl h2 | cases he
  | udp p =>
      intro hs
      cases p with
      | ended => cases hs
      | _ => cases he

/-- The attempts that fail, and the data channels nobody asked for, in one step. -/
def fails (a : ServiceAct) : Nat := if a = .client .attemptFails then 1 else 0
def strays (a : ServiceAct) : Nat := if a = .client .stray then 1 else 0

theorem balanced_new (t : ServiceType) (hb : UInt64) : Balanced (.new t hb) 0 0 := by
  intro _
  cases t with
  | tcp => exact ⟨by simp, by simp, rfl⟩
  | udp => exact fun _ => rfl

/-- A step of the control channel moves a request on, and touches neither pool nor handle. -/
theorem outstanding_control {s s' : Service} {a : ControlAct} (h : ControlStep s a s')
    (hup : s'.Up) : s'.outstanding = s.outstanding ∧ s'.pool = s.pool ∧ s.Up := by
  obtain ⟨hh, hc⟩ := hup
  unfold Service.outstanding Service.Up
  cases h with
  | request hc' hr =>
      refine ⟨?_, rfl, hh, by simp [hc']⟩
      simp only [hc', if_true, reduceCtorEq, if_false]
      omega
  | requestsClosed => exact absurd rfl hc
  | heartbeat hc' hi => exact ⟨by simp [hc'], rfl, hh, by simp [hc']⟩
  | shutdown => exact absurd rfl hc
  | written cmd hc' =>
      refine ⟨?_, rfl, hh, by simp [hc']⟩
      cases cmd with
      | createDataChannel =>
          simp only [hc', if_true, reduceCtorEq, if_false]
          omega
      | heartBeat => simp [hc']
  | writeError => exact absurd rfl hc

theorem balanced_listener {s s' : Service} {a : ListenerAct} {l : Listener}
    {visitors : Mpsc Nat CHAN_SIZE} {p : TcpPool} {failed stray : Nat}
    (hI : Balanced s failed stray) (hp : s.pool = .tcp l visitors p)
    (h : ListenerStep s l visitors p a s') : Balanced s' failed stray := by
  intro hup
  unfold Balanced at hI
  rw [hp] at hI
  cases h with
  | bound hl =>
      obtain ⟨_, h2, h3⟩ := hI hup
      subst hl
      exact ⟨by simp, h2, h3⟩
  | acceptClosed hl hc => exact absurd hc hup.2
  | accept hl hc =>
      obtain ⟨_, h2, h3⟩ := hI hup
      subst hl
      refine ⟨by simp, h2, ?_⟩
      simp only [Service.outstanding, PoolTask.visitorsWaiting, Listener.visitorsWaiting] at h3 ⊢
      omega
  | enqueueClosed v hl he =>
      obtain ⟨_, h2, _⟩ := hI hup
      exact absurd he h2
  | enqueue v q hl he hq =>
      obtain ⟨_, h2, h3⟩ := hI hup
      subst hl
      refine ⟨by simp, h2, ?_⟩
      simp only [Service.outstanding, PoolTask.visitorsWaiting, Listener.visitorsWaiting,
        (Mpsc.send_eq_some hq).1, List.length_append, List.length_singleton] at h3 ⊢
      omega
  | shutdown hl hh =>
      have hh' : s.handle = true := hup.1
      rw [hh] at hh'
      cases hh'

theorem balanced_tcpPool {s s' : Service} {a : PoolAct} {l : Listener}
    {visitors : Mpsc Nat CHAN_SIZE} {p : TcpPool} {failed stray : Nat}
    (hI : Balanced s failed stray) (hp : s.pool = .tcp l visitors p)
    (h : TcpPoolStep s l visitors p a s') : Balanced s' failed stray := by
  intro hup
  unfold Balanced at hI
  rw [hp] at hI
  cases h with
  | recvVisitor v q he hq =>
      obtain ⟨h1, _, h3⟩ := hI hup
      subst he
      refine ⟨h1, by simp, ?_⟩
      simp only [Service.outstanding, PoolTask.visitorsWaiting, TcpPool.visitorsWaiting,
        Mpsc.recv_eq_some hq, List.length_cons] at h3 ⊢
      omega
  | visitorsClosed he hq hl =>
      obtain ⟨h1, _, _⟩ := hI hup
      exact absurd hl h1
  | recvDataChannel v ch q he hq =>
      obtain ⟨h1, _, h3⟩ := hI hup
      subst he
      refine ⟨h1, by simp, ?_⟩
      simp only [Service.outstanding, PoolTask.visitorsWaiting, TcpPool.visitorsWaiting,
        Mpsc.recv_eq_some hq, List.length_cons] at h3 ⊢
      omega
  | dataChannelsClosed v he hq hh =>
      have hh' : s.handle = true := hup.1
      rw [hh] at hh'
      cases hh'
  | written v ch he =>
      obtain ⟨h1, _, h3⟩ := hI hup
      subst he
      exact ⟨h1, by simp, h3⟩
  | brokenClosed v ch he hc => exact absurd hc hup.2
  | broken v ch he hc =>
      -- the one place where a lost data channel is asked for again
      obtain ⟨h1, _, h3⟩ := hI hup
      subst he
      refine ⟨h1, by simp, ?_⟩
      simp only [Service.outstanding, PoolTask.visitorsWaiting, TcpPool.visitorsWaiting] at h3 ⊢
      omega

theorem balanced_udpPool {s s' : Service} {a : PoolAct} {p : UdpPool} {failed stray : Nat}
    (hI : Balanced s failed stray) (hp : s.pool = .udp p) (h : UdpPoolStep s p a s') :
    Balanced s' failed stray := by
  intro hup
  unfold Balanced at hI
  rw [hp] at hI
  cases h with
  | bound he =>
      subst he
      exact fun _ => hI hup rfl
  | _ =>
      intro hs
      cases hs

theorem balanced_client {s s' : Service} {a : ClientAct} {failed stray : Nat}
    (hI : Balanced s failed stray) (h : ClientStep s a s') :
    Balanced s' (failed + fails (.client a)) (stray + strays (.client a)) := by
  intro hup
  cases h with
  | command hc =>
      have hout : Service.outstanding
          { s with commands := s.commands - 1, attempts := s.attempts + 1 } = s.outstanding := by
        simp only [Service.outstanding]
        omega
      rw [hout]
      exact hI hup
  | attemptFails ha =>
      have hout : Service.outstanding { s with attempts := s.attempts - 1 } + (failed + 1) =
          s.outstanding + failed := by
        simp only [Service.outstanding]
        omega
      show s.pool.Balance (Service.outstanding { s with attempts := s.attempts - 1 } + (failed + 1)) _
      rw [hout]
      exact hI hup
  | deliver q ha hh hp hq =>
      have hout : Service.outstanding
          { s with data_ch := q, opened := s.opened + 1, attempts := s.attempts - 1 } =
          s.outstanding := by
        simp only [Service.outstanding, (Mpsc.send_eq_some hq).1, List.length_append,
          List.length_singleton]
        omega
      rw [hout]
      exact hI hup
  | deliverLost ha hh hp => exact (hI hup).of_ended hp _ _
  | stray q hh hp hq =>
      have hout : Service.outstanding { s with data_ch := q, opened := s.opened + 1 } + failed =
          s.outstanding + failed + 1 := by
        simp only [Service.outstanding, (Mpsc.send_eq_some hq).1, List.length_append,
          List.length_singleton]
        omega
      show s.pool.Balance
        (Service.outstanding { s with data_ch := q, opened := s.opened + 1 } + failed) (stray + 1)
      rw [hout]
      exact (hI hup).add 1
  | strayLost hh hp => exact (hI hup).of_ended hp _ _

/-- **One step keeps the balance.** -/
theorem balanced_step {s s' : Service} {a : ServiceAct} {failed stray : Nat}
    (hI : Balanced s failed stray) (h : ServiceStep s a s') :
    Balanced s' (failed + fails a) (stray + strays a) := by
  cases h with
  | control h =>
      intro hup
      obtain ⟨hout, hpool, hup'⟩ := outstanding_control h hup
      rw [hout, hpool]
      exact hI hup'
  | listener hp h => exact balanced_listener hI hp h
  | tcpPool hp h => exact balanced_tcpPool hI hp h
  | udpPool hp h => exact balanced_udpPool hI hp h
  | client h => exact balanced_client hI h
  | drop hh =>
      intro hup
      cases hup.1

/-! ## 2. Runs -/

/-- The attempts of the client that have failed on a run, and the data channels nobody asked
    for. -/
def failures : List (Service × ServiceAct) → Nat
  | [] => 0
  | p :: tr => failures tr + fails p.2

def strayChannels : List (Service × ServiceAct) → Nat
  | [] => 0
  | p :: tr => strayChannels tr + strays p.2

theorem balanced_run {t : ServiceType} {hb : UInt64} {tr : List (Service × ServiceAct)}
    {s : Service} (r : (service t hb).Run tr s) : Balanced s (failures tr) (strayChannels tr) := by
  induction r with
  | start h =>
      rw [show _ = Service.new t hb from h]
      exact balanced_new t hb
  | step r h ih => exact balanced_step ih (service_cases h)

/-- The kind of service a pool task serves. -/
def PoolTask.serviceType : PoolTask → ServiceType
  | .tcp _ _ _ => .tcp
  | .udp _ => .udp

/-- No step turns a TCP pool into a UDP pool. -/
theorem serviceType_step {s s' : Service} {a : ServiceAct} (h : ServiceStep s a s') :
    s'.pool.serviceType = s.pool.serviceType := by
  cases h with
  | control h => cases h <;> rfl
  | listener hp h =>
      rw [hp]
      cases h <;> rfl
  | tcpPool hp h =>
      rw [hp]
      cases h <;> rfl
  | udpPool hp h =>
      rw [hp]
      cases h <;> rfl
  | client h => cases h <;> rfl
  | drop => rfl

/-- The pool is the one the service was created with. -/
theorem serviceType_run {t : ServiceType} {hb : UInt64} {tr : List (Service × ServiceAct)}
    {s : Service} (r : (service t hb).Run tr s) : s.pool.serviceType = t := by
  refine r.invariant (I := fun s => s.pool.serviceType = t) (fun s h => ?_) fun s a s' hI h => ?_
  · rw [show s = .new t hb from h]
    cases t <;> rfl
  · exact (serviceType_step (service_cases h)).trans hI

/-- **A waiting pool has a data channel coming, precisely when fewer attempts of the client have
    failed than there were initial requests, visitors still waiting (the one in hand included) and
    data channels nobody asked for.** -/
theorem channel_coming_iff {t : ServiceType} {hb : UInt64} {tr : List (Service × ServiceAct)}
    {s : Service} (r : (service t hb).Run tr s) (hup : s.Up) (hw : s.Waiting) :
    1 ≤ s.outstanding ↔
      failures tr < poolSize t + s.pool.visitorsWaiting + strayChannels tr := by
  have hbal := balanced_run r hup
  have htype := serviceType_run r
  rcases hw with ⟨l, visitors, v, hp⟩ | hp
  · rw [hp] at hbal htype ⊢
    obtain ⟨_, _, h3⟩ := hbal
    subst htype
    simp only [PoolTask.serviceType, poolSize]
    omega
  · rw [hp] at hbal htype ⊢
    have h3 := hbal rfl
    subst htype
    simp only [PoolTask.serviceType, poolSize, PoolTask.visitorsWaiting]
    omega

/-- One command on its way to the client, and the attempt failing. -/
def failedAttempt : List ServiceAct :=
  [.control .request, .control (.written true), .client .command, .client .attemptFails]

/-- **Two failed attempts leave a UDP service without a data channel for good**: the claim that
    one is always coming is false. -/
theorem waits_for_nothing : ¬ ∀ (t : ServiceType) (hb : UInt64) (tr : List (Service × ServiceAct))
    (s : Service), (service t hb).Run tr s → s.Up → s.Waiting → 1 ≤ s.outstanding := by
  intro h
  have hex : ∃ s, (service .udp 30).exec (.new .udp 30)
      (.pool .bound :: failedAttempt ++ failedAttempt) = some s ∧
      s.Up ∧ s.Waiting ∧ s.outstanding = 0 :=
    ⟨_, rfl, ⟨rfl, by decide⟩, Or.inr rfl, rfl⟩
  obtain ⟨s, hs, hup, hw, h0⟩ := hex
  obtain ⟨tr, r⟩ := run_exec (.start rfl) hs
  have := h .udp 30 _ s r hup hw
  omega

/-- After one failed attempt the other request is still there. -/
theorem channel_coming_iff_udp : ∃ tr s, (service .udp 30).Run tr s ∧ s.Up ∧ s.Waiting ∧
    failures tr = 1 ∧ 1 ≤ s.outstanding := by
  have r : ∃ tr s, (service .udp 30).Run tr s ∧ s.Up ∧ s.Waiting ∧ failures tr = 1 := by
    refine ⟨_, _, .step (a := .client .attemptFails) (.step (a := .client .command)
      (.step (a := .control (.written true)) (.step (a := .control .request)
        (.step (a := .pool .bound) (.start rfl) rfl) rfl) rfl) rfl) rfl, ⟨rfl, by decide⟩,
        Or.inr rfl, rfl⟩
  obtain ⟨tr, s, r, hup, hw, hf⟩ := r
  refine ⟨tr, s, r, hup, hw, hf, (channel_coming_iff r hup hw).mpr ?_⟩
  rw [hf]
  simp only [poolSize, UDP_POOL_SIZE]
  omega

end Penetrate.Server
