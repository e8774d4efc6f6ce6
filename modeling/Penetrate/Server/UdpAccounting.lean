/-
  File:      Penetrate/Server/UdpAccounting.lean
  Subject:   THE DATA CHANNELS OF A UDP SERVICE, COUNTED.

  `run_udp_connection_pool` takes one data channel out of the queue and keeps its sender of requests
  without ever sending one. `ControlChannelHandle::new` asks for `UDP_POOL_SIZE` of them.

  * `UdpLine` -- **the invariant**: the queue holds every data channel that has come in, but for the
    first once the pool has taken it;
  * `udp_accounting` -- requests, the bound, and the data channels nobody will use.
-/
import Penetrate.Server.Accounting

namespace Penetrate.Server

open Concurrent Machine

/-! ## 1. The queue -/

/-- The data channel in the pool's hand. -/
def UdpPool.channel : UdpPool → Option Nat
  | .writing ch => some ch
  | _ => none

/-- What is in the queue of a pool that has not ended, with `n` data channels opened so far. -/
structure UdpLine (p : UdpPool) (items : List Nat) (n : Nat) : Prop where
  waiting : p.served = false → items = List.range n
  serving : p.served = true → 0 < n ∧ items = (List.range n).tail
  first : ∀ ch, p.channel = some ch → ch = 0

/-- Nothing has passed the queue of a UDP pool by. -/
def UdpInv (s : Service) : Prop :=
  ∃ p, s.pool = .udp p ∧ (p ≠ .ended → UdpLine p s.data_ch.items s.opened)

/-- All data channels that are open, or may still be opened for a request. -/
def Service.channels (s : Service) : Nat :=
  s.data_ch_req + (if s.control = .writing .createDataChannel then 1 else 0) + s.commands +
    s.attempts + s.opened

/-! ## 2. One step -/

theorem UdpInv.ended {s : Service} (h : s.pool = .udp .ended) : UdpInv s :=
  ⟨.ended, h, fun hne => absurd rfl hne⟩

/-- One more in the queue. -/
theorem UdpLine.push {p : UdpPool} {items : List Nat} {n : Nat} (h : UdpLine p items n) :
    UdpLine p (items ++ [n]) (n + 1) := by
  refine ⟨fun hp => ?_, fun hp => ?_, h.first⟩
  · rw [h.waiting hp, List.range_succ]
  · obtain ⟨hn, hi⟩ := h.serving hp
    have hne : List.range n ≠ [] := fun hnil => by
      rw [List.range_eq_nil] at hnil
      omega
    rw [hi, List.range_succ, List.tail_append_of_ne_nil hne]
    exact ⟨Nat.succ_pos n, rfl⟩

/-- The pool that has its data channel stays with it. -/
theorem UdpLine.serves {p p' : UdpPool} {items : List Nat} {n : Nat} (h : UdpLine p items n)
    (hp : p.served = true) (hp' : p'.served = true) (hc : p'.channel = none) :
    UdpLine p' items n :=
  ⟨fun hf => absurd (hp'.symm.trans hf) (by simp), fun _ => h.serving hp,
    fun _ hch => absurd (hc.symm.trans hch) (by simp)⟩

theorem udpInv_pool {s s' : Service} {a : PoolAct} {p : UdpPool} (hp : s.pool = .udp p)
    (hI : UdpInv s) (h : UdpPoolStep s p a s') : UdpInv s' := by
  obtain ⟨p0, hp0, hl⟩ := hI
  rw [hp] at hp0
  cases hp0
  cases h with
  | bound hb =>
      subst hb
      have hl := hl nofun
      exact ⟨_, rfl, fun _ => ⟨fun _ => hl.waiting rfl, nofun, nofun⟩⟩
  | shutdown | dataChannelsClosed | writeError | relayEnds => exact .ended rfl
  | recvDataChannel ch q hb hq =>
      subst hb
      have hitems := (hl nofun).waiting rfl
      have hrecv := Mpsc.recv_eq_some hq
      rw [hitems] at hrecv
      -- the oldest of all data channels
      obtain ⟨n, hn⟩ : ∃ n, s.opened = n + 1 := by
        cases ho : s.opened with
        | zero =>
            rw [ho] at hrecv
            cases hrecv
        | succ n => exact ⟨n, rfl⟩
      rw [hn, List.range_succ_eq_map] at hrecv
      obtain ⟨rfl, htail⟩ := List.cons.inj hrecv
      refine ⟨_, rfl, fun _ => ⟨nofun, fun _ => ⟨?_, ?_⟩, fun ch h => ?_⟩⟩
      · show 0 < s.opened
        omega
      · show q.items = (List.range s.opened).tail
        rw [hn, List.range_succ_eq_map, List.tail_cons]
        exact htail.symm
      · cases h
        rfl
  | written ch hb =>
      subst hb
      exact ⟨_, rfl, fun _ => (hl nofun).serves rfl rfl rfl⟩
  | relay e q q' hb hs hq hn =>
      subst hb
      exact ⟨_, rfl, fun _ => (hl nofun).serves rfl rfl rfl⟩

theorem udpInv_client {s s' : Service} {a : ClientAct} (hI : UdpInv s) (h : ClientStep s a s') :
    UdpInv s' := by
  obtain ⟨p, hp, hl⟩ := hI
  have hended (he : s.pool.ended = true) : p = .ended := by
    rw [hp] at he
    cases p <;> first | rfl | cases he
  have hpush {q : Mpsc Nat (CHAN_SIZE * 2)} (hq : s.data_ch.send s.opened = some q)
      (hne : p ≠ .ended) : UdpLine p q.items (s.opened + 1) := by
    rw [(Mpsc.send_eq_some hq).1]
    exact (hl hne).push
  cases h with
  | command | attemptFails => exact ⟨p, hp, hl⟩
  | deliver q ha hh he hq => exact ⟨p, hp, hpush hq⟩
  | stray q hh he hq => exact ⟨p, hp, hpush hq⟩
  | deliverLost ha hh he => exact ⟨p, hp, fun hne => absurd (hended he) hne⟩
  | strayLost hh he => exact ⟨p, hp, fun hne => absurd (hended he) hne⟩

theorem udpInv_step {s s' : Service} {a : ServiceAct} (hI : UdpInv s) (h : ServiceStep s a s') :
    UdpInv s' := by
  cases h with
  | control h => cases h <;> exact hI
  | listener hp h =>
      obtain ⟨p, hp', -⟩ := hI
      rw [hp] at hp'
      cases hp'
  | tcpPool hp h =>
      obtain ⟨p, hp', -⟩ := hI
      rw [hp] at hp'
      cases hp'
  | udpPool hp h => exact udpInv_pool hp hI h
  | client h => exact udpInv_client hI h
  | drop hh => exact hI

/-- Nobody sends a request: the control channel takes the initial ones. -/
theorem udp_requests_step {s s' : Service} {a : ServiceAct} (hI : UdpInv s)
    (h : ServiceStep s a s') : takes s a + s'.data_ch_req = s.data_ch_req := by
  cases h with
  | control h =>
      cases h with
      | request hc hr =>
          simp only [takes, if_true]
          omega
      | _ => simp [takes]
  | listener hp h =>
      obtain ⟨p, hp', -⟩ := hI
      rw [hp] at hp'
      cases hp'
  | tcpPool hp h =>
      obtain ⟨p, hp', -⟩ := hI
      rw [hp] at hp'
      cases hp'
  | udpPool hp h => cases h <;> simp [takes]
  | client h => cases h <;> simp [takes]
  | drop => simp [takes]

/-- A client that opens one data channel per command opens no more than there were requests. -/
theorem channels_step {s s' : Service} {a : ServiceAct} (hI : UdpInv s) (hc : Conforming s a)
    (h : ServiceStep s a s') : s'.channels ≤ s.channels := by
  unfold Service.channels
  cases h with
  | control h =>
      cases h with
      | request hs hr =>
          simp only [hs, if_true, reduceCtorEq, if_false]
          omega
      | written cmd hs =>
          cases cmd with
          | createDataChannel =>
              simp only [hs, if_true, reduceCtorEq, if_false]
              omega
          | heartBeat => simp [hs]
      | _ => simp [*]
  | listener hp h =>
      obtain ⟨p, hp', -⟩ := hI
      rw [hp] at hp'
      cases hp'
  | tcpPool hp h =>
      obtain ⟨p, hp', -⟩ := hI
      rw [hp] at hp'
      cases hp'
  | udpPool hp h => cases h <;> exact Nat.le_refl _
  | client h =>
      cases h with
      | command h0 =>
          dsimp only
          omega
      | attemptFails h0 =>
          dsimp only
          omega
      | deliver q h0 | deliverLost h0 =>
          dsimp only
          omega
      | stray | strayLost => exact absurd rfl hc
  | drop => exact Nat.le_refl _

/-! ## 3. Runs -/

theorem udpInv_run {hb : UInt64} {tr : List (Service × ServiceAct)} {s : Service}
    (r : (service .udp hb).Run tr s) : UdpInv s := by
  refine r.invariant (I := UdpInv) (fun s h => ?_) fun s a s' hI h =>
    udpInv_step hI (service_cases h)
  cases h
  exact ⟨.binding, rfl, fun _ => ⟨fun _ => rfl, nofun, nofun⟩⟩

theorem udp_requests_run {hb : UInt64} {tr : List (Service × ServiceAct)} {s : Service}
    (r : (service .udp hb).Run tr s) : requestsIssued tr s = UDP_POOL_SIZE := by
  induction r with
  | start h =>
      cases h
      rfl
  | step r h ih =>
      have hs := udp_requests_step (udpInv_run r) (service_cases h)
      simp only [requestsIssued, total] at ih ⊢
      omega

theorem channels_run {hb : UInt64} {tr : List (Service × ServiceAct)} {s : Service}
    (r : (service .udp hb).Run tr s) (hc : Guarded Conforming tr) : s.channels ≤ UDP_POOL_SIZE := by
  have h : UdpInv s ∧ s.channels ≤ UDP_POOL_SIZE := by
    refine r.inv (M := service .udp hb) (I := fun s => UdpInv s ∧ s.channels ≤ UDP_POOL_SIZE)
      (fun s h => ?_) (fun s a s' hI hok h => ?_) hc
    · refine ⟨udpInv_run (.start h), ?_⟩
      cases h
      exact Nat.le_refl _
    · have hs := service_cases h
      exact ⟨udpInv_step hI.1 hs, Nat.le_trans (channels_step hI.1 hok hs) hI.2⟩
  exact h.2

/-- The accounts of a UDP service after a run. -/
structure UdpAccounted (tr : List (Service × ServiceAct)) (s : Service) : Prop where
  requests : requestsIssued tr s = UDP_POOL_SIZE
  /-- the only data channel the pool ever uses is the first that came in -/
  first : ∀ ch, s.pool = .udp (.writing ch) → ch = 0
  /-- and all the others stay where they are, for as long as it relays -/
  idle : ∀ q, s.pool = .udp (.relaying q) → 0 < s.opened ∧
    s.data_ch.items = (List.range s.opened).tail
  /-- from a client that opens one data channel per command they are no more than were asked for,
      and the send of `do_data_channel_handshake` goes through at once -/
  conforming : Guarded Conforming tr → s.opened ≤ UDP_POOL_SIZE ∧ s.sendDataChannel ≠ none

/-- **The accounts of a UDP service**: it asks for two data channels and uses the first one; the
    second waits in the queue until the service is gone. -/
theorem udp_accounting {hb : UInt64} {tr : List (Service × ServiceAct)} {s : Service}
    (r : (service .udp hb).Run tr s) : UdpAccounted tr s := by
  obtain ⟨p, hp, hl⟩ := udpInv_run r
  refine ⟨udp_requests_run r, fun ch h => ?_, fun q h => ?_, fun hc => ?_⟩
  · rw [hp] at h
    cases h
    exact (hl nofun).first ch rfl
  · rw [hp] at h
    cases h
    exact (hl nofun).serving rfl
  · have hchannels := channels_run r hc
    have hopened : s.opened ≤ UDP_POOL_SIZE := by
      unfold Service.channels at hchannels
      omega
    refine ⟨hopened, ?_⟩
    unfold Service.sendDataChannel
    split
    · simp
    · rename_i he
      -- the queue holds none that has not been opened
      have hlen : s.data_ch.items.length ≤ s.opened := by
        have hne : p ≠ .ended := by
          rintro rfl
          rw [hp] at he
          exact he rfl
        cases hs : p.served with
        | false => rw [(hl hne).waiting hs, List.length_range]
        | true =>
            rw [((hl hne).serving hs).2, List.length_tail, List.length_range]
            exact Nat.sub_le _ _
      have hlt : s.data_ch.items.length < CHAN_SIZE * 2 := by
        simp only [UDP_POOL_SIZE, CHAN_SIZE] at hopened ⊢
        omega
      simp [Mpsc.send, hlt]

/-- Both data channels come in; the pool relays over one of them. -/
theorem udp_accounting_relaying : ∃ tr s, (service .udp 30).Run tr s ∧
    s.pool = .udp (.relaying .select) ∧ s.data_ch.items = [1] ∧ UdpAccounted tr s := by
  obtain ⟨s, hs, hp, hq⟩ : ∃ s, (service .udp 30).exec (.new .udp 30)
      [.control .request, .control (.written true), .control .request, .control (.written true),
        .client .command, .client .command, .client .deliver, .pool .bound, .pool .recvDataChannel,
        .client .deliver, .pool (.written true)] = some s ∧
      s.pool = .udp (.relaying .select) ∧ s.data_ch.items = [1] := ⟨_, rfl, rfl, rfl⟩
  have r := run_trace (.start rfl) hs
  exact ⟨_, s, r, hp, hq, udp_accounting r⟩

end Penetrate.Server
