/-
  File:      Penetrate/Server/Accounting.lean
  Subject:   THE DATA CHANNELS OF A TCP SERVICE, COUNTED.

  Four tasks pass requests, visitors and data channels through three queues. A client that opens
  at most one data channel per command keeps `data_ch` below its capacity, so the send of
  `do_data_channel_handshake` never waits; and visitors and data channels are paired one to one,
  in the order the visitors came.

  * `requests_step` -- which steps send a request and which one takes it;
  * `AccountInv` -- **the invariant**: what is on its way to the pool is covered by the initial
    requests and the visitors still waiting, and the lines of visitors and of data channels keep
    their order;
  * `accounting` -- the balance, the bound, the pairing and the order, on every run.
-/
import Penetrate.Server.Requests

namespace Penetrate.Server

open Concurrent Machine

/-! ## 1. Requests -/

/-- What the steps of a run amount to. -/
def total (f : Service → ServiceAct → Nat) : List (Service × ServiceAct) → Nat
  | [] => 0
  | p :: tr => total f tr + f p.1 p.2

/-- The control channel takes a request from the queue. -/
def takes (_ : Service) (a : ServiceAct) : Nat := if a = .control .request then 1 else 0

/-- The listener sends the request for a visitor; that fails once the control channel has
    ended. -/
def announces (s : Service) (a : ServiceAct) : Nat :=
  if a = .listener .accept ∧ s.control ≠ .ended then 1 else 0

/-- The pool sends the request for another data channel in place of a broken one. -/
def reRequests (s : Service) (a : ServiceAct) : Nat :=
  if a = .pool (.written false) ∧ s.control ≠ .ended then 1 else 0

/-- The requests issued on a run: the ones the control channel has taken, and the ones queued. -/
def requestsIssued (tr : List (Service × ServiceAct)) (s : Service) : Nat :=
  total takes tr + s.data_ch_req

/-- Only the listener and the pool send requests, only the control channel takes one. -/
theorem requests_step {s s' : Service} {a : ServiceAct} (ht : s.pool.serviceType = .tcp)
    (h : ServiceStep s a s') :
    takes s a + s'.data_ch_req = s.data_ch_req + announces s a + reRequests s a := by
  cases h with
  | control h =>
      cases h with
      | request hc hr =>
          simp only [takes, announces, reRequests, if_true, reduceCtorEq, false_and, if_false]
          omega
      | _ => simp [takes, announces, reRequests]
  | listener hp h =>
      cases h with
      | accept hl hc => simp [takes, announces, reRequests, hc]
      | acceptClosed hl hc => simp [takes, announces, reRequests, hc]
      | _ => simp [takes, announces, reRequests]
  | tcpPool hp h =>
      cases h with
      | broken v ch he hc => simp [takes, announces, reRequests, hc]
      | brokenClosed v ch he hc => simp [takes, announces, reRequests, hc]
      | _ => simp [takes, announces, reRequests]
  | udpPool hp h =>
      rw [hp] at ht
      cases ht
  | client h => cases h <;> simp [takes, announces, reRequests]
  | drop => simp [takes, announces, reRequests]

theorem requests_run {hb : UInt64} {tr : List (Service × ServiceAct)} {s : Service}
    (r : (service .tcp hb).Run tr s) :
    requestsIssued tr s = TCP_POOL_SIZE + total announces tr + total reRequests tr := by
  induction r with
  | start h =>
      rw [show _ = Service.new .tcp hb from h]
      rfl
  | step r h ih =>
      have hs := requests_step (serviceType_run r) (service_cases h)
      simp only [requestsIssued, total] at ih ⊢
      omega

/-! ## 2. The lines -/

/-- The visitors announced and not forwarding yet, in the order they came. -/
def Listener.visitor : Listener → List Nat
  | .announcing v => [v]
  | _ => []

def TcpPool.visitor : TcpPool → List Nat
  | .recvDataChannel v => [v]
  | .writing v _ => [v]
  | _ => []

/-- The data channel the pool has taken for its visitor. -/
def TcpPool.channel : TcpPool → List Nat
  | .writing _ ch => [ch]
  | _ => []

def PoolTask.visitorLine : PoolTask → List Nat
  | .tcp l visitors p => p.visitor ++ (visitors.items ++ l.visitor)
  | .udp _ => []

def PoolTask.channel : PoolTask → List Nat
  | .tcp _ _ p => p.channel
  | .udp _ => []

/-- All visitors that are, or will be, served, in that order. -/
def Service.visitorLine (s : Service) : List Nat := s.forwarding.map Prod.fst ++ s.pool.visitorLine

/-- All data channels that have reached the queue, in the order they are taken. -/
def Service.channelLine (s : Service) : List Nat :=
  s.forwarding.map Prod.snd ++ (s.pool.channel ++ s.data_ch.items)

/-- What is on its way to the queue of data channels, or in it. Requests count as long as the
    control channel takes them. -/
def Service.coming (s : Service) : Nat :=
  (if s.control = .ended then 0
    else s.data_ch_req + if s.control = .writing .createDataChannel then 1 else 0) +
    s.commands + s.attempts + s.data_ch.items.length

/-- **The invariant of the accounts.** -/
structure AccountInv (s : Service) : Prop where
  tcp : s.pool.serviceType = .tcp
  visitors : Numbered s.visitorLine s.visitors
  channels : Numbered s.channelLine s.opened
  /-- a pool that has ended takes nothing more in -/
  covered : s.pool.ended = false → s.coming ≤ TCP_POOL_SIZE + s.pool.visitorsWaiting
  bounded : s.data_ch.items.length ≤ TCP_POOL_SIZE + CHAN_SIZE + 2

/-- One visitor being announced, a full queue of them, and one in the pool's hand. -/
theorem visitorsWaiting_le (p : PoolTask) : p.visitorsWaiting ≤ CHAN_SIZE + 2 := by
  cases p with
  | udp p => exact Nat.zero_le _
  | tcp l visitors p =>
      have hq := visitors.bound
      have hl : l.visitorsWaiting ≤ 1 := by cases l <;> simp [Listener.visitorsWaiting]
      have hp : p.visitorsWaiting ≤ 1 := by cases p <;> simp [TcpPool.visitorsWaiting]
      simp only [PoolTask.visitorsWaiting]
      omega

/-- Whether a TCP pool has ended is up to the pool alone. -/
theorem PoolTask.ended_congr {l l' : Listener} {visitors visitors' : Mpsc Nat CHAN_SIZE}
    {p : TcpPool} :
    (PoolTask.tcp l visitors p).ended = (PoolTask.tcp l' visitors' p).ended := by
  cases p <;> rfl

theorem Service.queued_le_coming (s : Service) : s.data_ch.items.length ≤ s.coming := by
  unfold Service.coming
  omega

theorem accountInv_new (hb : UInt64) : AccountInv (.new .tcp hb) where
  tcp := rfl
  visitors := .nil
  channels := .nil
  covered := fun _ => Nat.le_refl _
  bounded := Nat.zero_le _

theorem accountInv_control {s s' : Service} {a : ControlAct} (hI : AccountInv s)
    (h : ControlStep s a s') : AccountInv s' := by
  -- a request only moves on, and is lost where the channel ends
  have hkeep : s'.coming ≤ s.coming := by
    unfold Service.coming
    cases h with
    | request hc hr =>
        simp only [hc, if_true, reduceCtorEq, if_false]
        omega
    | written cmd hc =>
        cases cmd <;> simp [hc]
        omega
    | heartbeat hc hi => simp [hc]
    | requestsClosed hc => simp [hc]
    | shutdown hc => simp [hc]
    | writeError cmd hc =>
        simp only [hc, if_true, reduceCtorEq, if_false]
        omega
  obtain ⟨ht, hv, hc, hcov, hb⟩ := hI
  have hcov' := fun he => hkeep.trans (hcov he)
  cases h <;> exact ⟨ht, hv, hc, hcov', hb⟩

theorem accountInv_listener {s s' : Service} {a : ListenerAct} {l : Listener}
    {visitors : Mpsc Nat CHAN_SIZE} {p : TcpPool} (hI : AccountInv s)
    (hp : s.pool = .tcp l visitors p) (h : ListenerStep s l visitors p a s') : AccountInv s' := by
  obtain ⟨ht, hv, hc, hcov, hb⟩ := hI
  simp only [Service.visitorLine, Service.channelLine, hp] at ht hv hc hcov
  cases h with
  | bound hl =>
      subst hl
      exact ⟨ht, hv, hc, fun he => hcov (PoolTask.ended_congr.trans he), hb⟩
  | acceptClosed hl hc' =>
      subst hl
      exact ⟨ht, hv.skip, hc, fun he => hcov (PoolTask.ended_congr.trans he), hb⟩
  | accept hl hc' =>
      subst hl
      refine ⟨ht, ?_, hc, fun he => ?_, hb⟩
      · have hline := hv.push
        simpa [Service.visitorLine, PoolTask.visitorLine, Listener.visitor] using hline
      · have hle := hcov (PoolTask.ended_congr.trans he)
        simp only [Service.coming, hc', if_false, PoolTask.visitorsWaiting,
          Listener.visitorsWaiting] at hle ⊢
        omega
  | enqueueClosed v hl he =>
      subst hl he
      refine ⟨ht, hv.sublist ?_, hc, fun he => ?_, hb⟩
      · simp [Service.visitorLine, PoolTask.visitorLine, Listener.visitor]
      · cases he
  | enqueue v q hl he hq =>
      subst hl
      have hitems := (Mpsc.send_eq_some hq).1
      refine ⟨ht, ?_, hc, fun hne => ?_, hb⟩
      · simpa [Service.visitorLine, PoolTask.visitorLine, Listener.visitor, hitems] using hv
      · have hle := hcov (PoolTask.ended_congr.trans hne)
        simp only [Service.coming, PoolTask.visitorsWaiting, Listener.visitorsWaiting, hitems,
          List.length_append, List.length_singleton] at hle ⊢
        omega
  | shutdown hl hh =>
      rcases hl with rfl | rfl <;>
        exact ⟨ht, hv, hc, fun he => hcov (PoolTask.ended_congr.trans he), hb⟩

theorem accountInv_pool {s s' : Service} {a : PoolAct} {l : Listener}
    {visitors : Mpsc Nat CHAN_SIZE} {p : TcpPool} (hI : AccountInv s)
    (hp : s.pool = .tcp l visitors p) (h : TcpPoolStep s l visitors p a s') : AccountInv s' := by
  obtain ⟨ht, hv, hc, hcov, hb⟩ := hI
  simp only [Service.visitorLine, Service.channelLine, hp] at ht hv hc hcov
  cases h with
  | recvVisitor v q he hq =>
      subst he
      have hitems := Mpsc.recv_eq_some hq
      refine ⟨ht, ?_, hc, fun _ => ?_, hb⟩
      · simpa [Service.visitorLine, PoolTask.visitorLine, TcpPool.visitor, hitems] using hv
      · have hle := hcov rfl
        simp only [Service.coming, PoolTask.visitorsWaiting, TcpPool.visitorsWaiting, hitems,
          List.length_cons] at hle ⊢
        omega
  | visitorsClosed he hq hl =>
      subst he
      exact ⟨ht, hv, hc, (fun he => by cases he), hb⟩
  | recvDataChannel v ch q he hq =>
      subst he
      have hitems := Mpsc.recv_eq_some hq
      refine ⟨ht, hv, ?_, fun _ => ?_, ?_⟩
      · simpa [Service.channelLine, PoolTask.channel, TcpPool.channel, hitems] using hc
      · have hle := hcov rfl
        simp only [Service.coming, PoolTask.visitorsWaiting, TcpPool.visitorsWaiting, hitems,
          List.length_cons] at hle ⊢
        omega
      · simp only [hitems, List.length_cons] at hb
        exact Nat.le_of_succ_le hb
  | dataChannelsClosed v he hq hh =>
      subst he
      refine ⟨ht, hv.sublist ?_, hc, (fun he => by cases he), hb⟩
      simp [Service.visitorLine, PoolTask.visitorLine, TcpPool.visitor]
  | written v ch he =>
      subst he
      refine ⟨ht, ?_, ?_, fun _ => hcov rfl, hb⟩
      · simpa [Service.visitorLine, PoolTask.visitorLine, TcpPool.visitor] using hv
      · simpa [Service.channelLine, PoolTask.channel, TcpPool.channel] using hc
  | brokenClosed v ch he hc' =>
      subst he
      refine ⟨ht, hv.sublist ?_, hc.sublist ?_, (fun he => by cases he), hb⟩
      · simp [Service.visitorLine, PoolTask.visitorLine, TcpPool.visitor]
      · simp [Service.channelLine, PoolTask.channel, TcpPool.channel]
  | broken v ch he hc' =>
      -- the data channel leaves the line, its visitor stays and waits again
      subst he
      refine ⟨ht, hv, hc.sublist ?_, fun _ => ?_, hb⟩
      · simp [Service.channelLine, PoolTask.channel, TcpPool.channel]
      · have hle := hcov rfl
        simp only [Service.coming, hc', if_false, PoolTask.visitorsWaiting,
          TcpPool.visitorsWaiting] at hle ⊢
        omega

theorem accountInv_client {s s' : Service} {a : ClientAct} (hI : AccountInv s)
    (hs : a ≠ .stray) (h : ClientStep s a s') : AccountInv s' := by
  obtain ⟨ht, hv, hc, hcov, hb⟩ := hI
  cases h with
  | command hp =>
      refine ⟨ht, hv, hc, fun he => ?_, hb⟩
      have hle := hcov he
      simp only [Service.coming] at hle ⊢
      omega
  | attemptFails ha =>
      refine ⟨ht, hv, hc, fun he => ?_, hb⟩
      have hle := hcov he
      simp only [Service.coming] at hle ⊢
      omega
  | deliver q ha hh hp hq =>
      have hitems := (Mpsc.send_eq_some hq).1
      have hle := hcov hp
      have hcov' : Service.coming
          { s with data_ch := q, opened := s.opened + 1, attempts := s.attempts - 1 } ≤
          TCP_POOL_SIZE + s.pool.visitorsWaiting := by
        simp only [Service.coming, hitems, List.length_append, List.length_singleton] at hle ⊢
        omega
      refine ⟨ht, hv, ?_, fun _ => hcov', ?_⟩
      · have hline := hc.push
        simpa [Service.channelLine, hitems] using hline
      · -- the attempt that delivers is one of those the invariant covers
        have hw := visitorsWaiting_le s.pool
        have hq' := Service.queued_le_coming
          { s with data_ch := q, opened := s.opened + 1, attempts := s.attempts - 1 }
        show q.items.length ≤ _
        have : q.items.length ≤ _ := hq'.trans hcov'
        omega
  | deliverLost ha hh hp =>
      refine ⟨ht, hv, hc.skip, fun he => ?_, hb⟩
      rw [show s.pool.ended = false from he] at hp
      cases hp
  | stray => exact absurd rfl hs
  | strayLost => exact absurd rfl hs

/-- **One step keeps the accounts**, the client asking for no more than it was told to. -/
theorem accountInv_step {s s' : Service} {a : ServiceAct} (hI : AccountInv s)
    (hs : a ≠ .client .stray) (h : ServiceStep s a s') : AccountInv s' := by
  cases h with
  | control h => exact accountInv_control hI h
  | listener hp h => exact accountInv_listener hI hp h
  | tcpPool hp h => exact accountInv_pool hI hp h
  | udpPool hp h =>
      have ht := hI.tcp
      rw [hp] at ht
      cases ht
  | client h => exact accountInv_client hI (fun he => hs (he ▸ rfl)) h
  | drop => exact ⟨hI.tcp, hI.visitors, hI.channels, hI.covered, hI.bounded⟩

/-! ## 3. Runs -/

/-- The client opens no data channel but in answer to a command. -/
def Conforming (_ : Service) (a : ServiceAct) : Prop := a ≠ .client .stray

/-- The pairs of visitor and data channel: those forwarding, and the one whose data channel is
    being told to. -/
def Service.pairs (s : Service) : List (Nat × Nat) :=
  s.forwarding ++ match s.pool with
    | .tcp _ _ (.writing v ch) => [(v, ch)]
    | _ => []

/-- Pairs are made in the order both sides came. -/
theorem AccountInv.pairs {s : Service} (hI : AccountInv s) :
    s.pairs.Pairwise fun p q => p.1 < q.1 ∧ p.2 < q.2 := by
  have hv : (s.pairs.map Prod.fst).Pairwise (· < ·) := by
    refine hI.visitors.1.sublist ?_
    unfold Service.pairs Service.visitorLine
    rw [List.map_append]
    refine List.Sublist.append (List.Sublist.refl _) ?_
    split
    · rename_i l visitors v ch hp
      simp [hp, PoolTask.visitorLine, TcpPool.visitor]
    · exact List.nil_sublist _
  have hc : (s.pairs.map Prod.snd).Pairwise (· < ·) := by
    refine hI.channels.1.sublist ?_
    unfold Service.pairs Service.channelLine
    rw [List.map_append]
    refine List.Sublist.append (List.Sublist.refl _) ?_
    split
    · rename_i l visitors v ch hp
      simp [hp, PoolTask.channel, TcpPool.channel]
    · exact List.nil_sublist _
  exact (List.pairwise_map.mp hv).and (List.pairwise_map.mp hc)

/-- The accounts of a service after a run. -/
structure Accounted (tr : List (Service × ServiceAct)) (s : Service) : Prop where
  requests : requestsIssued tr s = TCP_POOL_SIZE + total announces tr + total reRequests tr
  bounded : s.data_ch.items.length ≤ TCP_POOL_SIZE + CHAN_SIZE + 2
  below_capacity : s.data_ch.items.length < CHAN_SIZE * 2
  /-- the send of `do_data_channel_handshake` goes through at once -/
  sends : s.sendDataChannel ≠ none
  visitor_once : ∀ p ∈ s.pairs, ∀ q ∈ s.pairs, p.1 = q.1 → p = q
  channel_once : ∀ p ∈ s.pairs, ∀ q ∈ s.pairs, p.2 = q.2 → p = q
  /-- visitors start forwarding in the order they were accepted, each of them once -/
  in_order : s.forwarding.Pairwise fun p q => p.1 < q.1

/-- **The accounts of a TCP service balance**, whatever its tasks, its visitors and its client do,
    as long as the client opens at most one data channel per command. -/
theorem accounting {hb : UInt64} {tr : List (Service × ServiceAct)} {s : Service}
    (r : (service .tcp hb).Run tr s) (hc : Guarded Conforming tr) : Accounted tr s := by
  have hI : AccountInv s :=
    r.inv (M := service .tcp hb) (I := AccountInv) (fun _ h => h ▸ accountInv_new hb)
      (fun s a s' hI hs h => accountInv_step hI hs (service_cases h)) hc
  have hbound := hI.bounded
  have hlt : s.data_ch.items.length < CHAN_SIZE * 2 := by
    simp only [TCP_POOL_SIZE, CHAN_SIZE] at hbound ⊢
    omega
  have hpairs := hI.pairs
  refine ⟨requests_run r, hbound, hlt, ?_, ?_, ?_, ?_⟩
  · unfold Service.sendDataChannel
    split
    · simp
    · simp [Mpsc.send, hlt]
  · intro p hp q hq he
    rcases rising_once hpairs hp hq with h | ⟨h, _⟩
    · exact h
    · exact absurd he h
  · intro p hp q hq he
    rcases rising_once hpairs hp hq with h | ⟨_, h⟩
    · exact h
    · exact absurd he h
  · have hf : s.forwarding.Sublist s.pairs := List.sublist_append_left _ _
    exact (hpairs.sublist hf).imp fun h => h.1

/-- One visitor, and the data channel that answers the first request. -/
theorem accounting_visitor : ∃ tr s, (service .tcp 30).Run tr s ∧ s.forwarding = [(0, 0)] ∧
    Accounted tr s := by
  have r : ∃ tr s, (service .tcp 30).Run tr s ∧ s.forwarding = [(0, 0)] ∧ Guarded Conforming tr := by
    refine ⟨_, _, .step (a := .pool (.written true)) (.step (a := .pool .recvDataChannel)
      (.step (a := .pool .recvVisitor) (.step (a := .client .deliver)
      (.step (a := .client .command) (.step (a := .control (.written true))
      (.step (a := .control .request) (.step (a := .listener .enqueue)
      (.step (a := .listener .accept) (.step (a := .listener .bound)
      (.start rfl) rfl) rfl) rfl) rfl) rfl) rfl) rfl) rfl) rfl) rfl, rfl, ?_⟩
    simp [Guarded, Conforming]
  obtain ⟨tr, s, r, hf, hc⟩ := r
  exact ⟨tr, s, r, hf, accounting r hc⟩

end Penetrate.Server
