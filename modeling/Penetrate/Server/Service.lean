/-
  File:      Penetrate/Server/Service.lean
  Subject:   ONE SERVICE ON THE SERVER: the tasks of `ControlChannelHandle::new` and the client they
             serve.

  The control channel writes one command for each request it finds in `data_ch_req`; the listener
  asks for one data channel per visitor; the pool pairs visitors with data channels (TCP) or takes
  a single one (UDP). Visitors and data channels are numbered in the order they arrive. The client
  runs one attempt per command; an attempt delivers a data channel or fails.

  * `ControlChannel.run`, `tcp_listen_and_send`, `run_tcp_connection_pool`,
    `run_udp_connection_pool`, `clientSide` -- the steps of each task;
  * `service` -- the machine. `drop` drops the handle; `stray` is a data channel nobody asked for;
  * `ServiceStep`, `service_cases` -- the rules of the step functions with their guards.
-/
import Penetrate.Config
import Penetrate.Server.UdpPool
import Penetrate.Concurrent.Mpsc

namespace Penetrate.Server

open Concurrent Machine

/-! ## 1. The tasks -/

/-- Where `ControlChannel::run` is. -/
inductive Control where
  | select
  /-- in `write_and_flush` -/
  | writing (cmd : ControlChannelCmd)
  | ended
  deriving DecidableEq, Repr

/-- Where the task of `tcp_listen_and_send` is. -/
inductive Listener where
  | binding
  | select
  /-- visitor `v` is accepted and its request sent; in `tx.send(incoming)` -/
  | announcing (v : Nat)
  | ended
  deriving DecidableEq, Repr

/-- Where `run_tcp_connection_pool` is. -/
inductive TcpPool where
  | recvVisitor
  /-- in `data_ch_rx.recv()` with visitor `v` in hand -/
  | recvDataChannel (v : Nat)
  /-- in `ch.write_all(&cmd)` on data channel `ch` -/
  | writing (v ch : Nat)
  | ended
  deriving DecidableEq, Repr

/-- Where `run_udp_connection_pool` is. -/
inductive UdpPool where
  | binding
  | recvDataChannel
  | writing (ch : Nat)
  | relaying (p : PoolPhase)
  | ended
  deriving DecidableEq, Repr

/-- The pool task; with TCP, also the listener and the queue of visitors between them. -/
inductive PoolTask where
  | tcp (l : Listener) (visitors : Mpsc Nat CHAN_SIZE) (p : TcpPool)
  | udp (p : UdpPool)

/-- A service from the creation of its handle on. -/
structure Service where
  /-- the `ControlChannelHandle` has not been dropped -/
  handle : Bool
  heartbeat_interval : UInt64
  /-- the requests queued in `data_ch_req` -/
  data_ch_req : Nat
  control : Control
  data_ch : Mpsc Nat (CHAN_SIZE * 2)
  pool : PoolTask
  /-- commands written and not read by the client -/
  commands : Nat
  /-- `run_data_channel` attempts of the client under way -/
  attempts : Nat
  /-- visitors and data channels so far -/
  visitors : Nat
  opened : Nat
  /-- the pairs that have started forwarding -/
  forwarding : List (Nat × Nat)

inductive ControlAct where
  | request
  | requestsClosed
  | heartbeat
  | shutdown
  | written (ok : Bool)
  deriving DecidableEq, Repr

inductive ListenerAct where
  | bound
  | accept
  | enqueue
  | shutdown
  deriving DecidableEq, Repr

inductive PoolAct where
  | bound
  | recvVisitor
  | recvDataChannel
  | written (ok : Bool)
  | relay (e : PoolEvent)
  | shutdown
  deriving DecidableEq, Repr

inductive ClientAct where
  | command
  | attemptFails
  | deliver
  | stray
  deriving DecidableEq, Repr

inductive ServiceAct where
  | control (a : ControlAct)
  | listener (a : ListenerAct)
  | pool (a : PoolAct)
  | client (a : ClientAct)
  | drop
  deriving DecidableEq, Repr

/-- The pool has returned: its ends of the channels are gone. -/
def PoolTask.ended : PoolTask → Bool
  | .tcp _ _ .ended => true
  | .udp .ended => true
  | _ => false

/-- Nobody is left to send a request. -/
def PoolTask.requestsClosed : PoolTask → Bool
  | .tcp .ended _ .ended => true
  | .udp .ended => true
  | _ => false

/-! ## 2. The steps -/

/-- `ControlChannel::run`. -/
def ControlChannel.run (s : Service) (a : ControlAct) : Option Service :=
  match a, s.control with
  | .request, .select =>
      if 0 < s.data_ch_req then
        some { s with data_ch_req := s.data_ch_req - 1, control := .writing .createDataChannel }
      else none
  | .requestsClosed, .select =>
      if s.data_ch_req = 0 ∧ s.pool.requestsClosed = true then some { s with control := .ended }
      else none
  | .heartbeat, .select =>
      if s.heartbeat_interval ≠ 0 then some { s with control := .writing .heartBeat } else none
  -- the broadcast channel closes with the handle
  | .shutdown, .select => if s.handle then none else some { s with control := .ended }
  | .written true, .writing cmd =>
      some { s with
        control := .select
        commands := if cmd = .createDataChannel then s.commands + 1 else s.commands }
  | .written false, .writing _ => some { s with control := .ended }
  | _, _ => none

/-- The task of `tcp_listen_and_send`. -/
def tcp_listen_and_send (s : Service) (a : ListenerAct) : Option Service :=
  match s.pool with
  | .udp _ => none
  | .tcp l visitors p =>
      match a, l with
      | .bound, .binding => some { s with pool := .tcp .select visitors p }
      | .accept, .select =>
          -- the request fails once the control channel has ended
          if s.control = .ended then
            some { s with pool := .tcp .ended visitors p, visitors := s.visitors + 1 }
          else
            some { s with
              data_ch_req := s.data_ch_req + 1
              pool := .tcp (.announcing s.visitors) visitors p
              visitors := s.visitors + 1 }
      | .enqueue, .announcing v =>
          if p = .ended then some { s with pool := .tcp .select visitors p }
          else (visitors.send v).map fun q => { s with pool := .tcp .select q p }
      | .shutdown, .binding =>
          if s.handle then none else some { s with pool := .tcp .ended visitors p }
      | .shutdown, .select =>
          if s.handle then none else some { s with pool := .tcp .ended visitors p }
      | _, _ => none

/-- `run_tcp_connection_pool`. -/
def run_tcp_connection_pool (s : Service) (l : Listener) (visitors : Mpsc Nat CHAN_SIZE)
    (p : TcpPool) (a : PoolAct) : Option Service :=
  match a, p with
  | .recvVisitor, .recvVisitor =>
      match visitors.recv with
      | some (v, q) => some { s with pool := .tcp l q (.recvDataChannel v) }
      | none => if l = .ended then some { s with pool := .tcp l visitors .ended } else none
  | .recvDataChannel, .recvDataChannel v =>
      match s.data_ch.recv with
      | some (ch, q) => some { s with data_ch := q, pool := .tcp l visitors (.writing v ch) }
      | none => if s.handle then none else some { s with pool := .tcp l visitors .ended }
  | .written true, .writing v ch =>
      some { s with pool := .tcp l visitors .recvVisitor, forwarding := s.forwarding ++ [(v, ch)] }
  | .written false, .writing v _ =>
      -- the data channel is broken: request a new one
      if s.control = .ended then some { s with pool := .tcp l visitors .ended }
      else
        some { s with
          data_ch_req := s.data_ch_req + 1
          pool := .tcp l visitors (.recvDataChannel v) }
  | _, _ => none

/-- `run_udp_connection_pool`. -/
def run_udp_connection_pool (s : Service) (p : UdpPool) (a : PoolAct) : Option Service :=
  match a, p with
  | .bound, .binding => some { s with pool := .udp .recvDataChannel }
  | .shutdown, .binding => if s.handle then none else some { s with pool := .udp .ended }
  | .recvDataChannel, .recvDataChannel =>
      match s.data_ch.recv with
      | some (ch, q) => some { s with data_ch := q, pool := .udp (.writing ch) }
      | none => if s.handle then none else some { s with pool := .udp .ended }
  | .written true, .writing _ => some { s with pool := .udp (.relaying .select) }
  | .written false, .writing _ => some { s with pool := .udp .ended }
  | .relay e, .relaying q =>
      if e = .shutdown ∧ s.handle = true then none
      else match runUdpConnectionPool q e with
        | some (.ended _) => some { s with pool := .udp .ended }
        | some q' => some { s with pool := .udp (.relaying q') }
        | none => none
  | _, _ => none

def runPool (s : Service) (a : PoolAct) : Option Service :=
  match s.pool with
  | .tcp l visitors p => run_tcp_connection_pool s l visitors p a
  | .udp p => run_udp_connection_pool s p a

/-- `handle.data_ch_tx.send(conn)`: `none` while the queue is full; the data channel is lost when
    the pool has dropped the receiver. -/
def Service.sendDataChannel (s : Service) : Option Service :=
  if s.pool.ended then some { s with opened := s.opened + 1 }
  else (s.data_ch.send s.opened).map fun q => { s with data_ch := q, opened := s.opened + 1 }

/-- The client, and what it opens towards the server. -/
def clientSide (s : Service) (a : ClientAct) : Option Service :=
  match a with
  | .command =>
      if 0 < s.commands then some { s with commands := s.commands - 1, attempts := s.attempts + 1 }
      else none
  | .attemptFails => if 0 < s.attempts then some { s with attempts := s.attempts - 1 } else none
  | .deliver =>
      if 0 < s.attempts ∧ s.handle = true then
        s.sendDataChannel.map fun s' => { s' with attempts := s.attempts - 1 }
      else none
  | .stray => if s.handle then s.sendDataChannel else none

def Service.step (s : Service) : ServiceAct → Option Service
  | .control a => ControlChannel.run s a
  | .listener a => tcp_listen_and_send s a
  | .pool a => runPool s a
  | .client a => clientSide s a
  | .drop => if s.handle then some { s with handle := false } else none

def poolSize : ServiceType → Nat
  | .tcp => TCP_POOL_SIZE
  | .udp => UDP_POOL_SIZE

/-- `ControlChannelHandle::new`. -/
def Service.new (service_type : ServiceType) (heartbeat_interval : UInt64) : Service where
  handle := true
  heartbeat_interval := heartbeat_interval
  data_ch_req := poolSize service_type
  control := .select
  data_ch := .empty
  pool := match service_type with
    | .tcp => .tcp .binding .empty .recvVisitor
    | .udp => .udp .binding
  commands := 0
  attempts := 0
  visitors := 0
  opened := 0
  forwarding := []

/-- **One service**, against every client and all visitors. -/
def service (service_type : ServiceType) (heartbeat_interval : UInt64) :
    Machine Service ServiceAct where
  start s := s = .new service_type heartbeat_interval
  step := Service.step

/-! ## 3. The rules -/

inductive ControlStep (s : Service) : ControlAct → Service → Prop where
  | request (hc : s.control = .select) (hr : 0 < s.data_ch_req) :
      ControlStep s .request
        { s with data_ch_req := s.data_ch_req - 1, control := .writing .createDataChannel }
  | requestsClosed (hc : s.control = .select) (hr : s.data_ch_req = 0)
      (hp : s.pool.requestsClosed = true) :
      ControlStep s .requestsClosed { s with control := .ended }
  | heartbeat (hc : s.control = .select) (hi : s.heartbeat_interval ≠ 0) :
      ControlStep s .heartbeat { s with control := .writing .heartBeat }
  | shutdown (hc : s.control = .select) (hh : s.handle = false) :
      ControlStep s .shutdown { s with control := .ended }
  | written (cmd : ControlChannelCmd) (hc : s.control = .writing cmd) :
      ControlStep s (.written true)
        { s with
          control := .select
          commands := if cmd = .createDataChannel then s.commands + 1 else s.commands }
  | writeError (cmd : ControlChannelCmd) (hc : s.control = .writing cmd) :
      ControlStep s (.written false) { s with control := .ended }

theorem control_cases {s s' : Service} {a : ControlAct} (h : ControlChannel.run s a = some s') :
    ControlStep s a s' := by
  unfold ControlChannel.run at h
  split at h
  · rename_i hc
    split at h
    · rename_i hr
      cases h
      exact .request hc hr
    · cases h
  · rename_i hc
    split at h
    · rename_i hr
      cases h
      exact .requestsClosed hc hr.1 hr.2
    · cases h
  · rename_i hc
    split at h
    · rename_i hi
      cases h
      exact .heartbeat hc hi
    · cases h
  · rename_i hc
    split at h
    · cases h
    · rename_i hh
      cases h
      exact .shutdown hc (by simpa using hh)
  · rename_i cmd hc
    cases h
    exact .written cmd hc
  · rename_i cmd hc
    cases h
    exact .writeError cmd hc
  · cases h

inductive ListenerStep (s : Service) (l : Listener) (visitors : Mpsc Nat CHAN_SIZE) (p : TcpPool) :
    ListenerAct → Service → Prop where
  | bound (hl : l = .binding) :
      ListenerStep s l visitors p .bound { s with pool := .tcp .select visitors p }
  | acceptClosed (hl : l = .select) (hc : s.control = .ended) :
      ListenerStep s l visitors p .accept
        { s with pool := .tcp .ended visitors p, visitors := s.visitors + 1 }
  | accept (hl : l = .select) (hc : s.control ≠ .ended) :
      ListenerStep s l visitors p .accept
        { s with
          data_ch_req := s.data_ch_req + 1
          pool := .tcp (.announcing s.visitors) visitors p
          visitors := s.visitors + 1 }
  | enqueueClosed (v : Nat) (hl : l = .announcing v) (hp : p = .ended) :
      ListenerStep s l visitors p .enqueue { s with pool := .tcp .select visitors p }
  | enqueue (v : Nat) (q : Mpsc Nat CHAN_SIZE) (hl : l = .announcing v) (hp : p ≠ .ended)
      (hq : visitors.send v = some q) :
      ListenerStep s l visitors p .enqueue { s with pool := .tcp .select q p }
  | shutdown (hl : l = .binding ∨ l = .select) (hh : s.handle = false) :
      ListenerStep s l visitors p .shutdown { s with pool := .tcp .ended visitors p }

theorem listener_cases {s s' : Service} {a : ListenerAct} (h : tcp_listen_and_send s a = some s') :
    ∃ l visitors p, s.pool = .tcp l visitors p ∧ ListenerStep s l visitors p a s' := by
  unfold tcp_listen_and_send at h
  split at h
  · cases h
  · rename_i l visitors p hp
    refine ⟨l, visitors, p, hp, ?_⟩
    split at h
    · cases h
      exact .bound rfl
    · split at h
      · rename_i hc
        cases h
        exact .acceptClosed rfl hc
      · rename_i hc
        cases h
        exact .accept rfl hc
    · rename_i v
      split at h
      · rename_i he
        cases h
        exact .enqueueClosed v rfl he
      · rename_i he
        obtain ⟨q, hq, rfl⟩ := Option.map_eq_some_iff.mp h
        exact .enqueue v q rfl he hq
    · split at h
      · cases h
      · rename_i hh
        cases h
        exact .shutdown (Or.inl rfl) (by simpa using hh)
    · split at h
      · cases h
      · rename_i hh
        cases h
        exact .shutdown (Or.inr rfl) (by simpa using hh)
    · cases h

inductive TcpPoolStep (s : Service) (l : Listener) (visitors : Mpsc Nat CHAN_SIZE) (p : TcpPool) :
    PoolAct → Service → Prop where
  | recvVisitor (v : Nat) (q : Mpsc Nat CHAN_SIZE) (hp : p = .recvVisitor)
      (hq : visitors.recv = some (v, q)) :
      TcpPoolStep s l visitors p .recvVisitor { s with pool := .tcp l q (.recvDataChannel v) }
  | visitorsClosed (hp : p = .recvVisitor) (hq : visitors.recv = none) (hl : l = .ended) :
      TcpPoolStep s l visitors p .recvVisitor { s with pool := .tcp l visitors .ended }
  | recvDataChannel (v ch : Nat) (q : Mpsc Nat (CHAN_SIZE * 2)) (hp : p = .recvDataChannel v)
      (hq : s.data_ch.recv = some (ch, q)) :
      TcpPoolStep s l visitors p .recvDataChannel
        { s with data_ch := q, pool := .tcp l visitors (.writing v ch) }
  | dataChannelsClosed (v : Nat) (hp : p = .recvDataChannel v) (hq : s.data_ch.recv = none)
      (hh : s.handle = false) :
      TcpPoolStep s l visitors p .recvDataChannel { s with pool := .tcp l visitors .ended }
  | written (v ch : Nat) (hp : p = .writing v ch) :
      TcpPoolStep s l visitors p (.written true)
        { s with pool := .tcp l visitors .recvVisitor, forwarding := s.forwarding ++ [(v, ch)] }
  | brokenClosed (v ch : Nat) (hp : p = .writing v ch) (hc : s.control = .ended) :
      TcpPoolStep s l visitors p (.written false) { s with pool := .tcp l visitors .ended }
  | broken (v ch : Nat) (hp : p = .writing v ch) (hc : s.control ≠ .ended) :
      TcpPoolStep s l visitors p (.written false)
        { s with
          data_ch_req := s.data_ch_req + 1
          pool := .tcp l visitors (.recvDataChannel v) }

theorem tcpPool_cases {s s' : Service} {l : Listener} {visitors : Mpsc Nat CHAN_SIZE} {p : TcpPool}
    {a : PoolAct} (h : run_tcp_connection_pool s l visitors p a = some s') :
    TcpPoolStep s l visitors p a s' := by
  unfold run_tcp_connection_pool at h
  split at h
  · split at h
    · rename_i v q hq
      cases h
      exact .recvVisitor v q rfl hq
    · rename_i hq
      split at h
      · rename_i hl
        cases h
        exact .visitorsClosed rfl hq hl
      · cases h
  · rename_i v
    split at h
    · rename_i ch q hq
      cases h
      exact .recvDataChannel v ch q rfl hq
    · rename_i hq
      split at h
      · cases h
      · rename_i hh
        cases h
        exact .dataChannelsClosed v rfl hq (by simpa using hh)
  · rename_i v ch
    cases h
    exact .written v ch rfl
  · rename_i v ch
    split at h
    · rename_i hc
      cases h
      exact .brokenClosed v ch rfl hc
    · rename_i hc
      cases h
      exact .broken v ch rfl hc
  · cases h

inductive UdpPoolStep (s : Service) (p : UdpPool) : PoolAct → Service → Prop where
  | bound (hp : p = .binding) : UdpPoolStep s p .bound { s with pool := .udp .recvDataChannel }
  | shutdown (hp : p = .binding) (hh : s.handle = false) :
      UdpPoolStep s p .shutdown { s with pool := .udp .ended }
  | recvDataChannel (ch : Nat) (q : Mpsc Nat (CHAN_SIZE * 2)) (hp : p = .recvDataChannel)
      (hq : s.data_ch.recv = some (ch, q)) :
      UdpPoolStep s p .recvDataChannel { s with data_ch := q, pool := .udp (.writing ch) }
  | dataChannelsClosed (hp : p = .recvDataChannel) (hq : s.data_ch.recv = none)
      (hh : s.handle = false) :
      UdpPoolStep s p .recvDataChannel { s with pool := .udp .ended }
  | written (ch : Nat) (hp : p = .writing ch) :
      UdpPoolStep s p (.written true) { s with pool := .udp (.relaying .select) }
  | writeError (ch : Nat) (hp : p = .writing ch) :
      UdpPoolStep s p (.written false) { s with pool := .udp .ended }
  | relay (e : PoolEvent) (q q' : PoolPhase) (hp : p = .relaying q)
      (hs : ¬ (e = .shutdown ∧ s.handle = true)) (hq : runUdpConnectionPool q e = some q')
      (hn : ∀ why, q' ≠ .ended why) :
      UdpPoolStep s p (.relay e) { s with pool := .udp (.relaying q') }
  | relayEnds (e : PoolEvent) (q : PoolPhase) (why : PoolEnd) (hp : p = .relaying q)
      (hs : ¬ (e = .shutdown ∧ s.handle = true))
      (hq : runUdpConnectionPool q e = some (.ended why)) :
      UdpPoolStep s p (.relay e) { s with pool := .udp .ended }

theorem udpPool_cases {s s' : Service} {p : UdpPool} {a : PoolAct}
    (h : run_udp_connection_pool s p a = some s') : UdpPoolStep s p a s' := by
  unfold run_udp_connection_pool at h
  split at h
  · cases h
    exact .bound rfl
  · split at h
    · cases h
    · rename_i hh
      cases h
      exact .shutdown rfl (by simpa using hh)
  · split at h
    · rename_i ch q hq
      cases h
      exact .recvDataChannel ch q rfl hq
    · rename_i hq
      split at h
      · cases h
      · rename_i hh
        cases h
        exact .dataChannelsClosed rfl hq (by simpa using hh)
  · rename_i ch
    cases h
    exact .written ch rfl
  · rename_i ch
    cases h
    exact .writeError ch rfl
  · rename_i e q
    split at h
    · cases h
    · rename_i hs
      split at h
      · rename_i why hq
        cases h
        exact .relayEnds e q why rfl hs hq
      · rename_i q' hn hq
        cases h
        exact .relay e q q' rfl hs hq fun why hw => hn why hw
      · cases h
  · cases h

inductive ClientStep (s : Service) : ClientAct → Service → Prop where
  | command (hc : 0 < s.commands) :
      ClientStep s .command { s with commands := s.commands - 1, attempts := s.attempts + 1 }
  | attemptFails (ha : 0 < s.attempts) :
      ClientStep s .attemptFails { s with attempts := s.attempts - 1 }
  | deliver (q : Mpsc Nat (CHAN_SIZE * 2)) (ha : 0 < s.attempts) (hh : s.handle = true)
      (hp : s.pool.ended = false) (hq : s.data_ch.send s.opened = some q) :
      ClientStep s .deliver
        { s with data_ch := q, opened := s.opened + 1, attempts := s.attempts - 1 }
  | deliverLost (ha : 0 < s.attempts) (hh : s.handle = true) (hp : s.pool.ended = true) :
      ClientStep s .deliver { s with opened := s.opened + 1, attempts := s.attempts - 1 }
  | stray (q : Mpsc Nat (CHAN_SIZE * 2)) (hh : s.handle = true) (hp : s.pool.ended = false)
      (hq : s.data_ch.send s.opened = some q) :
      ClientStep s .stray { s with data_ch := q, opened := s.opened + 1 }
  | strayLost (hh : s.handle = true) (hp : s.pool.ended = true) :
      ClientStep s .stray { s with opened := s.opened + 1 }

theorem sendDataChannel_cases {s s' : Service} (h : s.sendDataChannel = some s') :
    (s.pool.ended = true ∧ s' = { s with opened := s.opened + 1 }) ∨
      ∃ q, s.pool.ended = false ∧ s.data_ch.send s.opened = some q ∧
        s' = { s with data_ch := q, opened := s.opened + 1 } := by
  unfold Service.sendDataChannel at h
  split at h
  · rename_i hp
    cases h
    exact Or.inl ⟨hp, rfl⟩
  · rename_i hp
    obtain ⟨q, hq, rfl⟩ := Option.map_eq_some_iff.mp h
    exact Or.inr ⟨q, by simpa using hp, hq, rfl⟩

theorem client_cases {s s' : Service} {a : ClientAct} (h : clientSide s a = some s') :
    ClientStep s a s' := by
  unfold clientSide at h
  split at h
  · split at h
    · rename_i hc
      cases h
      exact .command hc
    · cases h
  · split at h
    · rename_i ha
      cases h
      exact .attemptFails ha
    · cases h
  · split at h
    · rename_i hg
      obtain ⟨s1, hs, rfl⟩ := Option.map_eq_some_iff.mp h
      rcases sendDataChannel_cases hs with ⟨hp, rfl⟩ | ⟨q, hp, hq, rfl⟩
      · exact .deliverLost hg.1 hg.2 hp
      · exact .deliver q hg.1 hg.2 hp hq
    · cases h
  · split at h
    · rename_i hh
      rcases sendDataChannel_cases h with ⟨hp, rfl⟩ | ⟨q, hp, hq, rfl⟩
      · exact .strayLost hh hp
      · exact .stray q hh hp hq
    · cases h

/-- **What one step of a service can do.** -/
inductive ServiceStep (s : Service) : ServiceAct → Service → Prop where
  | control {a : ControlAct} {s' : Service} (h : ControlStep s a s') : ServiceStep s (.control a) s'
  | listener {a : ListenerAct} {s' : Service} {l : Listener} {visitors : Mpsc Nat CHAN_SIZE}
      {p : TcpPool} (hp : s.pool = .tcp l visitors p) (h : ListenerStep s l visitors p a s') :
      ServiceStep s (.listener a) s'
  | tcpPool {a : PoolAct} {s' : Service} {l : Listener} {visitors : Mpsc Nat CHAN_SIZE}
      {p : TcpPool} (hp : s.pool = .tcp l visitors p) (h : TcpPoolStep s l visitors p a s') :
      ServiceStep s (.pool a) s'
  | udpPool {a : PoolAct} {s' : Service} {p : UdpPool} (hp : s.pool = .udp p)
      (h : UdpPoolStep s p a s') : ServiceStep s (.pool a) s'
  | client {a : ClientAct} {s' : Service} (h : ClientStep s a s') : ServiceStep s (.client a) s'
  | drop (hh : s.handle = true) : ServiceStep s .drop { s with handle := false }

theorem service_cases {s s' : Service} {a : ServiceAct} (h : s.step a = some s') :
    ServiceStep s a s' := by
  cases a with
  | control a => exact .control (control_cases h)
  | listener a =>
      obtain ⟨l, visitors, p, hp, h⟩ := listener_cases h
      exact .listener hp h
  | pool a =>
      have h' : runPool s a = some s' := h
      unfold runPool at h'
      split at h'
      · rename_i l visitors p hp
        exact .tcpPool hp (tcpPool_cases h')
      · rename_i p hp
        exact .udpPool hp (udpPool_cases h')
  | client a => exact .client (client_cases h)
  | drop =>
      have h' : (if s.handle then some { s with handle := false } else none) = some s' := h
      split at h'
      · rename_i hh
        cases h'
        exact .drop hh
      · cases h'

end Penetrate.Server
