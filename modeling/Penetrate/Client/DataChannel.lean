/-
  File:      Penetrate/Client/DataChannel.lean
  Subject:   THE CLIENT'S UDP DATA CHANNEL (`client/data_channel.rs`) as a machine.

  `run_data_channel_for_udp` is a loop that reads packets, a writer task that drains the outbound
  queue, and one `run_udp_forwarder` task for each visitor address it has seen. They share
  `port_map` behind a reader/writer lock, the outbound queue and one inbound queue per forwarder.
  One action is what one task does between two points where another task can interfere: a request
  for a guard, the work under a guard that has been granted, one send or receive on a channel.

  * `Loop`, `ForwarderPhase`, `Writer` -- where each task is suspended;
  * `runDataChannelForUdp`, `runUdpForwarder`, `runWriter` -- the steps of each task;
  * `serverSide` -- the other end of the connection, which writes and reads whatever it likes;
  * `dataChannel` -- the machine. The two directions of the connection are bounded queues of
    packets of capacity `down` and `up`.
-/
import Penetrate.Protocol
import Penetrate.Concurrent.Machine
import Penetrate.Concurrent.RwLock
import Penetrate.Concurrent.Mpsc

namespace Penetrate.Client

open Concurrent

/-- The tasks that take the `port_map` lock: the loop and the forwarders, by number. -/
inductive Task where
  | main
  | forwarder (f : Nat)
  deriving DecidableEq, Repr

/-- Where the loop of `run_data_channel_for_udp` is. The flag `m` says that the guard of the first
    `port_map.read()` is still alive. -/
inductive Loop where
  | reading
  /-- a packet was read; the first `port_map.read()` comes next -/
  | received (p : UdpTraffic)
  | awaitRead (p : UdpTraffic)
  /-- the address is not in the map and `m` was dropped; `port_map.write()` comes next -/
  | absent (p : UdpTraffic)
  /-- waits in `port_map.write()`, then, with the guard, in `udp_connect` -/
  | awaitWrite (p : UdpTraffic)
  /-- the second `port_map.read()` comes next -/
  | recheck (p : UdpTraffic) (m : Bool)
  | awaitRecheck (p : UdpTraffic) (m : Bool)
  /-- in `tx.send(packet.data)` on the queue of forwarder `f` -/
  | sending (p : UdpTraffic) (f : Nat) (m : Bool)
  | finished
  deriving DecidableEq, Repr

/-- Where a `run_udp_forwarder` task is. It owns its receiver until it is `finished`. -/
inductive ForwarderPhase where
  | select
  | sendingLocal (data : Bytes)
  | sendingOutbound (t : UdpTraffic)
  /-- left the loop by `break`; `port_map.write()` comes next -/
  | broken
  | awaitWrite
  | finished
  deriving DecidableEq, Repr

structure Forwarder where
  from_ : SocketAddr
  inbound : Mpsc Bytes UDP_SEND_Q_SIZE
  phase : ForwarderPhase

/-- Where the task is that forwards the outbound queue to the server. -/
inductive Writer where
  | idle
  | writing (t : UdpTraffic)
  | ended
  deriving DecidableEq, Repr

/-- The state of one UDP data channel on the client. `portMap a = some f` says that the map holds
    the inbound sender of forwarder `f` under `a`. -/
structure State (down up : Nat) where
  downstream : Mpsc UdpTraffic down
  upstream : Mpsc UdpTraffic up
  loop : Loop
  writer : Writer
  outbound : Mpsc UdpTraffic UDP_BUFFER_SIZE
  lock : RwLock Task
  portMap : SocketAddr → Option Nat
  forwarders : List Forwarder

inductive LoopAct where
  | readPacket
  | readError
  | requestRead
  | check
  | requestWrite
  | connected
  | connectError
  | requestRecheck
  | lookup
  | send
  deriving DecidableEq, Repr

inductive ForwarderAct where
  | recvInbound
  | inboundClosed
  | recvLocal (payload : Bytes)
  | recvLocalError
  | timeout
  | sentLocal
  | sendLocalError
  | sendOutbound
  | requestWrite
  | cleanUp
  deriving DecidableEq, Repr

inductive WriterAct where
  | recvOutbound
  | outboundClosed
  | write
  | writeError
  deriving DecidableEq, Repr

inductive ServerAct where
  | write (p : UdpTraffic)
  | read
  deriving DecidableEq, Repr

inductive Action where
  | loop (a : LoopAct)
  | forwarder (f : Nat) (a : ForwarderAct)
  | writer (a : WriterAct)
  | server (a : ServerAct)
  deriving DecidableEq, Repr

variable {down up : Nat}

/-- The read guards the loop holds beside the one of the second `port_map.read()`. -/
def firstGuard (m : Bool) : List Mode := if m then [.read] else []

/-- The end of the loop body: the second guard is dropped, then the first where it is alive. -/
def dropGuards (l : RwLock Task) (m : Bool) : RwLock Task :=
  let l := l.release .main .read
  if m then l.release .main .read else l

/-- The loop of `run_data_channel_for_udp`. -/
def runDataChannelForUdp (s : State down up) (a : LoopAct) : Option (State down up) :=
  match a, s.loop with
  | .readPacket, .reading =>
      s.downstream.recv.map fun (p, q) => { s with downstream := q, loop := .received p }
  | .readError, .reading => some { s with loop := .finished }
  | .requestRead, .received p =>
      some { s with lock := s.lock.request .main .read, loop := .awaitRead p }
  | .check, .awaitRead p =>
      if s.lock.waiting .main = [] then
        match s.portMap p.from_ with
        | none => some { s with lock := s.lock.release .main .read, loop := .absent p }
        -- the guard `m` is not dropped here: it lives to the end of the loop body
        | some _ => some { s with loop := .recheck p true }
      else none
  | .requestWrite, .absent p =>
      some { s with lock := s.lock.request .main .write, loop := .awaitWrite p }
  | .connected, .awaitWrite p =>
      if s.lock.waiting .main = [] then
        some { s with
          portMap := Function.update s.portMap p.from_ (some s.forwarders.length)
          forwarders := s.forwarders ++ [⟨p.from_, .empty, .select⟩]
          lock := s.lock.release .main .write
          loop := .recheck p false }
      else none
  | .connectError, .awaitWrite p =>
      if s.lock.waiting .main = [] then
        some { s with lock := s.lock.release .main .write, loop := .recheck p false }
      else none
  | .requestRecheck, .recheck p m =>
      some { s with lock := s.lock.request .main .read, loop := .awaitRecheck p m }
  | .lookup, .awaitRecheck p m =>
      if s.lock.waiting .main = [] then
        match s.portMap p.from_ with
        | some f => some { s with loop := .sending p f m }
        | none => some { s with lock := dropGuards s.lock m, loop := .reading }
      else none
  | .send, .sending p f m =>
      match s.forwarders[f]? with
      | none => none
      | some w =>
          -- the receiver is gone: the error of the send is ignored
          if w.phase = .finished then
            some { s with lock := dropGuards s.lock m, loop := .reading }
          else
            (w.inbound.send p.data).map fun q =>
              { s with
                forwarders := s.forwarders.set f { w with inbound := q }
                lock := dropGuards s.lock m
                loop := .reading }
  | _, _ => none

/-- `forwarders` with the entry `f` moved to another phase. -/
def State.toPhase (s : State down up) (f : Nat) (w : Forwarder) (ph : ForwarderPhase) :
    State down up :=
  { s with forwarders := s.forwarders.set f { w with phase := ph } }

/-- `run_udp_forwarder`, task number `f`. -/
def runUdpForwarder (s : State down up) (f : Nat) (a : ForwarderAct) : Option (State down up) :=
  match s.forwarders[f]? with
  | none => none
  | some w =>
      match a, w.phase with
      | .recvInbound, .select =>
          w.inbound.recv.map fun (data, q) =>
            { s with forwarders := s.forwarders.set f { w with inbound := q, phase := .sendingLocal data } }
      -- `recv` yields `None` once the queue is empty and the map has dropped the sender
      | .inboundClosed, .select =>
          if w.inbound.items = [] ∧ s.portMap w.from_ ≠ some f then some (s.toPhase f w .broken)
          else none
      | .recvLocal payload, .select =>
          some (s.toPhase f w (.sendingOutbound ⟨w.from_, payload.take UDP_BUFFER_SIZE⟩))
      | .recvLocalError, .select => some (s.toPhase f w .broken)
      | .timeout, .select => some (s.toPhase f w .broken)
      | .sentLocal, .sendingLocal _ => some (s.toPhase f w .select)
      -- `s.send(&data).await?` returns from the task: no clean-up of `port_map`
      | .sendLocalError, .sendingLocal _ => some (s.toPhase f w .finished)
      | .sendOutbound, .sendingOutbound t =>
          -- so does `outbound_tx.send(t).await?` once the writer task is gone
          if s.writer = .ended then some (s.toPhase f w .finished)
          else (s.outbound.send t).map fun q => { s.toPhase f w .select with outbound := q }
      | .requestWrite, .broken =>
          some { s.toPhase f w .awaitWrite with lock := s.lock.request (.forwarder f) .write }
      | .cleanUp, .awaitWrite =>
          if s.lock.waiting (.forwarder f) = [] then
            some { s.toPhase f w .finished with
              portMap := Function.update s.portMap w.from_ none
              lock := s.lock.release (.forwarder f) .write }
          else none
      | _, _ => none

/-- The task spawned before the loop: the outbound queue into the write half of `conn`. -/
def runWriter (s : State down up) (a : WriterAct) : Option (State down up) :=
  match a, s.writer with
  | .recvOutbound, .idle =>
      s.outbound.recv.map fun (t, q) => { s with outbound := q, writer := .writing t }
  -- every sender is gone: the one of the loop and the clones of the forwarders
  | .outboundClosed, .idle =>
      if s.outbound.items = [] ∧ s.loop = .finished ∧
          s.forwarders.all (fun w => w.phase = .finished) then
        some { s with writer := .ended }
      else none
  | .write, .writing t => (s.upstream.send t).map fun q => { s with upstream := q, writer := .idle }
  | .writeError, .writing _ => some { s with writer := .ended }
  | _, _ => none

/-- The server's end of the connection. -/
def serverSide (s : State down up) : ServerAct → Option (State down up)
  | .write p => (s.downstream.send p).map fun q => { s with downstream := q }
  | .read => s.upstream.recv.map fun (_, q) => { s with upstream := q }

def step (s : State down up) : Action → Option (State down up)
  | .loop a => runDataChannelForUdp s a
  | .forwarder f a => runUdpForwarder s f a
  | .writer a => runWriter s a
  | .server a => serverSide s a

/-- The data channel before its first packet. -/
def initial (down up : Nat) : State down up where
  downstream := .empty
  upstream := .empty
  loop := .reading
  writer := .idle
  outbound := .empty
  lock := .free
  portMap := fun _ => none
  forwarders := []

/-- **The UDP data channel of the client**, against every server. -/
def dataChannel (down up : Nat) : Machine (State down up) Action where
  start s := s = initial down up
  step := step

end Penetrate.Client
