/-
  File:      Penetrate/Tunnel/Forward.lean
  Subject:   A TCP SERVICE WITH ITS BYTES: visitors, data channels, both ends of each data channel,
             and the local service (`server/pool.rs`, `client/traffic.rs`,
             `client/data_channel.rs`).

  The tasks of the service are those of `Server.service`; here every visitor and every data
  channel has its streams. A stream is a pipe each way. A data channel starts with the hello the
  server reads, goes through the queue to the pool, gets the command in front of the visitor's
  bytes, and is then copied on both sides: by the spawned task on the server, by
  `run_data_channel_for_tcp` on the client. Every task may fail at any time; what is then in its
  hands or not read yet is lost.

  * `TransferStep`, `CopyBidirectional` -- what is known of `copy_bidirectional`, any function of
    which that is true; `copy_bidirectional` -- both its directions; `abort` is the end of the task
    that copies: its streams are dropped;
  * `run_data_channel` -- the client's end of a data channel;
  * `step`, `tunnel` -- the machine.
-/
import Mathlib.Logic.Function.Basic
import Penetrate.Wire
import Penetrate.Server.Accounting

namespace Penetrate.Tunnel

open Concurrent Machine Server Wire

/-! ## 1. Streams and the copy between them -/

/-- The way bytes go. -/
inductive Dir where
  | toService
  | toVisitor
  deriving DecidableEq, Repr

/-- One direction of a stream. -/
structure Pipe where
  /-- written and not read yet -/
  buf : Bytes
  /-- the writer has shut down, or dropped its end -/
  fin : Bool
  deriving DecidableEq, Repr

abbrev Stream := Dir → Pipe

def Stream.fresh : Stream := fun _ => ⟨[], false⟩

/-- One direction of `copy_bidirectional`: the bytes read and not written yet, and whether the
    reader has come to its end. The direction is done once all is written and the writer shut
    down. -/
inductive Transfer where
  | running (held : Bytes) (read_done : Bool)
  | failed
  deriving DecidableEq, Repr

abbrev Transfers := Dir → Transfer

def Transfers.fresh : Transfers := fun _ => .running [] false

inductive CopyAct where
  | read (n : Nat)
  | eof
  | write (n : Nat)
  | shutdown
  deriving DecidableEq, Repr

/-- **What one direction of a copy does**, by its documentation: it reads from `src`, writes what it
    has read to `dst`, and once it has seen the end of `src` and written all it shuts `dst` down. A
    socket takes in `window` bytes before its writer waits. -/
inductive TransferStep (window capacity : Nat) (src dst : Pipe) :
    Transfer → CopyAct → Pipe × Transfer × Pipe → Prop where
  | read (held : Bytes) (n : Nat) (hn : 0 < n) (hle : n ≤ src.buf.length)
      (hroom : held.length + n ≤ capacity) :
      TransferStep window capacity src dst (.running held false) (.read n)
        ({ src with buf := src.buf.drop n }, .running (held ++ src.buf.take n) false, dst)
  | eof (held : Bytes) (hb : src.buf = []) (hf : src.fin = true) :
      TransferStep window capacity src dst (.running held false) .eof (src, .running held true, dst)
  | write (held : Bytes) (read_done : Bool) (n : Nat) (hn : 0 < n) (hle : n ≤ held.length)
      (hf : dst.fin = false) (hroom : dst.buf.length + n ≤ window) :
      TransferStep window capacity src dst (.running held read_done) (.write n)
        (src, .running (held.drop n) read_done, { dst with buf := dst.buf ++ held.take n })
  | shutdown (hf : dst.fin = false) :
      TransferStep window capacity src dst (.running [] true) .shutdown
        (src, .running [] true, { dst with fin := true })

/-- **`tokio::io::copy_bidirectional`**, which is not here to be read: one direction of it, of which
    its documentation is taken to be true and no more. -/
structure CopyBidirectional (window : Nat) where
  /-- the size of its buffer -/
  capacity : Nat
  capacity_pos : 0 < capacity
  transfer_one_direction (src : Pipe) (t : Transfer) (dst : Pipe) (a : CopyAct) :
    Option (Pipe × Transfer × Pipe)
  /-- it does nothing else -/
  does {src : Pipe} {t : Transfer} {dst : Pipe} {a : CopyAct} {r : Pipe × Transfer × Pipe} :
    transfer_one_direction src t dst a = some r → TransferStep window capacity src dst t a r
  /-- it goes on where it holds nothing and there is something to read -/
  reads {src : Pipe} (dst : Pipe) : src.buf ≠ [] →
    ∃ a r, transfer_one_direction src (.running [] false) dst a = some r
  /-- where it holds nothing and the source has ended -/
  ends {src : Pipe} (dst : Pipe) : src.buf = [] → src.fin = true →
    ∃ a r, transfer_one_direction src (.running [] false) dst a = some r
  /-- where it holds something and there is room for it -/
  writes {held : Bytes} {dst : Pipe} (src : Pipe) (read_done : Bool) : held ≠ [] →
    dst.fin = false → dst.buf.length < window →
    ∃ a r, transfer_one_direction src (.running held read_done) dst a = some r
  /-- and where all is written and the end is to be passed on -/
  shuts {dst : Pipe} (src : Pipe) : dst.fin = false →
    ∃ a r, transfer_one_direction src (.running [] true) dst a = some r

/-- What the two machines agree on, and what their systems give them. -/
structure Setup where
  heartbeat_interval : UInt64
  session_key : Digest
  /-- SHA-256, for the sample of `PacketLength` -/
  digest : Bytes → Digest
  /-- `service.service_type` in the client's configuration -/
  service_type : ServiceType
  /-- the bytes a socket takes in before its writer waits -/
  window : Nat
  window_pos : 0 < window
  copy : CopyBidirectional window

variable (P : Setup)

/-- A write of at least one byte; `none` while the socket is full, or shut down. -/
def Pipe.write (p : Pipe) (bs : Bytes) : Option Pipe :=
  if p.fin = false ∧ 0 < bs.length ∧ p.buf.length + bs.length ≤ P.window then
    some { p with buf := p.buf ++ bs }
  else none

/-- A read of `n` bytes. -/
def Pipe.read (p : Pipe) (n : Nat) : Option (Bytes × Pipe) :=
  if 0 < n ∧ n ≤ p.buf.length then some (p.buf.take n, { p with buf := p.buf.drop n }) else none

def Pipe.close (p : Pipe) : Option Pipe := if p.fin = false then some { p with fin := true } else none

/-- A copy between a stream on the visitor's side and one on the service's side. -/
@[ext] structure Copy where
  near : Stream
  t : Transfers
  far : Stream

/-- A step of direction `d` of `copy_bidirectional`. -/
def copy_bidirectional (c : Copy) (d : Dir) (a : CopyAct) : Option Copy :=
  match d with
  | .toService =>
      (P.copy.transfer_one_direction (c.near d) (c.t d) (c.far d) a).map fun r =>
        { near := Function.update c.near d r.1, t := Function.update c.t d r.2.1,
          far := Function.update c.far d r.2.2 }
  | .toVisitor =>
      (P.copy.transfer_one_direction (c.far d) (c.t d) (c.near d) a).map fun r =>
        { near := Function.update c.near d r.2.2, t := Function.update c.t d r.2.1,
          far := Function.update c.far d r.1 }

/-- What the end of the task makes of one direction: it is done, or has failed. -/
def abortTransfer (t : Transfer) (dst : Pipe) : Transfer × Pipe :=
  if t = .running [] true ∧ dst.fin = true then (t, dst) else (.failed, { dst with fin := true })

/-- The call returns, with an error of either direction or at its end, or its task is gone: the two
    streams are dropped, and with the future what it holds. -/
def Copy.abort (c : Copy) : Copy where
  near := Function.update c.near .toVisitor (abortTransfer (c.t .toVisitor) (c.near .toVisitor)).2
  t
    | .toService => (abortTransfer (c.t .toService) (c.far .toService)).1
    | .toVisitor => (abortTransfer (c.t .toVisitor) (c.near .toVisitor)).1
  far := Function.update c.far .toService (abortTransfer (c.t .toService) (c.far .toService)).2

/-! ## 2. Visitors and data channels -/

/-- A visitor's connection, with what the visitor has sent and received. -/
structure Visitor where
  conn : Stream
  /-- the server has dropped the connection without a data channel for it -/
  refused : Bool
  sent : Bytes
  received : Bytes

/-- The server's end of a data channel. -/
inductive ServerEnd where
  /-- in the queue, or with the pool -/
  | pool
  /-- `copy_bidirectional(&mut ch, &mut visitor)`, until it returns and after -/
  | forward (v : Nat) (t : Transfers)
  /-- dropped without a visitor -/
  | dropped

/-- The client's end of a data channel, in `run_data_channel` behind the handshake. -/
inductive ClientEnd where
  /-- in `read_data_cmd` -/
  | readCmd
  /-- returned with no command read -/
  | noCmd
  /-- in `TcpStream::connect(local_addr)` -/
  | connecting
  /-- returned with no connection to the local service -/
  | noLocal
  /-- `copy_bidirectional(&mut conn, &mut local)`, until it returns and after -/
  | forward (t : Transfers)

/-- A data channel, with the connection behind it to the local service, and what the local service
    has sent and received on that. -/
structure Channel where
  link : Stream
  server : ServerEnd
  client : ClientEnd
  local_ : Stream
  sent : Bytes
  received : Bytes

def Visitor.fresh : Visitor := ⟨.fresh, false, [], []⟩

/-- A data channel whose hello is read. -/
def Channel.fresh : Channel := ⟨.fresh, .pool, .readCmd, .fresh, [], []⟩

/-- What the client has copied so far. -/
def ClientEnd.transfers : ClientEnd → Transfers
  | .readCmd => .fresh
  | .noCmd => fun _ => .failed
  | .connecting => .fresh
  | .noLocal => fun _ => .failed
  | .forward t => t

structure State where
  service : Service
  visitors : Nat → Visitor
  channels : Nat → Channel

/-- What the program at the far end of a stream does. -/
inductive EndAct where
  | send (bs : Bytes)
  | close
  | recv (n : Nat)
  deriving DecidableEq, Repr

inductive ChannelAct where
  | readCmd
  | connected
  | copy (d : Dir) (a : CopyAct)
  /-- an error, or the end of the task -/
  | fail
  deriving DecidableEq, Repr

inductive Act where
  | service (a : ServiceAct)
  /-- the command is written in part when the write fails -/
  | writeFails (k : Nat)
  | refuse (v : Nat)
  | discard (ch : Nat)
  | visitor (v : Nat) (a : EndAct)
  | localService (ch : Nat) (a : EndAct)
  | server (ch : Nat) (d : Dir) (a : CopyAct)
  | serverFails (ch : Nat)
  | client (ch : Nat) (a : ChannelAct)
  deriving DecidableEq, Repr

/-- The bytes of the command the pool writes. -/
def cmd : Bytes := serialize DataChannelCmd.codec .startForwardTcp

/-! ## 3. The steps -/

/-- The client's end fails: its streams are dropped. -/
def Channel.clientFails (c : Channel) : Channel :=
  let r := Copy.abort ⟨c.link, c.client.transfers, c.local_⟩
  { c with
    link := r.near
    local_ := r.far
    client := match c.client with
      | .readCmd => .noCmd
      | .noCmd => .noCmd
      | .connecting => .noLocal
      | .noLocal => .noLocal
      | .forward _ => .forward r.t }

/-- `read_data_cmd` and what `run_data_channel` makes of it; `none` while it waits for bytes. -/
def Channel.readDataCmd (c : Channel) : Option Channel :=
  if (c.link .toService).buf.length < 4 ∧ (c.link .toService).fin = false then none
  else
    match read_data_cmd (PacketLength.new P.digest) (c.link .toService).buf with
    | .error _ => some c.clientFails
    | .ok (.startForwardTcp, rest) =>
        let c' := { c with
          link := Function.update c.link .toService { c.link .toService with buf := rest }
          client := .connecting }
        if P.service_type ≠ .tcp then some c'.clientFails else some c'
    -- the pool of a TCP service never sends it
    | .ok (.startForwardUdp, _) => none

/-- `run_data_channel` behind the handshake, with `run_data_channel_for_tcp`. -/
def run_data_channel (c : Channel) (a : ChannelAct) : Option Channel :=
  match a, c.client with
  | .readCmd, .readCmd => c.readDataCmd P
  | .connected, .connecting => some { c with client := .forward .fresh }
  | .copy d a, .forward t =>
      (copy_bidirectional P ⟨c.link, t, c.local_⟩ d a).map fun r =>
        { c with link := r.near, client := .forward r.t, local_ := r.far }
  | .fail, _ => some c.clientFails
  | _, _ => none

/-- The visitor's program. -/
def Visitor.act (x : Visitor) : EndAct → Option Visitor
  | .send bs => ((x.conn .toService).write P bs).map fun p =>
      { x with conn := Function.update x.conn .toService p, sent := x.sent ++ bs }
  | .close => (x.conn .toService).close.map fun p =>
      { x with conn := Function.update x.conn .toService p }
  | .recv n => ((x.conn .toVisitor).read n).map fun r =>
      { x with conn := Function.update x.conn .toVisitor r.2, received := x.received ++ r.1 }

/-- The local service, on the connection behind a data channel. -/
def Channel.act (c : Channel) : EndAct → Option Channel
  | .send bs => ((c.local_ .toVisitor).write P bs).map fun p =>
      { c with local_ := Function.update c.local_ .toVisitor p, sent := c.sent ++ bs }
  | .close => (c.local_ .toVisitor).close.map fun p =>
      { c with local_ := Function.update c.local_ .toVisitor p }
  | .recv n => ((c.local_ .toService).read n).map fun r =>
      { c with local_ := Function.update c.local_ .toService r.2, received := c.received ++ r.1 }

/-- The data channel with the command written and given to visitor `v`. -/
def Channel.spawned (c : Channel) (v : Nat) : Channel :=
  { c with
    link := Function.update c.link .toService
      { c.link .toService with buf := (c.link .toService).buf ++ cmd }
    server := .forward v .fresh }

namespace State

def setVisitor (s : State) (v : Nat) (x : Visitor) : State :=
  { s with visitors := Function.update s.visitors v x }

def setChannel (s : State) (ch : Nat) (c : Channel) : State :=
  { s with channels := Function.update s.channels ch c }

/-- `do_data_channel_handshake` on both sides: the client writes its hello, the server reads it and
    hands the stream to the service. -/
def deliver (s : State) (svc : Service) : Option State :=
  let hello := Wire.Hello.dataChannelHello CURRENT_PROTO_VERSION P.session_key
  match read_hello (PacketLength.new P.digest) (serialize Hello.codec hello) with
  | .ok (.dataChannelHello _ _, rest) =>
      some ({ s with service := svc }.setChannel s.service.opened
        { Channel.fresh with link := Function.update Stream.fresh .toVisitor ⟨rest, false⟩ })
  | _ => none

/-- The pool has written the command: the task that copies is spawned. -/
def spawnCopy (s : State) (svc : Service) (v ch : Nat) : State :=
  { s with service := svc }.setChannel ch ((s.channels ch).spawned v)

/-- A step of a task of the service. -/
def serviceStep (s : State) (a : ServiceAct) : Option State :=
  (s.service.step a).bind fun svc =>
    match a, s.service.pool with
    -- the client opens data channels for commands only
    | .client .stray, _ => none
    | .client .deliver, _ => s.deliver P svc
    | .pool (.written true), .tcp _ _ (.writing v ch) => some (s.spawnCopy svc v ch)
    -- a failed write is `writeFails`
    | .pool (.written _), _ => none
    | _, _ => some { s with service := svc }

/-- `ch.write_all(&cmd)` fails behind `k` bytes, and `ch` is dropped. -/
def writeFails (s : State) (k : Nat) : Option State :=
  (s.service.step (.pool (.written false))).bind fun svc =>
    match s.service.pool with
    | .tcp _ _ (.writing _ ch) =>
        let c := s.channels ch
        if k < cmd.length then
          some ({ s with service := svc }.setChannel ch
            { c with
              link := Function.update c.link .toService
                ⟨(c.link .toService).buf ++ cmd.take k, true⟩
              server := .dropped })
        else none
    | _ => none

/-- The server drops a visitor it has no data channel for: the service has ended, or lost it. -/
def refuse (s : State) (v : Nat) : Option State :=
  let x := s.visitors v
  if v < s.service.visitors ∧ v ∉ s.service.forwarding.map Prod.fst ∧
      (v ∉ s.service.pool.visitorLine ∨ s.service.pool.ended = true) then
    some (s.setVisitor v
      { x with
        conn := Function.update x.conn .toVisitor { x.conn .toVisitor with fin := true }
        refused := true })
  else none

/-- The server drops a data channel it has no use for: the pool has ended, or had. -/
def discard (s : State) (ch : Nat) : Option State :=
  let c := s.channels ch
  match c.server with
  | .pool =>
      if ch < s.service.opened ∧
          (ch ∉ s.service.channelLine ∨ s.service.pool.ended = true) then
        some (s.setChannel ch
          { c with
            link := Function.update c.link .toService { c.link .toService with fin := true }
            server := .dropped })
      else none
  | _ => none

/-- The task spawned for a visitor: `copy_bidirectional(&mut ch, &mut visitor)`. -/
def serverCopy (s : State) (ch : Nat) (f : Copy → Option Copy) : Option State :=
  match (s.channels ch).server with
  | .forward v t =>
      (f ⟨(s.visitors v).conn, t, (s.channels ch).link⟩).map fun r =>
        (s.setVisitor v { s.visitors v with conn := r.near }).setChannel ch
          { s.channels ch with link := r.far, server := .forward v r.t }
  | _ => none

end State

def step (s : State) : Act → Option State
  | .service a => s.serviceStep P a
  | .writeFails k => s.writeFails k
  | .refuse v => s.refuse v
  | .discard ch => s.discard ch
  | .visitor v a =>
      if v < s.service.visitors then ((s.visitors v).act P a).map (s.setVisitor v) else none
  | .localService ch a =>
      match (s.channels ch).client with
      | .forward _ => ((s.channels ch).act P a).map (s.setChannel ch)
      | _ => none
  | .server ch d a => s.serverCopy ch fun c => copy_bidirectional P c d a
  | .serverFails ch => s.serverCopy ch fun c => some c.abort
  | .client ch a =>
      if ch < s.service.opened then (run_data_channel P (s.channels ch) a).map (s.setChannel ch)
      else none

/-- **The tunnel of one TCP service**, against all visitors and any local service. -/
def tunnel : Machine State Act where
  start s := s = ⟨.new .tcp P.heartbeat_interval, fun _ => .fresh, fun _ => .fresh⟩
  step := step P

end Penetrate.Tunnel
