/-
  File:      Penetrate/Server/Connections.lean
  Subject:   THE SERVER AS A MACHINE: `Server::run`, every connection task, the services they share.

  The main task accepts connections and applies hot reloads; each connection runs
  `handle_connection` to its end. They share the map of services and the table of control channels,
  each behind a reader/writer lock; the table is owned by `Server` and by every connection task that
  has not returned (`owned`), and is dropped with its last owner (`settle`).

  A connection's writes wait while the peer does not read: `room` is what its send buffer takes.
  One action is what one task does between two points where another task can interfere.

  * `Server.runMain` -- the loop of `Server::run` and `handle_hot_reload`;
  * `do_control_channel_handshake`, `do_data_channel_handshake`, `handle_connection`;
  * `connections` -- the machine, against every peer; `MainStep`, `ConnStep`, `step_cases` -- its
    rules.
-/
import Penetrate.Instance
import Penetrate.MultiMap
import Penetrate.Server.Service
import Penetrate.Concurrent.RwLock

namespace Penetrate.Server

open Concurrent Machine

/-! ## 1. The state -/

inductive Task where
  | main
  | conn (n : Nat)
  deriving DecidableEq, Repr

/-- Where `Server::run` is. -/
inductive Main where
  | select
  /-- in the transport handshake of a connection just accepted -/
  | handshaking
  /-- `Add`, `Delete`: waits in `services.write()` -/
  | addServices (cfg : ServerServiceConfig)
  | delServices (name : String)
  /-- `Delete`: the service is gone, `control_channels.write()` comes next -/
  | delDropped (name : String)
  /-- waits in `control_channels.write()`; an `Add` still holds its guard of the services -/
  | addTable (cfg : ServerServiceConfig)
  | delTable (name : String)
  | stopped

/-- Where a connection task is. -/
inductive ConnPhase where
  | readHello
  | sendHello (d : ServiceDigest)
  /-- waits in `services.read()` -/
  | awaitServices (d : ServiceDigest) (nonce : Nonce)
  /-- writes `ServiceNotExist`; the guard of the services is still alive -/
  | refusing
  | readAuth (d : ServiceDigest) (cfg : ServerServiceConfig) (session_key : Digest)
  | authFailed
  /-- waits in `control_channels.write()` -/
  | awaitTable (d : ServiceDigest) (cfg : ServerServiceConfig) (session_key : Digest)
  /-- writes `Ok` under the write guard, the previous control channel removed -/
  | acking (d : ServiceDigest) (cfg : ServerServiceConfig) (session_key : Digest)
  /-- waits in `control_channels.read()` -/
  | awaitFind (nonce : Nonce)
  /-- in `data_ch_tx.send` of handle `h`, under the read guard -/
  | sending (h : Nat)
  | ended
  deriving DecidableEq

structure Conn where
  phase : ConnPhase
  /-- the bytes the send buffer takes before the peer reads -/
  room : Nat

/-- A `ControlChannelHandle` and the tasks it was created with. -/
structure Handle where
  service : ServerServiceConfig
  state : Service

structure State where
  services : ServiceDigest → Option ServerServiceConfig
  servicesLock : RwLock Task
  /-- handles by number -/
  control_channels : MultiMap ServiceDigest Nonce Nat
  channelsLock : RwLock Task
  main : Main
  conns : List Conn
  /-- every handle ever created -/
  handles : List Handle

inductive MainAct where
  | accept
  | handshakeFailed
  | spawn (room : Nat)
  | reload (e : ConfigChange)
  | writeServices
  | wantTable
  | removeEntry
  | shutdown

inductive ConnAct where
  | hello (m : Hello)
  | readError
  | sendHello (nonce : Nonce)
  | writeError
  | lookup
  | refuse
  | auth (d : Digest)
  | sendFailed
  | takeTable
  | ack
  | find
  | send
  | peerReads (n : Nat)

inductive Action where
  | main (a : MainAct)
  | conn (n : Nat) (a : ConnAct)
  | service (h : Nat) (a : ServiceAct)

/-- The lengths of serialised messages. -/
def HELLO_LEN : Nat := 37
def ACK_LEN : Nat := 4

/-- A write of `n` bytes; `none` while the peer has to read first. -/
def Conn.write (c : Conn) (n : Nat) : Option Conn :=
  if n ≤ c.room then some { c with room := c.room - n } else none

def Handle.dropped (x : Handle) : Handle := { x with state := { x.state with handle := false } }

/-- The handle taken out of the table is dropped. -/
def dropHandle (hs : List Handle) : Option Nat → List Handle
  | some h => hs.modify h Handle.dropped
  | none => hs

/-- Somebody still has a clone of the table. -/
def State.owned (s : State) : Bool :=
  (match s.main with
    | .stopped => false
    | _ => true) || s.conns.any fun c => c.phase ≠ .ended

/-- The last owner is gone: the table is dropped, with every handle in it. -/
def State.settle (s : State) : State :=
  if s.owned then s
  else { s with
    control_channels := .new
    handles := s.control_channels.drain.foldl (fun hs h => dropHandle hs (some h)) s.handles }

def State.setConn (s : State) (n : Nat) (c : Conn) : State := { s with conns := s.conns.set n c }

/-- The connection task returns. -/
def State.endConn (s : State) (n : Nat) (c : Conn) : State :=
  (s.setConn n { c with phase := .ended }).settle

/-- Some connection task is in `data_ch_tx.send` of handle `h`. -/
def State.someoneSends (s : State) (h : Nat) : Bool := s.conns.any fun c => c.phase = .sending h

section

variable (digest : Bytes → Digest) (heartbeat_interval : UInt64)

/-! ## 2. The main task -/

/-- `Server::run` and `handle_hot_reload`. -/
def runMain (s : State) (a : MainAct) : Option State :=
  match a, s.main with
  | .accept, .select => some { s with main := .handshaking }
  | .handshakeFailed, .handshaking => some { s with main := .select }
  | .spawn room, .handshaking =>
      some { s with main := .select, conns := s.conns ++ [⟨.readHello, room⟩] }
  | .reload (.serverChange (.add cfg)), .select =>
      some { s with main := .addServices cfg, servicesLock := s.servicesLock.request .main .write }
  | .reload (.serverChange (.delete name)), .select =>
      some { s with main := .delServices name, servicesLock := s.servicesLock.request .main .write }
  -- every other change is ignored
  | .reload _, .select => some s
  | .writeServices, .addServices cfg =>
      if s.servicesLock.waiting .main = [] then
        some { s with
          services := Function.update s.services (nameDigest digest cfg.name) (some cfg)
          main := .addTable cfg
          channelsLock := s.channelsLock.request .main .write }
      else none
  | .writeServices, .delServices name =>
      if s.servicesLock.waiting .main = [] then
        some { s with
          services := Function.update s.services (nameDigest digest name) none
          main := .delDropped name
          servicesLock := s.servicesLock.release .main .write }
      else none
  | .wantTable, .delDropped name =>
      some { s with main := .delTable name, channelsLock := s.channelsLock.request .main .write }
  | .removeEntry, .addTable cfg =>
      if s.channelsLock.waiting .main = [] then
        some { s with
          control_channels := (s.control_channels.remove1 (nameDigest digest cfg.name)).2
          handles := dropHandle s.handles (s.control_channels.remove1 (nameDigest digest cfg.name)).1
          channelsLock := s.channelsLock.release .main .write
          servicesLock := s.servicesLock.release .main .write
          main := .select }
      else none
  | .removeEntry, .delTable name =>
      if s.channelsLock.waiting .main = [] then
        some { s with
          control_channels := (s.control_channels.remove1 (nameDigest digest name)).2
          handles := dropHandle s.handles (s.control_channels.remove1 (nameDigest digest name)).1
          channelsLock := s.channelsLock.release .main .write
          main := .select }
      else none
  | .shutdown, .select => some { s with main := .stopped }.settle
  | _, _ => none

/-! ## 3. A connection task -/

/-- The digest of the token with the nonce appended. -/
def sessionKey (token : String) (nonce : Nonce) : Digest := digest (asBytes token ++ nonce.toList)

/-- The new handle and its insertion; a handle the table refuses is dropped at once. -/
def State.register (s : State) (d : ServiceDigest) (cfg : ServerServiceConfig)
    (session_key : Digest) : State :=
  let new : Handle := ⟨cfg, .new cfg.service_type heartbeat_interval⟩
  match s.control_channels.insert d session_key s.handles.length with
  | .ok m => { s with control_channels := m, handles := s.handles ++ [new] }
  | .error _ => { s with handles := s.handles ++ [new.dropped] }

/-- `do_control_channel_handshake`, in connection task `n`. -/
def do_control_channel_handshake (s : State) (n : Nat) (c : Conn) (a : ConnAct) : Option State :=
  match a, c.phase with
  | .sendHello nonce, .sendHello d =>
      (c.write HELLO_LEN).map fun c =>
        { s.setConn n { c with phase := .awaitServices d nonce } with
          servicesLock := s.servicesLock.request (.conn n) .read }
  | .writeError, .sendHello _ => some (s.endConn n c)
  | .lookup, .awaitServices d nonce =>
      if s.servicesLock.waiting (.conn n) = [] then
        match s.services d with
        | none => some (s.setConn n { c with phase := .refusing })
        | some cfg => match cfg.token with
          | some t =>
              some { s.setConn n { c with phase := .readAuth d cfg (sessionKey digest t nonce) } with
                servicesLock := s.servicesLock.release (.conn n) .read }
          -- the unwrap of the token panics
          | none =>
              some ({ s with servicesLock := s.servicesLock.release (.conn n) .read }.endConn n c)
      else none
  | .refuse, .refusing =>
      (c.write ACK_LEN).map fun c =>
        { s with servicesLock := s.servicesLock.release (.conn n) .read }.endConn n c
  | .writeError, .refusing =>
      some ({ s with servicesLock := s.servicesLock.release (.conn n) .read }.endConn n c)
  | .auth x, .readAuth d cfg session_key =>
      if session_key = x then
        some { s.setConn n { c with phase := .awaitTable d cfg session_key } with
          channelsLock := s.channelsLock.request (.conn n) .write }
      else some (s.setConn n { c with phase := .authFailed })
  | .readError, .readAuth _ _ _ => some (s.endConn n c)
  | .sendFailed, .authFailed => (c.write ACK_LEN).map fun c => s.endConn n c
  | .writeError, .authFailed => some (s.endConn n c)
  | .takeTable, .awaitTable d cfg session_key =>
      if s.channelsLock.waiting (.conn n) = [] then
        some { s.setConn n { c with phase := .acking d cfg session_key } with
          control_channels := (s.control_channels.remove1 d).2
          handles := dropHandle s.handles (s.control_channels.remove1 d).1 }
      else none
  | .ack, .acking d cfg session_key =>
      (c.write ACK_LEN).map fun c =>
        { s.register heartbeat_interval d cfg session_key with
          channelsLock := s.channelsLock.release (.conn n) .write }.endConn n c
  -- the write guard is dropped, and nothing takes the removed control channel's place
  | .writeError, .acking _ _ _ =>
      some ({ s with channelsLock := s.channelsLock.release (.conn n) .write }.endConn n c)
  | _, _ => none

/-- The data channel goes into the queue of handle `h`, and the task returns. -/
def State.sent (s : State) (n : Nat) (c : Conn) (h : Nat) (x : Handle) (state : Service) : State :=
  { s with
    handles := s.handles.set h { x with state := state }
    channelsLock := s.channelsLock.release (.conn n) .read }.endConn n c

/-- `do_data_channel_handshake`, in connection task `n`. -/
def do_data_channel_handshake (s : State) (n : Nat) (c : Conn) (a : ConnAct) : Option State :=
  match a, c.phase with
  | .find, .awaitFind nonce =>
      if s.channelsLock.waiting (.conn n) = [] then
        match s.control_channels.get2 nonce with
        | none => some ({ s with channelsLock := s.channelsLock.release (.conn n) .read }.endConn n c)
        | some h => match s.handles[h]? with
          | none => none
          | some x =>
              -- a permit goes to the tasks already waiting for one first
              if s.someoneSends h = true ∧ x.state.pool.ended = false then
                some (s.setConn n { c with phase := .sending h })
              else match x.state.sendDataChannel with
                | some state => some (s.sent n c h x state)
                | none => some (s.setConn n { c with phase := .sending h })
      else none
  | .send, .sending h => match s.handles[h]? with
    | none => none
    | some x => x.state.sendDataChannel.map fun state => s.sent n c h x state
  | _, _ => none

/-- `handle_connection`, connection task `n`, and what its peer does. -/
def handle_connection (s : State) (n : Nat) (a : ConnAct) : Option State :=
  match s.conns[n]? with
  | none => none
  | some c => match a, c.phase with
    | .hello (.controlChannelHello d), .readHello => some (s.setConn n { c with phase := .sendHello d })
    | .hello (.dataChannelHello nonce), .readHello =>
        some { s.setConn n { c with phase := .awaitFind nonce } with
          channelsLock := s.channelsLock.request (.conn n) .read }
    | .readError, .readHello => some (s.endConn n c)
    | .peerReads k, _ => some (s.setConn n { c with room := c.room + k })
    | .find, _ => do_data_channel_handshake s n c .find
    | .send, _ => do_data_channel_handshake s n c .send
    | a, _ => do_control_channel_handshake digest heartbeat_interval s n c a

/-! ## 4. The machine -/

/-- The tasks of a service act on their own; what its client sends arrives over connections, and
    its handle is dropped with its entry in the table. -/
def ServiceAct.own : ServiceAct → Bool
  | .control _ => true
  | .listener _ => true
  | .pool _ => true
  | _ => false

/-- A step of a task of handle `h`. -/
def runService (s : State) (h : Nat) (a : ServiceAct) : Option State :=
  match s.handles[h]? with
  | none => none
  | some x =>
      if a.own then
        (x.state.step a).map fun state =>
          { s with handles := s.handles.set h { x with state := state } }
      else none

def step (s : State) : Action → Option State
  | .main a => runMain digest s a
  | .conn n a => handle_connection digest heartbeat_interval s n a
  | .service h a => runService s h a

/-- The server before its first connection. -/
def initial (config : ServerConfig) : State where
  services := generate_service_hashmap digest config
  servicesLock := .free
  control_channels := .new
  channelsLock := .free
  main := .select
  conns := []
  handles := []

/-- **A server instance**, against every peer and every sequence of hot reloads. -/
def connections (config : ServerConfig) : Machine State Action where
  start s := s = initial digest config
  step := step digest config.heartbeat_interval

/-! ## 5. The rules -/

inductive MainStep (s : State) : MainAct → State → Prop where
  | accept (hm : s.main = .select) : MainStep s .accept { s with main := .handshaking }
  | handshakeFailed (hm : s.main = .handshaking) :
      MainStep s .handshakeFailed { s with main := .select }
  | spawn (room : Nat) (hm : s.main = .handshaking) :
      MainStep s (.spawn room)
        { s with main := .select, conns := s.conns ++ [⟨.readHello, room⟩] }
  | reloadAdd (cfg : ServerServiceConfig) (hm : s.main = .select) :
      MainStep s (.reload (.serverChange (.add cfg)))
        { s with main := .addServices cfg, servicesLock := s.servicesLock.request .main .write }
  | reloadDelete (name : String) (hm : s.main = .select) :
      MainStep s (.reload (.serverChange (.delete name)))
        { s with main := .delServices name, servicesLock := s.servicesLock.request .main .write }
  | reloadIgnored (e : ConfigChange) (hm : s.main = .select) : MainStep s (.reload e) s
  | addServices (cfg : ServerServiceConfig) (hm : s.main = .addServices cfg)
      (hw : s.servicesLock.waiting .main = []) :
      MainStep s .writeServices
        { s with
          services := Function.update s.services (nameDigest digest cfg.name) (some cfg)
          main := .addTable cfg
          channelsLock := s.channelsLock.request .main .write }
  | delServices (name : String) (hm : s.main = .delServices name)
      (hw : s.servicesLock.waiting .main = []) :
      MainStep s .writeServices
        { s with
          services := Function.update s.services (nameDigest digest name) none
          main := .delDropped name
          servicesLock := s.servicesLock.release .main .write }
  | wantTable (name : String) (hm : s.main = .delDropped name) :
      MainStep s .wantTable
        { s with main := .delTable name, channelsLock := s.channelsLock.request .main .write }
  | addTable (cfg : ServerServiceConfig) (hm : s.main = .addTable cfg)
      (hw : s.channelsLock.waiting .main = []) :
      MainStep s .removeEntry
        { s with
          control_channels := (s.control_channels.remove1 (nameDigest digest cfg.name)).2
          handles := dropHandle s.handles (s.control_channels.remove1 (nameDigest digest cfg.name)).1
          channelsLock := s.channelsLock.release .main .write
          servicesLock := s.servicesLock.release .main .write
          main := .select }
  | delTable (name : String) (hm : s.main = .delTable name)
      (hw : s.channelsLock.waiting .main = []) :
      MainStep s .removeEntry
        { s with
          control_channels := (s.control_channels.remove1 (nameDigest digest name)).2
          handles := dropHandle s.handles (s.control_channels.remove1 (nameDigest digest name)).1
          channelsLock := s.channelsLock.release .main .write
          main := .select }
  | shutdown (hm : s.main = .select) : MainStep s .shutdown { s with main := .stopped }.settle

/-- What one step of connection task `n` can do. The first rules end the task: with no guard, with
    one of the services, with one of the table. -/
inductive ConnStep (s : State) (n : Nat) (c : Conn) : ConnAct → State → Prop where
  | ends (a : ConnAct) (c' : Conn)
      (hp : c.phase = .readHello ∨ (∃ d, c.phase = .sendHello d) ∨
        (∃ d cfg k, c.phase = .readAuth d cfg k) ∨ c.phase = .authFailed) :
      ConnStep s n c a (s.endConn n c')
  | endsServices (a : ConnAct) (c' : Conn)
      (hp : c.phase = .refusing ∨ ∃ d nonce, c.phase = .awaitServices d nonce)
      (hw : s.servicesLock.waiting (.conn n) = [] ∨ c.phase = .refusing) :
      ConnStep s n c a
        ({ s with servicesLock := s.servicesLock.release (.conn n) .read }.endConn n c')
  | ackError (d : ServiceDigest) (cfg : ServerServiceConfig) (k : Digest)
      (hp : c.phase = .acking d cfg k) :
      ConnStep s n c .writeError
        ({ s with channelsLock := s.channelsLock.release (.conn n) .write }.endConn n c)
  | notFound (nonce : Nonce) (hp : c.phase = .awaitFind nonce)
      (hw : s.channelsLock.waiting (.conn n) = []) (hf : s.control_channels.get2 nonce = none) :
      ConnStep s n c .find
        ({ s with channelsLock := s.channelsLock.release (.conn n) .read }.endConn n c)
  | peerReads (k : Nat) : ConnStep s n c (.peerReads k) (s.setConn n { c with room := c.room + k })
  | helloControl (d : ServiceDigest) (hp : c.phase = .readHello) :
      ConnStep s n c (.hello (.controlChannelHello d)) (s.setConn n { c with phase := .sendHello d })
  | helloData (nonce : Nonce) (hp : c.phase = .readHello) :
      ConnStep s n c (.hello (.dataChannelHello nonce))
        { s.setConn n { c with phase := .awaitFind nonce } with
          channelsLock := s.channelsLock.request (.conn n) .read }
  | sendHello (d : ServiceDigest) (nonce : Nonce) (c' : Conn) (hp : c.phase = .sendHello d)
      (hc : c.write HELLO_LEN = some c') :
      ConnStep s n c (.sendHello nonce)
        { s.setConn n { c' with phase := .awaitServices d nonce } with
          servicesLock := s.servicesLock.request (.conn n) .read }
  | lookupMissing (d : ServiceDigest) (nonce : Nonce) (hp : c.phase = .awaitServices d nonce)
      (hw : s.servicesLock.waiting (.conn n) = []) (hs : s.services d = none) :
      ConnStep s n c .lookup (s.setConn n { c with phase := .refusing })
  | lookup (d : ServiceDigest) (nonce : Nonce) (cfg : ServerServiceConfig) (t : String)
      (hp : c.phase = .awaitServices d nonce) (hw : s.servicesLock.waiting (.conn n) = [])
      (hs : s.services d = some cfg) (ht : cfg.token = some t) :
      ConnStep s n c .lookup
        { s.setConn n { c with phase := .readAuth d cfg (sessionKey digest t nonce) } with
          servicesLock := s.servicesLock.release (.conn n) .read }
  | auth (d : ServiceDigest) (cfg : ServerServiceConfig) (k : Digest)
      (hp : c.phase = .readAuth d cfg k) :
      ConnStep s n c (.auth k)
        { s.setConn n { c with phase := .awaitTable d cfg k } with
          channelsLock := s.channelsLock.request (.conn n) .write }
  | authWrong (d : ServiceDigest) (cfg : ServerServiceConfig) (k x : Digest)
      (hp : c.phase = .readAuth d cfg k) (hx : k ≠ x) :
      ConnStep s n c (.auth x) (s.setConn n { c with phase := .authFailed })
  | takeTable (d : ServiceDigest) (cfg : ServerServiceConfig) (k : Digest)
      (hp : c.phase = .awaitTable d cfg k) (hw : s.channelsLock.waiting (.conn n) = []) :
      ConnStep s n c .takeTable
        { s.setConn n { c with phase := .acking d cfg k } with
          control_channels := (s.control_channels.remove1 d).2
          handles := dropHandle s.handles (s.control_channels.remove1 d).1 }
  | ack (d : ServiceDigest) (cfg : ServerServiceConfig) (k : Digest) (c' : Conn)
      (hp : c.phase = .acking d cfg k) (hc : c.write ACK_LEN = some c') :
      ConnStep s n c .ack
        ({ s.register heartbeat_interval d cfg k with
          channelsLock := s.channelsLock.release (.conn n) .write }.endConn n c')
  | findSent (nonce : Nonce) (h : Nat) (x : Handle) (state : Service)
      (hp : c.phase = .awaitFind nonce) (hw : s.channelsLock.waiting (.conn n) = [])
      (hf : s.control_channels.get2 nonce = some h) (hx : s.handles[h]? = some x)
      (hn : s.someoneSends h = false ∨ x.state.pool.ended = true)
      (hs : x.state.sendDataChannel = some state) :
      ConnStep s n c .find (s.sent n c h x state)
  | findWaits (nonce : Nonce) (h : Nat) (x : Handle) (hp : c.phase = .awaitFind nonce)
      (hw : s.channelsLock.waiting (.conn n) = []) (hf : s.control_channels.get2 nonce = some h)
      (hx : s.handles[h]? = some x) (he : x.state.pool.ended = false)
      (hs : s.someoneSends h = true ∨ x.state.sendDataChannel = none) :
      ConnStep s n c .find (s.setConn n { c with phase := .sending h })
  | send (h : Nat) (x : Handle) (state : Service) (hp : c.phase = .sending h)
      (hx : s.handles[h]? = some x) (hs : x.state.sendDataChannel = some state) :
      ConnStep s n c .send (s.sent n c h x state)

/-- **What one step of the server can do.** -/
inductive Step (s : State) : Action → State → Prop where
  | main {a : MainAct} {s' : State} (h : MainStep digest s a s') : Step s (.main a) s'
  | conn {n : Nat} {a : ConnAct} {s' : State} (c : Conn) (hc : s.conns[n]? = some c)
      (h : ConnStep digest heartbeat_interval s n c a s') : Step s (.conn n a) s'
  | service (h : Nat) (a : ServiceAct) (x : Handle) (state : Service)
      (hx : s.handles[h]? = some x) (ho : a.own = true) (hs : ServiceStep x.state a state) :
      Step s (.service h a) { s with handles := s.handles.set h { x with state := state } }

variable {digest heartbeat_interval}

theorem main_cases {s s' : State} {a : MainAct} (h : runMain digest s a = some s') :
    MainStep digest s a s' := by
  unfold runMain at h
  split at h
  · rename_i hm
    cases h
    exact .accept hm
  · rename_i hm
    cases h
    exact .handshakeFailed hm
  · rename_i room hm
    cases h
    exact .spawn room hm
  · rename_i cfg hm
    cases h
    exact .reloadAdd cfg hm
  · rename_i name hm
    cases h
    exact .reloadDelete name hm
  · rename_i e _ _ hm
    cases h
    exact .reloadIgnored e hm
  · rename_i cfg hm
    split at h
    · rename_i hw
      cases h
      exact .addServices cfg hm hw
    · cases h
  · rename_i name hm
    split at h
    · rename_i hw
      cases h
      exact .delServices name hm hw
    · cases h
  · rename_i name hm
    cases h
    exact .wantTable name hm
  · rename_i cfg hm
    split at h
    · rename_i hw
      cases h
      exact .addTable cfg hm hw
    · cases h
  · rename_i name hm
    split at h
    · rename_i hw
      cases h
      exact .delTable name hm hw
    · cases h
  · rename_i hm
    cases h
    exact .shutdown hm
  · cases h

theorem control_handshake_cases {s s' : State} {n : Nat} {c : Conn} {a : ConnAct}
    (h : do_control_channel_handshake digest heartbeat_interval s n c a = some s') :
    ConnStep digest heartbeat_interval s n c a s' := by
  unfold do_control_channel_handshake at h
  split at h
  · rename_i nonce d hp
    obtain ⟨c', hc, rfl⟩ := Option.map_eq_some_iff.mp h
    exact .sendHello d nonce c' hp hc
  · rename_i d hp
    cases h
    exact .ends _ c (Or.inr (Or.inl ⟨d, hp⟩))
  · rename_i d nonce hp
    split at h
    · rename_i hw
      split at h
      · rename_i hs
        cases h
        exact .lookupMissing d nonce hp hw hs
      · rename_i cfg hs
        split at h
        · rename_i t ht
          cases h
          exact .lookup d nonce cfg t hp hw hs ht
        · cases h
          exact .endsServices _ c (Or.inr ⟨d, nonce, hp⟩) (Or.inl hw)
    · cases h
  · rename_i hp
    obtain ⟨c', hc, rfl⟩ := Option.map_eq_some_iff.mp h
    exact .endsServices _ c' (Or.inl hp) (Or.inr hp)
  · rename_i hp
    cases h
    exact .endsServices _ c (Or.inl hp) (Or.inr hp)
  · rename_i x d cfg k hp
    split at h
    · rename_i hx
      cases h
      subst hx
      exact .auth d cfg k hp
    · rename_i hx
      cases h
      exact .authWrong d cfg k x hp hx
  · rename_i d cfg k hp
    cases h
    exact .ends _ c (Or.inr (Or.inr (Or.inl ⟨d, cfg, k, hp⟩)))
  · rename_i hp
    obtain ⟨c', hc, rfl⟩ := Option.map_eq_some_iff.mp h
    exact .ends _ c' (Or.inr (Or.inr (Or.inr hp)))
  · rename_i hp
    cases h
    exact .ends _ c (Or.inr (Or.inr (Or.inr hp)))
  · rename_i d cfg k hp
    split at h
    · rename_i hw
      cases h
      exact .takeTable d cfg k hp hw
    · cases h
  · rename_i d cfg k hp
    obtain ⟨c', hc, rfl⟩ := Option.map_eq_some_iff.mp h
    exact .ack d cfg k c' hp hc
  · rename_i d cfg k hp
    cases h
    exact .ackError d cfg k hp
  · cases h

theorem data_handshake_cases {s s' : State} {n : Nat} {c : Conn} {a : ConnAct}
    (h : do_data_channel_handshake s n c a = some s') :
    ConnStep digest heartbeat_interval s n c a s' := by
  unfold do_data_channel_handshake at h
  split at h
  · rename_i nonce hp
    split at h
    · rename_i hw
      split at h
      · rename_i hf
        cases h
        exact .notFound nonce hp hw hf
      · rename_i k hf
        split at h
        · cases h
        · rename_i x hx
          split at h
          · rename_i hg
            cases h
            exact .findWaits nonce k x hp hw hf hx hg.2 (Or.inl hg.1)
          · rename_i hg
            have hn : s.someoneSends k = false ∨ x.state.pool.ended = true := by
              by_cases he : x.state.pool.ended = true
              · exact Or.inr he
              · refine Or.inl (Bool.eq_false_iff.mpr fun hs => hg ⟨hs, ?_⟩)
                simpa using he
            split at h
            · rename_i state hs
              cases h
              exact .findSent nonce k x state hp hw hf hx hn hs
            · rename_i hs
              cases h
              refine .findWaits nonce k x hp hw hf hx ?_ (Or.inr hs)
              by_contra he
              have he' : x.state.pool.ended = true := by simpa using he
              unfold Service.sendDataChannel at hs
              rw [if_pos he'] at hs
              cases hs
    · cases h
  · rename_i k hp
    split at h
    · cases h
    · rename_i x hx
      obtain ⟨state, hs, rfl⟩ := Option.map_eq_some_iff.mp h
      exact .send k x state hp hx hs
  · cases h

theorem conn_cases {s s' : State} {n : Nat} {a : ConnAct}
    (h : handle_connection digest heartbeat_interval s n a = some s') :
    ∃ c, s.conns[n]? = some c ∧ ConnStep digest heartbeat_interval s n c a s' := by
  unfold handle_connection at h
  split at h
  · cases h
  · rename_i c hc
    refine ⟨c, hc, ?_⟩
    split at h
    · rename_i d hp
      cases h
      exact .helloControl d hp
    · rename_i nonce hp
      cases h
      exact .helloData nonce hp
    · rename_i hp
      cases h
      exact .ends _ c (Or.inl hp)
    · rename_i k
      cases h
      exact .peerReads k
    · exact data_handshake_cases h
    · exact data_handshake_cases h
    · exact control_handshake_cases h

theorem service_step_cases {s s' : State} {k : Nat} {a : ServiceAct} (h : runService s k a = some s') :
    ∃ x state, s.handles[k]? = some x ∧ a.own = true ∧ ServiceStep x.state a state ∧
      s' = { s with handles := s.handles.set k { x with state := state } } := by
  unfold runService at h
  split at h
  · cases h
  · rename_i x hx
    split at h
    · rename_i ho
      obtain ⟨state, hs, rfl⟩ := Option.map_eq_some_iff.mp h
      exact ⟨x, state, hx, ho, service_cases hs, rfl⟩
    · cases h

theorem step_cases {s s' : State} {a : Action} (h : step digest heartbeat_interval s a = some s') :
    Step digest heartbeat_interval s a s' := by
  cases a with
  | main a => exact .main (main_cases h)
  | conn n a =>
      obtain ⟨c, hc, h⟩ := conn_cases h
      exact .conn c hc h
  | service k a =>
      obtain ⟨x, state, hx, ho, hs, rfl⟩ := service_step_cases h
      exact .service k a x state hx ho hs

end

end Penetrate.Server
