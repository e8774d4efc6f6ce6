/-
  File:      Penetrate/Server/Schedules.lean
  Subject:   WHAT CAN HAPPEN TO A QUIET SERVER: a connection, a handshake up to its challenge, a
             registration, the deletion of a service.

  In a quiet state the main task is in its `select!` and nobody has anything to do with a lock.
  Each lemma runs one episode to its end and says what it changes; none of them disturbs the quiet,
  so episodes follow each other.
-/
import Penetrate.Server.Table

namespace Penetrate.Server

open Concurrent Machine Collections

/-- No task holds a guard or waits for one, and the main task is in its `select!`. -/
structure Quiet (s : State) : Prop where
  main : s.main = .select
  services : s.servicesLock = .free
  channels : s.channelsLock = .free

/-- A guard asked for while the lock is free is granted, and dropping it frees the lock again. -/
theorem waiting_request_free (t : Task) (m : Mode) :
    ((RwLock.free : RwLock Task).request t m).waiting t = [] := by
  simp [RwLock.free, RwLock.request, admits, RwLock.waiting]

theorem release_request_free (t : Task) (m : Mode) :
    ((RwLock.free : RwLock Task).request t m).release t m = .free := by
  simp [RwLock.free, RwLock.request, admits, RwLock.release, promote]

section

variable {digest : Bytes → Digest} {config : ServerConfig} {s : State} {n : Nat}

theorem step_conn (a : ConnAct) : (connections digest config).step s (.conn n a) =
    handle_connection digest config.heartbeat_interval s n a := rfl

theorem getElem?_setConn {c c' : Conn} (hc : s.conns[n]? = some c) :
    (s.setConn n c').conns[n]? = some c' :=
  List.getElem?_set_self (List.getElem?_eq_some_iff.mp hc).1

theorem settle_of_select (hm : s.main = .select) : s.settle = s := by
  unfold State.settle State.owned
  rw [hm]
  rfl

/-! ## Episodes -/

/-- A connection is accepted. -/
theorem leads_accept (q : Quiet s) (room : Nat) :
    (connections digest config).Leads s { s with conns := s.conns ++ [⟨.readHello, room⟩] } := by
  obtain ⟨services, servicesLock, table, channelsLock, main, conns, handles⟩ := s
  obtain ⟨rfl, rfl, rfl⟩ := q
  exact ⟨[.main .accept, .main (.spawn room)], rfl⟩

/-- A client says hello, its service is looked up, and its answer is awaited. -/
theorem leads_lookup (q : Quiet s) {room : Nat}
    (hc : s.conns[n]? = some ⟨.readHello, room + HELLO_LEN⟩) {d : ServiceDigest}
    {cfg : ServerServiceConfig} {t : String} (hs : s.services d = some cfg)
    (ht : cfg.token = some t) (nonce : Nonce) :
    (connections digest config).Leads s
      (s.setConn n ⟨.readAuth d cfg (sessionKey digest t nonce), room⟩) := by
  have h1 : (connections digest config).step s (.conn n (.hello (.controlChannelHello d))) =
      some (s.setConn n ⟨.sendHello d, room + HELLO_LEN⟩) := by
    rw [step_conn]
    unfold handle_connection
    rw [hc]
  have h2 : (connections digest config).step (s.setConn n ⟨.sendHello d, room + HELLO_LEN⟩)
      (.conn n (.sendHello nonce)) =
      some { s.setConn n ⟨.awaitServices d nonce, room⟩ with
        servicesLock := RwLock.free.request (.conn n) .read } := by
    rw [step_conn]
    unfold handle_connection do_control_channel_handshake
    rw [getElem?_setConn hc]
    simp [Conn.write, State.setConn, q.services]
  have h3 : (connections digest config).step
      { s.setConn n ⟨.awaitServices d nonce, room⟩ with
        servicesLock := RwLock.free.request (.conn n) .read } (.conn n .lookup) =
      some (s.setConn n ⟨.readAuth d cfg (sessionKey digest t nonce), room⟩) := by
    rw [step_conn]
    unfold handle_connection do_control_channel_handshake
    rw [show State.conns _ = _ from rfl, getElem?_setConn hc]
    simp only [State.setConn, hs, ht, waiting_request_free, release_request_free, List.set_set,
      if_true, q.services]
  exact ((Leads.of_step h1).trans (.of_step h2)).trans (.of_step h3)

/-- The client answers with the session key and is registered in an empty table. -/
theorem leads_register (q : Quiet s) {room : Nat} {d : ServiceDigest} {cfg : ServerServiceConfig}
    {k : Digest} (hc : s.conns[n]? = some ⟨.readAuth d cfg k, room + ACK_LEN⟩)
    (hn : s.control_channels = .new) :
    ∃ m : MultiMap ServiceDigest Nonce Nat,
      (∀ a b h, m.Entry a b h ↔ (a, b, h) = (d, k, s.handles.length)) ∧
      (connections digest config).Leads s { s with
        control_channels := m
        conns := s.conns.set n ⟨.ended, room⟩
        handles := s.handles ++ [⟨cfg, .new cfg.service_type config.heartbeat_interval⟩] } := by
  have h1 : (connections digest config).step s (.conn n (.auth k)) =
      some { s.setConn n ⟨.awaitTable d cfg k, room + ACK_LEN⟩ with
        channelsLock := RwLock.free.request (.conn n) .write } := by
    rw [step_conn]
    unfold handle_connection do_control_channel_handshake
    rw [hc]
    simp [q.channels]
  have h2 : (connections digest config).step
      { s.setConn n ⟨.awaitTable d cfg k, room + ACK_LEN⟩ with
        channelsLock := RwLock.free.request (.conn n) .write } (.conn n .takeTable) =
      some { s.setConn n ⟨.acking d cfg k, room + ACK_LEN⟩ with
        channelsLock := RwLock.free.request (.conn n) .write } := by
    rw [step_conn]
    unfold handle_connection do_control_channel_handshake
    rw [show State.conns _ = _ from rfl, getElem?_setConn hc]
    simp only [State.setConn, waiting_request_free, List.set_set, if_true, hn, MultiMap.remove1_new,
      dropHandle]
  rcases (MultiMap.new : MultiMap ServiceDigest Nonce Nat).insert_cases d k s.handles.length with
    ⟨_, hv⟩ | ⟨m, hm, _, hE⟩
  · exact absurd (MultiMap.vacant_new d k) hv
  have h3 : (connections digest config).step
      { s.setConn n ⟨.acking d cfg k, room + ACK_LEN⟩ with
        channelsLock := RwLock.free.request (.conn n) .write } (.conn n .ack) =
      some { s with
        control_channels := m
        conns := s.conns.set n ⟨.ended, room⟩
        handles := s.handles ++ [⟨cfg, .new cfg.service_type config.heartbeat_interval⟩] } := by
    rw [step_conn]
    unfold handle_connection do_control_channel_handshake
    rw [show State.conns _ = _ from rfl, getElem?_setConn hc]
    simp only [Conn.write, State.register, State.endConn, State.setConn, hn, hm, release_request_free,
      List.set_set, Nat.le_add_left, if_true, Option.map_some, Nat.add_sub_cancel]
    rw [settle_of_select, q.channels]
    exact q.main
  refine ⟨m, fun a b h => ?_, ((Leads.of_step h1).trans (.of_step h2)).trans (.of_step h3)⟩
  rw [hE a b h]
  exact or_iff_left (MultiMap.not_entry_new a b h)

/-- A service does something on its own. -/
theorem leads_service {h : Nat} {x : Handle} {a : ServiceAct} {state : Service}
    (hx : s.handles[h]? = some x) (ho : a.own = true) (hs : x.state.step a = some state) :
    (connections digest config).Leads s { s with handles := s.handles.set h { x with state := state } } := by
  have hst : (connections digest config).step s (.service h a) = runService s h a := rfl
  refine .of_step (a := .service h a) ?_
  rw [hst]
  unfold runService
  rw [hx]
  simp [ho, hs]

section DataChannel

variable {k : Nonce} {h : Nat} {x : Handle}

end DataChannel

/-- The service named `name` is deleted. -/
theorem leads_delete (q : Quiet s) (name : String) :
    (connections digest config).Leads s { s with
      services := Function.update s.services (nameDigest digest name) none
      control_channels := (s.control_channels.remove1 (nameDigest digest name)).2
      handles := dropHandle s.handles (s.control_channels.remove1 (nameDigest digest name)).1 } := by
  obtain ⟨services, servicesLock, table, channelsLock, main, conns, handles⟩ := s
  obtain ⟨rfl, rfl, rfl⟩ := q
  exact ⟨[.main (.reload (.serverChange (.delete name))), .main .writeServices, .main .wantTable,
    .main .removeEntry], rfl⟩

end

/-! ## A server with one service -/

/-- `[server]` with one TCP or UDP service `web`. -/
def webServer (service_type : ServiceType) : ServerConfig where
  bind_addr := "0.0.0.0:2333"
  default_token := none
  services := AList.singleton "web" ⟨service_type, "web", "0.0.0.0:8080", some "secret", none⟩
  transport := ⟨.tcp, ⟨true, 20, 8, none⟩, none, none⟩
  heartbeat_interval := 30

def webService (service_type : ServiceType) : ServerServiceConfig :=
  ⟨service_type, "web", "0.0.0.0:8080", some "secret", none⟩

theorem services_webServer (digest : Bytes → Digest) (t : ServiceType) :
    (initial digest (webServer t)).services (nameDigest digest "web") = some (webService t) := by
  show Function.update (fun _ => none) (nameDigest digest "web") (some (webService t)) _ = _
  rw [Function.update_self]

/-- A client of `web` connects, as connection `n`, and answers the challenge. -/
def webAnswer (digest : Bytes → Digest) (n : Nat) (nonce : Nonce) : List Action :=
  [.main .accept, .main (.spawn (ACK_LEN + HELLO_LEN)),
    .conn n (.hello (.controlChannelHello (nameDigest digest "web"))), .conn n (.sendHello nonce),
    .conn n .lookup, .conn n (.auth (sessionKey digest "secret" nonce))]

/-- A digest that tells short strings apart. -/
def leading (x : Bytes) : Digest := Vector.ofFn fun i => x.getD i 0

/-- That server with these connections, before anybody has authenticated. -/
def webState (digest : Bytes → Digest) (t : ServiceType) (conns : List Conn) : State :=
  { initial digest (webServer t) with conns := conns }

theorem quiet_webState (digest : Bytes → Digest) (t : ServiceType) (conns : List Conn) :
    Quiet (webState digest t conns) := ⟨rfl, rfl, rfl⟩

/-- **A client of that server gets as far as the challenge.** -/
theorem reachable_challenged (digest : Bytes → Digest) (t : ServiceType) (nonce : Nonce) :
    (connections digest (webServer t)).Reachable (webState digest t
      [⟨.readAuth (nameDigest digest "web") (webService t) (sessionKey digest "secret" nonce),
        ACK_LEN⟩]) := by
  have h0 : (connections digest (webServer t)).Leads (webState digest t [])
      (webState digest t [⟨.readHello, ACK_LEN + HELLO_LEN⟩]) :=
    leads_accept (quiet_webState digest t []) (ACK_LEN + HELLO_LEN)
  have h1 : (connections digest (webServer t)).Leads
      (webState digest t [⟨.readHello, ACK_LEN + HELLO_LEN⟩])
      (webState digest t [⟨.readAuth (nameDigest digest "web") (webService t)
        (sessionKey digest "secret" nonce), ACK_LEN⟩]) :=
    leads_lookup (s := webState digest t [⟨.readHello, ACK_LEN + HELLO_LEN⟩]) (n := 0)
      ⟨rfl, rfl, rfl⟩ rfl (services_webServer digest t) rfl nonce
  exact (Reachable.start rfl).leads (h0.trans h1)

/-- That server with its service's control channel in the table `m`, and these connections. -/
def webRegistered (digest : Bytes → Digest) (t : ServiceType) (m : MultiMap ServiceDigest Nonce Nat)
    (state : Service) (conns : List Conn) : State :=
  { initial digest (webServer t) with
    control_channels := m
    handles := [⟨webService t, state⟩]
    conns := conns }

/-- **The client answers, and its control channel is in the table.** -/
theorem reachable_registered (digest : Bytes → Digest) (t : ServiceType) (nonce : Nonce) :
    ∃ m : MultiMap ServiceDigest Nonce Nat, (∀ a b h, m.Entry a b h ↔
      (a, b, h) = (nameDigest digest "web", sessionKey digest "secret" nonce, 0)) ∧
      (connections digest (webServer t)).Reachable
        (webRegistered digest t m (.new t 30) [⟨.ended, 0⟩]) := by
  let c : Conn := ⟨.readAuth (nameDigest digest "web") (webService t)
    (sessionKey digest "secret" nonce), ACK_LEN⟩
  have h : ∃ m : MultiMap ServiceDigest Nonce Nat, (∀ a b h, m.Entry a b h ↔
      (a, b, h) = (nameDigest digest "web", sessionKey digest "secret" nonce, 0)) ∧
      (connections digest (webServer t)).Leads (webState digest t [c])
        (webRegistered digest t m (.new t 30) [⟨.ended, 0⟩]) :=
    leads_register (s := webState digest t [c]) (n := 0) ⟨rfl, rfl, rfl⟩ rfl rfl
  obtain ⟨m, hm, hl⟩ := h
  exact ⟨m, hm, (reachable_challenged digest t nonce).leads hl⟩

end Penetrate.Server
