/-
  File:      Penetrate/UdpPath.lean
  Subject:   THE PATH OF A DATAGRAM: from a visitor to the local service and back, through the
             encoding on both hops.

  The relay of Relay.lean hands packets over as they are. Here a packet is written by `write_slice`
  or `write` on one side and read by `UdpTraffic::read` on the other, which gives back the address
  without its flowinfo and scope id.

  * `readPacket_hop` -- one hop, for a packet of any address: `onWire` is what arrives;
  * `wiredRelay` -- the relay with the encoding between its two ends; what its runs do at the two
    outer ends (`visitorIn`, `serviceOut`, `serviceIn`, `sendTo`, `visitorOut`);
  * `Carried` -- **the invariant**: every packet on the path fits its header, and past the first hop
    its address loses nothing more; `packets_read` -- what one side writes, the other reads;
  * `inbound_run`, `outbound_run` -- what leaves the path is a subsequence of what entered it, cut to
    the receive buffer;
  * `replies_exact_iff` -- replies go back to the exact visitor precisely for addresses that lose
    nothing on a hop;
  * `payloads_whole_iff` -- payloads arrive unaltered precisely up to the size of the buffer.
-/
import Mathlib.Data.List.TakeDrop
import Penetrate.UdpFraming
import Penetrate.Client.Flows
import Penetrate.Relay

namespace Penetrate

open Concurrent Machine Server Client

variable {down up : Nat}

/-! ## 1. One hop -/

/-- The address as the other end of the connection reads it. -/
def SocketAddr.onWire (a : SocketAddr) : SocketAddr := .ofCompact a.compact

theorem SocketAddr.onWire_plain (a : SocketAddr) : a.onWire.Plain := by
  cases a with
  | v4 ip port => exact trivial
  | v6 ip port flowinfo scope_id => exact ⟨rfl, rfl⟩

theorem SocketAddr.onWire_eq_iff {a : SocketAddr} : a.onWire = a ↔ a.Plain :=
  ⟨fun h => h ▸ a.onWire_plain, ofCompact_compact⟩

@[simp] theorem SocketAddr.onWire_onWire (a : SocketAddr) : a.onWire.onWire = a.onWire :=
  onWire_eq_iff.mpr a.onWire_plain

theorem SocketAddr.compact_onWire (a : SocketAddr) : a.onWire.compact = a.compact := by
  cases a <;> rfl

/-- The packet as the other end reads it. -/
def UdpTraffic.onWire (t : UdpTraffic) : UdpTraffic := ⟨t.from_.onWire, t.data⟩

@[simp] theorem UdpTraffic.onWire_from (t : UdpTraffic) : t.onWire.from_ = t.from_.onWire := rfl
@[simp] theorem UdpTraffic.onWire_data (t : UdpTraffic) : t.onWire.data = t.data := rfl

theorem UdpTraffic.onWire_of_plain {t : UdpTraffic} (h : t.from_.Plain) : t.onWire = t := by
  obtain ⟨a, d⟩ := t
  show UdpTraffic.mk a.onWire d = _
  rw [SocketAddr.onWire_eq_iff.mpr h]

/-- What is lost on the hop is not written. -/
theorem UdpTraffic.write_onWire (t : UdpTraffic) : t.onWire.write = t.write := by
  simp only [write, UdpHeader.serialize, onWire, SocketAddr.compact_onWire]

/-- **One hop**: whatever the address, the packet arrives with what was written of it. -/
theorem readPacket_hop {t : UdpTraffic} (h : t.data.length ≤ 65535) (rest : Bytes) :
    readPacket (t.write ++ rest) = .ok (t.onWire, rest) := by
  have hs : t.onWire.Sendable := ⟨h, t.from_.onWire_plain⟩
  rw [← t.write_onWire]
  exact readPacket_write hs rest

/-- What `read_u8` and `UdpTraffic::read` make of the bytes of one packet. -/
def received (packet : Bytes) : Option UdpTraffic :=
  match readPacket packet with
  | .ok (t, []) => some t
  | _ => none

theorem received_write {t : UdpTraffic} (h : t.data.length ≤ 65535) :
    received t.write = some t.onWire := by
  have hr := readPacket_hop h []
  rw [List.append_nil] at hr
  rw [received, hr]

/-- What `recv_from` and `recv` leave in the buffer. -/
def UdpTraffic.cut (t : UdpTraffic) : UdpTraffic := ⟨t.from_, t.data.take UDP_BUFFER_SIZE⟩

/-- The buffer is far below what a header can say. -/
theorem cut_length (t : UdpTraffic) : t.cut.data.length ≤ 65535 :=
  Nat.le_trans (List.length_take_le _ _) (by decide)

theorem take_buffer_eq_iff {p : Bytes} :
    p.take UDP_BUFFER_SIZE = p ↔ p.length ≤ UDP_BUFFER_SIZE := List.take_eq_self_iff p

theorem UdpTraffic.cut_eq_iff {t : UdpTraffic} : t.cut = t ↔ t.data.length ≤ UDP_BUFFER_SIZE := by
  obtain ⟨a, d⟩ := t
  simp [cut]

/-! ## 2. The relay with the encoding in it -/

/-- What an event of the pool does to its end of the connection: `write_slice` puts bytes on it,
    which the client's loop reads; `UdpTraffic::read` takes the bytes the client has written. -/
def wireEnd (s : Relay down up) : PoolEvent → Option (Client.State down up)
  | .written true => match s.pool with
    | .writing t => (received (UdpTraffic.write_slice t.from_ t.data)).bind fun p =>
        serverSide s.client (.write p)
    | _ => none
  | .read (some x) =>
      if (s.client.upstream.items.head?.bind fun t => received t.write) = some x then
        serverSide s.client .read
      else none
  | _ => some s.client

def wiredStep (s : Relay down up) : RelayAct → Option (Relay down up)
  | .pool e => (runUdpConnectionPool s.pool e).bind fun p => (wireEnd s e).map fun c => ⟨p, c⟩
  | a => s.step a

/-- **The relay of one UDP service with its encoding**, against every visitor and service. -/
def wiredRelay (down up : Nat) : Machine (Relay down up) RelayAct where
  start s := s = ⟨.select, initial down up⟩
  step := wiredStep

/-- A visitor's datagram, as it was sent. -/
def visitorIn (_ : Relay down up) : RelayAct → Option UdpTraffic
  | .pool (.recvFrom (some (from_, payload))) => some ⟨from_, payload⟩
  | _ => none

/-- A datagram handed to the local service. -/
def serviceOut (s : Relay down up) : RelayAct → Option UdpTraffic
  | .forwarder f a => localSend s.client (.forwarder f a)
  | _ => none

/-- The service's datagram, as it was sent, under the address the socket was created for. -/
def serviceIn (s : Relay down up) : RelayAct → Option UdpTraffic
  | .forwarder f (.recvLocal payload) => (s.client.forwarders[f]?).map fun w => ⟨w.from_, payload⟩
  | _ => none

/-- A reply the pool passes to `send_to`, with the address its forwarder served. -/
def sendTo (s : Relay down up) : RelayAct → Option (SocketAddr × UdpTraffic)
  | .pool (.read (some t)) => s.client.upstream.items.head?.map fun x => (x.from_, t)
  | _ => none

/-- A datagram that has gone out to a visitor. -/
def visitorOut (s : Relay down up) : RelayAct → Option UdpTraffic
  | .pool (.sentTo true) => match s.pool with
    | .sending t => some t
    | _ => none
  | _ => none

/-- What an event of the pool is at the client's end. -/
def poolAct (s : Relay down up) : PoolEvent → Option ServerAct
  | .written true => match s.pool with
    | .writing t => (received t.write).map .write
    | _ => none
  | .read (some _) => some .read
  | _ => none

/-- What one step of the pool can do. -/
inductive WireStep (s : Relay down up) : PoolEvent → Relay down up → Prop where
  | recvFrom (from_ : SocketAddr) (payload : Bytes) (hp : s.pool = .select) :
      WireStep s (.recvFrom (some (from_, payload)))
        { s with pool := .writing (UdpTraffic.cut ⟨from_, payload⟩) }
  | written (t x : UdpTraffic) (q : Mpsc UdpTraffic down) (hp : s.pool = .writing t)
      (hx : received t.write = some x) (hq : s.client.downstream.send x = some q) :
      WireStep s (.written true) ⟨.select, { s.client with downstream := q }⟩
  | read (t x : UdpTraffic) (q : Mpsc UdpTraffic up) (hp : s.pool = .select)
      (hx : received t.write = some x) (hq : s.client.upstream.recv = some (t, q)) :
      WireStep s (.read (some x)) ⟨.sending x, { s.client with upstream := q }⟩
  | sentTo (t : UdpTraffic) (hp : s.pool = .sending t) :
      WireStep s (.sentTo true) { s with pool := .select }
  | leave (e : PoolEvent) (why : PoolEnd) (he : poolAct s e = none)
      (hin : visitorIn s (.pool e) = none) (hto : sendTo s (.pool e) = none)
      (hout : visitorOut s (.pool e) = none) : WireStep s e { s with pool := .ended why }

theorem wire_cases {s s' : Relay down up} {e : PoolEvent} (h : wiredStep s (.pool e) = some s') :
    WireStep s e s' := by
  obtain ⟨p, hp, hb⟩ := Option.bind_eq_some_iff.mp h
  obtain ⟨c, hc, rfl⟩ := Option.map_eq_some_iff.mp hb
  clear h hb
  unfold runUdpConnectionPool at hp
  split at hp
  · rename_i hs
    cases hp
    cases hc
    exact .recvFrom _ _ hs
  · cases hp
    cases hc
    exact .leave _ _ rfl rfl rfl rfl
  · rename_i t hs
    cases hp
    rw [wireEnd, hs] at hc
    obtain ⟨x, hx, hc⟩ := Option.bind_eq_some_iff.mp hc
    cases server_cases hc with
    | write _ q hq => exact .written t x q hs hx hq
  · cases hp
    cases hc
    exact .leave _ _ rfl rfl rfl rfl
  · rename_i x hs
    cases hp
    rw [wireEnd] at hc
    split at hc
    · rename_i hx
      cases server_cases hc with
      | read t q hq =>
          rw [Mpsc.recv_eq_some hq, List.head?_cons] at hx
          exact .read t x q hs hx hq
    · cases hc
  · cases hp
    cases hc
    exact .leave _ _ rfl rfl rfl rfl
  · rename_i t hs
    cases hp
    cases hc
    exact .sentTo t hs
  · cases hp
    cases hc
    exact .leave _ _ rfl rfl rfl rfl
  · cases hp
    cases hc
    exact .leave _ _ rfl rfl rfl rfl
  · cases hp

/-- The step of the client's data channel in a step of the relay. -/
def clientAct (s : Relay down up) : RelayAct → Option Client.Action
  | .pool e => (poolAct s e).map .server
  | .loop a => some (.loop a)
  | .forwarder f a => some (.forwarder f a)
  | .writer a => some (.writer a)

/-- What the client's part of a step does. -/
def onClient {β : Type} (ev : Client.State down up → Client.Action → Option β) (s : Relay down up)
    (a : RelayAct) : Option β := (clientAct s a).bind (ev s.client)

theorem onClient_pool {β : Type} {ev : Client.State down up → Client.Action → Option β}
    (hev : ∀ s a, ev s (.server a) = none) (s : Relay down up) (e : PoolEvent) :
    onClient ev s (.pool e) = none := by
  show ((poolAct s e).map Client.Action.server).bind (ev s.client) = none
  cases poolAct s e with
  | none => rfl
  | some a => exact hev _ a

theorem serviceOut_eq : @serviceOut down up = onClient localSend := by
  funext s a
  cases a with
  | pool e => exact (onClient_pool (fun _ _ => rfl) s e).symm
  | _ => rfl

/-- **A run of the relay is a run of the client's data channel**, against this server. -/
theorem client_run {tr : List (Relay down up × RelayAct)} {s : Relay down up}
    (r : (wiredRelay down up).Run tr s) :
    (dataChannel down up).Run (project (·.client) clientAct tr) s.client := by
  refine r.project (fun s h => ?_) (fun s a s' b h hb => ?_) (fun s a s' h hb => ?_)
  · rw [show s = ⟨.select, initial down up⟩ from h]
    rfl
  · cases a with
    | pool e =>
        cases wire_cases h with
        | written t x q hp hx hq =>
            simp only [clientAct, poolAct, hp, hx, Option.map_some, Option.some.injEq] at hb
            subst hb
            show (s.client.downstream.send x).map _ = _
            rw [hq]
            rfl
        | read t x q hp hx hq =>
            cases hb
            show s.client.upstream.recv.map _ = _
            rw [hq]
            rfl
        | leave e why he => simp [clientAct, he] at hb
        | recvFrom from_ payload hp => cases hb
        | sentTo t hp => cases hb
    | loop a =>
        cases hb
        obtain ⟨c, hc, rfl⟩ := Option.map_eq_some_iff.mp h
        exact hc
    | forwarder f a =>
        cases hb
        obtain ⟨c, hc, rfl⟩ := Option.map_eq_some_iff.mp h
        exact hc
    | writer a =>
        cases hb
        obtain ⟨c, hc, rfl⟩ := Option.map_eq_some_iff.mp h
        exact hc
  · cases a with
    | pool e =>
        cases wire_cases h with
        | written t x q hp hx hq => simp [clientAct, poolAct, hp, hx] at hb
        | read t x q hp hx hq => cases hb
        | _ => rfl
    | loop a => cases hb
    | forwarder f a => cases hb
    | writer a => cases hb

/-! ## 3. What is on the path -/

/-- The visitor's datagram the pool has in hand, as it will arrive. -/
def inHand : PoolPhase → List UdpTraffic
  | .writing t => [t.onWire]
  | _ => []

/-- The reply it has in hand. -/
def outHand : PoolPhase → List UdpTraffic
  | .sending t => [t]
  | _ => []

/-- The reply the client's writer has in hand. -/
def writerHand : Client.Writer → List UdpTraffic
  | .writing t => [t]
  | _ => []

/-- Visitors' datagrams on their way to the client's loop. -/
def Relay.inbound (s : Relay down up) : List UdpTraffic :=
  s.client.downstream.items ++ inHand s.pool

/-- Replies on their way to the visitors. -/
def Relay.outbound (s : Relay down up) : List UdpTraffic :=
  outHand s.pool ++ (s.client.upstream.items ++
    (writerHand s.client.writer ++ s.client.outbound.items))

/-- **One step of the way in**: what the loop reads comes off the path, what a visitor sends goes
    on it; a packet in hand may be lost. -/
theorem inbound_step {s s' : Relay down up} {a : RelayAct} (h : wiredStep s a = some s')
    (hshort : ∀ t, s.pool = .writing t → t.data.length ≤ 65535) :
    ((onClient packetRead s a).toList ++ s'.inbound).Sublist
      (s.inbound ++ ((visitorIn s a).map fun t => t.cut.onWire).toList) := by
  cases a with
  | pool e =>
      rw [onClient_pool (fun _ _ => rfl)]
      cases wire_cases h with
      | recvFrom from_ payload hp => simp [Relay.inbound, inHand, hp, visitorIn]
      | written t x q hp hx hq =>
          have hlen := hshort t hp
          rw [received_write hlen] at hx
          cases hx
          simp [Relay.inbound, inHand, hp, (Mpsc.send_eq_some hq).1]
      | read t x q hp hx hq => simp [Relay.inbound, inHand, hp]
      | sentTo t hp => simp [Relay.inbound, inHand, hp]
      | leave e why he hin => simp [Relay.inbound, inHand]
  | loop b =>
      obtain ⟨c, hc, rfl⟩ := Option.map_eq_some_iff.mp h
      cases loop_cases hc with
      | readPacket p q hl hq =>
          simp [Relay.inbound, onClient, clientAct, packetRead, Mpsc.recv_eq_some hq]
      | _ => simp [Relay.inbound, onClient, clientAct, packetRead]
  | forwarder f b =>
      obtain ⟨c, hc, rfl⟩ := Option.map_eq_some_iff.mp h
      obtain ⟨w, hw, hstep⟩ := forwarder_cases hc
      have hd : c.downstream = s.client.downstream := by cases hstep <;> rfl
      simp [Relay.inbound, onClient, clientAct, packetRead, hd]
  | writer b =>
      obtain ⟨c, hc, rfl⟩ := Option.map_eq_some_iff.mp h
      have hd : c.downstream = s.client.downstream := by cases writer_cases hc <;> rfl
      simp [Relay.inbound, onClient, clientAct, packetRead, hd]

/-- **One step of the way out**: a datagram to a visitor comes off the path, a forwarder's reply
    goes on it; a packet in hand may be lost. -/
theorem outbound_step {s s' : Relay down up} {a : RelayAct} (h : wiredStep s a = some s')
    (hup : ∀ t ∈ s.client.upstream.items, t.Sendable) :
    ((visitorOut s a).toList ++ s'.outbound).Sublist
      (s.outbound ++ (onClient outboundPut s a).toList) := by
  cases a with
  | pool e =>
      rw [onClient_pool (fun _ _ => rfl)]
      cases wire_cases h with
      | recvFrom from_ payload hp => simp [Relay.outbound, outHand, hp, visitorOut]
      | written t x q hp hx hq => simp [Relay.outbound, outHand, hp, visitorOut]
      | read t x q hp hx hq =>
          -- the pool reads the packet the client wrote
          have hitems := Mpsc.recv_eq_some hq
          have ht : t.Sendable := hup t (by rw [hitems]; exact List.mem_cons_self)
          rw [received_write ht.1, UdpTraffic.onWire_of_plain ht.2] at hx
          cases hx
          simp [Relay.outbound, outHand, hp, visitorOut, hitems]
      | sentTo t hp => simp [Relay.outbound, outHand, hp, visitorOut]
      | leave e why he hin hto hout => simp [Relay.outbound, outHand, hout]
  | loop b =>
      obtain ⟨c, hc, rfl⟩ := Option.map_eq_some_iff.mp h
      have hu : c.upstream = s.client.upstream := by cases loop_cases hc <;> rfl
      have hw : c.writer = s.client.writer := by cases loop_cases hc <;> rfl
      have ho : c.outbound = s.client.outbound := by cases loop_cases hc <;> rfl
      simp [Relay.outbound, visitorOut, hu, hw, ho]
  | forwarder f b =>
      obtain ⟨c, hc, rfl⟩ := Option.map_eq_some_iff.mp h
      obtain ⟨w, hw, hstep⟩ := forwarder_cases hc
      cases hstep with
      | sendOutbound t q hp hwr hq =>
          simp [Relay.outbound, State.toPhase, visitorOut, onClient, clientAct, outboundPut, hw,
            Forwarder.replies, hp, hwr, (Mpsc.send_eq_some hq).1]
      | _ => simp [Relay.outbound, State.toPhase, visitorOut]
  | writer b =>
      obtain ⟨c, hc, rfl⟩ := Option.map_eq_some_iff.mp h
      cases writer_cases hc with
      | recvOutbound t q hwr hq =>
          simp [Relay.outbound, visitorOut, writerHand, hwr, Mpsc.recv_eq_some hq]
      | outboundClosed hwr he => simp [Relay.outbound, visitorOut, writerHand, hwr]
      | write t q hwr hq =>
          simp [Relay.outbound, visitorOut, writerHand, hwr, (Mpsc.send_eq_some hq).1]
      | writeError t hwr => simp [Relay.outbound, visitorOut, writerHand]

/-- Every packet on the path fits its header; and past the first hop its address loses nothing
    more. -/
structure Carried (s : Relay down up) : Prop where
  writing : ∀ t, s.pool = .writing t → t.data.length ≤ 65535
  downstream : ∀ t ∈ s.client.downstream.items, t.from_.Plain
  hand : ∀ t, s.client.loop.hand = some t → t.from_.Plain
  serving : ∀ w ∈ s.client.forwarders, w.from_.Plain
  replying : ∀ w ∈ s.client.forwarders, ∀ t, w.phase = .sendingOutbound t → t.Sendable
  upstream : ∀ t ∈ s.client.upstream.items, t.Sendable
  writer : ∀ t, s.client.writer = .writing t → t.Sendable
  outbound : ∀ t ∈ s.client.outbound.items, t.Sendable

theorem carried_initial : Carried (⟨.select, initial down up⟩ : Relay down up) where
  writing t h := by cases h
  downstream t h := by cases h
  hand t h := by cases h
  serving w h := by cases h
  replying w h := by cases h
  upstream t h := by cases h
  writer t h := by cases h
  outbound t h := by cases h

theorem Carried.pool {s s' : Relay down up} {e : PoolEvent} (hI : Carried s)
    (h : WireStep s e s') : Carried s' := by
  cases h with
  | recvFrom from_ payload hp =>
      refine { hI with writing := fun t ht => ?_ }
      cases ht
      exact cut_length _
  | written t x q hp hx hq =>
      refine { hI with writing := (fun t ht => by cases ht), downstream := fun y hy => ?_ }
      rw [(Mpsc.send_eq_some hq).1, List.mem_append, List.mem_singleton] at hy
      rcases hy with hy | rfl
      · exact hI.downstream y hy
      · rw [received_write (hI.writing t hp)] at hx
        cases hx
        exact t.from_.onWire_plain
  | read t x q hp hx hq =>
      refine { hI with writing := (fun t ht => by cases ht), upstream := fun y hy => ?_ }
      exact hI.upstream y (by rw [Mpsc.recv_eq_some hq]; exact List.mem_cons_of_mem _ hy)
  | sentTo t hp => exact { hI with writing := fun t ht => by cases ht }
  | leave e why => exact { hI with writing := fun t ht => by cases ht }

theorem Carried.loop {s : Relay down up} {c : Client.State down up} {a : LoopAct} (hI : Carried s)
    (h : LoopStep s.client a c) : Carried { s with client := c } := by
  cases h with
  | readPacket p q hl hq =>
      have hitems := Mpsc.recv_eq_some hq
      refine { hI with downstream := (fun t ht => ?_), hand := fun t ht => ?_ }
      · exact hI.downstream t (by rw [hitems]; exact List.mem_cons_of_mem _ ht)
      · cases ht
        exact hI.downstream p (by rw [hitems]; exact List.mem_cons_self)
  | connected p hl hw =>
      have hp := hI.hand p (by rw [hl]; rfl)
      refine { hI with
        hand := (fun t ht => hI.hand t (by rw [hl]; exact ht))
        serving := (fun w hw => ?_)
        replying := fun w hw t ht => ?_ }
      · rcases List.mem_append.mp hw with hw | hw
        · exact hI.serving w hw
        · rw [List.mem_singleton.mp hw]
          exact hp
      · rcases List.mem_append.mp hw with hw | hw
        · exact hI.replying w hw t ht
        · rw [List.mem_singleton.mp hw] at ht
          cases ht
  | send p f m w q hl hf hw hq =>
      have hmem := List.mem_of_getElem? hf
      refine { hI with
        hand := (fun t ht => by cases ht)
        serving := (fun v hv => ?_)
        replying := fun v hv t ht => ?_ }
      · rcases List.mem_or_eq_of_mem_set hv with hv | rfl
        · exact hI.serving v hv
        · exact hI.serving w hmem
      · rcases List.mem_or_eq_of_mem_set hv with hv | rfl
        · exact hI.replying v hv t ht
        · exact hI.replying w hmem t ht
  | sendClosed p f m w hl hf hw => exact { hI with hand := fun t ht => by cases ht }
  | lookupMissing p m hl hw hm => exact { hI with hand := fun t ht => by cases ht }
  | readError hl => exact { hI with hand := fun t ht => by cases ht }
  | requestRead p hl => exact { hI with hand := fun t ht => hI.hand t (by rw [hl]; exact ht) }
  | checkAbsent p hl => exact { hI with hand := fun t ht => hI.hand t (by rw [hl]; exact ht) }
  | checkPresent p f hl => exact { hI with hand := fun t ht => hI.hand t (by rw [hl]; exact ht) }
  | requestWrite p hl => exact { hI with hand := fun t ht => hI.hand t (by rw [hl]; exact ht) }
  | connectError p hl => exact { hI with hand := fun t ht => hI.hand t (by rw [hl]; exact ht) }
  | requestRecheck p m hl =>
      exact { hI with hand := fun t ht => hI.hand t (by rw [hl]; exact ht) }
  | lookupFound p m f hl => exact { hI with hand := fun t ht => hI.hand t (by rw [hl]; exact ht) }

/-- A forwarder goes on for the same address. -/
theorem Carried.moves {s : Relay down up} (hI : Carried s) {f : Nat} {w v : Forwarder}
    (hf : s.client.forwarders[f]? = some w) (hfrom : v.from_ = w.from_)
    (hrep : ∀ t, v.phase = .sendingOutbound t → t.Sendable) :
    Carried { s with client := { s.client with forwarders := s.client.forwarders.set f v } } := by
  have hmem := List.mem_of_getElem? hf
  refine { hI with serving := (fun u hu => ?_), replying := fun u hu t ht => ?_ }
  · rcases List.mem_or_eq_of_mem_set hu with hu | rfl
    · exact hI.serving u hu
    · rw [hfrom]
      exact hI.serving w hmem
  · rcases List.mem_or_eq_of_mem_set hu with hu | rfl
    · exact hI.replying u hu t ht
    · exact hrep t ht

theorem Carried.forwarder {s : Relay down up} {c : Client.State down up} {f : Nat}
    {w : Forwarder} {a : ForwarderAct} (hI : Carried s) (hf : s.client.forwarders[f]? = some w)
    (h : ForwarderStep s.client f w a c) : Carried { s with client := c } := by
  have hmem := List.mem_of_getElem? hf
  cases h with
  | recvLocal payload hp =>
      refine hI.moves hf rfl fun t ht => ?_
      cases ht
      exact ⟨cut_length ⟨w.from_, payload⟩, hI.serving w hmem⟩
  | sendOutbound t q hp hw hq =>
      have hm : Carried { s with client := s.client.toPhase f w .select } :=
        hI.moves hf rfl fun t ht => by cases ht
      refine { hm with outbound := fun y hy => ?_ }
      rw [(Mpsc.send_eq_some hq).1, List.mem_append, List.mem_singleton] at hy
      rcases hy with hy | rfl
      · exact hI.outbound y hy
      · exact hI.replying w hmem y hp
  | cleanUp hp hw =>
      have hm : Carried { s with client := s.client.toPhase f w .finished } :=
        hI.moves hf rfl fun t ht => by cases ht
      exact { hm with }
  | requestWrite hp =>
      have hm : Carried { s with client := s.client.toPhase f w .awaitWrite } :=
        hI.moves hf rfl fun t ht => by cases ht
      exact { hm with }
  | recvInbound data q hp hq => exact hI.moves hf rfl fun t ht => by cases ht
  | inboundClosed hp he hm => exact hI.moves hf rfl fun t ht => by cases ht
  | recvLocalError hp => exact hI.moves hf rfl fun t ht => by cases ht
  | timeout hp => exact hI.moves hf rfl fun t ht => by cases ht
  | sentLocal data hp => exact hI.moves hf rfl fun t ht => by cases ht
  | sendLocalError data hp => exact hI.moves hf rfl fun t ht => by cases ht
  | outboundClosed t hp hw => exact hI.moves hf rfl fun t ht => by cases ht

theorem Carried.writerStep {s : Relay down up} {c : Client.State down up} {a : WriterAct}
    (hI : Carried s) (h : WriterStep s.client a c) : Carried { s with client := c } := by
  cases h with
  | recvOutbound t q hw hq =>
      have hitems := Mpsc.recv_eq_some hq
      refine { hI with writer := (fun y hy => ?_), outbound := fun y hy => ?_ }
      · cases hy
        exact hI.outbound t (by rw [hitems]; exact List.mem_cons_self)
      · exact hI.outbound y (by rw [hitems]; exact List.mem_cons_of_mem _ hy)
  | write t q hw hq =>
      refine { hI with writer := (fun y hy => by cases hy), upstream := fun y hy => ?_ }
      rw [(Mpsc.send_eq_some hq).1, List.mem_append, List.mem_singleton] at hy
      rcases hy with hy | rfl
      · exact hI.upstream y hy
      · exact hI.writer y hw
  | writeError t hw => exact { hI with writer := fun y hy => by cases hy }
  | outboundClosed hw he => exact { hI with writer := fun y hy => by cases hy }

theorem carried_step {s s' : Relay down up} {a : RelayAct} (hI : Carried s)
    (h : wiredStep s a = some s') : Carried s' := by
  cases a with
  | pool e => exact hI.pool (wire_cases h)
  | loop b =>
      obtain ⟨c, hc, rfl⟩ := Option.map_eq_some_iff.mp h
      exact hI.loop (loop_cases hc)
  | forwarder f b =>
      obtain ⟨c, hc, rfl⟩ := Option.map_eq_some_iff.mp h
      obtain ⟨w, hw, hstep⟩ := forwarder_cases hc
      exact hI.forwarder hw hstep
  | writer b =>
      obtain ⟨c, hc, rfl⟩ := Option.map_eq_some_iff.mp h
      exact hI.writerStep (writer_cases hc)

theorem carried_start {s : Relay down up} (h : (wiredRelay down up).start s) : Carried s := by
  rw [show s = ⟨.select, initial down up⟩ from h]
  exact carried_initial

variable {tr : List (Relay down up × RelayAct)} {s : Relay down up}

theorem carried_run (r : (wiredRelay down up).Run tr s) : Carried s :=
  r.invariant (fun _ => carried_start) fun _ _ _ hI h => carried_step hI h

/-- Every packet written on either side is read on the other. -/
theorem packets_read (r : (wiredRelay down up).Run tr s) :
    (∀ t, s.pool = .writing t → received t.write = some t.onWire) ∧
      ∀ t ∈ s.client.upstream.items, received t.write = some t := by
  have hI := carried_run r
  refine ⟨fun t ht => received_write (hI.writing t ht), fun t ht => ?_⟩
  have hs := hI.upstream t ht
  rw [received_write hs.1, UdpTraffic.onWire_of_plain hs.2]

/-! ## 4. Whole runs -/

/-- **The way in**: what the loop reads is a subsequence of what the visitors sent, cut to the
    buffer. -/
theorem inbound_run (r : (wiredRelay down up).Run tr s) :
    (history (onClient packetRead) tr).Sublist
      ((history visitorIn tr).map fun t => t.cut.onWire) := by
  rw [← history_map]
  refine (List.sublist_append_left _ s.inbound).trans (r.pipe (I := Carried) (fun s h => ?_)
    (fun _ _ _ hI h => carried_step hI h) fun s a s' hI h => inbound_step h hI.writing)
  refine ⟨carried_start h, ?_⟩
  rw [show s = ⟨.select, initial down up⟩ from h]
  rfl

/-- **The way out**: what reaches the visitors is a subsequence of the forwarders' replies. -/
theorem outbound_run (r : (wiredRelay down up).Run tr s) :
    (history visitorOut tr).Sublist (history (onClient outboundPut) tr) := by
  refine (List.sublist_append_left _ s.outbound).trans (r.pipe (I := Carried) (fun s h => ?_)
    (fun _ _ _ hI h => carried_step hI h) fun s a s' hI h => outbound_step h hI.upstream)
  refine ⟨carried_start h, ?_⟩
  rw [show s = ⟨.select, initial down up⟩ from h]
  rfl

/-- A forwarder receives the service's datagram cut to its buffer. -/
theorem receive_cut (s : Relay down up) (a : RelayAct) :
    onClient localReceive s a = (serviceIn s a).map UdpTraffic.cut := by
  cases a with
  | pool e => exact onClient_pool (fun _ _ => rfl) s e
  | forwarder f b =>
      show (s.client.forwarders[f]?).bind (fun w => w.receives b) = _
      cases b with
      | recvLocal payload =>
          cases hf : s.client.forwarders[f]? <;>
            simp [serviceIn, hf, Forwarder.receives, UdpTraffic.cut]
      | _ => cases s.client.forwarders[f]? <;> rfl
  | _ => rfl

/-- The datagrams handed to the service, for the visitors an address stands for. -/
theorem service_gets (r : (wiredRelay down up).Run tr s) (a : SocketAddr) :
    (flow a (history serviceOut tr)).Sublist
      (flow a ((history visitorIn tr).map fun t => t.cut.onWire)) := by
  have hclient := inbound_apart (client_run r) a
  rw [history_project, history_project] at hclient
  rw [serviceOut_eq]
  exact hclient.trans (flow_sublist (inbound_run r))

/-- The datagrams sent to an address. -/
theorem visitor_gets (r : (wiredRelay down up).Run tr s) (a : SocketAddr) :
    (flow a (history visitorOut tr)).Sublist
      (flow a ((history serviceIn tr).map UdpTraffic.cut)) := by
  have hclient := outbound_apart (client_run r) a
  rw [history_project, history_project] at hclient
  have hcut : history (fun s a => (clientAct s a).bind (localReceive s.client)) tr =
      (history serviceIn tr).map UdpTraffic.cut := by
    rw [← history_map]
    exact congrArg (history · tr) (funext fun s => funext fun a => receive_cut s a)
  rw [hcut] at hclient
  exact (flow_sublist (outbound_run r)).trans hclient

/-! ## 5. One round trip -/

def one {α : Type} {cap : Nat} (h : 0 < cap) (x : α) : Mpsc α cap := ⟨[x], h⟩

/-- One visitor, read as `a`, before its forwarder exists. -/
def arriving (dn : Mpsc UdpTraffic 1) (lp : Loop) (lk : RwLock Client.Task) : Relay 1 1 where
  pool := .select
  client := { initial 1 1 with downstream := dn, loop := lp, lock := lk }

/-- The same visitor with forwarder 0. -/
def served (a : SocketAddr) (lp : Loop) (lk : RwLock Client.Task) (inb : Mpsc Bytes UDP_SEND_Q_SIZE)
    (ph : ForwarderPhase) : Relay 1 1 where
  pool := .select
  client :=
    { initial 1 1 with
      loop := lp
      lock := lk
      portMap := Function.update (fun _ => none) a (some 0)
      forwarders := [⟨a, inb, ph⟩] }

/-- Its reply on the way back. -/
def answering (a : SocketAddr) (pool : PoolPhase) (un : Mpsc UdpTraffic 1) (w : Client.Writer)
    (out : Mpsc UdpTraffic UDP_BUFFER_SIZE) : Relay 1 1 where
  pool := pool
  client :=
    { (served a .reading .free .empty .select).client with
      upstream := un
      writer := w
      outbound := out }

/-- A visitor's datagram `p`, up to the forwarder made for it. -/
theorem arrives (v : SocketAddr) (p : Bytes) :
    ∃ tr : List (Relay 1 1 × RelayAct), (wiredRelay 1 1).Run tr (served v.onWire
        (.sending (UdpTraffic.cut ⟨v.onWire, p⟩) 0 false) (RwLock.free.request .main .read)
        .empty .select) ∧
      history visitorIn tr = [⟨v, p⟩] ∧ history serviceOut tr = [] ∧ history serviceIn tr = [] ∧
      history sendTo tr = [] ∧ history visitorOut tr = [] := by
  obtain ⟨x, hx⟩ : ∃ x, x = UdpTraffic.cut ⟨v.onWire, p⟩ := ⟨_, rfl⟩
  have hp : received (UdpTraffic.cut ⟨v, p⟩).write = some x := by
    rw [received_write (cut_length _), hx]
    rfl
  rw [← hx]
  have r0 : (wiredRelay 1 1).Run [] ⟨.select, initial 1 1⟩ := .start rfl
  have h1 : (wiredRelay 1 1).step ⟨.select, initial 1 1⟩ (.pool (.recvFrom (some (v, p)))) =
      some ⟨.writing (UdpTraffic.cut ⟨v, p⟩), initial 1 1⟩ := rfl
  have h2 : (wiredRelay 1 1).step ⟨.writing (UdpTraffic.cut ⟨v, p⟩), initial 1 1⟩
      (.pool (.written true)) = some (arriving (one Nat.one_pos x) .reading .free) := by
    show ((received (UdpTraffic.cut ⟨v, p⟩).write).bind _).map _ = _
    rw [hp]
    rfl
  have h3 : (wiredRelay 1 1).step (arriving (one Nat.one_pos x) .reading .free) (.loop .readPacket) =
      some (arriving .empty (.received x) .free) := rfl
  -- the loop finds no forwarder, and makes one
  have h4 : (wiredRelay 1 1).step (arriving .empty (.received x) .free) (.loop .requestRead) =
      some (arriving .empty (.awaitRead x) (RwLock.free.request .main .read)) := rfl
  have h5 : (wiredRelay 1 1).step (arriving .empty (.awaitRead x) (RwLock.free.request .main .read))
      (.loop .check) = some (arriving .empty (.absent x) .free) := rfl
  have h6 : (wiredRelay 1 1).step (arriving .empty (.absent x) .free) (.loop .requestWrite) =
      some (arriving .empty (.awaitWrite x) (RwLock.free.request .main .write)) := rfl
  have h7 : (wiredRelay 1 1).step
      (arriving .empty (.awaitWrite x) (RwLock.free.request .main .write)) (.loop .connected) =
      some (served v.onWire (.recheck x false) .free .empty .select) := by
    rw [hx]
    rfl
  have h8 : (wiredRelay 1 1).step (served v.onWire (.recheck x false) .free .empty .select)
      (.loop .requestRecheck) = some (served v.onWire (.awaitRecheck x false)
        (RwLock.free.request .main .read) .empty .select) := rfl
  have h9 : (wiredRelay 1 1).step (served v.onWire (.awaitRecheck x false)
      (RwLock.free.request .main .read) .empty .select) (.loop .lookup) =
      some (served v.onWire (.sending x 0 false) (RwLock.free.request .main .read) .empty
        .select) := by
    show (runDataChannelForUdp _ .lookup).map _ = _
    simp only [runDataChannelForUdp, served, hx, UdpTraffic.cut, Function.update_self]
    rfl
  have r3 := ((r0.step h1).step h2).step h3
  have r9 := (((((r3.step h4).step h5).step h6).step h7).step h8).step h9
  exact ⟨_, r9, rfl, rfl, rfl, rfl, rfl⟩

/-- The forwarder hands the datagram to the service, which answers `q`. -/
theorem answers (a : SocketAddr) (x : UdpTraffic) (q : Bytes) {tr : List (Relay 1 1 × RelayAct)}
    (r : (wiredRelay 1 1).Run tr (served a (.sending x 0 false) (RwLock.free.request .main .read)
      .empty .select)) :
    ∃ tr', (wiredRelay 1 1).Run (tr' ++ tr)
        (answering a .select .empty .idle (one (by decide) (UdpTraffic.cut ⟨a, q⟩))) ∧
      history visitorIn tr' = [] ∧ history serviceOut tr' = [⟨a, x.data⟩] ∧
      history serviceIn tr' = [⟨a, q⟩] ∧ history sendTo tr' = [] ∧ history visitorOut tr' = [] := by
  have h1 : (wiredRelay 1 1).step (served a (.sending x 0 false) (RwLock.free.request .main .read)
      .empty .select) (.loop .send) =
      some (served a .reading .free (one (by decide) x.data) .select) := rfl
  have h2 : (wiredRelay 1 1).step (served a .reading .free (one (by decide) x.data) .select)
      (.forwarder 0 .recvInbound) =
      some (served a .reading .free .empty (.sendingLocal x.data)) := rfl
  have h3 : (wiredRelay 1 1).step (served a .reading .free .empty (.sendingLocal x.data))
      (.forwarder 0 .sentLocal) = some (served a .reading .free .empty .select) := rfl
  have h4 : (wiredRelay 1 1).step (served a .reading .free .empty .select)
      (.forwarder 0 (.recvLocal q)) =
      some (served a .reading .free .empty (.sendingOutbound (UdpTraffic.cut ⟨a, q⟩))) := rfl
  have h5 : (wiredRelay 1 1).step
      (served a .reading .free .empty (.sendingOutbound (UdpTraffic.cut ⟨a, q⟩)))
      (.forwarder 0 .sendOutbound) =
      some (answering a .select .empty .idle (one (by decide) (UdpTraffic.cut ⟨a, q⟩))) := rfl
  have r5 := ((((r.step h1).step h2).step h3).step h4).step h5
  exact ⟨[_, _, _, _, _], r5, rfl, rfl, rfl, rfl, rfl⟩

/-- A reply, up to the visitor. -/
theorem returns {a : SocketAddr} {y : UdpTraffic} (hy : received y.write = some y)
    {tr : List (Relay 1 1 × RelayAct)}
    (r : (wiredRelay 1 1).Run tr (answering a .select .empty .idle (one (by decide) y))) :
    ∃ tr' s, (wiredRelay 1 1).Run (tr' ++ tr) s ∧ history visitorIn tr' = [] ∧
      history serviceOut tr' = [] ∧ history serviceIn tr' = [] ∧
      history sendTo tr' = [(y.from_, y)] ∧ history visitorOut tr' = [y] := by
  have h1 : (wiredRelay 1 1).step (answering a .select .empty .idle (one (by decide) y))
      (.writer .recvOutbound) = some (answering a .select .empty (.writing y) .empty) := rfl
  have h2 : (wiredRelay 1 1).step (answering a .select .empty (.writing y) .empty)
      (.writer .write) = some (answering a .select (one Nat.one_pos y) .idle .empty) := rfl
  have h3 : (wiredRelay 1 1).step (answering a .select (one Nat.one_pos y) .idle .empty)
      (.pool (.read (some y))) = some (answering a (.sending y) .empty .idle .empty) := by
    have hend : wireEnd (answering a .select (one Nat.one_pos y) .idle .empty) (.read (some y)) =
        serverSide (answering a .select (one Nat.one_pos y) .idle .empty).client .read := if_pos hy
    show Option.map _ (wireEnd _ _) = _
    rw [hend]
    rfl
  have h4 : (wiredRelay 1 1).step (answering a (.sending y) .empty .idle .empty)
      (.pool (.sentTo true)) = some (answering a .select .empty .idle .empty) := rfl
  have r4 := (((r.step h1).step h2).step h3).step h4
  exact ⟨[_, _, _, _], _, r4, rfl, rfl, rfl, rfl, rfl⟩

/-- A visitor's datagram `p` and the service's answer `q`. -/
theorem round_trip (v : SocketAddr) (p q : Bytes) :
    ∃ (tr : List (Relay 1 1 × RelayAct)) (s : Relay 1 1), (wiredRelay 1 1).Run tr s ∧
      history visitorIn tr = [⟨v, p⟩] ∧
      history serviceOut tr = [UdpTraffic.cut ⟨v.onWire, p⟩] ∧
      history serviceIn tr = [⟨v.onWire, q⟩] ∧
      history sendTo tr = [(v.onWire, UdpTraffic.cut ⟨v.onWire, q⟩)] ∧
      history visitorOut tr = [UdpTraffic.cut ⟨v.onWire, q⟩] := by
  have hq : received (UdpTraffic.cut ⟨v.onWire, q⟩).write = some (UdpTraffic.cut ⟨v.onWire, q⟩) := by
    rw [received_write (cut_length _), UdpTraffic.onWire_of_plain v.onWire_plain]
  obtain ⟨tr1, r1, hin1, hout1, hsin1, hto1, hvout1⟩ := arrives v p
  obtain ⟨tr2, r2, hin2, hout2, hsin2, hto2, hvout2⟩ := answers v.onWire _ q r1
  obtain ⟨tr3, s, r3, hin3, hout3, hsin3, hto3, hvout3⟩ := returns hq r2
  refine ⟨_, s, r3, ?_, ?_, ?_, ?_, ?_⟩
  · rw [history_append, history_append, hin1, hin2, hin3]
    rfl
  · rw [history_append, history_append, hout1, hout2, hout3]
    rfl
  · rw [history_append, history_append, hsin1, hsin2, hsin3]
    rfl
  · rw [history_append, history_append, hto1, hto2, hto3]
    rfl
  · rw [history_append, history_append, hvout1, hvout2, hvout3]
    rfl

/-! ## 6. Replies go back to the visitor -/

/-- The entry of `port_map` the client finds for a visitor's datagrams. -/
def Relay.entry (s : Relay down up) (v : SocketAddr) : Option Nat := s.client.portMap v.onWire

/-- Every reply of the forwarder that serves a visitor is sent to that visitor's address. -/
def RepliesExact (tr : List (Relay down up × RelayAct)) : Prop :=
  ∀ t ∈ history visitorIn tr, ∀ r ∈ history sendTo tr, r.1 = t.from_.onWire → r.2.from_ = t.from_

/-- No two visitors share an entry. -/
def EntriesApart (tr : List (Relay down up × RelayAct)) (s : Relay down up) : Prop :=
  ∀ t ∈ history visitorIn tr, ∀ u ∈ history visitorIn tr, t.from_ ≠ u.from_ →
    ∀ f, s.entry t.from_ = some f → s.entry u.from_ ≠ some f

/-- The address a reply is sent to is the one its forwarder served. -/
theorem sendTo_exact (r : (wiredRelay down up).Run tr s) :
    ∀ x ∈ history sendTo tr, x.2.from_ = x.1 := by
  refine forall_history (r.guarded (fun _ => carried_start) (fun _ _ _ hI h => carried_step hI h)
    fun s a s' hI h x hx => ?_)
  cases a with
  | pool e =>
      cases wire_cases h with
      | read t y q hp hy hq =>
          have hitems := Mpsc.recv_eq_some hq
          have ht : t.Sendable := hI.upstream t (by rw [hitems]; exact List.mem_cons_self)
          rw [received_write ht.1, UdpTraffic.onWire_of_plain ht.2] at hy
          cases hy
          simp only [sendTo, hitems, List.head?_cons, Option.map_some, Option.some.injEq] at hx
          subst hx
          rfl
      | recvFrom from_ payload hp => cases hx
      | written t y q hp hy hq => cases hx
      | sentTo t hp => cases hx
      | leave e why he hin hto =>
          rw [hto] at hx
          cases hx
  | loop b => cases hx
  | forwarder f b => cases hx
  | writer b => cases hx

/-- **Replies go back to the exact visitor, and visitors have entries of their own, precisely for
    addresses that are written whole**: IPv4, and IPv6 without flowinfo and scope id. -/
theorem replies_exact_iff (V : SocketAddr → Prop) :
    (∀ (down up : Nat) (tr : List (Relay down up × RelayAct)) (s : Relay down up),
        (wiredRelay down up).Run tr s → (∀ t ∈ history visitorIn tr, V t.from_) →
          RepliesExact tr ∧ EntriesApart tr s) ↔
      ∀ v, V v → v.Plain := by
  constructor
  · intro h v hv
    obtain ⟨tr, s, r, hin, _, _, hto, _⟩ := round_trip v [] []
    have hV : ∀ t ∈ history visitorIn tr, V t.from_ := by
      rw [hin]
      intro t ht
      rw [List.mem_singleton.mp ht]
      exact hv
    have hexact := (h 1 1 tr s r hV).1
    rw [RepliesExact, hin, hto] at hexact
    exact SocketAddr.onWire_eq_iff.mp
      (hexact _ List.mem_cons_self _ List.mem_cons_self rfl)
  · intro hV down up tr s r hvis
    have hplain : ∀ t ∈ history visitorIn tr, t.from_.onWire = t.from_ := fun t ht =>
      SocketAddr.onWire_eq_iff.mpr (hV _ (hvis t ht))
    refine ⟨fun t ht x hx htag => ?_, fun t ht u hu hne f hf hf' => ?_⟩
    · rw [sendTo_exact r x hx, htag, hplain t ht]
    · -- the forwarder of a shared entry would serve both
      rw [Relay.entry, hplain t ht] at hf
      rw [Relay.entry, hplain u hu] at hf'
      have hports := portMapInv_run (client_run r)
      obtain ⟨w, hw, hfrom⟩ := hports.owner _ f hf
      exact hne (hfrom.symm.trans (hports.found hw hf').symm)

/-- A visitor on a link-local address. -/
def linkLocal : SocketAddr := .v6 0xfe800000000000000000000000000001 5000 0 2

/-- **Its replies go elsewhere**: the claim that replies go back to the exact visitor, and that
    visitors never share an entry, is false. -/
theorem linkLocal_misdirected :
    ¬ ∀ (down up : Nat) (tr : List (Relay down up × RelayAct)) (s : Relay down up),
      (wiredRelay down up).Run tr s → RepliesExact tr ∧ EntriesApart tr s := by
  intro h
  obtain ⟨tr, s, r, hin, _, _, hto, _⟩ := round_trip linkLocal [] []
  have hexact := (h 1 1 tr s r).1
  rw [RepliesExact, hin, hto] at hexact
  have hsame : linkLocal.onWire = linkLocal :=
    hexact _ List.mem_cons_self _ List.mem_cons_self rfl
  exact absurd hsame (by decide)

/-! ## 7. Payloads arrive whole -/

/-- What the service is handed is what visitors sent, payload for payload. -/
def InboundWhole (tr : List (Relay down up × RelayAct)) : Prop :=
  ∀ a, (flow a (history serviceOut tr)).Sublist
    (flow a ((history visitorIn tr).map UdpTraffic.onWire))

/-- What visitors are sent is what the service sent for them. -/
def OutboundWhole (tr : List (Relay down up × RelayAct)) : Prop :=
  ∀ a, (flow a (history visitorOut tr)).Sublist (flow a (history serviceIn tr))

theorem map_cut_eq {l : List UdpTraffic} (h : ∀ t ∈ l, t.data.length ≤ UDP_BUFFER_SIZE) :
    l.map UdpTraffic.cut = l := by
  have hid : l.map UdpTraffic.cut = l.map id :=
    List.map_congr_left fun t ht => UdpTraffic.cut_eq_iff.mpr (h t ht)
  rw [hid, List.map_id]

theorem short_of_whole {a : SocketAddr} {p : Bytes}
    (h : (flow a [UdpTraffic.cut ⟨a, p⟩]).Sublist (flow a [⟨a, p⟩])) :
    p.length ≤ UDP_BUFFER_SIZE := by
  have hs : [p.take UDP_BUFFER_SIZE].Sublist [p] := by simpa [flow, UdpTraffic.cut] using h
  have heq : p.take UDP_BUFFER_SIZE = p := List.singleton_inj.mp (hs.eq_of_length rfl)
  exact take_buffer_eq_iff.mp heq

/-- **Payloads arrive whole or not at all, precisely up to the size of the receive buffers**: for
    payloads of visitors, and for payloads of the service. -/
theorem payloads_whole_iff (P : Bytes → Prop) :
    ((∀ (down up : Nat) (tr : List (Relay down up × RelayAct)) (s : Relay down up),
        (wiredRelay down up).Run tr s → (∀ t ∈ history visitorIn tr, P t.data) →
          InboundWhole tr) ↔ ∀ p, P p → p.length ≤ UDP_BUFFER_SIZE) ∧
      ((∀ (down up : Nat) (tr : List (Relay down up × RelayAct)) (s : Relay down up),
        (wiredRelay down up).Run tr s → (∀ t ∈ history serviceIn tr, P t.data) →
          OutboundWhole tr) ↔ ∀ p, P p → p.length ≤ UDP_BUFFER_SIZE) := by
  refine ⟨⟨fun h p hp => ?_, fun hP down up tr s r hin a => ?_⟩,
    ⟨fun h p hp => ?_, fun hP down up tr s r hin a => ?_⟩⟩
  · obtain ⟨tr, s, r, hin, hout, _⟩ := round_trip visitor p []
    have hw := h 1 1 tr s r
    rw [InboundWhole, hin, hout] at hw
    refine short_of_whole (hw (fun t ht => ?_) visitor.onWire)
    rw [List.mem_singleton.mp ht]
    exact hp
  · have hcut : ((history visitorIn tr).map fun t => t.cut.onWire) =
        (history visitorIn tr).map UdpTraffic.onWire := by
      have hmap := map_cut_eq fun t ht => hP _ (hin t ht)
      conv_rhs => rw [← hmap, List.map_map]
      rfl
    rw [← hcut]
    exact service_gets r a
  · obtain ⟨tr, s, r, _, _, hin, _, hout⟩ := round_trip visitor [] p
    have hw := h 1 1 tr s r
    rw [OutboundWhole, hin, hout] at hw
    refine short_of_whole (hw (fun t ht => ?_) visitor.onWire)
    rw [List.mem_singleton.mp ht]
    exact hp
  · have hg := visitor_gets r a
    rw [map_cut_eq fun t ht => hP _ (hin t ht)] at hg
    exact hg

/-- One byte more than the buffers hold. -/
def oversized : Bytes := List.replicate (UDP_BUFFER_SIZE + 1) 0

/-- **It is shortened on the way to the service, and on the way back**: the claim that payloads
    arrive whole or not at all is false. -/
theorem oversized_shortened :
    ¬ ∀ (down up : Nat) (tr : List (Relay down up × RelayAct)) (s : Relay down up),
      (wiredRelay down up).Run tr s → InboundWhole tr ∧ OutboundWhole tr := by
  intro h
  obtain ⟨tr, s, r, hin, hout, _⟩ := round_trip visitor oversized []
  have hw := (h 1 1 tr s r).1
  rw [InboundWhole, hin, hout] at hw
  have hlen := short_of_whole (hw visitor.onWire)
  rw [oversized, List.length_replicate] at hlen
  omega

end Penetrate
