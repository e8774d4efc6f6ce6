/-
  File:      Penetrate/Backpressure.lean
  Subject:   BACK-PRESSURE ON THE UDP RELAY: what traffic stays clear of the wait cycle of Relay.lean,
             and a run into it.

  * `Relay.visits`, `Relay.replies` -- how many datagrams the relay holds on each way;
    `visits_step`, `replies_step`: no step holds more of them than have come in;
  * `Wedged.visits`, `Wedged.replies` -- the cycle takes a full relay, both ways;
  * `wedges` -- with buffers of every size one visitor and its service reach it, by traffic that
    just fills them;
  * `never_wedged_iff` -- so windows on the traffic keep every run clear of it precisely when one of
    them is too small to fill its way.
-/
import Mathlib.Algebra.Order.BigOperators.Group.List
import Mathlib.Algebra.Order.Group.Nat
import Mathlib.Algebra.Group.Prod
import Mathlib.Algebra.Group.Action.Defs
import Penetrate.UdpPath

namespace Penetrate

open Concurrent Machine Server Client

variable {down up : Nat}

/-! ## 1. What the relay holds -/

/-- The visitors' datagrams the relay holds. -/
def Relay.visits (s : Relay down up) : Nat :=
  s.inbound.length + s.client.loop.hand.toList.length +
    (s.client.forwarders.map fun w => w.pending.length).sum

/-- The replies it holds. -/
def Relay.replies (s : Relay down up) : Nat :=
  s.outbound.length + (s.client.forwarders.map fun w => w.reply.length).sum

theorem sum_set_forwarder {l : List Forwarder} {f : Nat} {w : Forwarder} (hw : l[f]? = some w)
    (v : Forwarder) (g : Forwarder → Nat) :
    ((l.set f v).map g).sum + g w = (l.map g).sum + g v := by
  induction l generalizing f with
  | nil => cases hw
  | cons x l ih =>
      cases f with
      | zero =>
          cases hw
          simp only [List.set_cons_zero, List.map_cons, List.sum_cons]
          omega
      | succ f =>
          have h := ih hw
          simp only [List.set_cons_succ, List.map_cons, List.sum_cons]
          omega

theorem le_sum_forwarder {l : List Forwarder} {f : Nat} {w : Forwarder} (hw : l[f]? = some w)
    (g : Forwarder → Nat) : g w ≤ (l.map g).sum :=
  List.single_le_sum (fun _ _ => Nat.zero_le _) _ (List.mem_map_of_mem (List.mem_of_getElem? hw))

/-- A step of the pool puts what it holds elsewhere, or loses it. -/
theorem visits_pool {s s' : Relay down up} {e : PoolEvent} (h : PoolStep s e s') :
    (serviceOut s (.pool e)).toList.length + s'.visits ≤
      s.visits + (visitorIn s (.pool e)).toList.length := by
  cases h with
  | recvFrom from_ payload hp =>
      simp [Relay.visits, Relay.inbound, inHand, hp, serviceOut, visitorIn]
      omega
  | written t q hp hq =>
      simp [Relay.visits, Relay.inbound, inHand, hp, serviceOut, (Mpsc.send_eq_some hq).1]
  | read t q hp hq => simp [Relay.visits, Relay.inbound, inHand, hp, serviceOut]
  | sentTo t hp => simp [Relay.visits, Relay.inbound, inHand, hp, serviceOut]
  | leave e why he =>
      simp only [Relay.visits, Relay.inbound, inHand, serviceOut, List.append_nil,
        List.length_append, Option.toList_none, List.length_nil]
      omega

theorem visits_loop {s : Relay down up} {c : Client.State down up} {a : LoopAct}
    (h : LoopStep s.client a c) : ({ s with client := c } : Relay down up).visits ≤ s.visits := by
  cases h with
  | readPacket p q hl hq =>
      simp [Relay.visits, Relay.inbound, hl, Loop.hand, Mpsc.recv_eq_some hq]
  | send p f m w q hl hf hw hq =>
      have hsum := sum_set_forwarder hf { w with inbound := q } fun w => w.pending.length
      have hlen : ({ w with inbound := q } : Forwarder).pending.length ≤ w.pending.length + 1 := by
        cases hph : w.phase <;> simp [Forwarder.pending, hph, (Mpsc.send_eq_some hq).1]
      simp only [Relay.visits, Relay.inbound, hl, Loop.hand, Option.toList_some, Option.toList_none,
        List.length_singleton, List.length_nil]
      omega
  | connected p hl hw => simp [Relay.visits, Relay.inbound, hl, Loop.hand, Forwarder.pending]
  | _ => simp_all [Relay.visits, Relay.inbound, Loop.hand]

/-- **One step of the way in**: what a visitor sends is held, handed to the service, or lost. -/
theorem visits_step {s s' : Relay down up} {a : RelayAct} (h : s.step a = some s') :
    (serviceOut s a).toList.length + s'.visits ≤ s.visits + (visitorIn s a).toList.length := by
  cases a with
  | pool e => exact visits_pool (pool_cases h)
  | loop b =>
      obtain ⟨c, hc, rfl⟩ := Option.map_eq_some_iff.mp h
      simpa [serviceOut, visitorIn] using visits_loop (loop_cases hc)
  | forwarder f b =>
      obtain ⟨c, hc, rfl⟩ := Option.map_eq_some_iff.mp h
      obtain ⟨w, hw, hstep⟩ := forwarder_cases hc
      obtain ⟨v, hg⟩ := hstep.goes
      have hsum := sum_set_forwarder hw v fun w => w.pending.length
      have hlen := hg.inbound.length_le
      have hd : c.downstream = s.client.downstream := by cases hstep <;> rfl
      rw [List.length_append, Option.toList_map, List.length_map] at hlen
      simp only [Relay.visits, Relay.inbound, hg.forwarders, hg.loop, hd, serviceOut, visitorIn,
        localSend, hw, Option.bind_some, Option.toList_none, List.length_nil]
      omega
  | writer b =>
      obtain ⟨c, hc, rfl⟩ := Option.map_eq_some_iff.mp h
      cases writer_cases hc <;> simp [Relay.visits, Relay.inbound, serviceOut, visitorIn]

theorem replies_pool {s s' : Relay down up} {e : PoolEvent} (h : PoolStep s e s') :
    (visitorOut s (.pool e)).toList.length + s'.replies ≤
      s.replies + (serviceIn s (.pool e)).toList.length := by
  cases h with
  | recvFrom from_ payload hp => simp [Relay.replies, Relay.outbound, outHand, hp, visitorOut]
  | written t q hp hq => simp [Relay.replies, Relay.outbound, outHand, hp, visitorOut]
  | read t q hp hq =>
      simp [Relay.replies, Relay.outbound, outHand, hp, visitorOut, Mpsc.recv_eq_some hq]
  | sentTo t hp =>
      simp [Relay.replies, Relay.outbound, outHand, hp, visitorOut]
      omega
  | leave e why he =>
      have hout : (visitorOut s (.pool e)).toList.length ≤ (outHand s.pool).length := by
        unfold visitorOut
        split <;> try exact Nat.zero_le _
        split <;> simp_all [outHand]
      have hleft : outHand (.ended why) = [] := rfl
      simp only [Relay.replies, Relay.outbound, hleft, List.length_append, List.length_nil]
      omega

/-- A reply a forwarder puts out goes into the outbound queue. -/
theorem outbound_forwarder {s c : Client.State down up} {f : Nat} {w : Forwarder} {a : ForwarderAct}
    (h : ForwarderStep s f w a c) :
    c.outbound.items.length = s.outbound.items.length + (w.replies s a).toList.length := by
  cases h with
  | sendOutbound t q hp hw hq => simp [Forwarder.replies, hp, hw, (Mpsc.send_eq_some hq).1]
  | outboundClosed t hp hw => simp [Forwarder.replies, State.toPhase, hp, hw]
  | _ => simp [Forwarder.replies, State.toPhase]

theorem replies_forwarder {s : Relay down up} {c : Client.State down up} {f : Nat} {w : Forwarder}
    {a : ForwarderAct} (hw : s.client.forwarders[f]? = some w)
    (h : ForwarderStep s.client f w a c) :
    ({ s with client := c } : Relay down up).replies ≤
      s.replies + (serviceIn s (.forwarder f a)).toList.length := by
  obtain ⟨v, hg⟩ := h.goes
  have hsum := sum_set_forwarder hw v fun w => w.reply.length
  have hlen := hg.outbound.length_le
  have hout := outbound_forwarder h
  have hu : c.upstream = s.client.upstream := by cases h <;> rfl
  have hwr : c.writer = s.client.writer := by cases h <;> rfl
  have hin : (w.receives a).toList.length = (serviceIn s (.forwarder f a)).toList.length := by
    cases a <;> simp [Forwarder.receives, serviceIn, hw]
  simp only [List.length_append, Option.toList_map, List.length_map] at hlen
  simp only [Relay.replies, Relay.outbound, hg.forwarders, hu, hwr, List.length_append]
  omega

/-- **One step of the way back**: what the service sends is held, sent to a visitor, or lost. -/
theorem replies_step {s s' : Relay down up} {a : RelayAct} (h : s.step a = some s') :
    (visitorOut s a).toList.length + s'.replies ≤ s.replies + (serviceIn s a).toList.length := by
  cases a with
  | pool e => exact replies_pool (pool_cases h)
  | loop b =>
      obtain ⟨c, hc, rfl⟩ := Option.map_eq_some_iff.mp h
      cases loop_cases hc with
      | connected p hl hw => simp [Relay.replies, Relay.outbound, visitorOut, Forwarder.reply]
      | send p f m w q hl hf hw hq =>
          have hsum := sum_set_forwarder hf { w with inbound := q } fun w => w.reply.length
          simp only [Relay.replies, Relay.outbound, visitorOut, serviceIn, Option.toList_none,
            List.length_nil]
          simp only [Forwarder.reply] at hsum ⊢
          omega
      | _ => simp [Relay.replies, Relay.outbound, visitorOut]
  | forwarder f b =>
      obtain ⟨c, hc, rfl⟩ := Option.map_eq_some_iff.mp h
      obtain ⟨w, hw, hstep⟩ := forwarder_cases hc
      simpa [visitorOut] using replies_forwarder hw hstep
  | writer b =>
      obtain ⟨c, hc, rfl⟩ := Option.map_eq_some_iff.mp h
      cases writer_cases hc with
      | recvOutbound t q hwr hq =>
          simp [Relay.replies, Relay.outbound, visitorOut, writerHand, hwr, Mpsc.recv_eq_some hq]
      | write t q hwr hq =>
          simp [Relay.replies, Relay.outbound, visitorOut, writerHand, hwr,
            (Mpsc.send_eq_some hq).1]
      | outboundClosed hwr => simp [Relay.replies, Relay.outbound, visitorOut, writerHand, hwr]
      | writeError t hwr =>
          simp only [Relay.replies, Relay.outbound, visitorOut, writerHand, List.length_append,
            List.length_nil, Option.toList_none]
          omega

/-- **The cycle holds the visitors' datagrams of four buffers and hands**: the pool's, the
    connection's, the loop's, the forwarder's. -/
theorem Wedged.visits {s : Relay down up} (h : Wedged s) :
    down + UDP_SEND_Q_SIZE + 2 ≤ s.visits := by
  obtain ⟨f, ⟨t, hp⟩, ⟨p, m, hl⟩, ⟨t', hf⟩, _, hb⟩ := h
  obtain ⟨w, hw, hfull⟩ := hb.inbound
  rw [Client.State.phaseOf, hw] at hf
  have hph : w.phase = .sendingOutbound t' := Option.some.inj hf
  have hsum := le_sum_forwarder hw fun w => w.pending.length
  have hpend : w.pending = w.inbound.items := by simp [Forwarder.pending, hph]
  have hin : w.inbound.items.length = UDP_SEND_Q_SIZE := Mpsc.full_iff.mp hfull
  have hd : s.client.downstream.items.length = down := Mpsc.full_iff.mp hb.downstream
  simp only [hpend] at hsum
  simp only [Relay.visits, Relay.inbound, inHand, hp, hl, Loop.hand, List.length_append,
    List.length_singleton, Option.toList_some]
  omega

/-- **And the replies of four more.** -/
theorem Wedged.replies {s : Relay down up} (h : Wedged s) :
    up + UDP_BUFFER_SIZE + 2 ≤ s.replies := by
  obtain ⟨f, _, _, ⟨t', hf⟩, ⟨t, hwr⟩, hb⟩ := h
  obtain ⟨w, hw, _⟩ := hb.inbound
  rw [Client.State.phaseOf, hw] at hf
  have hph : w.phase = .sendingOutbound t' := Option.some.inj hf
  have hsum := le_sum_forwarder hw fun w => w.reply.length
  have hrep : w.reply = [t'.data] := by simp [Forwarder.reply, hph]
  have ho : s.client.outbound.items.length = UDP_BUFFER_SIZE := Mpsc.full_iff.mp hb.outbound
  have hu : s.client.upstream.items.length = up := Mpsc.full_iff.mp hb.upstream
  simp only [hrep, List.length_singleton] at hsum
  simp only [Relay.replies, Relay.outbound, writerHand, hwr, List.length_append,
    List.length_singleton]
  omega

/-! ## 2. A run into the cycle, for buffers of every size -/

/-- The relay with one visitor, its forwarder in phase `ph`, between two packets of the loop. -/
def between (dn : Mpsc UdpTraffic down) (un : Mpsc UdpTraffic up)
    (inb : Mpsc Bytes UDP_SEND_Q_SIZE) (out : Mpsc UdpTraffic UDP_BUFFER_SIZE) (w : Client.Writer)
    (ph : ForwarderPhase) : Relay down up where
  pool := .select
  client :=
    { initial down up with
      downstream := dn
      upstream := un
      outbound := out
      writer := w
      portMap := Function.update (fun _ => none) visitor (some 0)
      forwarders := [⟨visitor, inb, ph⟩] }

/-- The loop in `tx.send` on the queue of that forwarder. -/
def blocked (dn : Mpsc UdpTraffic down) (un : Mpsc UdpTraffic up)
    (inb : Mpsc Bytes UDP_SEND_Q_SIZE) (out : Mpsc UdpTraffic UDP_BUFFER_SIZE) (w : Client.Writer)
    (ph : ForwarderPhase) : Relay down up where
  pool := .select
  client :=
    { (between dn un inb out w ph).client with
      lock := (RwLock.free.request .main .read).request .main .read
      loop := .sending datagram 0 true }

/-- What an action brings: a visitor's datagram, a datagram of the service. -/
def traffic : RelayAct → Nat × Nat
  | .pool (.recvFrom (some _)) => (1, 0)
  | .forwarder _ (.recvLocal _) => (0, 1)
  | _ => 0

/-- A datagram of the visitor reaches the idle loop. -/
theorem leads_received (hd : 0 < down) {s : Relay down up} (hp : s.pool = .select)
    (hl : s.client.loop = .reading) (he : s.client.downstream = .empty) :
    (relay down up).LeadsBy traffic s (1, 0)
      { s with client := { s.client with loop := .received datagram } } := by
  obtain ⟨p, ⟨dn, un, lp, w, out, lk, pm, fw⟩⟩ := s
  cases hp
  cases hl
  cases he
  obtain ⟨q, hs, hr⟩ := Mpsc.send_empty hd datagram
  have h1 : (relay down up).step ⟨.select, ⟨.empty, un, .reading, w, out, lk, pm, fw⟩⟩
      (.pool (.recvFrom (some (visitor, [1])))) =
      some ⟨.writing datagram, ⟨.empty, un, .reading, w, out, lk, pm, fw⟩⟩ := rfl
  have h2 : (relay down up).step ⟨.writing datagram, ⟨.empty, un, .reading, w, out, lk, pm, fw⟩⟩
      (.pool (.written true)) = some ⟨.select, ⟨q, un, .reading, w, out, lk, pm, fw⟩⟩ := by
    show ((((Mpsc.empty : Mpsc UdpTraffic down).send datagram).map _).map _) = _
    rw [hs]
    rfl
  have h3 : (relay down up).step ⟨.select, ⟨q, un, .reading, w, out, lk, pm, fw⟩⟩
      (.loop .readPacket) =
      some ⟨.select, ⟨.empty, un, .received datagram, w, out, lk, pm, fw⟩⟩ := by
    show (q.recv.map _).map _ = _
    rw [hr]
    rfl
  exact (LeadsBy.of_step h1).trans ((LeadsBy.of_step h2).trans (LeadsBy.of_step h3))

/-- The first datagram of the visitor, up to its forwarder handing it to the service. -/
theorem leads_start (up : Nat) (hd : 0 < down) : (relay down up).LeadsBy traffic
    ⟨.select, initial down up⟩ (1, 0) (between .empty .empty .empty .empty .idle (.sendingLocal [1])) := by
  refine (leads_received hd rfl rfl rfl).trans (l := 0) ⟨[.loop .requestRead, .loop .check,
    .loop .requestWrite, .loop .connected, .loop .requestRecheck, .loop .lookup, .loop .send,
    .forwarder 0 .recvInbound], ?_, rfl⟩
  rfl

/-- A reply goes all the way into the connection. -/
theorem leads_upstream {un un' : Mpsc UdpTraffic up} (h : un.send datagram = some un') :
    (relay down up).LeadsBy traffic (between .empty un .empty .empty .idle .select) (0, 1)
      (between .empty un' .empty .empty .idle .select) := by
  have h1 : (relay down up).LeadsBy traffic (between .empty un .empty .empty .idle .select) (0, 1)
      (between .empty un .empty .empty (.writing datagram) .select) :=
    ⟨[.forwarder 0 (.recvLocal [1]), .forwarder 0 .sendOutbound, .writer .recvOutbound], rfl, rfl⟩
  refine h1.trans (LeadsBy.of_step (a := .writer .write) ?_)
  have h2 : runWriter (between (.empty : Mpsc UdpTraffic down) un .empty .empty (.writing datagram)
      .select).client .write =
      some (between .empty un' .empty .empty .idle .select).client := by
    show (un.send datagram).map _ = _
    rw [h]
    rfl
  show (runWriter _ _).map _ = _
  rw [h2]
  rfl

/-- A reply goes into the outbound queue while the writer is busy. -/
theorem leads_outbound (un : Mpsc UdpTraffic up) {out out' : Mpsc UdpTraffic UDP_BUFFER_SIZE}
    (h : out.send datagram = some out') :
    (relay down up).LeadsBy traffic (between .empty un .empty out (.writing datagram) .select) (0, 1)
      (between .empty un .empty out' (.writing datagram) .select) := by
  have h1 : (relay down up).step (between .empty un .empty out (.writing datagram) .select)
      (.forwarder 0 (.recvLocal [1])) =
      some (between .empty un .empty out (.writing datagram) (.sendingOutbound datagram)) := rfl
  refine (LeadsBy.of_step (w := traffic) h1).trans (LeadsBy.of_step (a := .forwarder 0 .sendOutbound) ?_)
  have h2 : runUdpForwarder (between (.empty : Mpsc UdpTraffic down) un .empty out (.writing datagram)
      (.sendingOutbound datagram)).client 0 .sendOutbound =
      some (between .empty un .empty out' (.writing datagram) .select).client := by
    show (out.send datagram).map _ = _
    rw [h]
    rfl
  show (runUdpForwarder _ _ _).map _ = _
  rw [h2]
  rfl

/-- A datagram of the visitor, up to the loop in `tx.send`. -/
theorem leads_blocked (hd : 0 < down) (un : Mpsc UdpTraffic up)
    (inb : Mpsc Bytes UDP_SEND_Q_SIZE) (out : Mpsc UdpTraffic UDP_BUFFER_SIZE) (w : Client.Writer)
    (ph : ForwarderPhase) : (relay down up).LeadsBy traffic (between .empty un inb out w ph) (1, 0)
      (blocked .empty un inb out w ph) := by
  refine (leads_received hd rfl rfl rfl).trans (l := 0) ⟨[.loop .requestRead, .loop .check,
    .loop .requestRecheck, .loop .lookup], ?_, rfl⟩
  rfl

/-- A datagram goes into the queue of the forwarder, which waits in `outbound_tx.send`. -/
theorem leads_inbound (hd : 0 < down) (un : Mpsc UdpTraffic up)
    (out : Mpsc UdpTraffic UDP_BUFFER_SIZE) {inb inb' : Mpsc Bytes UDP_SEND_Q_SIZE}
    (h : inb.send datagram.data = some inb') :
    (relay down up).LeadsBy traffic
      (between .empty un inb out (.writing datagram) (.sendingOutbound datagram)) (1, 0)
      (between .empty un inb' out (.writing datagram) (.sendingOutbound datagram)) := by
  refine (leads_blocked hd un inb out _ _).trans (LeadsBy.of_step (a := .loop .send) ?_)
  have h2 : runDataChannelForUdp (blocked (.empty : Mpsc UdpTraffic down) un inb out (.writing datagram)
      (.sendingOutbound datagram)).client .send =
      some (between .empty un inb' out (.writing datagram) (.sendingOutbound datagram)).client := by
    show (inb.send datagram.data).map _ = _
    rw [h]
    rfl
  show (runDataChannelForUdp _ _).map _ = _
  rw [h2]
  rfl

/-- A datagram goes into the connection while the loop does not read. -/
theorem leads_downstream (un : Mpsc UdpTraffic up) (inb : Mpsc Bytes UDP_SEND_Q_SIZE)
    (out : Mpsc UdpTraffic UDP_BUFFER_SIZE) (w : Client.Writer) (ph : ForwarderPhase)
    {dn dn' : Mpsc UdpTraffic down} (h : dn.send datagram = some dn') :
    (relay down up).LeadsBy traffic (blocked dn un inb out w ph) (1, 0)
      (blocked dn' un inb out w ph) := by
  have h1 : (relay down up).step (blocked dn un inb out w ph)
      (.pool (.recvFrom (some (visitor, [1])))) =
      some { blocked dn un inb out w ph with pool := .writing datagram } := rfl
  refine (LeadsBy.of_step (w := traffic) h1).trans (LeadsBy.of_step (a := .pool (.written true)) ?_)
  have h2 : serverSide (blocked dn un inb out w ph).client (.write datagram) =
      some (blocked dn' un inb out w ph).client := by
    show (dn.send datagram).map _ = _
    rw [h]
    rfl
  show (serverSide (blocked dn un inb out w ph).client (.write datagram)).map _ = _
  rw [h2]
  rfl

/-- Once the first datagram is with the service, replies and datagrams that just fill the relay
    close the cycle. -/
theorem leads_wedged (up : Nat) (hd : 0 < down) :
    ∃ s : Relay down up, Wedged s ∧ (relay down up).LeadsBy traffic
    (between .empty .empty .empty .empty .idle .select)
    (down + UDP_SEND_Q_SIZE + 2, up + UDP_BUFFER_SIZE + 2) s := by
  obtain ⟨un, hun, h1⟩ := Mpsc.leadsBy_full (M := relay down up) (fun _ _ => leads_upstream) .empty
  have h2 : (relay down up).LeadsBy traffic (between .empty un .empty .empty .idle .select) (0, 1)
      (between .empty un .empty .empty (.writing datagram) .select) :=
    ⟨[.forwarder 0 (.recvLocal [1]), .forwarder 0 .sendOutbound, .writer .recvOutbound], rfl, rfl⟩
  obtain ⟨out, hout, h3⟩ :=
    Mpsc.leadsBy_full (M := relay down up) (fun _ _ => leads_outbound un) .empty
  have h4 : (relay down up).LeadsBy traffic (between .empty un .empty out (.writing datagram) .select)
      (0, 1) (between .empty un .empty out (.writing datagram) (.sendingOutbound datagram)) :=
    ⟨[.forwarder 0 (.recvLocal [1])], rfl, rfl⟩
  obtain ⟨inb, hinb, h5⟩ :=
    Mpsc.leadsBy_full (M := relay down up) (fun _ _ => leads_inbound hd un out) .empty
  have h6 := leads_blocked hd un inb out (.writing datagram) (.sendingOutbound datagram)
  obtain ⟨dn, hdn, h7⟩ := Mpsc.leadsBy_full (M := relay down up) (fun _ _ => leads_downstream
    un inb out (.writing datagram) (.sendingOutbound datagram)) .empty
  have h8 : (relay down up).LeadsBy traffic
      (blocked dn un inb out (.writing datagram) (.sendingOutbound datagram)) (1, 0)
      { blocked dn un inb out (.writing datagram) (.sendingOutbound datagram) with
        pool := .writing datagram } :=
    ⟨[.pool (.recvFrom (some (visitor, [1])))], rfl, rfl⟩
  have hall := h1.trans (h2.trans (h3.trans (h4.trans (h5.trans (h6.trans (h7.trans h8))))))
  have hw : Wedged { blocked dn un inb out (.writing datagram) (.sendingOutbound datagram) with
      pool := .writing datagram } :=
    ⟨0, ⟨datagram, rfl⟩, ⟨datagram, true, rfl⟩, ⟨datagram, rfl⟩, ⟨datagram, rfl⟩, hdn,
      ⟨_, rfl, hinb⟩, hout, hun⟩
  refine ⟨_, hw, ?_⟩
  convert hall using 1
  simp only [Mpsc.items_empty, List.length_nil, Nat.sub_zero, Prod.smul_mk, Prod.mk_add_mk,
    smul_eq_mul, Nat.mul_one]
  congr 1
  omega

theorem length_visitorIn_le (tr : List (Relay down up × RelayAct)) :
    (history visitorIn tr).length ≤ ((tr.map Prod.snd).map traffic).sum.1 := by
  refine length_history_le (AddMonoidHom.fst Nat Nat) (fun s a => ?_) tr
  unfold visitorIn
  split <;> simp [traffic]

theorem length_serviceIn_le (tr : List (Relay down up × RelayAct)) :
    (history serviceIn tr).length ≤ ((tr.map Prod.snd).map traffic).sum.2 := by
  refine length_history_le (AddMonoidHom.snd Nat Nat) (fun s a => ?_) tr
  unfold serviceIn
  split
  · rename_i f payload
    cases s.client.forwarders[f]? <;> simp [traffic]
  · simp

/-- **With buffers of every size one visitor and its local service wedge the relay**, by traffic
    that just fills it. -/
theorem wedges (up : Nat) (hd : 0 < down) :
    ∃ (tr : List (Relay down up × RelayAct)) (s : Relay down up),
      (relay down up).Run tr s ∧ Wedged s ∧
        Outstanding visitorIn serviceOut (down + UDP_SEND_Q_SIZE + 2) tr ∧
        Outstanding serviceIn visitorOut (up + UDP_BUFFER_SIZE + 2) tr := by
  obtain ⟨tr0, r0, h0⟩ := run_leadsBy (.start rfl) (leads_start up hd)
  have h1 : (relay down up).step (between .empty .empty .empty .empty .idle (.sendingLocal [1]))
      (.forwarder 0 .sentLocal) = some (between .empty .empty .empty .empty .idle .select) := rfl
  obtain ⟨s, hw, hl⟩ := leads_wedged up hd
  obtain ⟨tr1, r1, h2⟩ := run_leadsBy (r0.step h1) hl
  have hin0 := length_visitorIn_le tr0
  have hin1 := length_visitorIn_le tr1
  have hrep0 := length_serviceIn_le tr0
  have hrep1 := length_serviceIn_le tr1
  rw [h0] at hin0 hrep0
  rw [h2] at hin1 hrep1
  refine ⟨_, s, r1, hw, .of_total (List.suffix_append tr1 _) (k := 1) ?_ ?_ ?_,
    .of_total List.nil_suffix (k := 0) ?_ (Nat.zero_le _) (Nat.zero_le _)⟩
  · simp [history_append, visitorIn]
    omega
  · simp [visitorIn]
    omega
  · simp [serviceOut, localSend, Forwarder.sends, between]
  · simp [history_append, serviceIn]
    omega

/-- **Back-pressure does deadlock the relay**: the claim that no run does is false. -/
theorem backpressure_wedges : ¬ ∀ (down up : Nat) (tr : List (Relay down up × RelayAct))
    (s : Relay down up), (relay down up).Run tr s → ¬ Wedged s := by
  intro h
  obtain ⟨tr, s, r, hw, _⟩ := wedges 1 Nat.one_pos
  exact h 1 1 tr s r hw

/-! ## 3. Traffic that stays clear of it -/

theorem not_wedged_of_visits {tr : List (Relay down up × RelayAct)} {s : Relay down up}
    (r : (relay down up).Run tr s) {n : Nat} (hn : n < down + UDP_SEND_Q_SIZE + 2)
    (hw : Outstanding visitorIn serviceOut n tr) : Throughout (fun s => ¬ Wedged s) tr s := by
  have h0 : ∀ s : Relay down up, (relay down up).start s → s.visits = 0 := by
    rintro _ rfl
    rfl
  refine (r.held_le h0 (fun _ _ _ h => visits_step h) hw).mono fun s hle hwedged => ?_
  have := hwedged.visits
  omega

theorem not_wedged_of_replies {tr : List (Relay down up × RelayAct)} {s : Relay down up}
    (r : (relay down up).Run tr s) {m : Nat} (hm : m < up + UDP_BUFFER_SIZE + 2)
    (hw : Outstanding serviceIn visitorOut m tr) : Throughout (fun s => ¬ Wedged s) tr s := by
  have h0 : ∀ s : Relay down up, (relay down up).start s → s.replies = 0 := by
    rintro _ rfl
    rfl
  refine (r.held_le h0 (fun _ _ _ h => replies_step h) hw).mono fun s hle hwedged => ?_
  have := hwedged.replies
  omega

/-- **Back-pressure does not wedge the relay, precisely while one way is not filled**: where at no
    time more than `n` of the visitors' datagrams have yet to reach the service, and more than `m`
    of its replies the visitors, no run is wedged just if `n` datagrams do not fill the buffers and
    hands of the way in, or `m` replies those of the way back. -/
theorem never_wedged_iff (hd : 0 < down) (n m : Nat) :
    (∀ (tr : List (Relay down up × RelayAct)) (s : Relay down up), (relay down up).Run tr s →
        Outstanding visitorIn serviceOut n tr → Outstanding serviceIn visitorOut m tr →
          Throughout (fun s => ¬ Wedged s) tr s) ↔
      n < down + UDP_SEND_Q_SIZE + 2 ∨ m < up + UDP_BUFFER_SIZE + 2 := by
  constructor
  · intro h
    by_contra hnot
    obtain ⟨tr, s, r, hw, hin, hrep⟩ := wedges up hd
    have hn : Outstanding visitorIn serviceOut n tr := hin.mono (by omega)
    have hm : Outstanding serviceIn visitorOut m tr := hrep.mono (by omega)
    exact (h tr s r hn hm).1 hw
  · rintro (hn | hm) tr s r hin hrep
    · exact not_wedged_of_visits r hn hin
    · exact not_wedged_of_replies r hm hrep

/-- A visitor's datagram all the way to the service, and its reply all the way back. -/
def echo (first : Bool) : List RelayAct :=
  [.pool (.recvFrom (some (visitor, [1]))), .pool (.written true), .loop .readPacket,
    .loop .requestRead, .loop .check] ++
  (if first then [.loop .requestWrite, .loop .connected] else []) ++
  [.loop .requestRecheck, .loop .lookup, .loop .send, .forwarder 0 .recvInbound,
    .forwarder 0 .sentLocal, .forwarder 0 (.recvLocal [2]), .forwarder 0 .sendOutbound,
    .writer .recvOutbound, .writer .write, .pool (.read (some ⟨visitor, [2]⟩)),
    .pool (.sentTo true)]

/-- A visitor that waits for each answer is served, again and again; one that fills both ways may
    not be. -/
theorem never_wedged_iff_echo :
    (∃ (tr : List (Relay 1 1 × RelayAct)) (s : Relay 1 1), (relay 1 1).Run tr s ∧
      history visitorOut tr = [⟨visitor, [2]⟩, ⟨visitor, [2]⟩] ∧
      Throughout (fun s => ¬ Wedged s) tr s) ∧
    ¬ ∀ (tr : List (Relay 1 1 × RelayAct)) (s : Relay 1 1), (relay 1 1).Run tr s →
      Outstanding visitorIn serviceOut (1 + UDP_SEND_Q_SIZE + 2) tr →
      Outstanding serviceIn visitorOut (1 + UDP_BUFFER_SIZE + 2) tr →
        Throughout (fun s => ¬ Wedged s) tr s := by
  constructor
  · have hs : ((relay 1 1).exec ⟨.select, initial 1 1⟩ (echo true ++ echo false)).isSome := by
      decide +kernel
    obtain ⟨s, hs⟩ := Option.isSome_iff_exists.mp hs
    have r := run_trace (.start rfl) hs
    rw [List.append_nil] at r
    refine ⟨_, s, r, by decide +kernel, (never_wedged_iff Nat.one_pos 1 1).mpr (Or.inl (by decide))
      _ s r (outstanding_tails.mpr (by decide +kernel)) (outstanding_tails.mpr (by decide +kernel))⟩
  · rw [never_wedged_iff Nat.one_pos]
    omega

end Penetrate
