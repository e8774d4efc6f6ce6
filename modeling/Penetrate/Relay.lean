/-
  File:      Penetrate/Relay.lean
  Subject:   THE UDP RELAY END TO END: the server's pool loop and the client's data channel on the two
             ends of one connection, and the back-pressure between them.

  * `Relay`, `relay` -- the loop of `run_udp_connection_pool` composed with the machine of
    Client/DataChannel.lean; the pool writes into `downstream` and reads from `upstream`;
  * `Wedged` -- the wait cycle through both processes: the pool in `write_slice`, the reader in
    `tx.send`, a forwarder in `outbound_tx.send`, the writer in `UdpTraffic::write`, all four
    buffers full. `wedged_forever`: nothing but a lost connection ends it;
  How it comes about, and what traffic stays clear of it, is in Backpressure.lean.
-/
import Penetrate.Client.PortMap
import Penetrate.Server.UdpPool

namespace Penetrate

open Concurrent Machine Server Client

variable {down up : Nat}

/-! ## 1. The composed machine -/

structure Relay (down up : Nat) where
  pool : PoolPhase
  client : Client.State down up

/-- What an event of the pool does to its end of the connection. -/
def connectionEnd (s : Relay down up) : PoolEvent → Option (Client.State down up)
  | .written true => match s.pool with
    | .writing t => serverSide s.client (.write t)
    | _ => none
  | .read (some t) =>
      if s.client.upstream.items.head? = some t then serverSide s.client .read else none
  | _ => some s.client

inductive RelayAct where
  | pool (e : PoolEvent)
  | loop (a : LoopAct)
  | forwarder (f : Nat) (a : ForwarderAct)
  | writer (a : WriterAct)
  deriving DecidableEq, Repr

def Relay.step (s : Relay down up) : RelayAct → Option (Relay down up)
  | .pool e => (runUdpConnectionPool s.pool e).bind fun p => (connectionEnd s e).map fun c => ⟨p, c⟩
  | .loop a => (runDataChannelForUdp s.client a).map fun c => { s with client := c }
  | .forwarder f a => (runUdpForwarder s.client f a).map fun c => { s with client := c }
  | .writer a => (runWriter s.client a).map fun c => { s with client := c }

/-- **The UDP relay of one service**, against every visitor and every local service. -/
def relay (down up : Nat) : Machine (Relay down up) RelayAct where
  start s := s = ⟨.select, initial down up⟩
  step := Relay.step

/-- What one step of the pool can do. -/
inductive PoolStep (s : Relay down up) : PoolEvent → Relay down up → Prop where
  | recvFrom (from_ : SocketAddr) (payload : Bytes) (hp : s.pool = .select) :
      PoolStep s (.recvFrom (some (from_, payload)))
        { s with pool := .writing ⟨from_, payload.take UDP_BUFFER_SIZE⟩ }
  | written (t : UdpTraffic) (q : Mpsc UdpTraffic down) (hp : s.pool = .writing t)
      (hq : s.client.downstream.send t = some q) :
      PoolStep s (.written true) ⟨.select, { s.client with downstream := q }⟩
  | read (t : UdpTraffic) (q : Mpsc UdpTraffic up) (hp : s.pool = .select)
      (hq : s.client.upstream.recv = some (t, q)) :
      PoolStep s (.read (some t)) ⟨.sending t, { s.client with upstream := q }⟩
  | sentTo (t : UdpTraffic) (hp : s.pool = .sending t) :
      PoolStep s (.sentTo true) { s with pool := .select }
  | leave (e : PoolEvent) (why : PoolEnd) (he : runUdpConnectionPool s.pool e = some (.ended why)) :
      PoolStep s e { s with pool := .ended why }

theorem pool_cases {s s' : Relay down up} {e : PoolEvent} (h : s.step (.pool e) = some s') :
    PoolStep s e s' := by
  obtain ⟨p, hp, hb⟩ := Option.bind_eq_some_iff.mp h
  obtain ⟨c, hc, rfl⟩ := Option.map_eq_some_iff.mp hb
  clear h hb
  have hp' := hp
  unfold runUdpConnectionPool at hp
  split at hp
  · rename_i hs
    cases hp
    cases hc
    exact .recvFrom _ _ hs
  · cases hp
    cases hc
    exact .leave _ _ hp'
  · rename_i t hs
    cases hp
    rw [connectionEnd, hs] at hc
    cases server_cases hc with
    | write _ q hq => exact .written t q hs hq
  · cases hp
    cases hc
    exact .leave _ _ hp'
  · rename_i t hs
    cases hp
    rw [connectionEnd] at hc
    split at hc
    · rename_i ht
      cases server_cases hc with
      | read t' q hq =>
          rw [Mpsc.recv_eq_some hq, List.head?_cons] at ht
          cases ht
          exact .read t q hs hq
    · cases hc
  · cases hp
    cases hc
    exact .leave _ _ hp'
  · rename_i t hs
    cases hp
    cases hc
    exact .sentTo t hs
  · cases hp
    cases hc
    exact .leave _ _ hp'
  · cases hp
    cases hc
    exact .leave _ _ hp'
  · cases hp

/-! ## 2. The wait cycle -/

/-- The pool has a datagram in hand for `write_slice`. -/
def PoolWrites (s : Relay down up) : Prop := ∃ t, s.pool = .writing t

/-- The reader loop is in `tx.send` on the queue of forwarder `f`. -/
def LoopSends (s : Relay down up) (f : Nat) : Prop := ∃ p m, s.client.loop = .sending p f m

/-- Forwarder `f` is in `outbound_tx.send`. -/
def ForwarderSends (s : Relay down up) (f : Nat) : Prop :=
  ∃ t, s.client.phaseOf f = some (.sendingOutbound t)

/-- The writer has a reply in hand for `UdpTraffic::write`. -/
def WriterWrites (s : Relay down up) : Prop := ∃ t, s.client.writer = .writing t

/-- The four buffers between visitor and forwarder `f`, both ways, are full. -/
structure BuffersFull (s : Relay down up) (f : Nat) : Prop where
  downstream : s.client.downstream.full = true
  inbound : InboundFull s.client f
  outbound : s.client.outbound.full = true
  upstream : s.client.upstream.full = true

structure WedgedAt (s : Relay down up) (f : Nat) : Prop where
  pool : PoolWrites s
  loop : LoopSends s f
  forwarder : ForwarderSends s f
  writer : WriterWrites s
  full : BuffersFull s f

/-- **All four tasks wait for each other.** -/
def Wedged (s : Relay down up) : Prop := ∃ f, WedgedAt s f

/-- A step of forwarder `g` leaves the cycle through another forwarder as it is, while the outbound
    queue stays full. -/
theorem WedgedAt.other {s : Relay down up} {c : Client.State down up} {g f : Nat} {w : Forwarder}
    {a : ForwarderAct} (hwf : WedgedAt s f) (hw : s.client.forwarders[g]? = some w)
    (h : ForwarderStep s.client g w a c) (hfg : f ≠ g) (ho : c.outbound.full = true) :
    WedgedAt { s with client := c } f := by
  have he := forwarderStep_other hw h hfg
  have hl : c.loop = s.client.loop := by cases h <;> rfl
  have hwr : c.writer = s.client.writer := by cases h <;> rfl
  have hd : c.downstream = s.client.downstream := by cases h <;> rfl
  have hu : c.upstream = s.client.upstream := by cases h <;> rfl
  obtain ⟨⟨t, hp⟩, ⟨p, m, hlp⟩, ⟨t', hf⟩, ⟨t'', hwt⟩, hb⟩ := hwf
  have hph : c.phaseOf f = s.client.phaseOf f := by
    unfold State.phaseOf
    rw [he]
  have hin : InboundFull c f := by
    unfold InboundFull
    rw [he]
    exact hb.inbound
  exact ⟨⟨t, hp⟩, ⟨p, m, hl.trans hlp⟩, ⟨t', hph.trans hf⟩, ⟨t'', hwr.trans hwt⟩,
    by show c.downstream.full = true; rw [hd]; exact hb.downstream, hin, ho,
    by show c.upstream.full = true; rw [hu]; exact hb.upstream⟩

/-- Every step but an error of the connection leaves all four tasks where they are. -/
theorem Wedged.step {s s' : Relay down up} {a : RelayAct} (hw : Wedged s)
    (h : s.step a = some s') (hp : a ≠ .pool (.written false)) (hwr : a ≠ .writer .writeError) :
    Wedged s' := by
  obtain ⟨f, ⟨t, hpool⟩, ⟨p, m, hloop⟩, ⟨t', hfwd⟩, ⟨t'', hwrt⟩, hb⟩ := hw
  cases a with
  | pool e =>
      obtain ⟨p', hp', _⟩ := Option.bind_eq_some_iff.mp h
      rw [hpool] at hp'
      cases e with
      | written ok =>
          cases ok with
          | true =>
              cases pool_cases h with
              | written u q hu hq => rw [Mpsc.send_eq_none.mpr hb.downstream] at hq; cases hq
              | leave _ why he => rw [hpool] at he; cases he
          | false => exact absurd rfl hp
      | recvFrom r => cases r <;> cases hp'
      | read r => cases r <;> cases hp'
      | sentTo ok => cases ok <;> cases hp'
      | shutdown => cases hp'
  | loop b =>
      obtain ⟨c, hc, rfl⟩ := Option.map_eq_some_iff.mp h
      obtain ⟨v, hv, hfull⟩ := hb.inbound
      cases loop_cases hc with
      | sendClosed p' f' m' w hl hf hw =>
          rw [hloop] at hl
          obtain ⟨rfl, rfl, rfl⟩ := Loop.sending.inj hl
          rw [State.phaseOf, hf] at hfwd
          rw [Option.map_some, hw] at hfwd
          cases hfwd
      | send p' f' m' w q hl hf hw hq =>
          rw [hloop] at hl
          obtain ⟨rfl, rfl, rfl⟩ := Loop.sending.inj hl
          rw [hf] at hv
          cases hv
          rw [Mpsc.send_eq_none.mpr hfull] at hq
          cases hq
      | _ => simp_all
  | forwarder g b =>
      obtain ⟨c, hc, rfl⟩ := Option.map_eq_some_iff.mp h
      obtain ⟨w, hw, hstep⟩ := forwarder_cases hc
      by_cases hfg : f = g
      · subst hfg
        rw [State.phaseOf, hw] at hfwd
        have hph : w.phase = .sendingOutbound t' := Option.some.inj hfwd
        cases hstep with
        | outboundClosed u hu hend => rw [hwrt] at hend; cases hend
        | sendOutbound u q hu hend hq =>
            rw [Mpsc.send_eq_none.mpr hb.outbound] at hq
            cases hq
        | _ => simp_all
      · have hwf : WedgedAt s f := ⟨⟨t, hpool⟩, ⟨p, m, hloop⟩, ⟨t', hfwd⟩, ⟨t'', hwrt⟩, hb⟩
        refine ⟨f, hwf.other hw hstep hfg ?_⟩
        cases hstep with
        | sendOutbound u q hu hend hq =>
            rw [Mpsc.send_eq_none.mpr hb.outbound] at hq
            cases hq
        | _ => exact hb.outbound
  | writer b =>
      obtain ⟨c, hc, rfl⟩ := Option.map_eq_some_iff.mp h
      cases writer_cases hc with
      | write u q hu hq =>
          rw [Mpsc.send_eq_none.mpr hb.upstream] at hq
          cases hq
      | writeError u hu => exact absurd rfl hwr
      | recvOutbound u q hu hq => rw [hwrt] at hu; cases hu
      | outboundClosed hu => rw [hwrt] at hu; cases hu

/-- **Nothing but an error of the connection ends the cycle.** -/
theorem wedged_forever {s s' : Relay down up} {as : List RelayAct} (hw : Wedged s)
    (h : (relay down up).exec s as = some s')
    (hok : ∀ a ∈ as, a ≠ .pool (.written false) ∧ a ≠ .writer .writeError) : Wedged s' :=
  exec_inv (fun _ _ _ hw hok h => hw.step h hok.1 hok.2) h hok hw

/-- A visitor, and what it sends. -/
def visitor : SocketAddr := .v4 0x0a000001#32 1000
def datagram : UdpTraffic := ⟨visitor, [1]⟩

end Penetrate
