/-
  File:      Penetrate/Client/Steps.lean
  Subject:   WHAT ONE STEP OF THE CLIENT'S UDP DATA CHANNEL CAN DO, rule by rule.

  `LoopStep`, `ForwarderStep`, `WriterStep`, `ServerStep` list the rules of the step functions of
  DataChannel.lean with their guards; `loop_cases`, `forwarder_cases`, `writer_cases`,
  `server_cases` say that a step is one of them. Every invariant is derived from these, none
  unfolds a step function again.
-/
import Penetrate.Client.DataChannel

namespace Penetrate.Client

open Concurrent

variable {down up : Nat}

/-! ## 1. The loop -/

inductive LoopStep (s : State down up) : LoopAct → State down up → Prop where
  | readPacket (p : UdpTraffic) (q : Mpsc UdpTraffic down) (hl : s.loop = .reading)
      (hq : s.downstream.recv = some (p, q)) :
      LoopStep s .readPacket { s with downstream := q, loop := .received p }
  | readError (hl : s.loop = .reading) : LoopStep s .readError { s with loop := .finished }
  | requestRead (p : UdpTraffic) (hl : s.loop = .received p) :
      LoopStep s .requestRead
        { s with lock := s.lock.request .main .read, loop := .awaitRead p }
  | checkAbsent (p : UdpTraffic) (hl : s.loop = .awaitRead p) (hw : s.lock.waiting .main = [])
      (hm : s.portMap p.from_ = none) :
      LoopStep s .check { s with lock := s.lock.release .main .read, loop := .absent p }
  | checkPresent (p : UdpTraffic) (f : Nat) (hl : s.loop = .awaitRead p)
      (hw : s.lock.waiting .main = []) (hm : s.portMap p.from_ = some f) :
      LoopStep s .check { s with loop := .recheck p true }
  | requestWrite (p : UdpTraffic) (hl : s.loop = .absent p) :
      LoopStep s .requestWrite
        { s with lock := s.lock.request .main .write, loop := .awaitWrite p }
  | connected (p : UdpTraffic) (hl : s.loop = .awaitWrite p) (hw : s.lock.waiting .main = []) :
      LoopStep s .connected
        { s with
          portMap := Function.update s.portMap p.from_ (some s.forwarders.length)
          forwarders := s.forwarders ++ [⟨p.from_, .empty, .select⟩]
          lock := s.lock.release .main .write
          loop := .recheck p false }
  | connectError (p : UdpTraffic) (hl : s.loop = .awaitWrite p)
      (hw : s.lock.waiting .main = []) :
      LoopStep s .connectError
        { s with lock := s.lock.release .main .write, loop := .recheck p false }
  | requestRecheck (p : UdpTraffic) (m : Bool) (hl : s.loop = .recheck p m) :
      LoopStep s .requestRecheck
        { s with lock := s.lock.request .main .read, loop := .awaitRecheck p m }
  | lookupFound (p : UdpTraffic) (m : Bool) (f : Nat) (hl : s.loop = .awaitRecheck p m)
      (hw : s.lock.waiting .main = []) (hm : s.portMap p.from_ = some f) :
      LoopStep s .lookup { s with loop := .sending p f m }
  | lookupMissing (p : UdpTraffic) (m : Bool) (hl : s.loop = .awaitRecheck p m)
      (hw : s.lock.waiting .main = []) (hm : s.portMap p.from_ = none) :
      LoopStep s .lookup { s with lock := dropGuards s.lock m, loop := .reading }
  | sendClosed (p : UdpTraffic) (f : Nat) (m : Bool) (w : Forwarder)
      (hl : s.loop = .sending p f m) (hf : s.forwarders[f]? = some w)
      (hw : w.phase = .finished) :
      LoopStep s .send { s with lock := dropGuards s.lock m, loop := .reading }
  | send (p : UdpTraffic) (f : Nat) (m : Bool) (w : Forwarder) (q : Mpsc Bytes UDP_SEND_Q_SIZE)
      (hl : s.loop = .sending p f m) (hf : s.forwarders[f]? = some w)
      (hw : w.phase ≠ .finished) (hq : w.inbound.send p.data = some q) :
      LoopStep s .send
        { s with
          forwarders := s.forwarders.set f { w with inbound := q }
          lock := dropGuards s.lock m
          loop := .reading }

theorem loop_cases {s s' : State down up} {a : LoopAct}
    (h : runDataChannelForUdp s a = some s') : LoopStep s a s' := by
  unfold runDataChannelForUdp at h
  split at h
  · rename_i hl
    obtain ⟨⟨p, q⟩, hq, rfl⟩ := Option.map_eq_some_iff.mp h
    exact .readPacket p q hl hq
  · rename_i hl
    cases h
    exact .readError hl
  · rename_i p hl
    cases h
    exact .requestRead p hl
  · rename_i p hl
    split at h
    · rename_i hw
      split at h
      · rename_i hm
        cases h
        exact .checkAbsent p hl hw hm
      · rename_i f hm
        cases h
        exact .checkPresent p f hl hw hm
    · cases h
  · rename_i p hl
    cases h
    exact .requestWrite p hl
  · rename_i p hl
    split at h
    · rename_i hw
      cases h
      exact .connected p hl hw
    · cases h
  · rename_i p hl
    split at h
    · rename_i hw
      cases h
      exact .connectError p hl hw
    · cases h
  · rename_i p m hl
    cases h
    exact .requestRecheck p m hl
  · rename_i p m hl
    split at h
    · rename_i hw
      split at h
      · rename_i f hm
        cases h
        exact .lookupFound p m f hl hw hm
      · rename_i hm
        cases h
        exact .lookupMissing p m hl hw hm
    · cases h
  · rename_i p f m hl
    split at h
    · cases h
    · rename_i w hf
      split at h
      · rename_i hw
        cases h
        exact .sendClosed p f m w hl hf hw
      · rename_i hw
        obtain ⟨q, hq, rfl⟩ := Option.map_eq_some_iff.mp h
        exact .send p f m w q hl hf hw hq
  · cases h

/-! ## 2. A forwarder -/

inductive ForwarderStep (s : State down up) (f : Nat) (w : Forwarder) :
    ForwarderAct → State down up → Prop where
  | recvInbound (data : Bytes) (q : Mpsc Bytes UDP_SEND_Q_SIZE) (hp : w.phase = .select)
      (hq : w.inbound.recv = some (data, q)) :
      ForwarderStep s f w .recvInbound
        { s with forwarders := s.forwarders.set f { w with inbound := q, phase := .sendingLocal data } }
  | inboundClosed (hp : w.phase = .select) (he : w.inbound.items = [])
      (hm : s.portMap w.from_ ≠ some f) :
      ForwarderStep s f w .inboundClosed (s.toPhase f w .broken)
  | recvLocal (payload : Bytes) (hp : w.phase = .select) :
      ForwarderStep s f w (.recvLocal payload)
        (s.toPhase f w (.sendingOutbound ⟨w.from_, payload.take UDP_BUFFER_SIZE⟩))
  | recvLocalError (hp : w.phase = .select) :
      ForwarderStep s f w .recvLocalError (s.toPhase f w .broken)
  | timeout (hp : w.phase = .select) : ForwarderStep s f w .timeout (s.toPhase f w .broken)
  | sentLocal (data : Bytes) (hp : w.phase = .sendingLocal data) :
      ForwarderStep s f w .sentLocal (s.toPhase f w .select)
  | sendLocalError (data : Bytes) (hp : w.phase = .sendingLocal data) :
      ForwarderStep s f w .sendLocalError (s.toPhase f w .finished)
  | outboundClosed (t : UdpTraffic) (hp : w.phase = .sendingOutbound t) (hw : s.writer = .ended) :
      ForwarderStep s f w .sendOutbound (s.toPhase f w .finished)
  | sendOutbound (t : UdpTraffic) (q : Mpsc UdpTraffic UDP_BUFFER_SIZE)
      (hp : w.phase = .sendingOutbound t) (hw : s.writer ≠ .ended)
      (hq : s.outbound.send t = some q) :
      ForwarderStep s f w .sendOutbound { s.toPhase f w .select with outbound := q }
  | requestWrite (hp : w.phase = .broken) :
      ForwarderStep s f w .requestWrite
        { s.toPhase f w .awaitWrite with lock := s.lock.request (.forwarder f) .write }
  | cleanUp (hp : w.phase = .awaitWrite) (hw : s.lock.waiting (.forwarder f) = []) :
      ForwarderStep s f w .cleanUp
        { s.toPhase f w .finished with
          portMap := Function.update s.portMap w.from_ none
          lock := s.lock.release (.forwarder f) .write }

theorem forwarder_cases {s s' : State down up} {f : Nat} {a : ForwarderAct}
    (h : runUdpForwarder s f a = some s') :
    ∃ w, s.forwarders[f]? = some w ∧ ForwarderStep s f w a s' := by
  unfold runUdpForwarder at h
  split at h
  · cases h
  · rename_i w hf
    refine ⟨w, hf, ?_⟩
    split at h
    · rename_i hp
      obtain ⟨⟨data, q⟩, hq, rfl⟩ := Option.map_eq_some_iff.mp h
      exact .recvInbound data q hp hq
    · rename_i hp
      split at h
      · rename_i he
        cases h
        exact .inboundClosed hp he.1 he.2
      · cases h
    · rename_i payload hp
      cases h
      exact .recvLocal payload hp
    · rename_i hp
      cases h
      exact .recvLocalError hp
    · rename_i hp
      cases h
      exact .timeout hp
    · rename_i data hp
      cases h
      exact .sentLocal data hp
    · rename_i data hp
      cases h
      exact .sendLocalError data hp
    · rename_i t hp
      split at h
      · rename_i hw
        cases h
        exact .outboundClosed t hp hw
      · rename_i hw
        obtain ⟨q, hq, rfl⟩ := Option.map_eq_some_iff.mp h
        exact .sendOutbound t q hp hw hq
    · rename_i hp
      cases h
      exact .requestWrite hp
    · rename_i hp
      split at h
      · rename_i hw
        cases h
        exact .cleanUp hp hw
      · cases h
    · cases h

/-! ## 3. The writer task and the server's end -/

inductive WriterStep (s : State down up) : WriterAct → State down up → Prop where
  | recvOutbound (t : UdpTraffic) (q : Mpsc UdpTraffic UDP_BUFFER_SIZE) (hw : s.writer = .idle)
      (hq : s.outbound.recv = some (t, q)) :
      WriterStep s .recvOutbound { s with outbound := q, writer := .writing t }
  | outboundClosed (hw : s.writer = .idle) (ho : s.outbound.items = [])
      (hl : s.loop = .finished) (hf : s.forwarders.all (fun w => w.phase = .finished) = true) :
      WriterStep s .outboundClosed { s with writer := .ended }
  | write (t : UdpTraffic) (q : Mpsc UdpTraffic up) (hw : s.writer = .writing t)
      (hq : s.upstream.send t = some q) :
      WriterStep s .write { s with upstream := q, writer := .idle }
  | writeError (t : UdpTraffic) (hw : s.writer = .writing t) :
      WriterStep s .writeError { s with writer := .ended }

theorem writer_cases {s s' : State down up} {a : WriterAct} (h : runWriter s a = some s') :
    WriterStep s a s' := by
  unfold runWriter at h
  split at h
  · rename_i hw
    obtain ⟨⟨t, q⟩, hq, rfl⟩ := Option.map_eq_some_iff.mp h
    exact .recvOutbound t q hw hq
  · rename_i hw
    split at h
    · rename_i hg
      cases h
      exact .outboundClosed hw hg.1 hg.2.1 hg.2.2
    · cases h
  · rename_i t hw
    obtain ⟨q, hq, rfl⟩ := Option.map_eq_some_iff.mp h
    exact .write t q hw hq
  · rename_i t hw
    cases h
    exact .writeError t hw
  · cases h

inductive ServerStep (s : State down up) : ServerAct → State down up → Prop where
  | write (p : UdpTraffic) (q : Mpsc UdpTraffic down) (hq : s.downstream.send p = some q) :
      ServerStep s (.write p) { s with downstream := q }
  | read (t : UdpTraffic) (q : Mpsc UdpTraffic up) (hq : s.upstream.recv = some (t, q)) :
      ServerStep s .read { s with upstream := q }

theorem server_cases {s s' : State down up} {a : ServerAct} (h : serverSide s a = some s') :
    ServerStep s a s' := by
  unfold serverSide at h
  split at h
  · rename_i p
    obtain ⟨q, hq, rfl⟩ := Option.map_eq_some_iff.mp h
    exact .write p q hq
  · obtain ⟨⟨t, q⟩, hq, rfl⟩ := Option.map_eq_some_iff.mp h
    exact .read t q hq

end Penetrate.Client
