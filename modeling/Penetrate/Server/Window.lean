/-
  File:      Penetrate/Server/Window.lean
  Subject:   THE WINDOW BETWEEN `Ack::Ok` AND THE INSERTION.

  `connections` takes the end of a control channel handshake for one step. It is not:
  `ControlChannelHandle::new` starts the tasks of the service before `wg.insert` puts the handle into
  the table, and the client has been told. Until then the new control channel may send its
  `CreateDataChannel` commands, and the client may open data channels for them, while every other
  task goes on. Here the two ends of the window are steps of their own.

  * `Window`, `windowed` -- the finer machine: one handshake at a time is in its window;
  * `WindowStep`, `window_cases` -- its rules;
  * `windowed_refines` -- **the finer machine reaches no other server**: what happens in the window is
    what the service does after its insertion in `connections`.
-/
import Penetrate.Server.Registration

namespace Penetrate.Server

open Concurrent Machine

/-! ## 1. The machine -/

structure Window where
  server : State
  /-- connection task `n` has written its acknowledgement and created its handle, which is not in the
      table yet; the tasks of the handle run -/
  pending : Option (Nat × Service)

inductive WindowAct where
  | server (a : Action)
  /-- connection task `n` has written `Ack::Ok` and calls `ControlChannelHandle::new` -/
  | acked (n : Nat)
  /-- a task of the handle that is not in the table yet -/
  | early (a : ServiceAct)
  /-- `wg.insert`; the guard is dropped and the task returns -/
  | insert (n : Nat)

/-- The steps of the server outside the window: the acknowledgement and the insertion are apart, and
    the acknowledgement does not fail any more once it is written. -/
def Window.allows (w : Window) : Action → Bool
  | .conn _ .ack => false
  | .conn n .writeError => match w.pending with
    | some (m, _) => m ≠ n
    | none => true
  | _ => true

def Service.withHandle (s : Service) (b : Bool) : Service := { s with handle := b }

/-- The tasks of handle `h` are where they got in the window. -/
def State.adopt (s : State) (h : Nat) (state : Service) : State :=
  { s with handles := s.handles.modify h fun x =>
      { x with state := state.withHandle x.state.handle } }

section

variable (digest : Bytes → Digest) (heartbeat_interval : UInt64)

def stepWindow (w : Window) : WindowAct → Option Window
  | .server a =>
      if w.allows a then
        (step digest heartbeat_interval w.server a).map fun s => { w with server := s }
      else none
  | .acked n => match w.pending, w.server.conns[n]? with
    | none, some c => match c.phase with
      | .acking _ cfg _ => (c.write ACK_LEN).map fun _ =>
          { w with pending := some (n, .new cfg.service_type heartbeat_interval) }
      | _ => none
    | _, _ => none
  | .early a => match w.pending with
    | some (n, state) =>
        if a.own then (state.step a).map fun state => { w with pending := some (n, state) } else none
    | none => none
  | .insert n => match w.pending with
    | some (m, state) =>
        if m = n then
          (step digest heartbeat_interval w.server (.conn n .ack)).map fun s =>
            ⟨s.adopt w.server.handles.length state, none⟩
        else none
    | none => none

/-- **A server instance, with the window.** -/
def windowed (config : ServerConfig) : Machine Window WindowAct where
  start w := w = ⟨initial digest config, none⟩
  step := stepWindow digest config.heartbeat_interval

/-! ## 2. The rules -/

inductive WindowStep (w : Window) : WindowAct → Window → Prop where
  | server {a : Action} {s : State} (ha : w.allows a = true)
      (h : step digest heartbeat_interval w.server a = some s) :
      WindowStep w (.server a) { w with server := s }
  | acked (n : Nat) (c : Conn) (d : ServiceDigest) (cfg : ServerServiceConfig) (k : Digest)
      (hn : w.pending = none) (hc : w.server.conns[n]? = some c) (hp : c.phase = .acking d cfg k) :
      WindowStep w (.acked n)
        { w with pending := some (n, .new cfg.service_type heartbeat_interval) }
  | early (n : Nat) (a : ServiceAct) (state state' : Service) (hn : w.pending = some (n, state))
      (ho : a.own = true) (hs : state.step a = some state') :
      WindowStep w (.early a) { w with pending := some (n, state') }
  | insert (n : Nat) (state : Service) (s : State) (hn : w.pending = some (n, state))
      (h : step digest heartbeat_interval w.server (.conn n .ack) = some s) :
      WindowStep w (.insert n) ⟨s.adopt w.server.handles.length state, none⟩

variable {digest heartbeat_interval}

theorem window_cases {w w' : Window} {a : WindowAct}
    (h : stepWindow digest heartbeat_interval w a = some w') :
    WindowStep digest heartbeat_interval w a w' := by
  unfold stepWindow at h
  split at h
  · split at h
    · rename_i a ha
      obtain ⟨s, hs, rfl⟩ := Option.map_eq_some_iff.mp h
      exact .server ha hs
    · cases h
  · rename_i n
    split at h
    · rename_i c hn hc
      split at h
      · rename_i d cfg k hp
        obtain ⟨_, _, rfl⟩ := Option.map_eq_some_iff.mp h
        exact .acked n c d cfg k hn hc hp
      · cases h
    · cases h
  · split at h
    · rename_i a _ n state hn
      split at h
      · rename_i ho
        obtain ⟨state', hs, rfl⟩ := Option.map_eq_some_iff.mp h
        exact .early n a state state' hn ho hs
      · cases h
    · cases h
  · split at h
    · rename_i n _ m state hn
      split at h
      · rename_i e
        subst e
        obtain ⟨s, hs, rfl⟩ := Option.map_eq_some_iff.mp h
        exact .insert m state s hn hs
      · cases h
    · cases h

/-! ## 3. The server under the window -/

/-- What the tasks of a service do while its handle lives they may do without it too. -/
theorem own_withHandle {s s' : Service} {a : ServiceAct} (ho : a.own = true) (hh : s.handle = true)
    (h : s.step a = some s') (b : Bool) : (s.withHandle b).step a = some (s'.withHandle b) := by
  unfold Service.withHandle
  cases service_cases h with
  | client _ => cases ho
  | drop _ => cases ho
  | control h => cases h <;> simp_all [Service.step, ControlChannel.run]
  | listener hp h => cases h <;> simp_all [Service.step, tcp_listen_and_send]
  | tcpPool hp h => cases h <;> simp_all [Service.step, runPool, run_tcp_connection_pool]
  | udpPool hp h => cases h <;> simp_all [Service.step, runPool, run_udp_connection_pool]

/-- `state` is where the tasks of a new service can get while its handle lives. -/
inductive Early (new : Service) : Service → Prop where
  | new : Early new new
  | step {state state' : Service} (he : Early new state) (a : ServiceAct) (ho : a.own = true)
      (hs : state.step a = some state') : Early new state'

theorem Early.handle {new state : Service} (h : Early new state) : state.handle = new.handle := by
  induction h with
  | new => rfl
  | step _ a ho hs ih => exact (own_handle (service_cases hs) ho).trans ih

/-- The tasks of handle `h` get in the table where they can get in the window. -/
theorem Early.leads {config : ServerConfig} {new state : Service} (he : Early new state)
    (hnew : new.handle = true) {s : State} {h : Nat} {x : Handle} (hx : s.handles[h]? = some x)
    (hs : x.state = new.withHandle x.state.handle) :
    (connections digest config).Leads s { s with
      handles := s.handles.set h { x with state := state.withHandle x.state.handle } } := by
  have hl := (List.getElem?_eq_some_iff.mp hx).1
  induction he with
  | new =>
      rw [← hs]
      have hsame : s.handles.set h x = s.handles := by
        rw [← (List.getElem?_eq_some_iff.mp hx).2]
        exact List.set_getElem_self hl
      rw [show ({ x with state := x.state } : Handle) = x from rfl, hsame]
      exact .refl s
  | @step early early' he a ho hst ih =>
      have hown := own_withHandle ho (he.handle.trans hnew) hst x.state.handle
      let y : Handle := { x with state := early.withHandle x.state.handle }
      have hy : (s.handles.set h y)[h]? = some y := List.getElem?_set_self hl
      let z : Handle := { x with state := early'.withHandle x.state.handle }
      have hnext : (connections digest config).Leads { s with handles := s.handles.set h y }
          { s with handles := (s.handles.set h y).set h z } :=
        leads_service (x := y) hy ho hown
      rw [List.set_set] at hnext
      exact ih.trans hnext

/-- What is known of the handshake in its window. -/
structure PendingInv (heartbeat_interval : UInt64) (w : Window) : Prop where
  pending : ∀ n state, w.pending = some (n, state) → ∃ d cfg k,
    w.server.phaseOf n = .acking d cfg k ∧ Early (.new cfg.service_type heartbeat_interval) state

/-- A step the window allows leaves a handshake that is in it where it is. -/
theorem Step.keepsAcking {s s' : State} {a : Action} (hs : Step digest heartbeat_interval s a s')
    {n : Nat} (ha : a ≠ .conn n .ack) (hb : a ≠ .conn n .writeError) {d : ServiceDigest}
    {cfg : ServerServiceConfig} {k : Digest} (hp : s.phaseOf n = .acking d cfg k) :
    s'.phaseOf n = .acking d cfg k := by
  let Q (m : Nat) (ph : ConnPhase) : Prop := m = n → ph = .acking d cfg k
  have hI : Phases Q (· ≠ n) s := by
    constructor
    · rintro m c hc rfl
      exact (phaseOf_eq hc).symm.trans hp
    · rintro m hm rfl
      unfold State.phaseOf at hp
      rw [hm] at hp
      cases hp
  have hI' : Phases Q (· ≠ n) s' := by
    refine hI.step hs (fun _ _ _ hq => hq) (fun _ _ hq => hq) (fun m hm e => absurd e hm) ?_
    intro m b c e hc h hq
    obtain ⟨c', hs', _⟩ := h.conns
    by_cases hmn : m = n
    · subst hmn
      have hph := hq rfl
      cases h with
      | ack _ _ _ _ _ _ => exact absurd e ha
      | ackError _ _ _ _ => exact absurd e hb
      | peerReads j => exact ⟨_, rfl, fun _ => hph⟩
      | ends _ _ hq | endsServices _ _ hq _ => simp [hph] at hq
      | notFound _ hq _ _ | helloControl _ hq | helloData _ hq | sendHello _ _ _ hq _
      | lookupMissing _ _ hq _ _ | lookup _ _ _ _ hq _ _ _ | auth _ _ _ hq | authWrong _ _ _ _ hq _
      | takeTable _ _ _ hq _ | findSent _ _ _ _ hq _ _ _ _ _ | findWaits _ _ _ hq _ _ _ _ _
      | send _ _ _ hq _ _ =>
          rw [hph] at hq
          cases hq
    · exact ⟨c', hs', fun e => absurd e hmn⟩
  unfold State.phaseOf
  split
  · rename_i c hc
    exact hI'.conn n c hc rfl
  · rename_i hn
    exact absurd rfl (hI'.beyond n hn)

/-- The handle an acknowledged handshake creates is new, but for having been dropped. -/
theorem Step.created {s s' : State} {n : Nat} (hs : Step digest heartbeat_interval s (.conn n .ack) s')
    {d : ServiceDigest} {cfg : ServerServiceConfig} {k : Digest}
    (hp : s.phaseOf n = .acking d cfg k) : ∃ x : Handle, s'.handles[s.handles.length]? = some x ∧
      x.state = (Service.new cfg.service_type heartbeat_interval).withHandle x.state.handle := by
  obtain ⟨c, hc, hcp⟩ := conn_of_phaseOf hp (by simp)
  cases hs with
  | conn c' hc' h =>
      rw [hc] at hc'
      cases hc'
      cases h with
      | ends _ _ hq | endsServices _ _ hq _ => simp [hcp] at hq
      | ack d' cfg' k' c'' hq _ =>
          rw [hcp] at hq
          cases hq
          let new : Handle := ⟨cfg, .new cfg.service_type heartbeat_interval⟩
          have hnew : HasHandle (s.register heartbeat_interval d cfg k).handles s.handles.length
              new := by
            unfold State.register
            split
            · exact Or.inl (by simp [new])
            · exact Or.inr (by simp [new])
          have hend := HasHandle.endConn (s := { s.register heartbeat_interval d cfg k with
            channelsLock := s.channelsLock.release (.conn n) .write }) (n := n) (c := c'') hnew
          rcases hend with h | h
          · exact ⟨new, h, rfl⟩
          · exact ⟨new.dropped, h, rfl⟩

/-- The handle that is adopted goes on where its tasks got in the window. -/
theorem adopt_eq {s : State} {h : Nat} {x : Handle} (hx : s.handles[h]? = some x) (state : Service) :
    s.adopt h state = { s with
      handles := s.handles.set h { x with state := state.withHandle x.state.handle } } := by
  unfold State.adopt
  rw [List.modify_eq_set_getElem?, hx]
  rfl

theorem window_refines_step {config : ServerConfig} {w w' : Window} {a : WindowAct}
    (hI : PendingInv config.heartbeat_interval w)
    (h : (windowed digest config).step w a = some w') :
    (connections digest config).Leads w.server w'.server ∧
      PendingInv config.heartbeat_interval w' := by
  cases window_cases h with
  | @server a s ha hs =>
      have hstep : (connections digest config).step w.server a = some s := hs
      refine ⟨.of_step hstep, ⟨fun n state hn => ?_⟩⟩
      obtain ⟨d, cfg, k, hp, he⟩ := hI.pending n state hn
      refine ⟨d, cfg, k, (step_cases hs).keepsAcking ?_ ?_ hp, he⟩
      · rintro rfl
        cases ha
      · rintro rfl
        simp [Window.allows, show w.pending = _ from hn] at ha
  | acked n c d cfg k hn hc hp =>
      refine ⟨.refl _, ⟨fun m state e => ?_⟩⟩
      cases e
      exact ⟨d, cfg, k, (phaseOf_eq hc).trans hp, .new⟩
  | early n a state state' hn ho hs =>
      refine ⟨.refl _, ⟨fun m st e => ?_⟩⟩
      cases e
      obtain ⟨d, cfg, k, hp, he⟩ := hI.pending n state hn
      exact ⟨d, cfg, k, hp, he.step a ho hs⟩
  | insert n state s hn hs =>
      obtain ⟨d, cfg, k, hp, he⟩ := hI.pending n state hn
      obtain ⟨x, hx, hst⟩ := (step_cases hs).created hp
      refine ⟨?_, ⟨fun m st e => by cases e⟩⟩
      rw [adopt_eq hx]
      have hack : (connections digest config).step w.server (.conn n .ack) = some s := hs
      exact (Leads.of_step hack).trans (he.leads rfl hx hst)

/-- **The window shows no server that `connections` does not reach.** -/
theorem windowed_refines {config : ServerConfig} {tr : List (Window × WindowAct)} {w : Window}
    (r : (windowed digest config).Run tr w) :
    (connections digest config).Reachable w.server ∧ PendingInv config.heartbeat_interval w := by
  refine r.simulates ?_ ?_
  · rintro w rfl
    exact ⟨rfl, ⟨fun n state hn => by cases hn⟩⟩
  · exact fun w a w' hI h => window_refines_step hI h

end

end Penetrate.Server
