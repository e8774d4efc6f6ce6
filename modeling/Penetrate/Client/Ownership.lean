/-
  File:      Penetrate/Client/Ownership.lean
  Subject:   WHO AN ENTRY OF `port_map` BELONGS TO, and the visitors that are lost.

  `run_udp_forwarder` removes its entry after the loop it leaves by `break`. The two `?` inside the
  loop (a failed `s.send`, a failed `outbound_tx.send`) return past that clean-up: the entry stays
  with a sender nobody receives from, and the loop of the data channel ignores the error of every
  later send into it. `entriesAlive_iff` says that these two exits are exactly what breaks
  `EntriesAlive`; `blackHole_forever` says that a visitor lost that way never comes back.
-/
import Penetrate.Client.PortMap

namespace Penetrate.Client

open Concurrent Machine

variable {down up : Nat}

/-- Every entry of the map belongs to a forwarder of its address that has not finished. -/
def EntriesAlive (s : State down up) : Prop :=
  ∀ a f, s.portMap a = some f →
    ∃ w, s.forwarders[f]? = some w ∧ w.from_ = a ∧ w.phase ≠ .finished

/-- No forwarder returns by `?`: no send to its local service fails, and it does not send into the
    outbound queue once the writer task has ended. -/
def NoErrorExit (s : State down up) : Action → Prop
  | .forwarder _ .sendLocalError => False
  | .forwarder _ .sendOutbound => s.writer ≠ .ended
  | _ => True

/-- The entry of `a` leads to a forwarder that has finished. -/
def BlackHole (s : State down up) (a : SocketAddr) : Prop :=
  ∃ f, s.portMap a = some f ∧ s.phaseOf f = some .finished

theorem not_entriesAlive {s : State down up} {a : SocketAddr} (h : BlackHole s a) :
    ¬ EntriesAlive s := by
  intro hP
  obtain ⟨f, hm, hph⟩ := h
  obtain ⟨w, hw, -, hn⟩ := hP a f hm
  rw [State.phaseOf, hw] at hph
  exact hn (Option.some.inj hph)

/-- A forwarder that moves on without finishing keeps every entry alive. -/
theorem EntriesAlive.set {s : State down up} (hP : EntriesAlive s) {g : Nat} {w v : Forwarder}
    (hw : s.forwarders[g]? = some w) (hv : v.from_ = w.from_) (hn : v.phase ≠ .finished)
    (a : SocketAddr) (f : Nat) (hm : s.portMap a = some f) :
    ∃ u, (s.forwarders.set g v)[f]? = some u ∧ u.from_ = a ∧ u.phase ≠ .finished := by
  obtain ⟨u, hu, ha, hnu⟩ := hP a f hm
  rw [getElem?_set_forwarder hw]
  by_cases hfg : f = g
  · subst hfg
    rw [hw] at hu
    cases hu
    exact ⟨v, if_pos rfl, hv.trans ha, hn⟩
  · exact ⟨u, by rw [if_neg hfg]; exact hu, ha, hnu⟩

theorem entriesAlive_forwarder {s s' : State down up} {g : Nat} {w : Forwarder}
    {b : ForwarderAct} (hI : PortMapInv s) (hP : EntriesAlive s)
    (hw : s.forwarders[g]? = some w) (h : ForwarderStep s g w b s') :
    EntriesAlive s' ↔ NoErrorExit s (.forwarder g b) := by
  have hset : ∀ ph, (s.toPhase g w ph).phaseOf g = some ph := fun ph =>
    (phaseOf_toPhase hw ph g).trans (if_pos rfl)
  cases h with
  | recvInbound data q hp hq => exact iff_of_true (hP.set hw rfl (by simp)) trivial
  | inboundClosed hp he hm => exact iff_of_true (hP.set hw rfl (by simp)) trivial
  | recvLocal payload hp => exact iff_of_true (hP.set hw rfl (by simp)) trivial
  | recvLocalError hp => exact iff_of_true (hP.set hw rfl (by simp)) trivial
  | timeout hp => exact iff_of_true (hP.set hw rfl (by simp)) trivial
  | sentLocal data hp => exact iff_of_true (hP.set hw rfl (by simp)) trivial
  | sendLocalError data hp =>
      have ho : s.portMap w.from_ = some g := hI.owned g w hw (by simp [hp])
      exact iff_of_false (not_entriesAlive (a := w.from_) ⟨g, ho, hset .finished⟩) id
  | outboundClosed t hp hwr =>
      have ho : s.portMap w.from_ = some g := hI.owned g w hw (by simp [hp])
      exact iff_of_false (not_entriesAlive (a := w.from_) ⟨g, ho, hset .finished⟩)
        fun hok => hok hwr
  | sendOutbound t q hp hwr hq => exact iff_of_true (hP.set hw rfl (by simp)) hwr
  | requestWrite hp => exact iff_of_true (hP.set hw rfl (by simp)) trivial
  | cleanUp hp hwait =>
      refine iff_of_true ?_ trivial
      intro a f hm
      have hm' : Function.update s.portMap w.from_ none a = some f := hm
      have ha : a ≠ w.from_ := by
        intro e
        rw [e, Function.update_self] at hm'
        cases hm'
      rw [Function.update_of_ne ha] at hm'
      obtain ⟨u, hu, hua, hn⟩ := hP a f hm'
      have hfg : f ≠ g := by
        intro e
        subst e
        rw [hw] at hu
        cases hu
        exact ha hua.symm
      refine ⟨u, ?_, hua, hn⟩
      exact (getElem?_set_forwarder hw _ f).trans ((if_neg hfg).trans hu)

/-- A step of the loop keeps every entry alive: it only adds an entry, with its forwarder. -/
theorem entriesAlive_loop {s s' : State down up} {b : LoopAct} (hP : EntriesAlive s)
    (h : LoopStep s b s') : EntriesAlive s' := by
  cases h with
  | connected p hl hw =>
      intro a f hm
      show ∃ w, (s.forwarders ++ [_])[f]? = some w ∧ _
      rw [getElem?_spawn]
      have hm' : Function.update s.portMap p.from_ (some s.forwarders.length) a = some f := hm
      by_cases ha : a = p.from_
      · subst ha
        rw [Function.update_self] at hm'
        cases hm'
        exact ⟨_, if_pos rfl, rfl, by simp⟩
      · rw [Function.update_of_ne ha] at hm'
        obtain ⟨w, hw', h'⟩ := hP a f hm'
        have hlt : f < s.forwarders.length := (List.getElem?_eq_some_iff.mp hw').1
        exact ⟨w, by rw [if_neg (by omega)]; exact hw', h'⟩
  | send p f m w q hl hf hw hq => exact hP.set hf rfl hw
  | _ => exact hP

theorem entriesAlive_step {s s' : State down up} {a : Action} (hI : PortMapInv s)
    (hP : EntriesAlive s) (h : step s a = some s') : EntriesAlive s' ↔ NoErrorExit s a := by
  cases a with
  | loop b => exact iff_of_true (entriesAlive_loop hP (loop_cases h)) trivial
  | forwarder g b =>
      obtain ⟨w, hw, h'⟩ := forwarder_cases h
      exact entriesAlive_forwarder hI hP hw h'
  | writer b => cases writer_cases h <;> exact iff_of_true hP trivial
  | server b => cases server_cases h <;> exact iff_of_true hP trivial

/-- **Every entry of the map belongs to a running forwarder of its address, precisely when no
    forwarder returns by `?`.** -/
theorem entriesAlive_iff {tr : List (State down up × Action)} {s : State down up}
    (r : (dataChannel down up).Run tr s) :
    Throughout EntriesAlive tr s ↔ Guarded NoErrorExit tr := by
  refine r.throughout_iff (I := PortMapInv) (fun s h => ?_) (fun s a s' hI h => ?_)
    fun s a s' hI hP h => ?_
  · rw [show s = initial down up from h]
    exact ⟨portMapInv_initial, by intro a f hm; cases hm⟩
  · exact portMapInv_step (a := a) hI h
  · exact entriesAlive_step (a := a) hI hP h

/-- The local service's port is closed: the visitor's first datagram goes out and is refused, and
    the send of the second returns that error. -/
def refusedVisitor (p : UdpTraffic) : List Action :=
  [.server (.write p), .loop .readPacket, .loop .requestRead, .loop .check, .loop .requestWrite,
    .loop .connected, .loop .requestRecheck, .loop .lookup, .loop .send,
    .forwarder 0 .recvInbound, .forwarder 0 .sentLocal,
    .server (.write p), .loop .readPacket, .loop .requestRead, .loop .check, .loop .requestRecheck,
    .loop .lookup, .loop .send, .forwarder 0 .recvInbound, .forwarder 0 .sendLocalError]

theorem exec_refusedVisitor : ∃ s, (dataChannel 1 1).exec (initial 1 1)
    (refusedVisitor ⟨.v4 0x0a000001#32 1000, [1]⟩) = some s ∧
      BlackHole s (.v4 0x0a000001#32 1000) :=
  ⟨_, rfl, 0, rfl, rfl⟩

/-- **A visitor can be lost**: the claim that every entry belongs to a running forwarder is
    false. -/
theorem visitor_black_holed :
    ¬ ∀ (down up : Nat) (tr : List (State down up × Action)) (s : State down up),
      (dataChannel down up).Run tr s → EntriesAlive s := by
  intro h
  obtain ⟨s, hs, hb⟩ := exec_refusedVisitor
  obtain ⟨tr, r⟩ := run_exec (.start rfl) hs
  exact not_entriesAlive hb (h 1 1 _ s r)

/-- The condition of `entriesAlive_iff` fails on that run, as it must. -/
theorem entriesAlive_iff_refused :
    ∃ tr s, (dataChannel 1 1).Run tr s ∧ ¬ Guarded NoErrorExit tr := by
  obtain ⟨s, hs, hb⟩ := exec_refusedVisitor
  obtain ⟨tr, r⟩ := run_exec (M := dataChannel 1 1) (.start rfl) hs
  exact ⟨_, s, r, fun hg => not_entriesAlive hb ((entriesAlive_iff r).mpr hg).1⟩

/-- A finished forwarder stays finished. -/
theorem finished_step {s s' : State down up} {a : Action} {f : Nat}
    (hph : s.phaseOf f = some .finished) (h : step s a = some s') :
    s'.phaseOf f = some .finished := by
  obtain ⟨u, hu, hfin⟩ := Option.map_eq_some_iff.mp hph
  have hlt : f < s.forwarders.length := (List.getElem?_eq_some_iff.mp hu).1
  cases a with
  | loop b =>
      cases loop_cases h with
      | connected p hl hw =>
          show ((s.forwarders ++ [_])[f]?).map _ = _
          rw [getElem?_spawn, if_neg (by omega)]
          exact hph
      | send p g m w q hl hf hw hq =>
          have hfg : f ≠ g := by
            intro e
            subst e
            rw [hf] at hu
            cases hu
            exact hw hfin
          show ((s.forwarders.set g _)[f]?).map _ = _
          rw [getElem?_set_forwarder hf, if_neg hfg]
          exact hph
      | _ => exact hph
  | forwarder g b =>
      obtain ⟨w, hw, h'⟩ := forwarder_cases h
      have hfg : f ≠ g := by
        intro e
        subst e
        rw [hw] at hu
        cases hu
        -- a finished forwarder has no step
        cases h' <;> simp_all
      rw [State.phaseOf, forwarderStep_other hw h' hfg]
      exact hph
  | writer b => cases writer_cases h <;> exact hph
  | server b => cases server_cases h <;> exact hph

/-- No step removes or replaces an entry whose forwarder has finished. -/
theorem BlackHole.step {s s' : State down up} {a : Action} (hI : PortMapInv s)
    {v : SocketAddr} (hb : BlackHole s v) (h : step s a = some s') : BlackHole s' v := by
  obtain ⟨f, hm, hph⟩ := hb
  refine ⟨f, ?_, finished_step hph h⟩
  cases a with
  | loop b =>
      cases loop_cases h with
      | connected p hl hw =>
          have hne : v ≠ p.from_ := by
            intro e
            have hnone := hI.absent p (Or.inr hl)
            rw [← e, hm] at hnone
            cases hnone
          exact (Function.update_of_ne hne ..).trans hm
      | _ => exact hm
  | forwarder g b =>
      obtain ⟨w, hw, h'⟩ := forwarder_cases h
      cases h' with
      | cleanUp hp hwait =>
          have ho := hI.owned g w hw (by simp [hp])
          have hne : v ≠ w.from_ := by
            intro e
            rw [← e, hm] at ho
            cases ho
            rw [State.phaseOf, hw] at hph
            have hfin : w.phase = .finished := Option.some.inj hph
            rw [hp] at hfin
            cases hfin
          exact (Function.update_of_ne hne ..).trans hm
      | _ => exact hm
  | writer b => cases writer_cases h <;> exact hm
  | server b => cases server_cases h <;> exact hm

/-- **A lost visitor stays lost**, whatever the tasks do from there. -/
theorem blackHole_forever {s s' : State down up} (hI : PortMapInv s) {v : SocketAddr}
    (hb : BlackHole s v) (h : (dataChannel down up).Leads s s') : BlackHole s' v := by
  have hinv : PortMapInv s' ∧ BlackHole s' v :=
    h.inv (I := fun t => PortMapInv t ∧ BlackHole t v)
      (fun t a t' hI ha => ⟨portMapInv_step (a := a) hI.1 ha, BlackHole.step (a := a) hI.1 hI.2 ha⟩)
      ⟨hI, hb⟩
  exact hinv.2

end Penetrate.Client
