/-
  File:      Penetrate/Client/PortMapLock.lean
  Subject:   WHEN THE `port_map` LOCK WEDGES THE UDP DATA CHANNEL.

  Two waits of the loop, each with the exact condition under which no run reaches it.

  * `SelfDeadlock`: the loop asks for its second read guard while the first one is still alive
    (the address was known, so `drop(m)` was skipped) and a forwarder waits for the write guard.
    The write waits for the first guard, the second read queues behind the write, and no step of
    any task ever changes that (`selfDeadlock_forever`). `selfDeadlock_iff` gives the condition.
  * A full inbound queue: the loop sends under its read guard while the forwarder of that queue
    has left its loop and waits for the write guard, its receiver still open.
    `queueServed_iff` gives the condition.
-/
import Penetrate.Client.PortMap

namespace Penetrate.Client

open Concurrent Machine

variable {down up : Nat}

/-! ## 1. The loop against its own guard -/

/-- The loop waits for a `port_map` guard behind a request that waits for a guard of the loop. -/
def SelfDeadlock (s : State down up) : Prop := s.lock.BlockedBySelf .main

/-- When the loop asks for the second guard with the first one alive, no forwarder waits for the
    write guard. -/
def RecheckUncontended (s : State down up) (a : Action) : Prop :=
  a = .loop .requestRecheck → ∀ p, s.loop = .recheck p true → s.lock.writerWaits = false

/-- Everywhere but at the second read with the first guard alive, the loop is in nobody's way. -/
theorem not_selfDeadlock {s : State down up} (hI : PortMapInv s)
    (h : ∀ p, s.loop ≠ .awaitRecheck p true) : ¬ SelfDeadlock s := by
  have hg := hI.loop
  unfold SelfDeadlock
  cases hl : s.loop with
  | awaitRead p =>
      rw [hl] at hg
      exact RwLock.not_blockedBySelf_of_asked hg
  | awaitWrite p =>
      rw [hl] at hg
      exact RwLock.not_blockedBySelf_of_asked hg
  | awaitRecheck p m =>
      cases m with
      | true => exact absurd hl (h p)
      | false =>
          rw [hl] at hg
          exact RwLock.not_blockedBySelf_of_asked hg
  | reading => rw [hl] at hg; exact RwLock.not_blockedBySelf_of_idle hg
  | received p => rw [hl] at hg; exact RwLock.not_blockedBySelf_of_idle hg
  | absent p => rw [hl] at hg; exact RwLock.not_blockedBySelf_of_idle hg
  | recheck p m => rw [hl] at hg; exact RwLock.not_blockedBySelf_of_idle hg
  | sending p f m => rw [hl] at hg; exact RwLock.not_blockedBySelf_of_idle hg
  | finished => rw [hl] at hg; exact RwLock.not_blockedBySelf_of_idle hg

/-- A step of another task than the loop does to the lock at most one request or one release of a
    forwarder, and leaves the loop where it is. -/
theorem other_lock {s s' : State down up} {a : Action} (ha : ∀ b, a ≠ .loop b)
    (h : step s a = some s') : s'.loop = s.loop ∧ (s'.lock = s.lock ∨
      (∃ f, s'.lock = s.lock.request (.forwarder f) .write) ∨
      ∃ f, s'.lock = s.lock.release (.forwarder f) .write) := by
  cases a with
  | loop b => exact absurd rfl (ha b)
  | forwarder f b =>
      obtain ⟨w, -, h'⟩ := forwarder_cases h
      cases h' with
      | requestWrite => exact ⟨rfl, Or.inr (Or.inl ⟨f, rfl⟩)⟩
      | cleanUp => exact ⟨rfl, Or.inr (Or.inr ⟨f, rfl⟩)⟩
      | _ => exact ⟨rfl, Or.inl rfl⟩
  | writer b => cases writer_cases h <;> exact ⟨rfl, Or.inl rfl⟩
  | server b => cases server_cases h <;> exact ⟨rfl, Or.inl rfl⟩

theorem idle_other {s s' : State down up} {a : Action} (ha : ∀ b, a ≠ .loop b)
    (h : step s a = some s') {g : List Mode} (hi : s.lock.Idle .main g) : s'.lock.Idle .main g := by
  rcases (other_lock ha h).2 with e | ⟨f, e⟩ | ⟨f, e⟩
  · rw [e]
    exact hi
  · rw [e]
    exact hi.request_other .write (by simp)
  · rw [e]
    exact hi.release_other .write (by simp)

/-- **What one step does to the self-deadlock**: only the second read with the first guard alive
    can enter it, and it does precisely when a writer waits. -/
theorem selfDeadlock_step {s s' : State down up} {a : Action} (hI : PortMapInv s)
    (hP : ¬ SelfDeadlock s) (h : step s a = some s') :
    ¬ SelfDeadlock s' ↔ RecheckUncontended s a := by
  have hI' := portMapInv_step hI h
  by_cases ha : ∀ b, a ≠ .loop b
  · refine iff_of_true ?_ fun e => absurd e (ha _)
    have hl' := (other_lock ha h).1
    by_cases hl : ∃ p, s.loop = .awaitRecheck p true
    · obtain ⟨p, hl⟩ := hl
      have hg := hI.loop
      rw [hl] at hg
      have hidle := RwLock.Asked.granted_of_not_blocked hg hP
      exact RwLock.not_blockedBySelf_of_idle (idle_other ha h hidle)
    · refine not_selfDeadlock hI' fun p e => hl ⟨p, ?_⟩
      rw [← hl', e]
  · have hb : ∃ b, a = .loop b := by
      refine Classical.byContradiction fun hn => ha fun b e => hn ⟨b, e⟩
    obtain ⟨b, rfl⟩ := hb
    have hc := loop_cases h
    cases hc with
    | requestRecheck p m hl =>
        cases m with
        | true =>
            have hg := hI.loop
            rw [hl] at hg
            have hiff := RwLock.blockedBySelf_request_read hg
            constructor
            · intro hn _ p' _
              have hn' : ¬ (s.lock.request .main .read).BlockedBySelf .main := hn
              rw [hiff] at hn'
              simpa using hn'
            · intro hok hb
              have hw := hiff.mp hb
              rw [hok rfl p hl] at hw
              cases hw
        | false =>
            refine iff_of_true (not_selfDeadlock hI' (by simp)) ?_
            intro _ p' hp'
            rw [hl] at hp'
            cases hp'
    | _ =>
        refine iff_of_true (not_selfDeadlock hI' ?_) (by intro e; cases e)
        intro p e
        simp_all

/-- No step of any task ends a self-deadlock. -/
theorem SelfDeadlock.step {s s' : State down up} {a : Action} (hI : PortMapInv s)
    (hP : SelfDeadlock s) (h : step s a = some s') : SelfDeadlock s' ∧ s'.loop = s.loop := by
  by_cases ha : ∀ b, a ≠ .loop b
  · obtain ⟨hl, hk⟩ := other_lock ha h
    refine ⟨?_, hl⟩
    unfold SelfDeadlock at hP ⊢
    rcases hk with e | ⟨f, e⟩ | ⟨f, e⟩
    · rw [e]
      exact hP
    · rw [e]
      exact hP.request _ _
    · rw [e]
      exact hP.release (by simp) _
  · -- the loop itself has no step: it waits for the guard
    exfalso
    have hw : s.lock.waiting .main ≠ [] := hP.1
    have hg := hI.loop
    have hb : ∃ b, a = .loop b := by
      refine Classical.byContradiction fun hn => ha fun b e => hn ⟨b, e⟩
    obtain ⟨b, rfl⟩ := hb
    have hc := loop_cases h
    cases hc with
    | checkAbsent p hl hw' => exact hw hw'
    | checkPresent p f hl hw' => exact hw hw'
    | connected p hl hw' => exact hw hw'
    | connectError p hl hw' => exact hw hw'
    | lookupFound p m f hl hw' => exact hw hw'
    | lookupMissing p m hl hw' => exact hw hw'
    | readPacket p q hl => rw [hl] at hg; exact hw hg.2
    | readError hl => rw [hl] at hg; exact hw hg.2
    | requestRead p hl => rw [hl] at hg; exact hw hg.2
    | requestWrite p hl => rw [hl] at hg; exact hw hg.2
    | requestRecheck p m hl => rw [hl] at hg; exact hw hg.2
    | sendClosed p f m w hl => rw [hl] at hg; exact hw hg.2
    | send p f m w q hl => rw [hl] at hg; exact hw hg.2

/-- **The guard is never granted**: wherever the tasks go from there, the loop still waits. -/
theorem selfDeadlock_forever {s s' : State down up} (hI : PortMapInv s) (hP : SelfDeadlock s)
    (h : (dataChannel down up).Leads s s') : SelfDeadlock s' ∧ s'.loop = s.loop := by
  have hinv : PortMapInv s' ∧ SelfDeadlock s' ∧ s'.loop = s.loop := by
    refine h.inv (I := fun t => PortMapInv t ∧ SelfDeadlock t ∧ t.loop = s.loop)
      (fun t a t' hI ha => ?_) ⟨hI, hP, rfl⟩
    obtain ⟨hd, hl⟩ := SelfDeadlock.step (a := a) hI.1 hI.2.1 ha
    exact ⟨portMapInv_step (a := a) hI.1 ha, hd, hl.trans hI.2.2⟩
  exact hinv.2

/-- **No run deadlocks on the loop's own guard, precisely when no second read of a known address
    finds a waiting writer.** -/
theorem selfDeadlock_iff {tr : List (State down up × Action)} {s : State down up}
    (r : (dataChannel down up).Run tr s) :
    Throughout (fun s => ¬ SelfDeadlock s) tr s ↔ Guarded RecheckUncontended tr := by
  refine r.throughout_iff (I := PortMapInv) (fun s h => ?_) (fun s a s' hI h => ?_)
    fun s a s' hI hP h => ?_
  · rw [show s = initial down up from h]
    exact ⟨portMapInv_initial, not_selfDeadlock portMapInv_initial (by simp [initial])⟩
  · exact portMapInv_step (a := a) hI h
  · exact selfDeadlock_step (a := a) hI hP h

/-- Two visitors and one datagram of each. -/
def packetA : UdpTraffic := ⟨.v4 0x0a000001#32 1000, [1]⟩
def packetB : UdpTraffic := ⟨.v4 0x0a000002#32 2000, [2]⟩

/-- The first packet of a visitor, up to its forwarder `f` having passed it on. -/
def firstPacket (p : UdpTraffic) (f : Nat) : List Action :=
  [.server (.write p), .loop .readPacket, .loop .requestRead, .loop .check, .loop .requestWrite,
    .loop .connected, .loop .requestRecheck, .loop .lookup, .loop .send,
    .forwarder f .recvInbound, .forwarder f .sentLocal]

/-- A later packet of a visitor, up to the check under the first guard. -/
def checkKnown (p : UdpTraffic) : List Action :=
  [.server (.write p), .loop .readPacket, .loop .requestRead, .loop .check]

/-- Visitor `b` falls silent while a packet of visitor `a` is between its two read requests. -/
def silentVisitor : List Action :=
  firstPacket packetA 0 ++ firstPacket packetB 1 ++ checkKnown packetA ++
    [.forwarder 1 .timeout, .forwarder 1 .requestWrite, .loop .requestRecheck]

theorem exec_silentVisitor :
    ∃ s, (dataChannel 1 1).exec (initial 1 1) silentVisitor = some s ∧ SelfDeadlock s :=
  ⟨_, rfl, by unfold SelfDeadlock; decide⟩

/-- **The loop does deadlock on its own guard**: the claim that no run does is false. -/
theorem loop_deadlocks_on_own_guard :
    ¬ ∀ (down up : Nat) (tr : List (State down up × Action)) (s : State down up),
      (dataChannel down up).Run tr s → ¬ SelfDeadlock s := by
  intro h
  obtain ⟨s, hs, hd⟩ := exec_silentVisitor
  obtain ⟨tr, r⟩ := run_exec (.start rfl) hs
  exact h 1 1 _ s r hd

/-- The condition of `selfDeadlock_iff` fails on that run, as it must. -/
theorem selfDeadlock_iff_silentVisitor :
    ∃ tr s, (dataChannel 1 1).Run tr s ∧ ¬ Guarded RecheckUncontended tr := by
  obtain ⟨s, hs, hd⟩ := exec_silentVisitor
  obtain ⟨tr, r⟩ := run_exec (M := dataChannel 1 1) (.start rfl) hs
  exact ⟨_, s, r, fun hg => ((selfDeadlock_iff r).mpr hg).1 hd⟩

/-! ## 2. The loop in a full inbound queue -/

/-- Forwarder `f` is in its select loop or in one of its branches: it will receive again. -/
def CanReceive (s : State down up) (f : Nat) : Prop :=
  s.phaseOf f = some .select ∨ (∃ data, s.phaseOf f = some (.sendingLocal data)) ∨
    ∃ t, s.phaseOf f = some (.sendingOutbound t)

/-- Forwarder `f` has dropped its receiver. -/
def ReceiverDropped (s : State down up) (f : Nat) : Prop := s.phaseOf f = some .finished

/-- Where the loop is blocked in `tx.send`, the forwarder of the queue serves it or is gone. -/
def QueueServed (s : State down up) : Prop :=
  ∀ p f m, s.loop = .sending p f m → InboundFull s f → CanReceive s f ∨ ReceiverDropped s f

/-- Forwarder `f` has left its select loop and still owns its receiver: it waits, or is about to
    wait, for the write guard of `port_map`. -/
def Leaving (s : State down up) (f : Nat) : Prop :=
  s.phaseOf f = some .broken ∨ s.phaseOf f = some .awaitWrite

/-- The loop does not turn to a full queue whose forwarder is leaving, and no forwarder leaves its
    select loop, by a receive error or a timeout, while the loop is in its full queue. -/
def NoLeaveWhileFull (s : State down up) : Action → Prop
  | .loop .lookup => ∀ p m f, s.loop = .awaitRecheck p m → s.portMap p.from_ = some f →
      InboundFull s f → ¬ Leaving s f
  | .forwarder f .recvLocalError => ∀ p m, s.loop = .sending p f m → ¬ InboundFull s f
  | .forwarder f .timeout => ∀ p m, s.loop = .sending p f m → ¬ InboundFull s f
  | _ => True

theorem served_or_leaving {s : State down up} {f : Nat} (hf : InboundFull s f) :
    CanReceive s f ∨ ReceiverDropped s f ↔ ¬ Leaving s f := by
  obtain ⟨w, hw, -⟩ := hf
  have hph : s.phaseOf f = some w.phase := by simp [State.phaseOf, hw]
  unfold CanReceive ReceiverDropped Leaving
  rw [hph]
  cases w.phase <;> simp

/-- In a state where the loop is not in `tx.send` there is nothing to serve. -/
theorem queueServed_of_loop {s : State down up} (h : ∀ p f m, s.loop ≠ .sending p f m) :
    QueueServed s := fun p f m hl => absurd hl (h p f m)

/-- While the loop is in the queue of forwarder `g`, it is `g` alone that has to serve. -/
theorem queueServed_sending {s : State down up} {p : UdpTraffic} {g : Nat} {m : Bool}
    {v : Forwarder} (hs : s.loop = .sending p g m) (hv : s.forwarders[g]? = some v) :
    QueueServed s ↔ (v.inbound.full = true → v.phase ≠ .broken ∧ v.phase ≠ .awaitWrite) := by
  have hph : s.phaseOf g = some v.phase := by simp [State.phaseOf, hv]
  constructor
  · intro hQ hfull
    have hF : InboundFull s g := ⟨v, hv, hfull⟩
    have hn := (served_or_leaving hF).mp (hQ p g m hs hF)
    unfold Leaving at hn
    rw [hph] at hn
    simpa using hn
  · intro hv' p' f' m' e hF
    rw [hs] at e
    obtain ⟨rfl, rfl, rfl⟩ := Loop.sending.inj e
    obtain ⟨v', hv'', hfull⟩ := hF
    rw [hv] at hv''
    cases hv''
    refine (served_or_leaving ⟨v, hv, hfull⟩).mpr ?_
    unfold Leaving
    rw [hph]
    simpa using hv' hfull

/-- A forwarder whose queue the loop is not in changes nothing for the loop. -/
theorem queueServed_other {s s' : State down up} {g : Nat} {w : Forwarder} {a : ForwarderAct}
    (hP : QueueServed s) (hw : s.forwarders[g]? = some w) (h : ForwarderStep s g w a s')
    (hs : ∀ p m, s.loop ≠ .sending p g m) : QueueServed s' := by
  have hl : s'.loop = s.loop := by cases h <;> rfl
  intro p f m e hF
  have hfg : f ≠ g := by
    intro hfg
    subst hfg
    exact hs p m (hl.symm.trans e)
  have he := forwarderStep_other hw h hfg
  have hph : s'.phaseOf f = s.phaseOf f := by
    unfold State.phaseOf
    rw [he]
  have hF' : InboundFull s f := by
    unfold InboundFull at hF ⊢
    rw [← he]
    exact hF
  have hQ := hP p f m (hl.symm.trans e) hF'
  unfold CanReceive ReceiverDropped at hQ ⊢
  rw [hph]
  exact hQ

/-- **What one step of a forwarder does to `QueueServed`**: leaving the select loop while the loop
    is in the full queue breaks it, every other step keeps it. -/
theorem queueServed_forwarder {s s' : State down up} {g : Nat} {w : Forwarder} {a : ForwarderAct}
    (hP : QueueServed s) (hw : s.forwarders[g]? = some w) (h : ForwarderStep s g w a s') :
    QueueServed s' ↔ NoLeaveWhileFull s (.forwarder g a) := by
  by_cases hs : ∃ p m, s.loop = .sending p g m
  · obtain ⟨p, m, hs⟩ := hs
    have hl : s'.loop = .sending p g m := by cases h <;> exact hs
    have hset : ∀ v, (s.forwarders.set g v)[g]? = some v := fun v =>
      (getElem?_set_forwarder hw v g).trans (if_pos rfl)
    have hfull : InboundFull s g ↔ w.inbound.full = true := by
      simp [InboundFull, hw]
    have hserved := (queueServed_sending hs hw).mp hP
    cases h with
    | recvInbound data q hp hq =>
        rw [queueServed_sending hl (hset _)]
        simp [NoLeaveWhileFull]
    | inboundClosed hp he hm =>
        rw [queueServed_sending hl (hset _)]
        simp [NoLeaveWhileFull, Mpsc.full, he, UDP_SEND_Q_SIZE]
    | recvLocalError hp | timeout hp =>
        rw [queueServed_sending hl (hset _)]
        simp [NoLeaveWhileFull, hfull, hs]
    | recvLocal _ _ | sentLocal _ _ | sendLocalError _ _ | outboundClosed _ _ _
    | sendOutbound _ _ _ _ _ | cleanUp _ _ =>
        rw [queueServed_sending hl (hset _)]
        simp [NoLeaveWhileFull]
    | requestWrite hp =>
        rw [queueServed_sending hl (hset _)]
        have hnf : w.inbound.full ≠ true := fun hf => (hserved hf).1 hp
        simp [NoLeaveWhileFull, hnf]
  · have hs' : ∀ p m, s.loop ≠ .sending p g m := fun p m e => hs ⟨p, m, e⟩
    refine iff_of_true (queueServed_other hP hw h hs') ?_
    have hn : ∀ p m, s.loop = .sending p g m → ¬ InboundFull s g :=
      fun p m e => absurd e (hs' p m)
    cases h <;> first | exact hn | trivial

theorem queueServed_step {s s' : State down up} {a : Action} (hP : QueueServed s)
    (h : step s a = some s') : QueueServed s' ↔ NoLeaveWhileFull s a := by
  cases a with
  | loop b =>
      cases loop_cases h with
      | lookupFound p m f hl hw hm =>
          constructor
          · intro hQ p' m' f' hl' hm' hF
            rw [hl] at hl'
            obtain ⟨rfl, rfl⟩ := Loop.awaitRecheck.inj hl'
            rw [hm] at hm'
            cases hm'
            exact (served_or_leaving hF).mp (hQ p f m rfl hF)
          · intro hok p' f' m' e hF
            obtain ⟨rfl, rfl, rfl⟩ := Loop.sending.inj e
            exact (served_or_leaving hF).mpr (hok p m f hl hm hF)
      | lookupMissing p m hl hw hm =>
          refine iff_of_true (queueServed_of_loop (by simp)) ?_
          intro p' m' f' hl' hm'
          rw [hl] at hl'
          obtain ⟨rfl, rfl⟩ := Loop.awaitRecheck.inj hl'
          rw [hm] at hm'
          cases hm'
      | _ => exact iff_of_true (queueServed_of_loop (by simp)) trivial
  | forwarder g b =>
      obtain ⟨w, hw, h'⟩ := forwarder_cases h
      exact queueServed_forwarder hP hw h'
  | writer b => cases writer_cases h <;> exact iff_of_true hP trivial
  | server b => cases server_cases h <;> exact iff_of_true hP trivial

/-- **The loop is never left in a full queue, precisely when no forwarder leaves its select loop
    while the loop is in its full queue, and the loop turns to no full queue that is being left.** -/
theorem queueServed_iff {tr : List (State down up × Action)} {s : State down up}
    (r : (dataChannel down up).Run tr s) :
    Throughout QueueServed tr s ↔ Guarded NoLeaveWhileFull tr := by
  refine r.throughout_iff (I := fun _ => True) (fun s h => ?_) (fun _ _ _ _ _ => trivial)
    fun s a s' _ hP h => queueServed_step (a := a) hP h
  rw [show s = initial down up from h]
  exact ⟨trivial, queueServed_of_loop (by simp [initial])⟩

/-! The run that fills the queue of `packetA`'s forwarder and then lets the forwarder leave. -/

/-- The data channel between two packets of `packetA`'s visitor, with `q` in the queue of its
    forwarder. -/
def loaded (q : Mpsc Bytes UDP_SEND_Q_SIZE) : State 1 1 :=
  { initial 1 1 with
    portMap := Function.update (fun _ => none) packetA.from_ (some 0)
    forwarders := [⟨packetA.from_, q, .select⟩] }

theorem leads_loaded_empty : (dataChannel 1 1).Leads (initial 1 1) (loaded .empty) := by
  refine ⟨firstPacket packetA 0, ?_⟩
  rfl

/-- One more packet of the visitor, its forwarder not scheduled. -/
theorem leads_loaded_send {q q' : Mpsc Bytes UDP_SEND_Q_SIZE} (hq : q.send packetA.data = some q') :
    (dataChannel 1 1).Leads (loaded q) (loaded q') := by
  have h1 : (dataChannel 1 1).exec (loaded q)
      (checkKnown packetA ++ [.loop .requestRecheck, .loop .lookup]) =
      some { loaded q with
        lock := (RwLock.free.request .main .read).request .main .read
        loop := .sending packetA 0 true } := rfl
  refine Leads.trans ⟨_, h1⟩ (Leads.of_step (a := .loop .send) ?_)
  show (q.send packetA.data).map _ = _
  rw [hq]
  rfl

theorem leads_loaded_full :
    ∃ q, q.full = true ∧ (dataChannel 1 1).Leads (initial 1 1) (loaded q) := by
  obtain ⟨q, hf, hl⟩ := Mpsc.leads_full (fun _ _ => leads_loaded_send) .empty
  exact ⟨q, hf, leads_loaded_empty.trans hl⟩

/-- The queue is full, the loop turns to it, and the local service refuses the last datagram. -/
theorem reachable_leaving_full : ∃ s : State 1 1, (dataChannel 1 1).Reachable s ∧
    s.loop = .sending packetA 0 true ∧ InboundFull s 0 ∧ s.phaseOf 0 = some .awaitWrite := by
  obtain ⟨q, hq, hl⟩ := leads_loaded_full
  have h1 : (dataChannel 1 1).exec (loaded q)
      (checkKnown packetA ++ [.loop .requestRecheck, .loop .lookup,
        .forwarder 0 .recvLocalError, .forwarder 0 .requestWrite]) =
      some { loaded q with
        lock := ((RwLock.free.request .main .read).request .main .read).request (.forwarder 0) .write
        forwarders := [⟨packetA.from_, q, .awaitWrite⟩]
        loop := .sending packetA 0 true } := rfl
  exact ⟨_, (Reachable.start rfl).leads (hl.trans ⟨_, h1⟩), rfl, ⟨_, rfl, hq⟩, rfl⟩

/-- **A full queue does wedge the loop**: the claim that its forwarder always serves it, or has
    dropped its receiver, is false. -/
theorem loop_wedged_in_full_queue :
    ¬ ∀ (down up : Nat) (tr : List (State down up × Action)) (s : State down up),
      (dataChannel down up).Run tr s → QueueServed s := by
  intro h
  obtain ⟨s, ⟨tr, r⟩, hl, hF, hph⟩ := reachable_leaving_full
  exact (served_or_leaving hF).mp (h 1 1 tr s r _ _ _ hl hF) (Or.inr hph)

/-- The condition of `queueServed_iff` fails on that run, as it must. -/
theorem queueServed_iff_leaving :
    ∃ tr s, (dataChannel 1 1).Run tr s ∧ ¬ Guarded NoLeaveWhileFull tr := by
  obtain ⟨s, ⟨tr, r⟩, hl, hF, hph⟩ := reachable_leaving_full
  refine ⟨tr, s, r, fun hg => ?_⟩
  exact (served_or_leaving hF).mp (((queueServed_iff r).mpr hg).1 _ _ _ hl hF) (Or.inr hph)

end Penetrate.Client
