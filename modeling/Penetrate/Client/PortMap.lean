/-
  File:      Penetrate/Client/PortMap.lean
  Subject:   THE INVARIANT OF `port_map` AND ITS LOCK on every run of the UDP data channel.

  `PortMapInv` says, at every state of every run: which guards each task holds or has asked for
  (`LoopGuards`, `ForwarderGuards`: read off where the task is suspended); that the address the
  loop is about to insert is absent from the map; that a forwarder which has not finished owns
  the entry of its address; and that every entry was made for its forwarder. The loop checks under
  the read guard and inserts under the write guard; what keeps the map unchanged for that address
  in between is that only the loop inserts. `slots_single_owner` is what follows for the slots.
-/
import Penetrate.Client.Steps

namespace Penetrate.Client

open Concurrent Machine

variable {down up : Nat}

/-! ## 1. Which guards a task has, by where it is suspended -/

def LoopGuards (l : RwLock Task) : Loop → Prop
  | .awaitRead _ => l.Asked .main [] .read
  | .awaitWrite _ => l.Asked .main [] .write
  | .recheck _ m => l.Idle .main (firstGuard m)
  | .awaitRecheck _ m => l.Asked .main (firstGuard m) .read
  | .sending _ _ m => l.Idle .main (.read :: firstGuard m)
  | _ => l.Idle .main []

def ForwarderGuards (l : RwLock Task) (f : Nat) : Option ForwarderPhase → Prop
  | some .awaitWrite => l.Asked (.forwarder f) [] .write
  | _ => l.Idle (.forwarder f) []

/-- Where forwarder `f` is; `none` while it has not been spawned. -/
def State.phaseOf (s : State down up) (f : Nat) : Option ForwarderPhase :=
  (s.forwarders[f]?).map (·.phase)

/-- The loop keeps what it has while another task asks for a guard or drops one. -/
theorem LoopGuards.mono {l l' : RwLock Task} {x : Loop} (h : LoopGuards l x)
    (hu : l.Undisturbed l' .main) : LoopGuards l' x := by
  cases x <;> first | exact hu.1 _ h | exact hu.2 _ _ h

theorem ForwarderGuards.mono {l l' : RwLock Task} {f : Nat} {x : Option ForwarderPhase}
    (h : ForwarderGuards l f x) (hu : l.Undisturbed l' (.forwarder f)) :
    ForwarderGuards l' f x := by
  unfold ForwarderGuards at h ⊢
  split at h
  · exact hu.2 _ _ h
  · exact hu.1 _ h

/-- A phase other than the wait for the write guard holds and asks for nothing. -/
theorem ForwarderGuards.idle {l : RwLock Task} {f : Nat} {x : Option ForwarderPhase}
    (h : ForwarderGuards l f x) (hx : x ≠ some .awaitWrite) : l.Idle (.forwarder f) [] := by
  unfold ForwarderGuards at h
  split at h
  · exact absurd rfl hx
  · exact h

theorem ForwarderGuards.of_idle {l : RwLock Task} {f : Nat} {x : Option ForwarderPhase}
    (h : l.Idle (.forwarder f) []) (hx : x ≠ some .awaitWrite) : ForwarderGuards l f x := by
  unfold ForwarderGuards
  split
  · exact absurd rfl hx
  · exact h

theorem dropGuards_idle {l : RwLock Task} {m : Bool}
    (h : l.Idle .main (.read :: firstGuard m)) : (dropGuards l m).Idle .main [] := by
  cases m with
  | false => exact h.release
  | true => exact (h.release : (l.release .main .read).Idle .main [.read]).release

theorem dropGuards_forwarder {l : RwLock Task} {f : Nat} {x : Option ForwarderPhase} {m : Bool}
    (h : ForwarderGuards l f x) : ForwarderGuards (dropGuards l m) f x := by
  have hne : Task.forwarder f ≠ .main := by simp
  have hu (l : RwLock Task) : l.Undisturbed (l.release .main .read) (.forwarder f) :=
    RwLock.undisturbed_release l .read hne
  cases m with
  | false => exact h.mono (hu l)
  | true => exact (h.mono (hu l)).mono (hu _)

/-! ## 2. The table of forwarders -/

theorem getElem?_set_forwarder {l : List Forwarder} {f : Nat} {w : Forwarder}
    (hf : l[f]? = some w) (v : Forwarder) (g : Nat) :
    (l.set f v)[g]? = if g = f then some v else l[g]? := by
  have hlt : f < l.length := (List.getElem?_eq_some_iff.mp hf).1
  rw [List.getElem?_set]
  by_cases h : f = g
  · subst h
    simp [hlt]
  · rw [if_neg h, if_neg (Ne.symm h)]

theorem getElem?_spawn {l : List Forwarder} (v : Forwarder) (g : Nat) :
    (l ++ [v])[g]? = if g = l.length then some v else l[g]? := by
  by_cases h : g = l.length
  · subst h
    simp
  · rw [if_neg h]
    by_cases hlt : g < l.length
    · rw [List.getElem?_append_left hlt]
    · rw [List.getElem?_eq_none (by simp; omega), List.getElem?_eq_none (by omega)]

theorem phaseOf_toPhase {s : State down up} {f : Nat} {w : Forwarder}
    (hf : s.forwarders[f]? = some w) (ph : ForwarderPhase) (g : Nat) :
    (s.toPhase f w ph).phaseOf g = if g = f then some ph else s.phaseOf g := by
  unfold State.phaseOf State.toPhase
  rw [getElem?_set_forwarder hf]
  split <;> rfl

/-- The inbound queue of forwarder `f` has no permit left. -/
def InboundFull (s : State down up) (f : Nat) : Prop :=
  ∃ w, s.forwarders[f]? = some w ∧ w.inbound.full = true

/-- A step of forwarder `g` leaves the phase and the queue of every other forwarder alone. -/
theorem forwarderStep_other {s s' : State down up} {g : Nat} {w : Forwarder} {a : ForwarderAct}
    (hw : s.forwarders[g]? = some w) (h : ForwarderStep s g w a s') {f : Nat} (hfg : f ≠ g) :
    s'.forwarders[f]? = s.forwarders[f]? := by
  cases h <;>
    exact (getElem?_set_forwarder hw _ f).trans (if_neg hfg)

/-! ## 3. The invariant -/

structure PortMapInv (s : State down up) : Prop where
  loop : LoopGuards s.lock s.loop
  forwarder : ∀ f, ForwarderGuards s.lock f (s.phaseOf f)
  absent : ∀ p, s.loop = .absent p ∨ s.loop = .awaitWrite p → s.portMap p.from_ = none
  owned : ∀ f w, s.forwarders[f]? = some w → w.phase ≠ .finished → s.portMap w.from_ = some f
  owner : ∀ a f, s.portMap a = some f → ∃ w, s.forwarders[f]? = some w ∧ w.from_ = a

theorem portMapInv_initial : PortMapInv (initial down up) where
  loop := RwLock.idle_free _
  forwarder f := RwLock.idle_free _
  absent p h := rfl
  owned f w h := by simp [initial] at h
  owner a f h := by simp [initial] at h

/-- The loop moves and neither the map nor a forwarder changes. -/
theorem PortMapInv.loopMoves {s : State down up} (hI : PortMapInv s) {l : RwLock Task} {x : Loop}
    (hl : LoopGuards l x) (hf : ∀ f, ForwarderGuards l f (s.phaseOf f))
    (ha : ∀ p, x = .absent p ∨ x = .awaitWrite p → s.portMap p.from_ = none) :
    PortMapInv { s with lock := l, loop := x } :=
  ⟨hl, hf, ha, hI.owned, hI.owner⟩

/-- One forwarder changes, its address unchanged, the loop moves, and the map stays. -/
theorem PortMapInv.forwarderMoves {s : State down up} (hI : PortMapInv s) {f : Nat}
    {w v : Forwarder} (hf : s.forwarders[f]? = some w) (hv : v.from_ = w.from_)
    (hp : v.phase ≠ .finished → w.phase ≠ .finished) {l : RwLock Task} {x : Loop}
    (hl : LoopGuards l x)
    (ha : ∀ p, x = .absent p ∨ x = .awaitWrite p → s.portMap p.from_ = none)
    (hg : ∀ g, ForwarderGuards l g (if g = f then some v.phase else s.phaseOf g)) :
    PortMapInv { s with forwarders := s.forwarders.set f v, lock := l, loop := x } := by
  refine ⟨hl, fun g => ?_, ha, fun g u hg' hu => ?_, fun a g hm => ?_⟩
  · have h := hg g
    show ForwarderGuards l g (((s.forwarders.set f v)[g]?).map _)
    rw [getElem?_set_forwarder hf]
    by_cases hgf : g = f
    · rw [if_pos hgf] at h ⊢
      exact h
    · rw [if_neg hgf] at h ⊢
      exact h
  · have hg'' : (s.forwarders.set f v)[g]? = some u := hg'
    rw [getElem?_set_forwarder hf] at hg''
    by_cases hgf : g = f
    · subst hgf
      rw [if_pos rfl] at hg''
      cases hg''
      show s.portMap v.from_ = some g
      rw [hv]
      exact hI.owned g w hf (hp hu)
    · rw [if_neg hgf] at hg''
      exact hI.owned g u hg'' hu
  · obtain ⟨u, hu1, hu2⟩ := hI.owner a g hm
    show ∃ u, (s.forwarders.set f v)[g]? = some u ∧ u.from_ = a
    rw [getElem?_set_forwarder hf]
    by_cases hgf : g = f
    · subst hgf
      rw [hf] at hu1
      cases hu1
      exact ⟨v, if_pos rfl, hv.trans hu2⟩
    · exact ⟨u, by rw [if_neg hgf]; exact hu1, hu2⟩

/-- A forwarder is spawned, and owns the entry of its address. -/
theorem PortMapInv.spawn {s : State down up} (hI : PortMapInv s) {p : UdpTraffic} {m : Bool}
    {l : RwLock Task} (hnone : s.portMap p.from_ = none) (hl : LoopGuards l (.recheck p m))
    (hf : ∀ f, ForwarderGuards l f (s.phaseOf f)) :
    PortMapInv { s with
      portMap := Function.update s.portMap p.from_ (some s.forwarders.length)
      forwarders := s.forwarders ++ [⟨p.from_, .empty, .select⟩]
      lock := l
      loop := .recheck p m } := by
  refine ⟨hl, fun f => ?_, by simp, fun f w hw hw' => ?_, fun a f hm => ?_⟩
  · show ForwarderGuards l f (((s.forwarders ++ [_])[f]?).map _)
    rw [getElem?_spawn]
    by_cases hfe : f = s.forwarders.length
    · subst hfe
      rw [if_pos rfl]
      refine ForwarderGuards.of_idle ((hf _).idle ?_) (by simp)
      simp [State.phaseOf]
    · rw [if_neg hfe]
      exact hf f
  · rw [getElem?_spawn] at hw
    by_cases hfe : f = s.forwarders.length
    · subst hfe
      rw [if_pos rfl] at hw
      cases hw
      exact Function.update_self ..
    · rw [if_neg hfe] at hw
      have ho := hI.owned f w hw hw'
      have hwp : w.from_ ≠ p.from_ := by
        intro e
        rw [e, hnone] at ho
        cases ho
      show Function.update s.portMap p.from_ _ w.from_ = some f
      rw [Function.update_of_ne hwp]
      exact ho
  · show ∃ w, (s.forwarders ++ [_])[f]? = some w ∧ w.from_ = a
    rw [getElem?_spawn]
    have hm' : Function.update s.portMap p.from_ (some s.forwarders.length) a = some f := hm
    by_cases hae : a = p.from_
    · subst hae
      rw [Function.update_self] at hm'
      cases hm'
      exact ⟨_, if_pos rfl, rfl⟩
    · rw [Function.update_of_ne hae] at hm'
      obtain ⟨w, hw1, hw2⟩ := hI.owner a f hm'
      have hlt : f < s.forwarders.length := (List.getElem?_eq_some_iff.mp hw1).1
      exact ⟨w, by rw [if_neg (by omega)]; exact hw1, hw2⟩

theorem portMapInv_loop {s s' : State down up} {a : LoopAct} (hI : PortMapInv s)
    (h : LoopStep s a s') : PortMapInv s' := by
  have hg := hI.loop
  have hreq (f : Nat) (m : Mode) : s.lock.Undisturbed (s.lock.request .main m) (.forwarder f) :=
    RwLock.undisturbed_request _ m (by simp)
  have hrel (f : Nat) (m : Mode) : s.lock.Undisturbed (s.lock.release .main m) (.forwarder f) :=
    RwLock.undisturbed_release _ m (by simp)
  cases h with
  | readPacket p q hl hq =>
      rw [hl] at hg
      exact ⟨hg, hI.forwarder, by simp, hI.owned, hI.owner⟩
  | readError hl =>
      rw [hl] at hg
      exact hI.loopMoves hg hI.forwarder (by simp)
  | requestRead p hl =>
      rw [hl] at hg
      exact hI.loopMoves (RwLock.Idle.request hg _)
        (fun f => (hI.forwarder f).mono (hreq f _)) (by simp)
  | checkAbsent p hl hw hm =>
      rw [hl] at hg
      refine hI.loopMoves (RwLock.Asked.granted hg hw).release
        (fun f => (hI.forwarder f).mono (hrel f _)) ?_
      intro p' hp'
      simp only [Loop.absent.injEq, reduceCtorEq, or_false] at hp'
      rw [← hp']
      exact hm
  | checkPresent p f hl hw hm =>
      rw [hl] at hg
      exact hI.loopMoves (RwLock.Asked.granted hg hw) hI.forwarder (by simp)
  | requestWrite p hl =>
      rw [hl] at hg
      refine hI.loopMoves (RwLock.Idle.request hg _)
        (fun f => (hI.forwarder f).mono (hreq f _)) ?_
      intro p' hp'
      simp only [reduceCtorEq, Loop.awaitWrite.injEq, false_or] at hp'
      rw [← hp']
      exact hI.absent p (Or.inl hl)
  | connected p hl hw =>
      rw [hl] at hg
      exact hI.spawn (hI.absent p (Or.inr hl)) (RwLock.Asked.granted hg hw).release
        fun f => (hI.forwarder f).mono (hrel f .write)
  | connectError p hl hw =>
      rw [hl] at hg
      exact hI.loopMoves (RwLock.Asked.granted hg hw).release
        (fun f => (hI.forwarder f).mono (hrel f _)) (by simp)
  | requestRecheck p m hl =>
      rw [hl] at hg
      exact hI.loopMoves (RwLock.Idle.request hg _)
        (fun f => (hI.forwarder f).mono (hreq f _)) (by simp)
  | lookupFound p m f hl hw hm =>
      rw [hl] at hg
      exact hI.loopMoves (RwLock.Asked.granted hg hw) hI.forwarder (by simp)
  | lookupMissing p m hl hw hm =>
      rw [hl] at hg
      exact hI.loopMoves (dropGuards_idle (RwLock.Asked.granted hg hw))
        (fun f => dropGuards_forwarder (hI.forwarder f)) (by simp)
  | sendClosed p f m w hl hf hw =>
      rw [hl] at hg
      exact hI.loopMoves (dropGuards_idle hg)
        (fun f => dropGuards_forwarder (hI.forwarder f)) (by simp)
  | send p f m w q hl hf hw hq =>
      rw [hl] at hg
      have hph : s.phaseOf f = some w.phase := by simp [State.phaseOf, hf]
      refine hI.forwarderMoves (v := { w with inbound := q }) hf rfl id (dropGuards_idle hg)
        (by simp) fun g => ?_
      have h' := dropGuards_forwarder (m := m) (hI.forwarder g)
      by_cases hgf : g = f
      · subst hgf
        rw [if_pos rfl]
        rw [hph] at h'
        exact h'
      · rw [if_neg hgf]
        exact h'

/-- One forwarder moves between two phases without a guard. -/
theorem PortMapInv.phaseMoves {s : State down up} (hI : PortMapInv s) {f : Nat}
    {w v : Forwarder} (hf : s.forwarders[f]? = some w) (hv : v.from_ = w.from_)
    (hp : w.phase ≠ .finished) (h1 : w.phase ≠ .awaitWrite) (h2 : v.phase ≠ .awaitWrite) :
    PortMapInv { s with forwarders := s.forwarders.set f v } := by
  have hidle : s.lock.Idle (.forwarder f) [] := by
    refine (hI.forwarder f).idle ?_
    simpa [State.phaseOf, hf] using h1
  refine hI.forwarderMoves hf hv (fun _ => hp) hI.loop hI.absent fun g => ?_
  by_cases hgf : g = f
  · subst hgf
    rw [if_pos rfl]
    exact .of_idle hidle (by simpa using h2)
  · rw [if_neg hgf]
    exact hI.forwarder g

/-- A forwarder that has finished removes the entry of its address. -/
theorem PortMapInv.removes {s : State down up} (hI : PortMapInv s) {f : Nat} {a : SocketAddr}
    (ha : s.portMap a = some f) (hf : s.phaseOf f = some .finished) :
    PortMapInv { s with portMap := Function.update s.portMap a none } := by
  refine ⟨hI.loop, hI.forwarder, fun p hp => ?_, fun g v hg hv => ?_, fun b g hm => ?_⟩
  · show Function.update s.portMap a none p.from_ = none
    by_cases he : p.from_ = a
    · rw [he, Function.update_self]
    · rw [Function.update_of_ne he]
      exact hI.absent p hp
  · -- a forwarder that has not finished has another address, or it would own this entry
    have ho := hI.owned g v hg hv
    have hva : v.from_ ≠ a := by
      intro e
      rw [e, ha] at ho
      cases ho
      have hv' : s.phaseOf f = some v.phase := congrArg (Option.map Forwarder.phase) hg
      exact hv (Option.some.inj (hv'.symm.trans hf))
    show Function.update s.portMap a none v.from_ = some g
    rw [Function.update_of_ne hva]
    exact ho
  · have hm' : Function.update s.portMap a none b = some g := hm
    by_cases he : b = a
    · rw [he, Function.update_self] at hm'
      cases hm'
    · rw [Function.update_of_ne he] at hm'
      exact hI.owner b g hm'

theorem portMapInv_forwarder {s s' : State down up} {f : Nat} {w : Forwarder} {a : ForwarderAct}
    (hI : PortMapInv s) (hf : s.forwarders[f]? = some w) (h : ForwarderStep s f w a s') :
    PortMapInv s' := by
  have hne : ∀ g, g ≠ f → Task.forwarder g ≠ .forwarder f := fun g hg e => hg (Task.forwarder.inj e)
  have hph : s.phaseOf f = some w.phase := by simp [State.phaseOf, hf]
  cases h with
  | recvInbound data q hp hq => exact hI.phaseMoves hf rfl (by simp [hp]) (by simp [hp]) (by simp)
  | inboundClosed hp he hm => exact hI.phaseMoves hf rfl (by simp [hp]) (by simp [hp]) (by simp)
  | recvLocal payload hp => exact hI.phaseMoves hf rfl (by simp [hp]) (by simp [hp]) (by simp)
  | recvLocalError hp => exact hI.phaseMoves hf rfl (by simp [hp]) (by simp [hp]) (by simp)
  | timeout hp => exact hI.phaseMoves hf rfl (by simp [hp]) (by simp [hp]) (by simp)
  | sentLocal data hp => exact hI.phaseMoves hf rfl (by simp [hp]) (by simp [hp]) (by simp)
  | sendLocalError data hp => exact hI.phaseMoves hf rfl (by simp [hp]) (by simp [hp]) (by simp)
  | outboundClosed t hp hw => exact hI.phaseMoves hf rfl (by simp [hp]) (by simp [hp]) (by simp)
  | sendOutbound t q hp hw hq =>
      have hI' : PortMapInv (s.toPhase f w .select) :=
        hI.phaseMoves hf rfl (by simp [hp]) (by simp [hp]) (by simp)
      exact ⟨hI'.loop, hI'.forwarder, hI'.absent, hI'.owned, hI'.owner⟩
  | requestWrite hp =>
      refine hI.forwarderMoves (v := { w with phase := .awaitWrite }) hf rfl
        (fun _ => by simp [hp]) (hI.loop.mono (RwLock.undisturbed_request _ _ (by simp))) hI.absent fun g => ?_
      by_cases hgf : g = f
      · subst hgf
        rw [if_pos rfl]
        have hidle := (hI.forwarder g).idle (by rw [hph, hp]; simp)
        exact hidle.request .write
      · rw [if_neg hgf]
        exact (hI.forwarder g).mono (RwLock.undisturbed_request _ _ (hne g hgf))
  | cleanUp hp hw =>
      have hI' : PortMapInv { s.toPhase f w .finished with
          lock := s.lock.release (.forwarder f) .write } := by
        refine hI.forwarderMoves (v := { w with phase := .finished }) hf rfl (by simp)
          (hI.loop.mono (RwLock.undisturbed_release _ _ (by simp))) hI.absent fun g => ?_
        by_cases hgf : g = f
        · subst hgf
          rw [if_pos rfl]
          have ha := hI.forwarder g
          rw [hph, hp] at ha
          exact (RwLock.Asked.granted ha hw).release
        · rw [if_neg hgf]
          exact (hI.forwarder g).mono (RwLock.undisturbed_release _ _ (hne g hgf))
      have how := hI.owned f w hf (by simp [hp])
      have hfin : (s.toPhase f w .finished).phaseOf f = some .finished := by
        rw [phaseOf_toPhase hf, if_pos rfl]
      exact hI'.removes how hfin

theorem portMapInv_step {s s' : State down up} {a : Action} (hI : PortMapInv s)
    (h : step s a = some s') : PortMapInv s' := by
  cases a with
  | loop a => exact portMapInv_loop hI (loop_cases h)
  | forwarder f a =>
      obtain ⟨w, hf, h'⟩ := forwarder_cases h
      exact portMapInv_forwarder hI hf h'
  | writer a =>
      cases writer_cases h <;> exact ⟨hI.loop, hI.forwarder, hI.absent, hI.owned, hI.owner⟩
  | server a =>
      cases server_cases h <;> exact ⟨hI.loop, hI.forwarder, hI.absent, hI.owned, hI.owner⟩

/-- **The invariant on every run.** -/
theorem portMapInv_run {tr : List (State down up × Action)} {s : State down up}
    (r : (dataChannel down up).Run tr s) : PortMapInv s := by
  refine r.invariant (fun s h => ?_) fun s a s' hI h => ?_
  · rw [show s = initial down up from h]
    exact portMapInv_initial
  · exact portMapInv_step (a := a) hI h

/-! ## 4. One owner for each slot -/

/-- The step neither overwrites an entry nor removes one of another forwarder. -/
def KeepsSlots (s : State down up) : Action → Prop
  | .loop .connected => ∀ p, s.loop = .awaitWrite p → s.portMap p.from_ = none
  | .forwarder f .cleanUp => ∀ w, s.forwarders[f]? = some w → s.portMap w.from_ = some f
  | _ => True

/-- A forwarder is reachable under the address it was made for and under no other, and a second
    one for that address has finished. -/
structure SingleOwner (s : State down up) : Prop where
  reachable : ∀ a f, s.portMap a = some f → ∃ w, s.forwarders[f]? = some w ∧ w.from_ = a
  once : ∀ a b f, s.portMap a = some f → s.portMap b = some f → a = b
  running : ∀ (f g : Nat) v w, s.forwarders[f]? = some v → s.forwarders[g]? = some w → v.from_ = w.from_ →
    v.phase ≠ .finished → w.phase ≠ .finished → f = g

theorem PortMapInv.keepsSlots {s s' : State down up} {x : Action} (hI : PortMapInv s)
    (h : step s x = some s') : KeepsSlots s x := by
  cases x with
  | loop x =>
      cases loop_cases h with
      | connected p hl hw => exact fun p' hp' => hI.absent p' (Or.inr hp')
      | _ => trivial
  | forwarder f x =>
      obtain ⟨w, hf, h'⟩ := forwarder_cases h
      cases h' with
      | cleanUp hp hw =>
          intro w' hf'
          cases hf.symm.trans hf'
          exact hI.owned f w hf (by simp [hp])
      | _ => trivial
  | writer x => trivial
  | server x => trivial

theorem PortMapInv.singleOwner {s : State down up} (hI : PortMapInv s) : SingleOwner s where
  reachable := hI.owner
  once a b f ha hb := by
    obtain ⟨v, hv, rfl⟩ := hI.owner a f ha
    obtain ⟨w, hw, rfl⟩ := hI.owner b f hb
    cases hv.symm.trans hw
    rfl
  running f g v w hv hw he hvp hwp := by
    have hf := hI.owned f v hv hvp
    have hg := hI.owned g w hw hwp
    rw [he, hg] at hf
    exact (Option.some.inj hf).symm

/-- **Each slot of the map has a single owner**: no insert finds an entry, every removal takes the
    remover's own entry, and at most one forwarder of an address is reachable. -/
theorem slots_single_owner {tr : List (State down up × Action)} {s : State down up}
    (r : (dataChannel down up).Run tr s) :
    Guarded KeepsSlots tr ∧ Throughout SingleOwner tr s := by
  constructor
  · refine r.guarded (I := PortMapInv) (fun s h => ?_) (fun s x s' hI h => ?_) fun s x s' hI h => ?_
    · rw [show s = initial down up from h]
      exact portMapInv_initial
    · exact portMapInv_step (a := x) hI h
    · exact hI.keepsSlots h
  · refine ⟨(portMapInv_run r).singleOwner, fun p hp => ?_⟩
    obtain ⟨tr', r'⟩ := r.prefix_run hp
    exact (portMapInv_run r').singleOwner

/-- A visitor's forwarder is made, times out and cleans up, and is made again. -/
def returningVisitor (p : UdpTraffic) : List Action :=
  [.server (.write p), .loop .readPacket, .loop .requestRead, .loop .check, .loop .requestWrite,
    .loop .connected, .loop .requestRecheck, .loop .lookup, .loop .send,
    .forwarder 0 .timeout, .forwarder 0 .requestWrite, .forwarder 0 .cleanUp,
    .server (.write p), .loop .readPacket, .loop .requestRead, .loop .check, .loop .requestWrite,
    .loop .connected]

/-- The second forwarder of the address is its only owner. -/
theorem slots_single_owner_returning : ∃ (tr : List (State 1 1 × Action)) (s : State 1 1),
    (dataChannel 1 1).Run tr s ∧ s.forwarders.length = 2 ∧ SingleOwner s := by
  let p : UdpTraffic := ⟨.v4 0x0a000001#32 1000, [1]⟩
  have h : (((dataChannel 1 1).exec (initial 1 1) (returningVisitor p)).map
      fun s => s.forwarders.length) = some 2 := by decide +kernel
  obtain ⟨s, hs, hlen⟩ := Option.map_eq_some_iff.mp h
  obtain ⟨tr, r⟩ := run_exec (M := dataChannel 1 1) (.start rfl) hs
  exact ⟨_, s, r, hlen, (slots_single_owner r).2.1⟩

end Penetrate.Client
