/-
  File:      Penetrate/Server/Table.lean
  Subject:   THE TABLE OF CONTROL CHANNELS AND ITS HANDLES: what one step of the server does to
             them.

  A handle enters the table by a registration and leaves it where it is removed, or with the table.
  Leaving the table is being dropped.

  * `entry_settle`, `entry_endConn` -- the table goes with its last owner;
  * `register_cases` -- a registration;
  * `HandleStep`, `Step.handle` -- what a step does to a handle; `Step.keeps` -- it keeps its service,
    and no step revives it;
  * `Step.entry` -- only an acknowledged handshake adds an entry, `Step.registered` -- and what it
    adds;
  * `TableInv` -- **a handle that has not been dropped is in the table**; `Step.alive` -- only a
    registration brings a new one.
-/
import Penetrate.Server.Connections

namespace Penetrate.Server

open Concurrent Machine

section

variable {digest : Bytes → Digest} {heartbeat_interval : UInt64}

/-! ## 1. Dropping handles -/

theorem getElem?_dropHandle (hs : List Handle) (o : Option Nat) (k : Nat) :
    (dropHandle hs o)[k]? = (hs[k]?).map fun x => if o = some k then x.dropped else x := by
  cases o with
  | none => simp [dropHandle]
  | some h =>
      unfold dropHandle
      rw [List.getElem?_modify]
      by_cases e : h = k <;> simp [e]

theorem getElem?_dropHandles (hs : List Handle) (l : List Nat) (k : Nat) :
    (l.foldl (fun hs h => dropHandle hs (some h)) hs)[k]? =
      (hs[k]?).map fun x => if k ∈ l then x.dropped else x := by
  induction l generalizing hs with
  | nil => simp
  | cons h l ih =>
      rw [List.foldl_cons, ih, getElem?_dropHandle]
      cases hs[k]? with
      | none => rfl
      | some x =>
          by_cases e : h = k
          · subst e
            by_cases hl : h ∈ l <;> simp [hl, Handle.dropped]
          · simp [e, Ne.symm e]

section Settle

variable (s : State)

@[simp] theorem settle_services : s.settle.services = s.services := by
  unfold State.settle
  split <;> rfl

@[simp] theorem settle_servicesLock : s.settle.servicesLock = s.servicesLock := by
  unfold State.settle
  split <;> rfl

@[simp] theorem settle_channelsLock : s.settle.channelsLock = s.channelsLock := by
  unfold State.settle
  split <;> rfl

@[simp] theorem settle_main : s.settle.main = s.main := by
  unfold State.settle
  split <;> rfl

@[simp] theorem settle_conns : s.settle.conns = s.conns := by
  unfold State.settle
  split <;> rfl

variable {s}

/-- **The table that is settled has its entries as long as somebody owns it.** -/
theorem entry_settle {d : ServiceDigest} {k : Nonce} {h : Nat} :
    s.settle.control_channels.Entry d k h ↔
      s.owned = true ∧ s.control_channels.Entry d k h := by
  unfold State.settle
  split
  · rename_i ho
    simp [ho]
  · rename_i ho
    exact iff_of_false (MultiMap.not_entry_new d k h) fun h => ho h.1

theorem getElem?_settle (k : Nat) : s.settle.handles[k]? = (s.handles[k]?).map fun x =>
    if s.owned = false ∧ k ∈ s.control_channels.drain then x.dropped else x := by
  unfold State.settle
  split
  · rename_i ho
    simp [ho]
  · rename_i ho
    rw [getElem?_dropHandles]
    simp [ho]

end Settle

section EndConn

variable {s : State} {n : Nat} {c : Conn}

@[simp] theorem endConn_services : (s.endConn n c).services = s.services := settle_services _

@[simp] theorem endConn_servicesLock : (s.endConn n c).servicesLock = s.servicesLock :=
  settle_servicesLock _

@[simp] theorem endConn_channelsLock : (s.endConn n c).channelsLock = s.channelsLock :=
  settle_channelsLock _

@[simp] theorem endConn_main : (s.endConn n c).main = s.main := settle_main _

@[simp] theorem endConn_conns :
    (s.endConn n c).conns = s.conns.set n { c with phase := .ended } := settle_conns _

/-- Somebody else owns the table too. -/
def State.ownedWithout (s : State) (n : Nat) : Bool := (s.setConn n ⟨.ended, 0⟩).owned

/-- Ownership is a matter of the phases alone. -/
theorem owned_setConn_ended : (s.setConn n { c with phase := .ended }).owned = s.ownedWithout n := by
  have hany (x : Conn) : ((s.conns.set n x).any fun c => c.phase ≠ .ended) =
      ((s.conns.map fun c => decide (c.phase ≠ .ended)).set n (x.phase ≠ .ended)).any id := by
    rw [← List.map_set, List.any_map]
    rfl
  unfold State.ownedWithout State.owned State.setConn
  simp only [hany]

theorem entry_endConn {d : ServiceDigest} {k : Nonce} {h : Nat} :
    (s.endConn n c).control_channels.Entry d k h ↔
      s.ownedWithout n = true ∧ s.control_channels.Entry d k h := by
  unfold State.endConn
  rw [entry_settle, owned_setConn_ended]
  rfl

theorem getElem?_endConn (k : Nat) : (s.endConn n c).handles[k]? = (s.handles[k]?).map fun x =>
    if s.ownedWithout n = false ∧ k ∈ s.control_channels.drain then x.dropped else x := by
  unfold State.endConn
  rw [getElem?_settle, owned_setConn_ended]
  rfl

end EndConn

/-! ## 2. A registration -/

variable (heartbeat_interval) in
/-- **A registration**: the new handle is in the table, or the table refused it and it is
    dropped. -/
theorem register_cases (s : State) (d : ServiceDigest) (cfg : ServerServiceConfig) (k : Digest) :
    ∃ x : Handle, x.service = cfg ∧
      (s.register heartbeat_interval d cfg k).handles = s.handles ++ [x] ∧
      ((s.control_channels.Vacant d k ∧ x.state.handle = true ∧
          ∀ a b h, (s.register heartbeat_interval d cfg k).control_channels.Entry a b h ↔
            (a, b, h) = (d, k, s.handles.length) ∨ s.control_channels.Entry a b h) ∨
        (¬ s.control_channels.Vacant d k ∧ x.state.handle = false ∧
          (s.register heartbeat_interval d cfg k).control_channels = s.control_channels)) := by
  unfold State.register
  rcases s.control_channels.insert_cases d k s.handles.length with ⟨he, hv⟩ | ⟨m, hm, hv, hE⟩
  · rw [he]
    exact ⟨_, rfl, rfl, Or.inr ⟨hv, rfl, rfl⟩⟩
  · rw [hm]
    exact ⟨_, rfl, rfl, Or.inl ⟨hv, rfl, hE⟩⟩

@[simp] theorem register_services (s : State) (d : ServiceDigest) (cfg : ServerServiceConfig)
    (k : Digest) : (s.register heartbeat_interval d cfg k).services = s.services := by
  unfold State.register
  split <;> rfl

@[simp] theorem register_main (s : State) (d : ServiceDigest) (cfg : ServerServiceConfig)
    (k : Digest) : (s.register heartbeat_interval d cfg k).main = s.main := by
  unfold State.register
  split <;> rfl

@[simp] theorem register_conns (s : State) (d : ServiceDigest) (cfg : ServerServiceConfig)
    (k : Digest) : (s.register heartbeat_interval d cfg k).conns = s.conns := by
  unfold State.register
  split <;> rfl

/-! ## 3. The handles -/

/-- Handle `k` is `x`, unless it has been dropped. -/
def HasHandle (hs : List Handle) (k : Nat) (x : Handle) : Prop :=
  hs[k]? = some x ∨ hs[k]? = some x.dropped

theorem hasHandle_dropped {hs hs' : List Handle} {p : Prop} [Decidable p] {k : Nat} {x : Handle}
    (h : HasHandle hs k x)
    (he : hs'[k]? = (hs[k]?).map fun x => if p then x.dropped else x) : HasHandle hs' k x := by
  unfold HasHandle at h ⊢
  rw [he]
  by_cases hp : p
  · refine Or.inr ?_
    rcases h with h | h <;> simp [h, hp, Handle.dropped]
  · rcases h with h | h <;> simp [h, hp]

theorem HasHandle.dropHandle {hs : List Handle} {k : Nat} {x : Handle} (h : HasHandle hs k x)
    (o : Option Nat) : HasHandle (dropHandle hs o) k x :=
  hasHandle_dropped h (getElem?_dropHandle hs o k)

theorem HasHandle.settle {s : State} {k : Nat} {x : Handle} (h : HasHandle s.handles k x) :
    HasHandle s.settle.handles k x := hasHandle_dropped h (getElem?_settle k)

theorem HasHandle.endConn {s : State} {n : Nat} {c : Conn} {k : Nat} {x : Handle}
    (h : HasHandle s.handles k x) : HasHandle (s.endConn n c).handles k x :=
  hasHandle_dropped h (getElem?_endConn k)

theorem hasHandle_set_self {hs : List Handle} {k : Nat} {x y : Handle} (hx : hs[k]? = some x) :
    HasHandle (hs.set k y) k y :=
  Or.inl (List.getElem?_set_self (List.getElem?_eq_some_iff.mp hx).1)

theorem hasHandle_set_ne {hs : List Handle} {h k : Nat} {x y : Handle} (hx : hs[k]? = some x)
    (hk : h ≠ k) : HasHandle (hs.set h y) k x := Or.inl ((List.getElem?_set_ne hk).trans hx)

/-- **What one step does to the state `x` of handle `k`**, apart from dropping the handle. -/
inductive HandleStep (s : State) (k : Nat) (x : Service) : Action → Service → Prop where
  | same (a : Action) : HandleStep s k x a x
  | own (sa : ServiceAct) (x' : Service) (ho : sa.own = true) (hs : ServiceStep x sa x') :
      HandleStep s k x (.service k sa) x'
  | found (n : Nat) (x' : Service) (hn : s.someoneSends k = false ∨ x.pool.ended = true)
      (hs : x.sendDataChannel = some x') : HandleStep s k x (.conn n .find) x'
  | sent (n : Nat) (c : Conn) (x' : Service) (hc : s.conns[n]? = some c) (hp : c.phase = .sending k)
      (hs : x.sendDataChannel = some x') : HandleStep s k x (.conn n .send) x'

theorem Step.handle {s s' : State} {a : Action} (hs : Step digest heartbeat_interval s a s') {k : Nat}
    {x : Handle} (hx : s.handles[k]? = some x) :
    ∃ state, HandleStep s k x.state a state ∧ HasHandle s'.handles k { x with state := state } := by
  have h0 : HasHandle s.handles k x := Or.inl hx
  cases hs with
  | main h =>
      refine ⟨x.state, .same _, ?_⟩
      cases h with
      | addTable _ _ _ => exact h0.dropHandle _
      | delTable _ _ _ => exact h0.dropHandle _
      | shutdown _ =>
          apply HasHandle.settle
          exact h0
      | _ => exact h0
  | conn c hc h =>
      rename_i n _
      cases h with
      | ends _ _ _ | endsServices _ _ _ _ | ackError _ _ _ _ | notFound _ _ _ _ =>
          refine ⟨x.state, .same _, ?_⟩
          apply HasHandle.endConn
          exact h0
      | takeTable _ _ _ _ _ => exact ⟨x.state, .same _, h0.dropHandle _⟩
      | ack d cfg i c' _ _ =>
          refine ⟨x.state, .same _, ?_⟩
          obtain ⟨y, _, hh, _⟩ := register_cases heartbeat_interval s d cfg i
          apply HasHandle.endConn
          refine Or.inl ?_
          rw [show State.handles _ = _ from hh,
            List.getElem?_append_left (List.getElem?_eq_some_iff.mp hx).1]
          exact hx
      | findSent _ h y state _ _ _ hy hn hs =>
          by_cases e : h = k
          · subst e
            rw [hx] at hy
            cases hy
            refine ⟨state, .found n state hn hs, ?_⟩
            apply HasHandle.endConn
            exact hasHandle_set_self hx
          · refine ⟨x.state, .same _, ?_⟩
            apply HasHandle.endConn
            exact hasHandle_set_ne hx e
      | send h y state hp hy hs =>
          by_cases e : h = k
          · subst e
            rw [hx] at hy
            cases hy
            refine ⟨state, .sent n c state hc hp hs, ?_⟩
            apply HasHandle.endConn
            exact hasHandle_set_self hx
          · refine ⟨x.state, .same _, ?_⟩
            apply HasHandle.endConn
            exact hasHandle_set_ne hx e
      | _ => exact ⟨x.state, .same _, h0⟩
  | service h sa y state hy ho hs =>
      by_cases e : h = k
      · subst e
        rw [hx] at hy
        cases hy
        exact ⟨state, .own sa state ho hs, hasHandle_set_self hx⟩
      · exact ⟨x.state, .same _, hasHandle_set_ne hx e⟩

/-- Sending a data channel is not dropping the handle. -/
theorem sendDataChannel_handle {s s' : Service} (h : s.sendDataChannel = some s') :
    s'.handle = s.handle := by
  rcases sendDataChannel_cases h with ⟨_, rfl⟩ | ⟨q, _, _, rfl⟩ <;> rfl

/-- The tasks of a service do not drop its handle. -/
theorem own_handle {s s' : Service} {a : ServiceAct} (h : ServiceStep s a s') (ho : a.own = true) :
    s'.handle = s.handle := by
  cases h with
  | control h => cases h <;> rfl
  | listener _ h => cases h <;> rfl
  | tcpPool _ h => cases h <;> rfl
  | udpPool _ h => cases h <;> rfl
  | client _ => cases ho
  | drop _ => cases ho

/-- **No step loses a handle, changes its service or revives it.** -/
theorem Step.keeps {s s' : State} {a : Action} (hs : Step digest heartbeat_interval s a s') {k : Nat}
    {x : Handle} (hx : s.handles[k]? = some x) :
    ∃ x', s'.handles[k]? = some x' ∧ x'.service = x.service ∧
      (x'.state.handle = true → x.state.handle = true) := by
  obtain ⟨state, hst, hh⟩ := hs.handle hx
  have ha : state.handle = x.state.handle := by
    cases hst with
    | same _ => rfl
    | own _ _ ho hs => exact own_handle hs ho
    | found _ _ _ hs => exact sendDataChannel_handle hs
    | sent _ _ _ _ _ hs => exact sendDataChannel_handle hs
  rcases hh with hh | hh
  · exact ⟨_, hh, rfl, fun h => ha.symm.trans h⟩
  · exact ⟨_, hh, rfl, fun h => absurd h Bool.false_ne_true⟩

/-! ## 4. The entries -/

/-- Connection task `n` acknowledges its handshake: the new control channel goes into the table. -/
def Registers (s : State) (n : Nat) (d : ServiceDigest) (cfg : ServerServiceConfig) (k : Digest) :
    Prop :=
  (∃ c, s.conns[n]? = some c ∧ c.phase = .acking d cfg k) ∧ s.control_channels.Vacant d k ∧
    s.ownedWithout n = true

theorem ownedWithout_register (s : State) (n : Nat) (d : ServiceDigest) (cfg : ServerServiceConfig)
    (k : Digest) (l : RwLock Task) :
    ({ s.register heartbeat_interval d cfg k with channelsLock := l } : State).ownedWithout n =
      s.ownedWithout n := by
  unfold State.ownedWithout State.owned State.setConn
  simp only [register_main, register_conns]

/-- **What an acknowledgement does to the table.** -/
theorem entry_ack {s : State} {n : Nat} {c' : Conn} {d a : ServiceDigest} {k b : Nonce}
    {cfg : ServerServiceConfig} {h : Nat} {l : RwLock Task} :
    ({ s.register heartbeat_interval d cfg k with channelsLock := l }.endConn n
        c').control_channels.Entry a b h ↔
      s.ownedWithout n = true ∧ (s.control_channels.Entry a b h ∨
        s.control_channels.Vacant d k ∧ (a, b, h) = (d, k, s.handles.length)) := by
  rw [entry_endConn, ownedWithout_register]
  obtain ⟨x, _, _, ⟨hv, _, hE⟩ | ⟨hv, _, hE⟩⟩ :=
    register_cases heartbeat_interval s d cfg k
  · simp only [hE, hv, true_and]
    tauto
  · simp only [hE, hv, false_and, or_false]

/-- **Only an acknowledgement adds an entry**, and the main task removes the one it reloads. -/
theorem Step.entry {s s' : State} {act : Action} (hs : Step digest heartbeat_interval s act s')
    {a : ServiceDigest} {b : Nonce} {h : Nat} (he : s'.control_channels.Entry a b h) :
    s.control_channels.Entry a b h ∨
      ∃ n cfg, act = .conn n .ack ∧ Registers s n a cfg b ∧ h = s.handles.length := by
  cases hs with
  | main hm =>
      refine Or.inl ?_
      cases hm with
      | addTable _ _ _ => exact (MultiMap.entry_remove1.mp he).2
      | delTable _ _ _ => exact (MultiMap.entry_remove1.mp he).2
      | shutdown _ => exact (entry_settle.mp he).2
      | _ => exact he
  | conn c hc hn =>
      rename_i n _
      cases hn with
      | ends _ _ _ => exact Or.inl (entry_endConn.mp he).2
      | endsServices _ _ _ _ => exact Or.inl (entry_endConn.mp he).2
      | ackError _ _ _ _ => exact Or.inl (entry_endConn.mp he).2
      | notFound _ _ _ _ => exact Or.inl (entry_endConn.mp he).2
      | takeTable _ _ _ _ _ => exact Or.inl (MultiMap.entry_remove1.mp he).2
      | ack d cfg k c' hp _ =>
          obtain ⟨ho, he | ⟨hv, he⟩⟩ := entry_ack.mp he
          · exact Or.inl he
          · cases he
            exact Or.inr ⟨n, cfg, rfl, ⟨⟨c, hc, hp⟩, hv, ho⟩, rfl⟩
      | findSent _ _ _ _ _ _ _ _ _ _ => exact Or.inl (entry_endConn.mp he).2
      | send _ _ _ _ _ _ => exact Or.inl (entry_endConn.mp he).2
      | _ => exact Or.inl he
  | service _ _ _ _ _ _ _ => exact Or.inl he

/-- **A registration puts the new handle into the table**, and it is not dropped. -/
theorem Step.registered {s s' : State} {n : Nat} (hs : Step digest heartbeat_interval s (.conn n .ack) s')
    {d : ServiceDigest} {cfg : ServerServiceConfig} {k : Digest} (hr : Registers s n d cfg k) :
    s'.control_channels.Entry d k s.handles.length ∧ s'.services = s.services ∧ s'.main = s.main ∧
      ∃ x, s'.handles[s.handles.length]? = some x ∧ x.service = cfg ∧ x.state.handle = true := by
  obtain ⟨⟨c, hc, hp⟩, hv, ho⟩ := hr
  cases hs with
  | conn c' hc' hn =>
      rw [hc] at hc'
      cases hc'
      cases hn with
      | ends _ _ hq =>
          rw [hp] at hq
          simp at hq
      | endsServices _ _ hq _ =>
          rw [hp] at hq
          simp at hq
      | ack d' cfg' k' c'' hq _ =>
          rw [hp] at hq
          cases hq
          refine ⟨entry_ack.mpr ⟨ho, Or.inr ⟨hv, rfl⟩⟩, by simp, by simp, ?_⟩
          obtain ⟨x, hx, hh, ⟨_, ha, _⟩ | ⟨hn, _⟩⟩ :=
            register_cases heartbeat_interval s d cfg k
          · refine ⟨x, ?_, hx, ha⟩
            rw [getElem?_endConn, ownedWithout_register, ho]
            simp [hh]
          · exact absurd hv hn

/-! ## 5. Handles and the table -/

/-- A handle that has not been dropped is in the table. -/
def InTable (s : State) : Prop :=
  ∀ (h : Nat) (x : Handle), s.handles[h]? = some x → x.state.handle = true →
    ∃ d k, s.control_channels.Entry d k h

/-- Removing an entry drops its handle. -/
theorem InTable.remove1 {s s' : State} (hI : InTable s) {d : ServiceDigest}
    (ht : s'.control_channels = (s.control_channels.remove1 d).2)
    (hh : s'.handles = dropHandle s.handles (s.control_channels.remove1 d).1) : InTable s' := by
  intro h x' hx' ha
  rw [hh, getElem?_dropHandle] at hx'
  obtain ⟨x, hx, rfl⟩ := Option.map_eq_some_iff.mp hx'
  have hne : ¬ (s.control_channels.remove1 d).1 = some h := by
    intro e
    rw [if_pos e] at ha
    cases ha
  rw [if_neg hne] at ha
  obtain ⟨a, b, he⟩ := hI h x hx ha
  refine ⟨a, b, ?_⟩
  rw [ht]
  refine MultiMap.entry_remove1.mpr ⟨fun e => hne ?_, he⟩
  subst e
  exact MultiMap.remove1_fst.mpr ⟨b, he⟩

/-- The table that goes drops the handles in it. -/
theorem InTable.settle {s : State} (hI : InTable s) : InTable s.settle := by
  intro h x' hx' ha
  rw [getElem?_settle] at hx'
  obtain ⟨x, hx, rfl⟩ := Option.map_eq_some_iff.mp hx'
  have hne : ¬ (s.owned = false ∧ h ∈ s.control_channels.drain) := by
    intro e
    rw [if_pos e] at ha
    cases ha
  rw [if_neg hne] at ha
  obtain ⟨a, b, he⟩ := hI h x hx ha
  refine ⟨a, b, entry_settle.mpr ⟨?_, he⟩⟩
  by_contra ho
  exact hne ⟨Bool.eq_false_iff.mpr ho, MultiMap.mem_drain.mpr ⟨a, b, he⟩⟩

theorem InTable.endConn {s : State} (hI : InTable s) (n : Nat) (c : Conn) : InTable (s.endConn n c) :=
  InTable.settle (s := s.setConn n { c with phase := .ended }) hI

theorem InTable.set {s s' : State} (hI : InTable s) {k : Nat} {x : Handle} {state : Service}
    (hx : s.handles[k]? = some x) (hs : state.handle = x.state.handle)
    (ht : s'.control_channels = s.control_channels)
    (hh : s'.handles = s.handles.set k { x with state := state }) : InTable s' := by
  intro h y hy ha
  rw [ht]
  rw [hh] at hy
  by_cases e : k = h
  · subst e
    rw [List.getElem?_set_self (List.getElem?_eq_some_iff.mp hx).1] at hy
    cases hy
    exact hI k x hx (hs.symm.trans ha)
  · rw [List.getElem?_set_ne e] at hy
    exact hI h y hy ha

/-- A new handle is put into the table, or dropped. -/
theorem InTable.register {s s' : State} (hI : InTable s) {d : ServiceDigest}
    {cfg : ServerServiceConfig} {k : Digest}
    (ht : s'.control_channels = (s.register heartbeat_interval d cfg k).control_channels)
    (hh : s'.handles = (s.register heartbeat_interval d cfg k).handles) : InTable s' := by
  intro h x hx ha
  obtain ⟨y, _, hy, hc⟩ := register_cases heartbeat_interval s d cfg k
  rw [hh, hy] at hx
  rw [ht]
  by_cases hl : h < s.handles.length
  · rw [List.getElem?_append_left hl] at hx
    obtain ⟨a, b, he⟩ := hI h x hx ha
    refine ⟨a, b, ?_⟩
    rcases hc with ⟨_, _, hE⟩ | ⟨_, _, hE⟩
    · exact (hE a b h).mpr (Or.inr he)
    · rw [hE]
      exact he
  · have hlen := (List.getElem?_eq_some_iff.mp hx).1
    rw [List.length_append, List.length_singleton] at hlen
    have e : h = s.handles.length := by omega
    subst e
    rw [List.getElem?_append_right (Nat.le_refl _), Nat.sub_self] at hx
    cases hx
    rcases hc with ⟨_, _, hE⟩ | ⟨_, hd, _⟩
    · exact ⟨d, k, (hE d k _).mpr (Or.inl rfl)⟩
    · rw [hd] at ha
      cases ha

/-- **A handle that has not been dropped is in the table**, whatever step is taken. -/
theorem inTable_step {s s' : State} {a : Action} (hI : InTable s)
    (hs : Step digest heartbeat_interval s a s') : InTable s' := by
  cases hs with
  | main h =>
      cases h with
      | addTable _ _ _ => exact hI.remove1 rfl rfl
      | delTable _ _ _ => exact hI.remove1 rfl rfl
      | shutdown _ => exact InTable.settle (s := { s with main := .stopped }) hI
      | _ => exact hI
  | conn c hc h =>
      cases h with
      | ends _ _ _ => exact hI.endConn _ _
      | endsServices _ _ _ _ | ackError _ _ _ _ | notFound _ _ _ _ =>
          apply InTable.endConn
          exact hI
      | takeTable _ _ _ _ _ => exact hI.remove1 rfl rfl
      | ack d cfg k c' _ _ =>
          apply InTable.endConn
          exact hI.register rfl rfl
      | findSent _ _ x _ _ _ _ hx _ hs =>
          apply InTable.endConn
          exact hI.set hx (sendDataChannel_handle hs) rfl rfl
      | send _ x _ _ hx hs =>
          apply InTable.endConn
          exact hI.set hx (sendDataChannel_handle hs) rfl rfl
      | _ => exact hI
  | service k a x state hx ho hs => exact hI.set hx (own_handle hs ho) rfl rfl

/-- The table and the handles fit together. -/
structure TableInv (s : State) : Prop where
  inTable : InTable s
  bound : ∀ d k h, s.control_channels.Entry d k h → h < s.handles.length

theorem tableInv_initial (config : ServerConfig) : TableInv (initial digest config) where
  inTable h x hx := by cases hx
  bound d k h he := absurd he (MultiMap.not_entry_new d k h)

theorem tableInv_step {s s' : State} {a : Action} (hI : TableInv s)
    (hs : Step digest heartbeat_interval s a s') : TableInv s' where
  inTable := inTable_step hI.inTable hs
  bound d k h he := by
    rcases hs.entry he with he | ⟨n, cfg, rfl, hr, rfl⟩
    · have hl := hI.bound d k h he
      obtain ⟨x, hx, _⟩ := hs.keeps (List.getElem?_eq_getElem hl)
      exact (List.getElem?_eq_some_iff.mp hx).1
    · obtain ⟨_, _, _, x, hx, _⟩ := hs.registered hr
      exact (List.getElem?_eq_some_iff.mp hx).1

/-- **Only a registration brings a handle that has not been dropped.** -/
theorem Step.alive {s s' : State} {a : Action} (hI : TableInv s)
    (hs : Step digest heartbeat_interval s a s') {h : Nat} {x' : Handle} (hx' : s'.handles[h]? = some x')
    (ha : x'.state.handle = true) :
    (∃ x, s.handles[h]? = some x ∧ x.state.handle = true) ∨
      ∃ n d cfg k, a = .conn n .ack ∧ Registers s n d cfg k := by
  by_cases hl : h < s.handles.length
  · obtain ⟨x, hx, _, hal⟩ := hs.keeps (List.getElem?_eq_getElem hl)
    rw [hx'] at hx
    cases hx
    exact Or.inl ⟨_, List.getElem?_eq_getElem hl, hal ha⟩
  · obtain ⟨d, k, he⟩ := (tableInv_step hI hs).inTable h x' hx' ha
    rcases hs.entry he with he | ⟨n, cfg, hact, hr, _⟩
    · exact absurd (hI.bound d k h he) hl
    · exact Or.inr ⟨n, d, cfg, k, hact, hr⟩

end

end Penetrate.Server
