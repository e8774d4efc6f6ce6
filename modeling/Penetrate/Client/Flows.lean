/-
  File:      Penetrate/Client/Flows.lean
  Subject:   THE FLOWS OF THE UDP DATA CHANNEL: every visitor's datagrams stay with that visitor.

  A local socket belongs to one forwarder, and the forwarder to the address it was created for. A
  step may read a packet of the server, send a datagram on a local socket, receive one there, or
  put a reply into the outbound queue; the history of a run lists these in order.

  * `ForwarderStep.inbound`, `.outbound` -- one step of a forwarder, as its two directions see it;
  * `FlowInv` -- **the invariant** of one address: what was sent locally, followed by what is still
    on the way to its forwarder, is a subsequence of what was read for it; likewise the replies;
  * `flows_apart` -- the flows of all addresses on every run, across successive forwarders.
-/
import Penetrate.Client.PortMap

namespace Penetrate.Client

open Concurrent Machine

variable {down up : Nat}

/-! ## 1. What a step does to the datagrams -/

/-- The packet the loop reads from the server. -/
def packetRead (s : State down up) : Action → Option UdpTraffic
  | .loop .readPacket => s.downstream.items.head?
  | _ => none

/-- The datagram a step of forwarder `w` sends on its socket, under the address it serves. -/
def Forwarder.sends (w : Forwarder) : ForwarderAct → Option UdpTraffic
  | .sentLocal => match w.phase with
    | .sendingLocal data => some ⟨w.from_, data⟩
    | _ => none
  | _ => none

/-- The datagram it receives there: what `recv` leaves in the buffer. -/
def Forwarder.receives (w : Forwarder) : ForwarderAct → Option UdpTraffic
  | .recvLocal payload => some ⟨w.from_, payload.take UDP_BUFFER_SIZE⟩
  | _ => none

/-- The reply it puts into the outbound queue. -/
def Forwarder.replies (w : Forwarder) (s : State down up) : ForwarderAct → Option UdpTraffic
  | .sendOutbound => match w.phase with
    | .sendingOutbound t => if s.writer = .ended then none else some t
    | _ => none
  | _ => none

def localSend (s : State down up) : Action → Option UdpTraffic
  | .forwarder f a => (s.forwarders[f]?).bind fun w => w.sends a
  | _ => none

def localReceive (s : State down up) : Action → Option UdpTraffic
  | .forwarder f a => (s.forwarders[f]?).bind fun w => w.receives a
  | _ => none

def outboundPut (s : State down up) : Action → Option UdpTraffic
  | .forwarder f a => (s.forwarders[f]?).bind fun w => w.replies s a
  | _ => none

/-- The payloads of one address, in order. -/
def flow (a : SocketAddr) (l : List UdpTraffic) : List Bytes :=
  (l.filter fun t => t.from_ = a).map (·.data)

@[simp] theorem flow_nil (a : SocketAddr) : flow a [] = [] := rfl

@[simp] theorem flow_append (a : SocketAddr) (l l' : List UdpTraffic) :
    flow a (l ++ l') = flow a l ++ flow a l' := by
  simp [flow]

theorem flow_sublist {a : SocketAddr} {l l' : List UdpTraffic} (h : l.Sublist l') :
    (flow a l).Sublist (flow a l') := (h.filter _).map _

theorem mem_flow {t : UdpTraffic} {l : List UdpTraffic} : t.data ∈ flow t.from_ l ↔ t ∈ l := by
  obtain ⟨a, d⟩ := t
  simp only [flow, List.mem_map, List.mem_filter, decide_eq_true_eq]
  constructor
  · rintro ⟨⟨a', d'⟩, ⟨hm, rfl⟩, rfl⟩
    exact hm
  · intro hm
    exact ⟨_, ⟨hm, rfl⟩, rfl⟩

/-- A step gives nothing to the flow of another address. -/
theorem flow_other {a : SocketAddr} {x : Option UdpTraffic} (h : ∀ t, x = some t → t.from_ ≠ a) :
    flow a x.toList = [] := by
  cases x with
  | none => rfl
  | some t => simp [flow, h t rfl]

theorem flow_self {a : SocketAddr} {x : Option UdpTraffic} (h : ∀ t, x = some t → t.from_ = a) :
    flow a x.toList = (x.map (·.data)).toList := by
  cases x with
  | none => rfl
  | some t => simp [flow, h t rfl]

/-! ## 2. What is on the way -/

/-- What a forwarder still has to send on its socket. Once it has left its loop it sends nothing,
    and its queue is lost. -/
def Forwarder.pending (w : Forwarder) : List Bytes :=
  match w.phase with
  | .select => w.inbound.items
  | .sendingLocal data => data :: w.inbound.items
  | .sendingOutbound _ => w.inbound.items
  | _ => []

/-- The reply it has in hand. -/
def Forwarder.reply (w : Forwarder) : List Bytes :=
  match w.phase with
  | .sendingOutbound t => [t.data]
  | _ => []

/-- The packet the loop has in hand. -/
def Loop.hand : Loop → Option UdpTraffic
  | .received p => some p
  | .awaitRead p => some p
  | .absent p => some p
  | .awaitWrite p => some p
  | .recheck p _ => some p
  | .awaitRecheck p _ => some p
  | .sending p _ _ => some p
  | _ => none

/-- What the forwarder under `a` in the map has; nothing where there is none. -/
def atOwner (m : SocketAddr → Option Nat) (ws : List Forwarder) (a : SocketAddr)
    (g : Forwarder → List Bytes) : List Bytes :=
  match m a with
  | some f => match ws[f]? with
    | some w => g w
    | none => []
  | none => []

theorem atOwner_owned {m : SocketAddr → Option Nat} {ws : List Forwarder} {f : Nat} {w : Forwarder}
    {a : SocketAddr} (ha : m a = some f) (hf : ws[f]? = some w) (g : Forwarder → List Bytes) :
    atOwner m ws a g = g w := by
  simp only [atOwner, ha, hf]

/-- Forwarder `f` changes: so does what is found under its address, and nothing else. -/
theorem atOwner_set {m : SocketAddr → Option Nat} {ws : List Forwarder} {f : Nat} {w : Forwarder}
    (hf : ws[f]? = some w) (ho : m w.from_ = some f) (hu : ∀ a, m a = some f → a = w.from_)
    (v : Forwarder) (a : SocketAddr) (g : Forwarder → List Bytes) :
    atOwner m (ws.set f v) a g = if a = w.from_ then g v else atOwner m ws a g := by
  unfold atOwner
  by_cases ha : a = w.from_
  · subst ha
    simp only [ho, getElem?_set_forwarder hf, if_pos]
  · rw [if_neg ha]
    cases hm : m a with
    | none => rfl
    | some k =>
        have hk : k ≠ f := by
          intro e
          subst e
          exact ha (hu a hm)
        simp only [getElem?_set_forwarder hf, if_neg hk]

/-- Under an address that is dropped from the map nothing is found. -/
theorem atOwner_drop (m : SocketAddr → Option Nat) (ws : List Forwarder) (a b : SocketAddr)
    (g : Forwarder → List Bytes) :
    atOwner (Function.update m b none) ws a g = if a = b then [] else atOwner m ws a g := by
  unfold atOwner
  by_cases ha : a = b
  · subst ha
    simp
  · rw [Function.update_of_ne ha, if_neg ha]

/-- A forwarder that has nothing yet takes an empty place. -/
theorem atOwner_spawn {m : SocketAddr → Option Nat} {ws : List Forwarder} {b : SocketAddr}
    (hb : m b = none) (hm : ∀ a f, m a = some f → f < ws.length) {v : Forwarder}
    {g : Forwarder → List Bytes} (hv : g v = []) (a : SocketAddr) :
    atOwner (Function.update m b (some ws.length)) (ws ++ [v]) a g = atOwner m ws a g := by
  unfold atOwner
  by_cases ha : a = b
  · subst ha
    simp [hb, hv]
  · rw [Function.update_of_ne ha]
    cases hk : m a with
    | none => rfl
    | some k =>
        have hlt := hm a k hk
        simp only [List.getElem?_append_left hlt]

/-- The reply in hand carries the address its forwarder serves. -/
def Forwarder.Tagged (w : Forwarder) : Prop := ∀ t, w.phase = .sendingOutbound t → t.from_ = w.from_

/-- What a step of forwarder `f` does to the flows: it serves the address it served, sends the next
    datagram of its line or loses it, and puts out the reply it has in hand or takes one in. -/
structure Goes (s s' : State down up) (f : Nat) (w v : Forwarder) (a : ForwarderAct) : Prop where
  forwarders : s'.forwarders = s.forwarders.set f v
  loop : s'.loop = s.loop
  alive : w.phase ≠ .finished
  from_ : v.from_ = w.from_
  tagged : w.Tagged → v.Tagged
  portMap : s'.portMap = s.portMap ∨
    v.phase = .finished ∧ s'.portMap = Function.update s.portMap w.from_ none
  inbound : (((w.sends a).map (·.data)).toList ++ v.pending).Sublist w.pending
  outbound : (((w.replies s a).map (·.data)).toList ++ v.reply).Sublist
    (w.reply ++ ((w.receives a).map (·.data)).toList)

/-- The forwarder leaves its loop for good, and loses its line. -/
theorem Goes.leaves {s s' : State down up} {f : Nat} {w : Forwarder} {a : ForwarderAct}
    {ph : ForwarderPhase} (hf : s'.forwarders = s.forwarders.set f { w with phase := ph })
    (hl : s'.loop = s.loop) (hw : w.phase ≠ .finished)
    (hph : ph = .broken ∨ ph = .awaitWrite ∨ ph = .finished)
    (hm : s'.portMap = s.portMap ∨
      ph = .finished ∧ s'.portMap = Function.update s.portMap w.from_ none)
    (hs : w.sends a = none) (hr : w.replies s a = none) :
    Goes s s' f w { w with phase := ph } a where
  forwarders := hf
  loop := hl
  alive := hw
  from_ := rfl
  tagged _ t ht := by
    rcases hph with rfl | rfl | rfl <;> cases ht
  portMap := hm
  inbound := by
    rcases hph with rfl | rfl | rfl <;> simp [hs, Forwarder.pending]
  outbound := by
    rcases hph with rfl | rfl | rfl <;> simp [hr, Forwarder.reply]

/-- **One step of a forwarder, as the flows see it.** -/
theorem ForwarderStep.goes {s s' : State down up} {f : Nat} {w : Forwarder} {a : ForwarderAct}
    (h : ForwarderStep s f w a s') : ∃ v, Goes s s' f w v a := by
  cases h with
  | recvInbound data q hp hq =>
      refine ⟨{ w with inbound := q, phase := .sendingLocal data }, rfl, rfl, by simp [hp], rfl,
        (fun _ t ht => by cases ht), Or.inl rfl, ?_, ?_⟩
      · simp [Forwarder.sends, Forwarder.pending, hp, Mpsc.recv_eq_some hq]
      · simp [Forwarder.replies, Forwarder.receives, Forwarder.reply, hp]
  | sentLocal data hp =>
      refine ⟨{ w with phase := .select }, rfl, rfl, by simp [hp], rfl,
        (fun _ t ht => by cases ht), Or.inl rfl, ?_, ?_⟩
      · simp [Forwarder.sends, Forwarder.pending, hp]
      · simp [Forwarder.replies, Forwarder.receives, Forwarder.reply, hp]
  | recvLocal payload hp =>
      refine ⟨{ w with phase := .sendingOutbound ⟨w.from_, payload.take UDP_BUFFER_SIZE⟩ }, rfl, rfl,
        by simp [hp], rfl, fun _ t ht => ?_, Or.inl rfl, ?_, ?_⟩
      · cases ht
        rfl
      · simp [Forwarder.sends, Forwarder.pending, hp]
      · simp [Forwarder.replies, Forwarder.receives, Forwarder.reply, hp]
  | sendOutbound t q hp hw hq =>
      refine ⟨{ w with phase := .select }, rfl, rfl, by simp [hp], rfl,
        (fun _ t ht => by cases ht), Or.inl rfl, ?_, ?_⟩
      · simp [Forwarder.sends, Forwarder.pending, hp]
      · simp [Forwarder.replies, Forwarder.receives, Forwarder.reply, hp, hw]
  | outboundClosed t hp hw =>
      have hr : w.replies s .sendOutbound = none := by simp [Forwarder.replies, hp, hw]
      exact ⟨_, .leaves rfl rfl (by simp [hp]) (Or.inr (Or.inr rfl)) (Or.inl rfl) rfl hr⟩
  | sendLocalError data hp =>
      exact ⟨_, .leaves rfl rfl (by simp [hp]) (Or.inr (Or.inr rfl)) (Or.inl rfl) rfl rfl⟩
  | cleanUp hp hw =>
      exact ⟨_, .leaves rfl rfl (by simp [hp]) (Or.inr (Or.inr rfl)) (Or.inr ⟨rfl, rfl⟩) rfl rfl⟩
  | requestWrite hp =>
      exact ⟨_, .leaves rfl rfl (by simp [hp]) (Or.inr (Or.inl rfl)) (Or.inl rfl) rfl rfl⟩
  | inboundClosed hp he hm =>
      exact ⟨_, .leaves rfl rfl (by simp [hp]) (Or.inl rfl) (Or.inl rfl) rfl rfl⟩
  | recvLocalError hp =>
      exact ⟨_, .leaves rfl rfl (by simp [hp]) (Or.inl rfl) (Or.inl rfl) rfl rfl⟩
  | timeout hp => exact ⟨_, .leaves rfl rfl (by simp [hp]) (Or.inl rfl) (Or.inl rfl) rfl rfl⟩

/-! ## 3. The invariant -/

/-- The flows of one address: what is out, then what is on the way, never exceeds what came in. -/
structure FlowInv (tr : List (State down up × Action)) (s : State down up) : Prop where
  ports : PortMapInv s
  tagged : ∀ (f : Nat) w, s.forwarders[f]? = some w → w.Tagged
  sending : ∀ p f m, s.loop = .sending p f m → ∃ w, s.forwarders[f]? = some w ∧ w.from_ = p.from_
  inbound : ∀ a, (flow a (history localSend tr) ++
    (atOwner s.portMap s.forwarders a Forwarder.pending ++ flow a s.loop.hand.toList)).Sublist
      (flow a (history packetRead tr))
  outbound : ∀ a, (flow a (history outboundPut tr) ++
    atOwner s.portMap s.forwarders a Forwarder.reply).Sublist (flow a (history localReceive tr))

theorem flowInv_initial : FlowInv [] (initial down up) where
  ports := portMapInv_initial
  tagged f w h := by simp [initial] at h
  sending p f m h := by simp [initial] at h
  inbound a := by simp [initial, atOwner, Loop.hand]
  outbound a := by simp [initial, atOwner]

variable {tr : List (State down up × Action)}

/-- The forwarder that serves an address is the one found under it, and under no other. -/
theorem PortMapInv.found {s : State down up} (hI : PortMapInv s) {f : Nat} {w : Forwarder}
    (hf : s.forwarders[f]? = some w) {a : SocketAddr} (ha : s.portMap a = some f) :
    a = w.from_ := by
  obtain ⟨w', hf', rfl⟩ := hI.owner a f ha
  cases hf.symm.trans hf'
  rfl

/-- A step of the client's reader, writer or server that leaves the map and the forwarders alone. -/
theorem FlowInv.steady {s s' : State down up} {x : Action} (hI : FlowInv tr s)
    (hp : PortMapInv s') (hm : s'.portMap = s.portMap) (hf : s'.forwarders = s.forwarders)
    (hs : localSend s x = none) (hr : outboundPut s x = none) (hl : localReceive s x = none)
    (hsend : ∀ p f m, s'.loop = .sending p f m →
      ∃ w, s.forwarders[f]? = some w ∧ w.from_ = p.from_)
    (hhand : ∀ a, (flow a s'.loop.hand.toList).Sublist
      (flow a s.loop.hand.toList ++ flow a (packetRead s x).toList)) :
    FlowInv ((s, x) :: tr) s' := by
  refine ⟨hp, ?_, ?_, fun a => ?_, fun a => ?_⟩
  · rw [hf]
    exact hI.tagged
  · rw [hf]
    exact hsend
  · have hin := (hI.inbound a).append_right (flow a (packetRead s x).toList)
    rw [history_cons, history_cons, hs, hm, hf, flow_append, flow_append]
    refine .trans ?_ hin
    simp only [Option.toList_none, flow_nil, List.append_nil, List.append_assoc]
    exact ((hhand a).append_left _).append_left _
  · rw [history_cons, history_cons, hr, hl, hm, hf]
    simpa using hI.outbound a

/-- A tagged forwarder takes the place of another. -/
theorem FlowInv.tagged_set (hI : FlowInv tr s) {f : Nat} {w v : Forwarder}
    (hf : s.forwarders[f]? = some w) (hv : v.Tagged) {g : Nat} {u : Forwarder}
    (hg : (s.forwarders.set f v)[g]? = some u) : u.Tagged := by
  rw [getElem?_set_forwarder hf] at hg
  split at hg
  · cases hg
    exact hv
  · exact hI.tagged g u hg

/-- The loop hands its packet over to forwarder `f`, or to nobody. -/
theorem FlowInv.sent {s s' : State down up} (hI : FlowInv tr s) (h : LoopStep s .send s') :
    FlowInv ((s, .loop .send) :: tr) s' := by
  have hp := portMapInv_loop hI.ports h
  cases h with
  | sendClosed p f m w hl hf hw =>
      refine hI.steady hp rfl rfl rfl rfl rfl (fun p f m e => by cases e) fun a => ?_
      simp [Loop.hand]
  | send p f m w q hl hf hw hq =>
      obtain ⟨w', hf', hfrom⟩ := hI.sending p f m hl
      cases hf.symm.trans hf'
      have ho := hI.ports.owned f w hf hw
      have hset := atOwner_set hf ho (fun a => hI.ports.found hf) { w with inbound := q }
      have htag : Forwarder.Tagged { w with inbound := q } := hI.tagged f w hf
      refine ⟨hp, fun g v hg => hI.tagged_set hf htag hg, (fun p f m e => by cases e),
        fun a => ?_, fun a => ?_⟩
      · -- what was in hand is now the last of the line
        have hin := hI.inbound a
        rw [hl] at hin
        rw [history_cons, history_cons]
        simp only [localSend, packetRead, Option.toList_none, List.append_nil, Loop.hand, flow_nil]
          at hin ⊢
        refine .trans ((List.Sublist.refl _).append ?_) hin
        rw [hset a]
        by_cases ha : a = w.from_
        · subst ha
          rw [if_pos rfl]
          rw [atOwner_owned ho hf]
          have hitems := (Mpsc.send_eq_some hq).1
          cases hph : w.phase <;>
            simp [Forwarder.pending, hph, hitems, flow, hfrom, Option.toList]
        · rw [if_neg ha]
          exact List.sublist_append_left _ _
      · have hout := hI.outbound a
        rw [history_cons, history_cons]
        simp only [outboundPut, localReceive, Option.toList_none, List.append_nil]
        rw [hset a]
        by_cases ha : a = w.from_
        · subst ha
          rw [atOwner_owned ho hf] at hout
          rw [if_pos rfl]
          exact hout
        · rw [if_neg ha]
          exact hout

/-- A new forwarder takes the empty place of its address. -/
theorem FlowInv.spawned {s : State down up} (hI : FlowInv tr s) {p : UdpTraffic} {l : RwLock Task}
    (hp : PortMapInv { s with
      portMap := Function.update s.portMap p.from_ (some s.forwarders.length)
      forwarders := s.forwarders ++ [⟨p.from_, .empty, .select⟩]
      lock := l
      loop := .recheck p false }) (hl : s.loop = .awaitWrite p) :
    FlowInv ((s, .loop .connected) :: tr) { s with
      portMap := Function.update s.portMap p.from_ (some s.forwarders.length)
      forwarders := s.forwarders ++ [⟨p.from_, .empty, .select⟩]
      lock := l
      loop := .recheck p false } := by
  have hnone := hI.ports.absent p (Or.inr hl)
  have hlt : ∀ a f, s.portMap a = some f → f < s.forwarders.length := by
    intro a f hm
    obtain ⟨w, hw, -⟩ := hI.ports.owner a f hm
    exact (List.getElem?_eq_some_iff.mp hw).1
  refine ⟨hp, fun f w hw => ?_, (fun p f m e => by cases e), fun a => ?_, fun a => ?_⟩
  · rw [getElem?_spawn] at hw
    split at hw
    · cases hw
      exact fun t ht => by cases ht
    · exact hI.tagged f w hw
  · have hin := hI.inbound a
    rw [hl] at hin
    rw [history_cons, history_cons, atOwner_spawn hnone hlt rfl]
    simpa [localSend, packetRead, Loop.hand] using hin
  · have hout := hI.outbound a
    rw [history_cons, history_cons, atOwner_spawn hnone hlt rfl]
    simpa [outboundPut, localReceive] using hout

theorem flowInv_loop {s s' : State down up} {x : LoopAct} (hI : FlowInv tr s)
    (h : LoopStep s x s') : FlowInv ((s, .loop x) :: tr) s' := by
  have hp := portMapInv_loop hI.ports h
  have hne : ∀ {l : Loop}, (∀ p f m, l ≠ .sending p f m) → ∀ p f m, l = .sending p f m →
      ∃ w, s.forwarders[f]? = some w ∧ w.from_ = p.from_ := fun hl p f m e => absurd e (hl p f m)
  cases h with
  | readPacket p q hl hq =>
      refine hI.steady hp rfl rfl rfl rfl rfl (hne (by simp)) fun a => ?_
      simp [packetRead, Mpsc.recv_eq_some hq, Loop.hand, hl]
  | readError hl =>
      exact hI.steady hp rfl rfl rfl rfl rfl (hne (by simp)) fun a => by simp [Loop.hand]
  | requestRead p hl =>
      refine hI.steady hp rfl rfl rfl rfl rfl (hne (by simp)) fun a => ?_
      simp [packetRead, Loop.hand, hl]
  | checkAbsent p hl hw hm =>
      refine hI.steady hp rfl rfl rfl rfl rfl (hne (by simp)) fun a => ?_
      simp [packetRead, Loop.hand, hl]
  | checkPresent p f hl hw hm =>
      refine hI.steady hp rfl rfl rfl rfl rfl (hne (by simp)) fun a => ?_
      simp [packetRead, Loop.hand, hl]
  | requestWrite p hl =>
      refine hI.steady hp rfl rfl rfl rfl rfl (hne (by simp)) fun a => ?_
      simp [packetRead, Loop.hand, hl]
  | connected p hl hw => exact hI.spawned hp hl
  | connectError p hl hw =>
      refine hI.steady hp rfl rfl rfl rfl rfl (hne (by simp)) fun a => ?_
      simp [packetRead, Loop.hand, hl]
  | requestRecheck p m hl =>
      refine hI.steady hp rfl rfl rfl rfl rfl (hne (by simp)) fun a => ?_
      simp [packetRead, Loop.hand, hl]
  | lookupFound p m f hl hw hm =>
      refine hI.steady hp rfl rfl rfl rfl rfl (fun p' f' m' e => ?_) fun a => ?_
      · cases e
        exact hI.ports.owner p.from_ f hm
      · simp [packetRead, Loop.hand, hl]
  | lookupMissing p m hl hw hm =>
      exact hI.steady hp rfl rfl rfl rfl rfl (hne (by simp)) fun a => by simp [Loop.hand]
  | sendClosed p f m w hl hf hw => exact hI.sent (.sendClosed p f m w hl hf hw)
  | send p f m w q hl hf hw hq => exact hI.sent (.send p f m w q hl hf hw hq)

theorem sends_from {w : Forwarder} {x : ForwarderAct} {t : UdpTraffic} (h : w.sends x = some t) :
    t.from_ = w.from_ := by
  unfold Forwarder.sends at h
  split at h
  · split at h
    · cases h
      rfl
    · cases h
  · cases h

theorem receives_from {w : Forwarder} {x : ForwarderAct} {t : UdpTraffic}
    (h : w.receives x = some t) : t.from_ = w.from_ := by
  unfold Forwarder.receives at h
  split at h
  · cases h
    rfl
  · cases h

theorem replies_from {s : State down up} {w : Forwarder} (hw : w.Tagged) {x : ForwarderAct}
    {t : UdpTraffic} (h : w.replies s x = some t) : t.from_ = w.from_ := by
  unfold Forwarder.replies at h
  split at h
  · split at h
    · rename_i t' ht
      split at h
      · cases h
      · cases h
        exact hw t ht
    · cases h
  · cases h

/-- What a step of forwarder `f` leaves under each address. -/
theorem Goes.atOwner {s s' : State down up} {f : Nat} {w v : Forwarder} {x : ForwarderAct}
    (hg : Goes s s' f w v x) (hI : PortMapInv s) (hf : s.forwarders[f]? = some w) (a : SocketAddr)
    {g : Forwarder → List Bytes} (hfin : v.phase = .finished → g v = []) :
    Client.atOwner s'.portMap s'.forwarders a g =
      if a = w.from_ then g v else Client.atOwner s.portMap s.forwarders a g := by
  have ho := hI.owned f w hf hg.alive
  have hset := atOwner_set hf ho (fun a => hI.found hf) v a g
  rw [hg.forwarders]
  rcases hg.portMap with hm | ⟨hph, hm⟩
  · rw [hm, hset]
  · rw [hm, atOwner_drop, hset, hfin hph]
    split <;> rfl

theorem flowInv_forwarder {s s' : State down up} {f : Nat} {w : Forwarder} {x : ForwarderAct}
    (hI : FlowInv tr s) (hf : s.forwarders[f]? = some w) (h : ForwarderStep s f w x s') :
    FlowInv ((s, .forwarder f x) :: tr) s' := by
  have hp := portMapInv_forwarder hI.ports hf h
  obtain ⟨v, hg⟩ := h.goes
  have ho := hI.ports.owned f w hf hg.alive
  refine ⟨hp, fun k u hu => ?_, fun p k m e => ?_, fun a => ?_, fun a => ?_⟩
  · rw [hg.forwarders] at hu
    exact hI.tagged_set hf (hg.tagged (hI.tagged f w hf)) hu
  · rw [hg.loop] at e
    obtain ⟨u, hu, hu'⟩ := hI.sending p k m e
    rw [hg.forwarders, getElem?_set_forwarder hf]
    by_cases hk : k = f
    · subst hk
      cases hf.symm.trans hu
      exact ⟨v, if_pos rfl, hg.from_.trans hu'⟩
    · exact ⟨u, by rw [if_neg hk]; exact hu, hu'⟩
  · have hin := hI.inbound a
    rw [history_cons, history_cons, hg.loop, hg.atOwner hI.ports hf a fun e => by
      simp [Forwarder.pending, e]]
    simp only [localSend, packetRead, hf, Option.bind_some, Option.toList_none, List.append_nil,
      flow_append]
    by_cases ha : a = w.from_
    · subst ha
      rw [atOwner_owned ho hf] at hin
      rw [if_pos rfl, flow_self fun t => sends_from, List.append_assoc, ← List.append_assoc _ v.pending]
      exact ((hg.inbound.append_right _).append_left _).trans hin
    · rw [if_neg ha, flow_other fun t ht e => ha (e.symm.trans (sends_from ht)), List.append_nil]
      exact hin
  · have hout := hI.outbound a
    have htag := hI.tagged f w hf
    rw [history_cons, history_cons, hg.atOwner hI.ports hf a fun e => by
      simp [Forwarder.reply, e]]
    simp only [outboundPut, localReceive, hf, Option.bind_some, flow_append]
    by_cases ha : a = w.from_
    · subst ha
      rw [atOwner_owned ho hf] at hout
      rw [if_pos rfl, flow_self fun t => replies_from htag, flow_self fun t => receives_from,
        List.append_assoc]
      refine (hg.outbound.append_left _).trans ?_
      rw [← List.append_assoc]
      exact hout.append_right _
    · rw [if_neg ha, flow_other fun t ht e => ha (e.symm.trans (replies_from htag ht)),
        flow_other fun t ht e => ha (e.symm.trans (receives_from ht)), List.append_nil,
        List.append_nil]
      exact hout

theorem flowInv_step {s s' : State down up} {x : Action} (hI : FlowInv tr s)
    (h : step s x = some s') : FlowInv ((s, x) :: tr) s' := by
  have hp := portMapInv_step hI.ports h
  cases x with
  | loop x => exact flowInv_loop hI (loop_cases h)
  | forwarder f x =>
      obtain ⟨w, hf, h'⟩ := forwarder_cases h
      exact flowInv_forwarder hI hf h'
  | writer x =>
      cases writer_cases h <;>
        exact hI.steady hp rfl rfl rfl rfl rfl hI.sending fun a => List.sublist_append_left _ _
  | server x =>
      cases server_cases h <;>
        exact hI.steady hp rfl rfl rfl rfl rfl hI.sending fun a => List.sublist_append_left _ _

/-- **The invariant of the flows on every run.** -/
theorem flowInv_run {s : State down up} (r : (dataChannel down up).Run tr s) : FlowInv tr s := by
  induction r with
  | start h =>
      rw [show _ = initial down up from h]
      exact flowInv_initial
  | step _ h ih => exact flowInv_step ih h

/-! ## 4. The flows are kept apart -/

/-- What is sent locally for an address was read for it, in this order. -/
theorem inbound_apart {s : State down up} (r : (dataChannel down up).Run tr s) (a : SocketAddr) :
    (flow a (history localSend tr)).Sublist (flow a (history packetRead tr)) :=
  (List.sublist_append_left _ _).trans ((flowInv_run r).inbound a)

/-- What is put out under an address was received for it, in this order. -/
theorem outbound_apart {s : State down up} (r : (dataChannel down up).Run tr s) (a : SocketAddr) :
    (flow a (history outboundPut tr)).Sublist (flow a (history localReceive tr)) :=
  (List.sublist_append_left _ _).trans ((flowInv_run r).outbound a)

/-- **Every visitor's datagrams stay with that visitor.** A datagram sent on a socket created for
    `a` is one the server sent for `a`; a reply put out under `a` was received on a socket created
    for `a`; and each of the two flows of `a` keeps its order and repeats nothing, whatever
    forwarders for `a` come and go. -/
theorem flows_apart {s : State down up} (r : (dataChannel down up).Run tr s) :
    (∀ t ∈ history localSend tr, t ∈ history packetRead tr) ∧
      (∀ t ∈ history outboundPut tr, t ∈ history localReceive tr) ∧
      ∀ a, (flow a (history localSend tr)).Sublist (flow a (history packetRead tr)) ∧
        (flow a (history outboundPut tr)).Sublist (flow a (history localReceive tr)) := by
  refine ⟨fun t ht => ?_, fun t ht => ?_, fun a => ⟨inbound_apart r a, outbound_apart r a⟩⟩
  · exact mem_flow.mp ((inbound_apart r t.from_).subset (mem_flow.mpr ht))
  · exact mem_flow.mp ((outbound_apart r t.from_).subset (mem_flow.mpr ht))

/-- A datagram of a visitor. -/
def visitorPacket : UdpTraffic := ⟨.v4 0x0a000001#32 1000, [1]⟩

/-- It goes out on a local socket, and the service's answer into the queue. -/
def servedVisitor : List Action :=
  [.server (.write visitorPacket), .loop .readPacket, .loop .requestRead, .loop .check,
    .loop .requestWrite, .loop .connected, .loop .requestRecheck, .loop .lookup, .loop .send,
    .forwarder 0 .recvInbound, .forwarder 0 .sentLocal, .forwarder 0 (.recvLocal [2]),
    .forwarder 0 .sendOutbound]

/-- On this run both flows carry something. -/
theorem flows_apart_served : ∃ (tr : List (State 1 1 × Action)) (s : State 1 1),
    (dataChannel 1 1).Run tr s ∧ history localSend tr = [visitorPacket] ∧
      visitorPacket ∈ history packetRead tr := by
  have h : ((dataChannel 1 1).exec (initial 1 1) servedVisitor).isSome = true := by decide +kernel
  obtain ⟨s, hs⟩ := Option.isSome_iff_exists.mp h
  have r := run_trace (.start rfl) hs
  have hsent : history localSend ((dataChannel 1 1).trace (initial 1 1) servedVisitor) =
      [visitorPacket] := by decide +kernel
  rw [List.append_nil] at r
  refine ⟨_, s, r, hsent, (flows_apart r).1 _ ?_⟩
  rw [hsent]
  exact List.mem_singleton_self _

end Penetrate.Client
