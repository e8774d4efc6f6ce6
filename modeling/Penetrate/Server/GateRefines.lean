/-
  File:      Penetrate/Server/GateRefines.lean
  Subject:   THE SERVER IS A GATE: `connections` takes only the steps of `gate`.

  Every step of the server is at most two steps of the gate: a look-up of a data channel that is
  sent at once is two, the end of the last owner drops the table with it, and whatever locks, send
  buffers and the tasks of the services do is none.

  * `ServerServiceConfig.secured`, `ConnPhase.gate`, `Shows` -- what the gate sees of the server;
    `State.creates`, `State.passes` -- the handles and the data channels of a run; `Sees` -- what
    they say of the server's handles and their queues;
  * `Shows.main_step`, `Shows.conn_step`, `Shows.step` -- one step; `connections_shown` -- a run;
  * `session_key_secured` -- the client's side of the same computation.
-/
import Penetrate.Server.Gate
import Penetrate.Server.Registration

namespace Penetrate

/-- What a handshake reads of the config of a service. -/
def ServerServiceConfig.secured (cfg : ServerServiceConfig) : Server.Secured UInt8 :=
  ⟨asBytes cfg.name, cfg.token.map asBytes⟩

/-- What a client reads of the config of a service for a handshake. -/
def ClientServiceConfig.secured (cfg : ClientServiceConfig) : Server.Secured UInt8 :=
  ⟨asBytes cfg.name, cfg.token.map asBytes⟩

namespace Server

open Concurrent Machine

/-! ## 1. What the gate sees -/

def ConnPhase.gate : ConnPhase → GatePhase UInt8
  | .readHello => .readHello
  | .sendHello d => .sendHello d
  | .awaitServices d nonce => .lookup d nonce
  | .readAuth d cfg k => .readAuth d cfg.secured k
  | .awaitTable d cfg k => .awaitTable d cfg.secured k
  | .acking d cfg k => .acking d cfg.secured k
  | .awaitFind nonce => .awaitFind nonce
  | .sending h => .sending h
  -- nothing but an error message comes from these
  | .refusing | .authFailed | .ended => .ended

/-- The handle that a step creates. -/
def State.creates (s : State) : Action → Option (Registered UInt8)
  | .conn n .ack => match s.phaseOf n with
    | .acking d cfg k => some ⟨n, d, cfg.secured, k⟩
    | _ => none
  | _ => none

/-- `data_ch_tx.send` of handle `h` returns at once. -/
def State.sendsAtOnce (s : State) (h : Nat) : Bool :=
  s.handles[h]?.any fun x =>
    (!s.someoneSends h || x.state.pool.ended) && x.state.sendDataChannel.isSome

/-- The data channel that a step passes on: its connection, and the handle it is sent to. -/
def State.passes (s : State) : Action → Option (Nat × Nat)
  | .conn n .find => match s.phaseOf n with
    | .awaitFind nonce => (s.control_channels.get2 nonce).bind fun h =>
        if s.sendsAtOnce h then some (n, h) else none
    | _ => none
  | .conn n .send => match s.phaseOf n with
    | .sending h => some (n, h)
    | _ => none
  | _ => none

/-- The connections sent to handle `h`, in their order. -/
def passedTo (passed : List (Nat × Nat)) (h : Nat) : List Nat :=
  (passed.filter fun q => q.2 = h).map Prod.fst

/-- The handles of a server that has created these handles and passed these data channels. -/
structure Sees (created : List (Registered UInt8)) (passed : List (Nat × Nat)) (hs : List Handle) :
    Prop where
  service : created.map Registered.service = hs.map fun x => x.service.secured
  /-- the data channels of a handle are numbered as they are sent to it -/
  opened : ∀ h x, hs[h]? = some x → x.state.opened = (passedTo passed h).length
  /-- its queue has them by their numbers -/
  queue : ∀ h x, hs[h]? = some x → ∀ k ∈ x.state.data_ch.items, k < (passedTo passed h).length
  known : ∀ q ∈ passed, q.2 < hs.length

/-- The gate shows the server, with all handles created and all data channels passed so far. -/
structure Shows (created : List (Registered UInt8)) (passed : List (Nat × Nat)) (s : State)
    (g : Gate UInt8) : Prop where
  services : ∀ d, g.services d = (s.services d).map ServerServiceConfig.secured
  table : g.table = s.control_channels
  conns : g.conns = s.conns.map fun c => c.phase.gate
  /-- each handle with the connection it was created over -/
  handles : g.handles = created
  /-- each data channel with the handle it was sent to -/
  queued : g.queued.reverse = passed
  sees : Sees created passed s.handles

variable {digest : Bytes → Digest} {heartbeat_interval : UInt64}
  {services : Digest → Option (Secured UInt8)} {created : List (Registered UInt8)}
  {passed : List (Nat × Nat)} {s s' : State} {g g' : Gate UInt8} {n : Nat} {c : Conn}
  {hs hs' : List Handle} {x : Handle}

theorem Sees.length (h : Sees created passed hs) : created.length = hs.length := by
  simpa using congrArg List.length h.service

/-- Handles change in nothing that is seen of them, but for what leaves their queues. -/
theorem Sees.congr (h : Sees created passed hs) {f : Nat → Handle → Handle}
    (he : ∀ k, hs'[k]? = (hs[k]?).map (f k))
    (hf : ∀ k x, hs[k]? = some x → (f k x).service = x.service ∧
      (f k x).state.opened = x.state.opened ∧
      ∀ i ∈ (f k x).state.data_ch.items, i ∈ x.state.data_ch.items) : Sees created passed hs' := by
  have hget (k : Nat) (y : Handle) (hy : hs'[k]? = some y) : ∃ x, hs[k]? = some x ∧ f k x = y := by
    rw [he] at hy
    exact Option.map_eq_some_iff.mp hy
  have hservice : (hs'.map fun x => x.service.secured) = hs.map fun x => x.service.secured := by
    apply List.ext_getElem?
    intro k
    rw [List.getElem?_map, List.getElem?_map, he]
    cases hk : hs[k]? with
    | none => rfl
    | some x =>
        have hx : (f k x).service.secured = x.service.secured := by rw [(hf k x hk).1]
        exact congrArg some hx
  refine ⟨h.service.trans hservice.symm, fun k y hy => ?_, fun k y hy i hi => ?_, fun q hq => ?_⟩
  · obtain ⟨x, hx, rfl⟩ := hget k y hy
    exact (hf k x hx).2.1.trans (h.opened k x hx)
  · obtain ⟨x, hx, rfl⟩ := hget k y hy
    exact h.queue k x hx i ((hf k x hx).2.2 i hi)
  · have hlen : hs'.length = hs.length := by simpa using congrArg List.length hservice
    rw [hlen]
    exact h.known q hq

/-- Dropping handles changes nothing that is seen of them. -/
theorem Sees.dropped (h : Sees created passed hs) {o : Nat → Prop} [DecidablePred o]
    (he : ∀ k, hs'[k]? = (hs[k]?).map fun x => if o k then x.dropped else x) :
    Sees created passed hs' := by
  refine h.congr he fun k x _ => ?_
  by_cases hk : o k
  · rw [if_pos hk]
    exact ⟨rfl, rfl, fun _ hi => hi⟩
  · rw [if_neg hk]
    exact ⟨rfl, rfl, fun _ hi => hi⟩

theorem getElem?_set_map {h : Nat} (hx : hs[h]? = some x) (y : Handle) (k : Nat) :
    (hs.set h y)[k]? = (hs[k]?).map fun z => if h = k then y else z := by
  by_cases e : h = k
  · subst e
    rw [List.getElem?_set_self (List.getElem?_eq_some_iff.mp hx).1, hx]
    simp
  · rw [List.getElem?_set_ne e]
    simp [e]

/-- The tasks of a service send no data channel to it; the pool takes them out of the queue. -/
theorem ServiceStep.takes {x x' : Service} {a : ServiceAct} (hs : ServiceStep x a x')
    (ho : a.own = true) :
    x'.opened = x.opened ∧ ∀ i ∈ x'.data_ch.items, i ∈ x.data_ch.items := by
  cases hs with
  | control h | listener _ h => cases h <;> exact ⟨rfl, fun _ hi => hi⟩
  | tcpPool _ h =>
      cases h with
      | recvDataChannel v ch q _ hq =>
          refine ⟨rfl, fun i hi => ?_⟩
          rw [Mpsc.recv_eq_some hq]
          exact List.mem_cons_of_mem _ hi
      | _ => exact ⟨rfl, fun _ hi => hi⟩
  | udpPool _ h =>
      cases h with
      | recvDataChannel ch q _ hq =>
          refine ⟨rfl, fun i hi => ?_⟩
          rw [Mpsc.recv_eq_some hq]
          exact List.mem_cons_of_mem _ hi
      | _ => exact ⟨rfl, fun _ hi => hi⟩
  | client _ | drop _ => cases ho

theorem Sees.own (h : Sees created passed hs) {i : Nat} (hx : hs[i]? = some x) {a : ServiceAct}
    (ho : a.own = true) {state : Service} (hstep : ServiceStep x.state a state) :
    Sees created passed (hs.set i { x with state := state }) := by
  refine h.congr (getElem?_set_map hx _) fun k y hy => ?_
  by_cases e : i = k
  · subst e
    cases hx.symm.trans hy
    rw [if_pos rfl]
    obtain ⟨hopened, hitems⟩ := hstep.takes ho
    exact ⟨rfl, hopened, hitems⟩
  · rw [if_neg e]
    exact ⟨rfl, rfl, fun _ hi => hi⟩

/-- A new handle. -/
theorem Sees.append (h : Sees created passed hs) {r : Registered UInt8}
    (hr : r.service = x.service.secured) (ho : x.state.opened = 0)
    (hq : x.state.data_ch.items = []) : Sees (created ++ [r]) passed (hs ++ [x]) := by
  have hnone : passedTo passed hs.length = [] := by
    unfold passedTo
    rw [List.map_eq_nil_iff, List.filter_eq_nil_iff]
    intro q hq e
    exact absurd (of_decide_eq_true e) (Nat.ne_of_lt (h.known q hq))
  have hget (k : Nat) (y : Handle) (hy : (hs ++ [x])[k]? = some y) :
      hs[k]? = some y ∨ k = hs.length ∧ y = x := by
    rw [List.getElem?_append] at hy
    split at hy
    · exact Or.inl hy
    · rw [List.getElem?_singleton] at hy
      split at hy
      · rename_i hle hz
        cases hy
        exact Or.inr ⟨by omega, rfl⟩
      · cases hy
  refine ⟨?_, fun k y hy => ?_, fun k y hy i hi => ?_, fun q hq => ?_⟩
  · rw [List.map_append, List.map_append, h.service, List.map_singleton, List.map_singleton, hr]
  · rcases hget k y hy with hy | ⟨rfl, rfl⟩
    · exact h.opened k y hy
    · rw [ho, hnone]
      rfl
  · rcases hget k y hy with hy | ⟨rfl, rfl⟩
    · exact h.queue k y hy i hi
    · rw [hq] at hi
      cases hi
  · rw [List.length_append]
    exact Nat.lt_add_right _ (h.known q hq)

theorem passedTo_append (passed : List (Nat × Nat)) (n i h : Nat) :
    passedTo (passed ++ [(n, i)]) h = passedTo passed h ++ if i = h then [n] else [] := by
  unfold passedTo
  rw [List.filter_append, List.map_append]
  by_cases e : i = h <;> simp [e]

/-- Connection `n` is sent to handle `i`, whose pool may have returned. -/
theorem Sees.sent (h : Sees created passed hs) {i : Nat} (hx : hs[i]? = some x) {state : Service}
    (hsend : x.state.sendDataChannel = some state) (n : Nat) :
    Sees created (passed ++ [(n, i)]) (hs.set i { x with state := state }) := by
  have hopened := h.opened i x hx
  have hlen : (passedTo (passed ++ [(n, i)]) i).length = x.state.opened + 1 := by
    rw [passedTo_append, if_pos rfl, List.length_append, ← hopened]
    rfl
  have hnew : state.opened = x.state.opened + 1 ∧
      ∀ k ∈ state.data_ch.items, k ∈ x.state.data_ch.items ∨ k = x.state.opened := by
    rcases sendDataChannel_cases hsend with ⟨_, rfl⟩ | ⟨q, _, hq, rfl⟩
    · exact ⟨rfl, fun _ hk => Or.inl hk⟩
    · refine ⟨rfl, fun k hk => ?_⟩
      have hk' : k ∈ x.state.data_ch.items ++ [x.state.opened] := by
        rw [← (Mpsc.send_eq_some hq).1]
        exact hk
      simpa using hk'
  have hget (k : Nat) (y : Handle) (hy : (hs.set i { x with state := state })[k]? = some y) :
      i = k ∧ y = { x with state := state } ∨ i ≠ k ∧ hs[k]? = some y := by
    by_cases e : i = k
    · subst e
      rw [List.getElem?_set_self (List.getElem?_eq_some_iff.mp hx).1] at hy
      exact Or.inl ⟨rfl, (Option.some.inj hy).symm⟩
    · rw [List.getElem?_set_ne e] at hy
      exact Or.inr ⟨e, hy⟩
  have hother (k : Nat) (e : i ≠ k) : passedTo (passed ++ [(n, i)]) k = passedTo passed k := by
    rw [passedTo_append, if_neg e, List.append_nil]
  refine ⟨?_, fun k y hy => ?_, fun k y hy j hj => ?_, fun q hq => ?_⟩
  · rw [h.service, List.map_set]
    have hself : (hs.map fun x => x.service.secured)[i]? = some x.service.secured := by
      rw [List.getElem?_map, hx]
      rfl
    obtain ⟨hl, e⟩ := List.getElem?_eq_some_iff.mp hself
    rw [← e, List.set_getElem_self hl]
  · rcases hget k y hy with ⟨rfl, rfl⟩ | ⟨e, hy⟩
    · rw [hlen]
      exact hnew.1
    · rw [hother k e]
      exact h.opened k y hy
  · rcases hget k y hy with ⟨rfl, rfl⟩ | ⟨e, hy⟩
    · rw [hlen]
      rcases hnew.2 j hj with hj | rfl
      · have := h.queue i x hx j hj
        omega
      · omega
    · rw [hother k e]
      exact h.queue k y hy j hj
  · rw [List.length_set]
    rcases List.mem_append.mp hq with hq | hq
    · exact h.known q hq
    · rw [List.mem_singleton.mp hq]
      exact (List.getElem?_eq_some_iff.mp hx).1

/-! ## 2. Where a connection task is -/

theorem Shows.conn (h : Shows created passed s g) (hc : s.conns[n]? = some c) :
    g.conns[n]? = some c.phase.gate := by
  rw [h.conns, List.getElem?_map, hc]
  rfl

theorem Shows.setConn (h : Shows created passed s g) (n : Nat) (c : Conn) :
    Shows created passed (s.setConn n c) (g.setPhase n c.phase.gate) where
  __ := h
  conns := by
    show g.conns.set n _ = (s.conns.set n c).map _
    rw [h.conns, List.map_set]

/-- An entry is removed, and its handle dropped; locks and the main task do not show. -/
theorem Shows.setTable (h : Shows created passed s g) (table : MultiMap Digest Digest Nat)
    (o : Option Nat) (m : Main) (l l' : RwLock Task) : Shows created passed
      { s with control_channels := table, handles := dropHandle s.handles o, main := m,
               servicesLock := l, channelsLock := l' } { g with table := table } where
  __ := h
  table := rfl
  sees := h.sees.dropped (getElem?_dropHandle s.handles o)

theorem Shows.unlocked (h : Shows created passed s g) (m : Main) (l l' : RwLock Task) :
    Shows created passed { s with main := m, servicesLock := l, channelsLock := l' } g where
  __ := h

/-- The last owner is gone, or not. -/
theorem Shows.settle (h : Shows created passed s g) (digest : Bytes → Digest)
    (services : Digest → Option (Secured UInt8)) :
    ∃ g', (gate digest services).Leads g g' ∧ Shows created passed s.settle g' := by
  by_cases ho : s.owned = true
  · have hs : s.settle = s := if_pos ho
    exact ⟨g, .refl g, by rw [hs]; exact h⟩
  · have hstep : (gate digest services).step g .dropTable = some { g with table := .new } := rfl
    have ht : s.settle.control_channels = .new := congrArg State.control_channels (if_neg ho)
    have hsees : Sees created passed s.settle.handles := h.sees.dropped getElem?_settle
    refine ⟨_, .of_step hstep, fun d => ?_, ht.symm, ?_, h.handles, h.queued, hsees⟩
    · rw [settle_services]
      exact h.services d
    · rw [settle_conns]
      exact h.conns

theorem Shows.endConn (h : Shows created passed s g) (digest : Bytes → Digest)
    (services : Digest → Option (Secured UInt8)) (n : Nat) (c : Conn) : ∃ g',
    (gate digest services).Leads (g.setPhase n .ended) g' ∧ Shows created passed (s.endConn n c) g' :=
  (h.setConn n { c with phase := .ended }).settle digest services

theorem leads_conn {p : GatePhase UInt8} {a : GateConnAct UInt8} (hn : g.conns[n]? = some p)
    (h : g.handle_connection digest n p a = some g') : (gate digest services).Leads g g' := by
  have hstep : (gate digest services).step g (.conn n a) = some g' := by
    show g.step digest (.conn n a) = some g'
    unfold Gate.step
    simp only [hn]
    exact h
  exact .of_step hstep

/-- A connection task may return wherever it is. -/
theorem leads_ended {p : GatePhase UInt8} (hn : g.conns[n]? = some p) :
    (gate digest services).Leads g (g.setPhase n .ended) := by
  have hleave : g.handle_connection digest n p .leave = some (g.setPhase n .ended) := by
    cases p <;> rfl
  exact leads_conn hn hleave

/-- The task of connection `n` returns. -/
theorem Shows.ends (h : Shows created passed s g) (hc : s.conns[n]? = some c)
    (digest : Bytes → Digest) (services : Digest → Option (Secured UInt8)) (c' : Conn) :
    ∃ g', (gate digest services).Leads g g' ∧ Shows created passed (s.endConn n c') g' := by
  obtain ⟨g', hl, hs⟩ := h.endConn digest services n c'
  exact ⟨g', (leads_ended (h.conn hc)).trans hl, hs⟩

/-- The same, with a guard it held. -/
theorem Shows.releases (h : Shows created passed s g) (hc : s.conns[n]? = some c)
    (digest : Bytes → Digest) (services : Digest → Option (Secured UInt8)) (l l' : RwLock Task)
    (c' : Conn) :
    ∃ g', (gate digest services).Leads g g' ∧
      Shows created passed ({ s with servicesLock := l, channelsLock := l' }.endConn n c') g' := by
  have h' : Shows created passed { s with servicesLock := l, channelsLock := l' } g :=
    h.unlocked s.main l l'
  exact h'.ends hc digest services c'

/-- The task of connection `n` goes on, and requests or releases guards. -/
theorem Shows.goes (h : Shows created passed s g) (hc : s.conns[n]? = some c)
    (a : GateConnAct UInt8) (c' : Conn)
    (ha : g.handle_connection digest n c.phase.gate a = some (g.setPhase n c'.phase.gate))
    (l l' : RwLock Task) : ∃ g', (gate digest services).Leads g g' ∧
      Shows created passed { s.setConn n c' with servicesLock := l, channelsLock := l' } g' :=
  ⟨_, leads_conn (h.conn hc) ha, (h.setConn n c').unlocked s.main l l'⟩

/-! ## 3. One step -/

theorem leads_step {a : GateAct UInt8} (h : g.step digest a = some g') :
    (gate digest services).Leads g g' := .of_step h

theorem Shows.main_step (h : Shows created passed s g) {a : MainAct} (hs : MainStep digest s a s') :
    ∃ g', (gate digest services).Leads g g' ∧ Shows created passed s' g' := by
  cases hs with
  | accept _ | handshakeFailed _ | reloadAdd _ _ | reloadDelete _ _ | wantTable _ _ =>
      exact ⟨g, .refl g, h.unlocked _ _ _⟩
  | reloadIgnored _ _ => exact ⟨g, .refl g, h⟩
  | spawn room _ =>
      refine ⟨_, leads_step (a := .accept) rfl, { h with conns := ?_ }⟩
      show g.conns ++ [.readHello] = (s.conns ++ [(⟨.readHello, room⟩ : Conn)]).map _
      rw [h.conns, List.map_append]
      rfl
  | addServices cfg _ _ =>
      refine ⟨_, leads_step (a := .addService cfg.secured) rfl, { h with services := fun d => ?_ }⟩
      show Function.update g.services _ _ d = (Function.update s.services _ _ d).map _
      by_cases e : d = nameDigest digest cfg.name
      · subst e
        rw [Function.update_self]
        exact Function.update_self _ _ _
      · rw [Function.update_of_ne e]
        exact (Function.update_of_ne e _ _).trans (h.services d)
  | delServices name _ _ =>
      refine ⟨_, leads_step (a := .delService (asBytes name)) rfl,
        { h with services := fun d => ?_ }⟩
      show Function.update g.services _ _ d = (Function.update s.services _ _ d).map _
      by_cases e : d = nameDigest digest name
      · subst e
        rw [Function.update_self]
        exact Function.update_self _ _ _
      · rw [Function.update_of_ne e]
        exact (Function.update_of_ne e _ _).trans (h.services d)
  | addTable cfg _ _ =>
      refine ⟨_, leads_step (a := .removeEntry (asBytes cfg.name)) rfl, ?_⟩
      rw [h.table]
      exact h.setTable _ _ _ _ _
  | delTable name _ _ =>
      refine ⟨_, leads_step (a := .removeEntry (asBytes name)) rfl, ?_⟩
      rw [h.table]
      exact h.setTable _ _ _ _ _
  | shutdown _ => exact (h.unlocked .stopped s.servicesLock s.channelsLock).settle digest services

/-- The handshake of connection `n` is acknowledged. -/
theorem Shows.register (h : Shows created passed s g) (n : Nat) (d : ServiceDigest)
    (cfg : ServerServiceConfig) (k : Digest) (l : RwLock Task) :
    Shows (created ++ [⟨n, d, cfg.secured, k⟩]) passed
      { s.register heartbeat_interval d cfg k with channelsLock := l }
      (g.register ⟨n, d, cfg.secured, k⟩) := by
  have hl : g.handles.length = s.handles.length := by rw [h.handles, h.sees.length]
  let entry : Registered UInt8 := ⟨n, d, cfg.secured, k⟩
  have hi : g.table.insert d k g.handles.length = s.control_channels.insert d k s.handles.length := by
    rw [h.table, hl]
  have hhandles : g.handles ++ [entry] = created ++ [entry] := by rw [h.handles]
  unfold State.register Gate.register
  dsimp only
  rw [hi]
  rcases s.control_channels.insert_cases d k s.handles.length with ⟨he, _⟩ | ⟨m, hm, _⟩
  · rw [he]
    exact ⟨h.services, h.table, h.conns, hhandles, h.queued, h.sees.append rfl rfl rfl⟩
  · rw [hm]
    exact ⟨h.services, rfl, h.conns, hhandles, h.queued, h.sees.append rfl rfl rfl⟩

/-- Connection `n` is sent to handle `i`. -/
def Gate.send (g : Gate UInt8) (n i : Nat) : Gate UInt8 :=
  { g.setPhase n .ended with queued := (n, i) :: g.queued }

/-- The data channel of connection `n` is sent to handle `i`. -/
theorem Shows.sent (h : Shows created passed s g) {i : Nat} {x : Handle} {state : Service}
    (hx : s.handles[i]? = some x) (hs : x.state.sendDataChannel = some state)
    (digest : Bytes → Digest) (services : Digest → Option (Secured UInt8)) (n : Nat) (c : Conn) :
    ∃ g', (gate digest services).Leads (g.send n i) g' ∧
      Shows created (passed ++ [(n, i)]) (s.sent n c i x state) g' := by
  have hset : Shows created (passed ++ [(n, i)]) { s with
      handles := s.handles.set i { x with state := state }
      channelsLock := s.channelsLock.release (.conn n) .read }
      { g with queued := (n, i) :: g.queued } := by
    refine { h with queued := ?_, sees := h.sees.sent hx hs n }
    show ((n, i) :: g.queued).reverse = _
    rw [List.reverse_cons, h.queued]
  exact hset.endConn digest services n c

/-- Of a step that neither creates a handle nor passes on a data channel. -/
theorem Shows.nothing_new {a : Action}
    (h : ∃ g', (gate digest services).Leads g g' ∧ Shows created passed s' g')
    (hc : s.creates a = none) (hp : s.passes a = none) :
    ∃ g', (gate digest services).Leads g g' ∧
      Shows (created ++ (s.creates a).toList) (passed ++ (s.passes a).toList) s' g' := by
  rw [hc, hp]
  simpa using h

/-- Of a step that passes on a data channel. -/
theorem Shows.passes_on (h : Shows created passed s g) {i : Nat} {x : Handle} {state : Service}
    (hx : s.handles[i]? = some x) (hs : x.state.sendDataChannel = some state)
    (hl : (gate digest services).Leads g (g.send n i)) (c : Conn) {a : Action}
    (hc : s.creates a = none) (hp : s.passes a = some (n, i)) :
    ∃ g', (gate digest services).Leads g g' ∧ Shows (created ++ (s.creates a).toList)
      (passed ++ (s.passes a).toList) (s.sent n c i x state) g' := by
  obtain ⟨g', hl', hs'⟩ := h.sent hx hs digest services n c
  refine ⟨g', hl.trans hl', ?_⟩
  rw [hc, hp, Option.toList_none, List.append_nil]
  exact hs'

theorem leads_send {i : Nat} (hn : g.conns[n]? = some (.sending i)) :
    (gate digest services).Leads g (g.send n i) := leads_conn (a := .send) hn rfl

/-- A look-up, and the send at once. -/
theorem leads_find {nonce : Nonce} {i : Nat} (hn : g.conns[n]? = some (.awaitFind nonce))
    (hf : g.table.get2 nonce = some i) : (gate digest services).Leads g (g.send n i) := by
  have hstep : g.handle_connection digest n (.awaitFind nonce) .find =
      some (g.setPhase n (.sending i)) := by
    simp only [Gate.handle_connection, hf]
  have hself : (g.setPhase n (.sending i)).conns[n]? = some (.sending i) :=
    List.getElem?_set_self (List.getElem?_eq_some_iff.mp hn).1
  have hsend : (g.setPhase n (.sending i)).send n i = g.send n i := by
    simp only [Gate.send, Gate.setPhase, List.set_set]
  rw [← hsend]
  exact (leads_conn hn hstep).trans (leads_send hself)

/-- Where a connection task can create a handle or pass on a data channel. -/
def ConnPhase.yields : ConnPhase → Bool
  | .acking _ _ _ | .awaitFind _ | .sending _ => true
  | _ => false

theorem yields_nothing (h : (s.phaseOf n).yields = false) (a : ConnAct) :
    s.creates (.conn n a) = none ∧ s.passes (.conn n a) = none := by
  cases a with
  | ack | find | send =>
      simp only [State.creates, State.passes]
      cases hp : s.phaseOf n <;> simp_all [ConnPhase.yields]
  | _ => exact ⟨rfl, rfl⟩

theorem passes_find {nonce : Nonce} {h : Nat} (hp : s.phaseOf n = .awaitFind nonce)
    (hf : s.control_channels.get2 nonce = some h) :
    s.passes (.conn n .find) = if s.sendsAtOnce h then some (n, h) else none := by
  unfold State.passes
  simp only [hp, hf, Option.bind_some]

theorem Shows.conn_step (h : Shows created passed s g) (hc : s.conns[n]? = some c) {a : ConnAct}
    (hs : ConnStep digest heartbeat_interval s n c a s') :
    ∃ g', (gate digest services).Leads g g' ∧ Shows (created ++ (s.creates (.conn n a)).toList)
      (passed ++ (s.passes (.conn n a)).toList) s' g' := by
  have hn := h.conn hc
  have hph := phaseOf_eq hc
  cases hs with
  | ends a c' hp =>
      have hy : (s.phaseOf n).yields = false := by
        rw [hph]
        rcases hp with hp | ⟨_, hp⟩ | ⟨_, _, _, hp⟩ | hp <;> rw [hp] <;> rfl
      obtain ⟨hcr, hpa⟩ := yields_nothing hy a
      exact Shows.nothing_new (h.ends hc digest services c') hcr hpa
  | endsServices a c' hp _ =>
      have hy : (s.phaseOf n).yields = false := by
        rw [hph]
        rcases hp with hp | ⟨_, _, hp⟩ <;> rw [hp] <;> rfl
      obtain ⟨hcr, hpa⟩ := yields_nothing hy a
      exact Shows.nothing_new (h.releases hc digest services _ _ c') hcr hpa
  | ackError _ _ _ _ => exact Shows.nothing_new (h.releases hc digest services _ _ c) rfl rfl
  | notFound nonce hp _ hf =>
      refine Shows.nothing_new (h.releases hc digest services _ _ c) rfl ?_
      unfold State.passes
      simp only [hph, hp, hf, Option.bind_none]
  | peerReads k =>
      have hset : g.setPhase n c.phase.gate = g := by
        obtain ⟨hl, e⟩ := List.getElem?_eq_some_iff.mp hn
        unfold Gate.setPhase
        rw [← e, List.set_getElem_self hl]
      have hshows := h.setConn n { c with room := c.room + k }
      rw [hset] at hshows
      exact Shows.nothing_new ⟨g, .refl g, hshows⟩ rfl rfl
  | helloControl d hp =>
      exact Shows.nothing_new
        (h.goes hc (.controlHello d) { c with phase := .sendHello d } (by rw [hp]; rfl) _ _) rfl rfl
  | helloData nonce hp =>
      exact Shows.nothing_new
        (h.goes hc (.dataHello nonce) { c with phase := .awaitFind nonce } (by rw [hp]; rfl) _ _)
        rfl rfl
  | sendHello d nonce c' hp _ =>
      exact Shows.nothing_new
        (h.goes hc (.challenge nonce) { c' with phase := .awaitServices d nonce }
          (by rw [hp]; rfl) _ _) rfl rfl
  | lookupMissing d nonce hp _ hs =>
      have hs' : g.services d = none := by rw [h.services, hs]; rfl
      refine Shows.nothing_new (h.goes hc .lookup { c with phase := .refusing } ?_ _ _) rfl rfl
      rw [hp]
      simp only [ConnPhase.gate, Gate.handle_connection, hs']
  | lookup d nonce cfg t hp _ hs ht =>
      have hs' : g.services d = some cfg.secured := by rw [h.services, hs]; rfl
      have ht' : cfg.secured.token = some (asBytes t) := by
        show cfg.token.map asBytes = _
        rw [ht]
        rfl
      refine Shows.nothing_new
        (h.goes hc .lookup { c with phase := .readAuth d cfg (sessionKey digest t nonce) } ?_ _ _)
        rfl rfl
      rw [hp]
      simp only [ConnPhase.gate, Gate.handle_connection, hs', ht']
      rfl
  | auth d cfg k hp =>
      have hstep : g.handle_connection digest n c.phase.gate (.auth k) =
          some (g.setPhase n (.awaitTable d cfg.secured k)) := by
        rw [hp]
        exact if_pos rfl
      exact Shows.nothing_new
        (h.goes hc (.auth k) { c with phase := .awaitTable d cfg k } hstep _ _) rfl rfl
  | authWrong d cfg k x hp hx =>
      have hstep : g.handle_connection digest n c.phase.gate (.auth x) =
          some (g.setPhase n .ended) := by
        rw [hp]
        exact if_neg hx
      exact Shows.nothing_new (h.goes hc (.auth x) { c with phase := .authFailed } hstep _ _) rfl rfl
  | takeTable d cfg k hp _ =>
      have hstep : g.handle_connection digest n c.phase.gate .takeTable =
          some { g.setPhase n (.acking d cfg.secured k) with table := (g.table.remove1 d).2 } := by
        rw [hp]
        rfl
      refine Shows.nothing_new ⟨_, leads_conn hn hstep, ?_⟩ rfl rfl
      rw [h.table]
      exact (h.setConn n { c with phase := .acking d cfg k }).setTable _ _ _ _ _
  | ack d cfg k c' hp _ =>
      have hstep : g.handle_connection digest n c.phase.gate .ack =
          some ((g.register ⟨n, d, cfg.secured, k⟩).setPhase n .ended) := by
        rw [hp]
        rfl
      have hnew : s.creates (.conn n .ack) = some ⟨n, d, cfg.secured, k⟩ := by
        unfold State.creates
        simp only [hph, hp]
      obtain ⟨g', hl, hs'⟩ := (h.register n d cfg k _).endConn digest services n c'
      refine ⟨g', (leads_conn hn hstep).trans hl, ?_⟩
      rw [hnew, show s.passes (.conn n .ack) = none from rfl, Option.toList_none, List.append_nil]
      exact hs'
  | findSent nonce i x state hp _ hf hx hfree hs =>
      have honce : s.sendsAtOnce i = true := by
        unfold State.sendsAtOnce
        rw [hx]
        simpa [hs] using hfree
      have hpass : s.passes (.conn n .find) = some (n, i) := by
        rw [passes_find (hph.trans hp) hf, honce]
        rfl
      have hn' : g.conns[n]? = some (.awaitFind nonce) := by
        rw [hn, hp]
        rfl
      have hf' : g.table.get2 nonce = some i := by rw [h.table, hf]
      exact h.passes_on hx hs (leads_find hn' hf') c rfl hpass
  | findWaits nonce i x hp _ hf hx he hs =>
      have hf' : g.table.get2 nonce = some i := by rw [h.table, hf]
      have honce : s.sendsAtOnce i = false := by
        unfold State.sendsAtOnce
        rw [hx]
        rcases hs with hs | hs <;> simp [hs, he]
      refine Shows.nothing_new (h.goes hc .find { c with phase := .sending i } ?_ _ _) rfl (by
        rw [passes_find (hph.trans hp) hf, honce]
        rfl)
      rw [hp]
      simp only [ConnPhase.gate, Gate.handle_connection, hf']
  | send i x state hp hx hs =>
      have hpass : s.passes (.conn n .send) = some (n, i) := by
        unfold State.passes
        simp only [hph, hp]
      have hn' : g.conns[n]? = some (.sending i) := by
        rw [hn, hp]
        rfl
      exact h.passes_on hx hs (leads_send hn') c rfl hpass

/-- **Every step of the server is steps of the gate**, or none. -/
theorem Shows.step (h : Shows created passed s g) {a : Action}
    (hs : Step digest heartbeat_interval s a s') : ∃ g', (gate digest services).Leads g g' ∧
      Shows (created ++ (s.creates a).toList) (passed ++ (s.passes a).toList) s' g' := by
  cases hs with
  | main hs => exact Shows.nothing_new (h.main_step hs) rfl rfl
  | conn c hc hs => exact h.conn_step hc hs
  | service i _ x state hx ho hs =>
      exact Shows.nothing_new ⟨g, .refl g, { h with sees := h.sees.own hx ho hs }⟩ rfl rfl

/-- The services as the gate has them at the start. -/
def gateServices (digest : Bytes → Digest) (config : ServerConfig) (d : Digest) :
    Option (Secured UInt8) :=
  (generate_service_hashmap digest config d).map ServerServiceConfig.secured

/-- **What a run of the server reaches, the gate reaches**, with the handles that the run created and
    the data channels that it passed on. -/
theorem connections_shown {config : ServerConfig} {tr : List (State × Action)} {s : State}
    (r : (connections digest config).Run tr s) :
    ∃ g, (gate digest (gateServices digest config)).Reachable g ∧
      Shows (history State.creates tr) (history State.passes tr) s g := by
  induction r with
  | start hs =>
      cases hs
      refine ⟨_, .start rfl, fun _ => rfl, rfl, rfl, rfl, rfl, rfl, ?_, ?_, ?_⟩
      · intro h x hx
        cases hx
      · intro h x hx
        cases hx
      · intro q hq
        cases hq
  | step _ hs ih =>
      obtain ⟨g, hg, h⟩ := ih
      obtain ⟨g', hl, h'⟩ := h.step (step_cases hs)
      rw [history_cons, history_cons]
      exact ⟨g', hg.leads hl, h'⟩

/-- A client of `web` is registered, and a data channel of its session comes. -/
def webDataChannel (nonce : Nonce) : List Action :=
  webAnswer leading 0 nonce ++ [.conn 0 .takeTable, .conn 0 .ack, .main .accept,
    .main (.spawn (ACK_LEN + HELLO_LEN)),
    .conn 1 (.hello (.dataChannelHello (sessionKey leading "secret" nonce))), .conn 1 .find]

theorem connections_shown_web : ∃ (digest : Bytes → Digest) (tr : List (State × Action)) (s : State)
    (d : ServiceDigest) (k : Digest) (g : Gate UInt8), (connections digest (webServer .tcp)).Run tr s ∧
      history State.creates tr = [⟨0, d, (webService .tcp).secured, k⟩] ∧
      history State.passes tr = [(1, 0)] ∧
      (gate digest (gateServices digest (webServer .tcp))).Reachable g ∧
      Shows (history State.creates tr) (history State.passes tr) s g := by
  let M := connections leading (webServer .tcp)
  let start := initial leading (webServer .tcp)
  let nonce : Nonce := Vector.replicate 32 7
  have hends : (M.exec start (webDataChannel nonce)).map (fun s => s.phaseOf 1) = some .ended := by
    decide +kernel
  obtain ⟨s, hs, -⟩ := Option.map_eq_some_iff.mp hends
  have h0 : M.Run [] start := .start rfl
  have r := run_trace h0 hs
  rw [List.append_nil] at r
  have hcreated : history State.creates (M.trace start (webDataChannel nonce)) =
      [⟨0, nameDigest leading "web", (webService .tcp).secured,
        sessionKey leading "secret" nonce⟩] := by
    decide +kernel
  have hpassed : history State.passes (M.trace start (webDataChannel nonce)) = [(1, 0)] := by
    decide +kernel
  obtain ⟨g, hg, h⟩ := connections_shown r
  exact ⟨leading, _, s, _, _, g, r, hcreated, hpassed, hg, h⟩

/-- The client has the same key. -/
theorem session_key_secured (service : ClientServiceConfig) (nonce : Nonce) :
    Client.session_key digest service nonce = service.secured.session_key digest nonce := by
  unfold Client.session_key ClientServiceConfig.secured Secured.session_key
  rw [Option.map_map]
  rfl

end Server

end Penetrate
