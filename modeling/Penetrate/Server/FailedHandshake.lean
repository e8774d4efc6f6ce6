/-
  File:      Penetrate/Server/FailedHandshake.lean
  Subject:   WHAT A FAILED HANDSHAKE LEAVES BEHIND.

  `do_control_channel_handshake` removes the previous control channel of the service, writes
  `Ack::Ok`, and inserts the new one; every one of its writes and reads ends it with a `?`. The one
  between the removal and the insertion is the only exit after the table has changed.

  * `ConnPhase.returnsErr` -- the steps with which the handshake returns `Err`; `Failed`;
  * `Intact` -- a step that leaves the table and its handles as they are; `ConnStep.intact` -- the
    steps of a connection task that do not are its acknowledgement and a removal that finds
    something;
  * `spares_iff` -- **a failed handshake spares the table exactly where it found nothing to remove**.
-/
import Penetrate.Server.Registration

namespace Penetrate.Server

open Concurrent Machine

/-- The server from any of these states. -/
def serverFrom (digest : Bytes → Digest) (heartbeat_interval : UInt64) (start : State → Prop) :
    Machine State Action where
  start := start
  step := step digest heartbeat_interval

/-! ## 1. Handshakes that fail -/

/-- The steps with which `do_control_channel_handshake` returns `Err`: a write or a read that fails,
    and the `bail!` after a refusal. -/
def ConnPhase.returnsErr : ConnPhase → ConnAct → Bool
  | .sendHello _, .writeError => true
  | .refusing, .writeError => true
  | .refusing, .refuse => true
  | .readAuth _ _ _, .readError => true
  | .authFailed, .writeError => true
  | .authFailed, .sendFailed => true
  | .acking _ _ _, .writeError => true
  | _, _ => false

/-- The handshake of connection `n` has failed. -/
def Failed (tr : List (State × Action)) (n : Nat) : Prop :=
  ∃ s b, (s, .conn n b) ∈ tr ∧ (s.phaseOf n).returnsErr b = true

/-- Connection task `n` took the table and found a control channel of its service there. -/
def FoundPrevious (tr : List (State × Action)) (n : Nat) : Prop :=
  ∃ s d cfg k, (s, .conn n .takeTable) ∈ tr ∧ s.phaseOf n = .awaitTable d cfg k ∧
    s.control_channels.get1 d ≠ none

/-- The table is the same, and no handle has been dropped. -/
structure Intact (s s' : State) : Prop where
  table : s'.control_channels = s.control_channels
  handles : ∀ h, s'.Dropped h → s.Dropped h

section

variable {digest : Bytes → Digest} {heartbeat_interval : UInt64}

variable (digest heartbeat_interval) in
/-- No step of connection task `n` changes the table, as long as somebody owns it. -/
def Spares (tr : List (State × Action)) (n : Nat) : Prop :=
  ∀ s b s', (s, .conn n b) ∈ tr → step digest heartbeat_interval s (.conn n b) = some s' →
    s'.owned = true → Intact s s'

/-! ## 2. The steps of a connection task -/

theorem Intact.of_eq {s s' : State} (ht : s'.control_channels = s.control_channels)
    (hh : s'.handles = s.handles) : Intact s s' where
  table := ht
  handles h := by
    unfold State.Dropped
    rw [hh]
    exact id

/-- The handle of a service that has been sent a data channel is still there. -/
theorem Intact.set {s s' : State} {k : Nat} {x : Handle} {state : Service}
    (hx : s.handles[k]? = some x) (hs : state.handle = x.state.handle)
    (ht : s'.control_channels = s.control_channels)
    (hh : s'.handles = s.handles.set k { x with state := state }) : Intact s s' where
  table := ht
  handles h hd := by
    obtain ⟨y, hy, ha⟩ := hd
    rw [hh] at hy
    by_cases e : k = h
    · subst e
      rw [List.getElem?_set_self (List.getElem?_eq_some_iff.mp hx).1] at hy
      cases hy
      exact ⟨x, hx, hs.symm.trans ha⟩
    · rw [List.getElem?_set_ne e] at hy
      exact ⟨y, hy, ha⟩

@[simp] theorem settle_owned (s : State) : s.settle.owned = s.owned := by
  unfold State.settle
  split <;> rfl

/-- A task that is not the last owner of the table leaves it behind as it is. -/
theorem endConn_of_owned {s : State} {n : Nat} {c : Conn} (ho : (s.endConn n c).owned = true) :
    s.endConn n c = s.setConn n { c with phase := .ended } := by
  unfold State.endConn at ho ⊢
  rw [settle_owned] at ho
  unfold State.settle
  rw [if_pos ho]

/-- Removing what is not there changes nothing. -/
theorem Intact.remove1 {s s' : State} {d : ServiceDigest} (hd : s.control_channels.get1 d = none)
    (ht : s'.control_channels = (s.control_channels.remove1 d).2)
    (hh : s'.handles = dropHandle s.handles (s.control_channels.remove1 d).1) : Intact s s' := by
  have hnone : s.control_channels.remove1 d = (none, s.control_channels) := MultiMap.remove1_none hd
  rw [hnone] at ht hh
  exact .of_eq ht hh

/-- **Only its acknowledgement, and a removal that finds something, change the table.** -/
theorem ConnStep.intact {s s' : State} {n : Nat} {c : Conn} {b : ConnAct}
    (hs : ConnStep digest heartbeat_interval s n c b s') (ho : s'.owned = true) (hack : b ≠ .ack)
    (hfree : b = .takeTable → ∀ d cfg k, c.phase = .awaitTable d cfg k →
      s.control_channels.get1 d = none) : Intact s s' := by
  cases hs with
  | ends _ _ _ | endsServices _ _ _ _ | ackError _ _ _ _ | notFound _ _ _ _ =>
      rw [endConn_of_owned ho]
      exact .of_eq rfl rfl
  | takeTable d cfg k hp _ => exact .remove1 (hfree rfl d cfg k hp) rfl rfl
  | ack _ _ _ _ _ _ => exact absurd rfl hack
  | findSent _ h x state _ _ _ hx _ hs | send h x state _ hx hs =>
      unfold State.sent at ho ⊢
      rw [endConn_of_owned ho]
      exact .set hx (sendDataChannel_handle hs) rfl rfl
  | peerReads _ | helloControl _ _ | helloData _ _ | sendHello _ _ _ _ _ | lookupMissing _ _ _ _ _
  | lookup _ _ _ _ _ _ _ _ | auth _ _ _ _ | authWrong _ _ _ _ _ _ | findWaits _ _ _ _ _ _ _ _ _ =>
      exact .of_eq rfl rfl

/-- A removal that finds a control channel takes it out of the table. -/
theorem ConnStep.found {s s' : State} {n : Nat} {c : Conn}
    (hs : ConnStep digest heartbeat_interval s n c .takeTable s') {d : ServiceDigest}
    {cfg : ServerServiceConfig} {k : Digest} (hp : c.phase = .awaitTable d cfg k)
    (hn : n < s.conns.length) (hd : s.control_channels.get1 d ≠ none) :
    s'.owned = true ∧ s'.control_channels ≠ s.control_channels := by
  cases hs with
  | ends _ _ hq =>
      rw [hp] at hq
      simp at hq
  | endsServices _ _ hq _ =>
      rw [hp] at hq
      simp at hq
  | takeTable d' cfg' k' hq _ =>
      rw [hp] at hq
      cases hq
      constructor
      · -- the task itself still owns the table
        have hmem : (⟨.acking d cfg k, c.room⟩ : Conn) ∈ s.conns.set n ⟨.acking d cfg k, c.room⟩ :=
          List.mem_set hn _
        unfold State.owned State.setConn
        rw [Bool.or_eq_true]
        exact Or.inr (List.any_eq_true.mpr ⟨_, hmem, by simp⟩)
      · intro e
        obtain ⟨h, hg⟩ := Option.ne_none_iff_exists'.mp hd
        obtain ⟨b, he⟩ := MultiMap.get1_eq_some.mp hg
        have he' : (s.control_channels.remove1 d).2.Entry d b h := by
          rw [show (s.control_channels.remove1 d).2 = s.control_channels from e]
          exact he
        exact (MultiMap.entry_remove1.mp he').1 rfl

/-! ## 3. The run -/

/-- The steps with which a handshake returns. -/
def HandshakeEnds (n : Nat) (s : State) (a : Action) : Prop :=
  ∃ b, a = .conn n b ∧ (b = .ack ∨ (s.phaseOf n).returnsErr b = true)

/-- A handshake that returns ends its task. -/
theorem HandshakeEnds.over {s s' : State} {n : Nat} {a : Action} (h : HandshakeEnds n s a)
    (hs : Step digest heartbeat_interval s a s') : s'.Over n := by
  obtain ⟨b, rfl, rfl | hb⟩ := h
  · exact hs.acked
  · cases hs with
    | conn c hc h =>
        have hn := (List.getElem?_eq_some_iff.mp hc).1
        have hend {t : State} {c' : Conn} (ht : t.conns = s.conns) : (t.endConn n c').Over n := by
          unfold State.Over
          rw [endConn_conns, ht]
          exact ⟨_, List.getElem?_set_self hn, rfl⟩
        rw [phaseOf_eq hc] at hb
        cases h with
        | ends _ _ _ | endsServices _ _ _ _ | ackError _ _ _ _ | notFound _ _ _ _ => exact hend rfl
        | ack _ _ _ _ _ _ => exact hend (register_conns ..)
        | findSent _ _ _ _ _ _ _ _ _ _ | send _ _ _ _ _ _ => exact hend rfl
        | peerReads _ => cases hp : c.phase <;> simp [hp, ConnPhase.returnsErr] at hb
        | helloControl _ hp | helloData _ hp | sendHello _ _ _ hp _ | lookupMissing _ _ hp _ _
        | lookup _ _ _ _ hp _ _ _ | auth _ _ _ hp | authWrong _ _ _ _ hp _ | takeTable _ _ _ hp _
        | findWaits _ _ _ hp _ _ _ _ _ => simp [hp, ConnPhase.returnsErr] at hb

/-- No handshake returns in a task that is over. -/
theorem HandshakeEnds.not_over {s s' : State} {n : Nat} {a : Action} (ho : s.Over n)
    (hs : Step digest heartbeat_interval s a s') : ¬ HandshakeEnds n s a := by
  obtain ⟨c, hc, hp⟩ := ho
  rintro ⟨b, rfl, rfl | hb⟩
  · cases hs with
    | conn c' hc' h =>
        rw [hc] at hc'
        cases hc'
        cases h with
        | ends _ _ hq => simp [hp] at hq
        | endsServices _ _ hq _ => simp [hp] at hq
        | ack _ _ _ _ hq _ => simp [hp] at hq
  · rw [phaseOf_eq hc, hp] at hb
    cases hb

variable {start : State → Prop} {tr : List (State × Action)} {s : State} {n : Nat}

/-- **A handshake that fails is not acknowledged.** -/
theorem Failed.not_acked (r : (serverFrom digest heartbeat_interval start).Run tr s)
    (hf : Failed tr n) (t : State) : (t, .conn n .ack) ∉ tr := by
  intro hm
  obtain ⟨u, b, hb, he⟩ := hf
  have honce : (u, Action.conn n b) = (t, .conn n .ack) :=
    r.once (K := HandshakeEnds n) (D := fun s => s.Over n) (fun _ _ _ hk h => hk.over (step_cases h))
      (fun _ _ _ ho h => (step_cases h).keepsOver ho)
      (fun _ _ _ ho h => HandshakeEnds.not_over ho (step_cases h)) hb hm
      ⟨b, rfl, Or.inr he⟩ ⟨.ack, rfl, Or.inl rfl⟩
  cases honce
  cases hp : t.phaseOf n <;> simp [hp, ConnPhase.returnsErr] at he

/-- Where the removal found something, the table is not what it was. -/
theorem FoundPrevious.not_spares (r : (serverFrom digest heartbeat_interval start).Run tr s)
    (hp : FoundPrevious tr n) : ¬ Spares digest heartbeat_interval tr n := by
  intro hs
  obtain ⟨t, d, cfg, k, hm, hp, hd⟩ := hp
  obtain ⟨t', ht⟩ := r.enabled hm
  have ht' : step digest heartbeat_interval t (.conn n .takeTable) = some t' := ht
  obtain ⟨c, hc, hcp⟩ := conn_of_phaseOf hp (by simp)
  cases step_cases ht' with
  | conn c' hc' h =>
      rw [hc] at hc'
      cases hc'
      obtain ⟨ho, hne⟩ := h.found hcp (List.getElem?_eq_some_iff.mp hc).1 hd
      exact hne (hs t _ t' hm ht' ho).table

/-- **A failed handshake spares the table exactly where it found nothing to remove**: from every
    state of the server, against every peer and whatever the other tasks do. -/
theorem spares_iff (r : (serverFrom digest heartbeat_interval start).Run tr s) (hf : Failed tr n) :
    Spares digest heartbeat_interval tr n ↔ ¬ FoundPrevious tr n := by
  constructor
  · exact fun hs hp => hp.not_spares r hs
  · intro hp t b t' hm ht ho
    have hack : b ≠ .ack := by
      rintro rfl
      exact hf.not_acked r t hm
    cases step_cases ht with
    | conn c hc h =>
        refine h.intact ho hack fun e d cfg k hcp => ?_
        subst e
        by_contra hd
        exact hp ⟨t, d, cfg, k, hm, (phaseOf_eq hc).trans hcp, hd⟩

/-! ## 4. A second handshake for a service -/

/-- **Who takes the table and cannot write is the failure that costs a control channel**, wherever
    it finds one. -/
theorem fails_after_removal (r : (serverFrom digest heartbeat_interval start).Run tr s)
    {d : ServiceDigest} {cfg : ServerServiceConfig} {k : Digest} (hp : s.phaseOf n = .awaitTable d cfg k)
    (hw : s.channelsLock.waiting (.conn n) = []) (hd : s.control_channels.get1 d ≠ none) :
    ∃ tr' s', (serverFrom digest heartbeat_interval start).Run tr' s' ∧ Failed tr' n ∧
      FoundPrevious tr' n := by
  obtain ⟨c, hc, hcp⟩ := conn_of_phaseOf hp (by simp)
  let c' : Conn := { c with phase := .acking d cfg k }
  let t : State := { s.setConn n c' with
    control_channels := (s.control_channels.remove1 d).2
    handles := dropHandle s.handles (s.control_channels.remove1 d).1 }
  have htc : t.conns[n]? = some c' := getElem?_setConn hc
  have h1 : (serverFrom digest heartbeat_interval start).step s (.conn n .takeTable) = some t := by
    show handle_connection digest heartbeat_interval s n .takeTable = some t
    unfold handle_connection do_control_channel_handshake
    simp only [hc, hcp, hw, if_true]
    rfl
  have h2 : (serverFrom digest heartbeat_interval start).step t (.conn n .writeError) = some
      ({ t with channelsLock := t.channelsLock.release (.conn n) .write }.endConn n c') := by
    show handle_connection digest heartbeat_interval t n .writeError = _
    unfold handle_connection do_control_channel_handshake
    simp only [htc]
    rfl
  have htp : t.phaseOf n = .acking d cfg k := phaseOf_eq htc
  have r2 := (r.step h1).step h2
  have hf : Failed ((t, .conn n .writeError) :: (s, .conn n .takeTable) :: tr) n := by
    refine ⟨t, .writeError, List.mem_cons_self, ?_⟩
    rw [htp]
    rfl
  have hfound : FoundPrevious ((t, .conn n .writeError) :: (s, .conn n .takeTable) :: tr) n :=
    ⟨s, d, cfg, k, List.mem_cons_of_mem _ List.mem_cons_self, hp, hd⟩
  exact ⟨_, _, r2, hf, hfound⟩

/-- The first handshake of a service is acknowledged, the second gets as far as the table. -/
def secondHandshake (d : ServiceDigest) (k : Digest) (nonce : Nonce) : List Action :=
  let handshake (n : Nat) : List Action :=
    [.main .accept, .main (.spawn (ACK_LEN + HELLO_LEN)), .conn n (.hello (.controlChannelHello d)),
      .conn n (.sendHello nonce), .conn n .lookup, .conn n (.auth k)]
  handshake 0 ++ [.conn 0 .takeTable, .conn 0 .ack] ++ handshake 1

end

/-- Of two handshakes of a service the first is acknowledged, and the second awaits its answer. -/
def secondChallenged (digest : Bytes → Digest) : List Action :=
  webAnswer digest 0 (Vector.replicate 32 7) ++ [.conn 0 .takeTable, .conn 0 .ack] ++
    (webAnswer digest 1 (Vector.replicate 32 8)).take 5

/-- The second loses its connection, and the control channel of the first is still there. -/
theorem spares_iff_web : ∃ (digest : Bytes → Digest) (tr : List (State × Action)) (s : State)
    (d : ServiceDigest), (serverFrom digest 30 fun s => s = webState digest .tcp []).Run tr s ∧
      Failed tr 1 ∧ s.control_channels.get1 d = some 0 ∧ Spares digest 30 tr 1 := by
  let M := serverFrom leading 30 fun s => s = webState leading .tcp []
  let d := nameDigest leading "web"
  have h1 : (M.exec (webState leading .tcp []) (secondChallenged leading)).map (fun t =>
      (t.phaseOf 1).returnsErr .readError) = some true := by decide +kernel
  have h2 : (M.exec (webState leading .tcp []) (secondChallenged leading ++
      [.conn 1 .readError])).map (fun s => s.control_channels.get1 d) = some (some 0) := by
    decide +kernel
  obtain ⟨t, ht, hp⟩ := Option.map_eq_some_iff.mp h1
  obtain ⟨s, hs, hd⟩ := Option.map_eq_some_iff.mp h2
  rw [exec_append, ht] at hs
  have hstep : M.step t (.conn 1 .readError) = some s := by simpa [exec] using hs
  have hstart : M.Run [] (webState leading .tcp []) := .start rfl
  have r0 := run_trace hstart ht
  have hf : Failed ((t, .conn 1 .readError) :: (M.trace (webState leading .tcp [])
      (secondChallenged leading) ++ [])) 1 := ⟨t, .readError, List.mem_cons_self, hp⟩
  refine ⟨leading, _, s, d, r0.step hstep, hf, hd, (spares_iff (r0.step hstep) hf).mpr ?_⟩
  rintro ⟨t', _, _, _, hm, -⟩
  rw [List.append_nil] at hm
  rcases List.mem_cons.mp hm with e | hm
  · cases e
  · have hact := act_mem ht hm
    simp [secondChallenged, webAnswer] at hact

/-- **The acknowledgement of the second handshake fails, and the first control channel is gone.** -/
theorem previous_lost : ¬ ∀ (digest : Bytes → Digest) (config : ServerConfig)
    (tr : List (State × Action)) (s : State) (n : Nat), (connections digest config).Run tr s →
      Failed tr n → Spares digest config.heartbeat_interval tr n := by
  intro hall
  let digest : Bytes → Digest := fun _ => Vector.replicate 32 0
  let d : ServiceDigest := Vector.replicate 32 0
  let k : Digest := Vector.replicate 32 0
  have hrun : ((connections digest (webServer .tcp)).exec (initial digest (webServer .tcp))
      (secondHandshake d k (Vector.replicate 32 7))).map (fun s => (s.phaseOf 1,
        s.control_channels.get1 d, s.channelsLock.waiting (.conn 1))) =
      some (.awaitTable d (webService .tcp) k, some 0, []) := by decide +kernel
  obtain ⟨s, hs, he⟩ := Option.map_eq_some_iff.mp hrun
  obtain ⟨hp, hd, hw⟩ : s.phaseOf 1 = .awaitTable d (webService .tcp) k ∧
      s.control_channels.get1 d = some 0 ∧ s.channelsLock.waiting (.conn 1) = [] := by
    simpa only [Prod.mk.injEq] using he
  have r0 : (connections digest (webServer .tcp)).Run [] (initial digest (webServer .tcp)) :=
    .start rfl
  have hne : s.control_channels.get1 d ≠ none := by
    rw [hd]
    simp
  obtain ⟨tr, s', r, hf, hfound⟩ := fails_after_removal (run_trace r0 hs) hp hw hne
  exact hfound.not_spares r (hall digest (webServer .tcp) tr s' 1 r hf)

end Penetrate.Server
