/-
  File:      Penetrate/Server/Registration.lean
  Subject:   A REGISTRATION IS WHAT THE CLIENT WAS TOLD.

  `do_control_channel_handshake` throws the result of `wg.insert` away: an insertion that fails after
  `Ack::Ok` would leave a client with a control channel the server has already dropped. It fails
  where the service digest or the session key is present. The first was removed under the same
  guard; the second is the digest of a token and a nonce of 32 bytes, and the nonces are fresh.

  * `Drew`, `Answered`, `FreshNonces`, `Hashed` -- the handshakes of a run;
  * `ConnPhase.handshake` -- what has happened in a connection task, by where it is;
  * `KeyInv`, `SlotInv` -- whose keys are in the table, and what is not in it;
  * `Holds`, `Matches` -- what a handshake leaves in the table; `registration_matches`.
-/
import Mathlib.Data.Set.Function
import Penetrate.MultiMapRefines
import Penetrate.Symbolic.Knowledge
import Penetrate.Server.Schedules
import Penetrate.Server.TableLock

namespace Penetrate

/-- The `Auth` of the client's `ControlChannel::run`; the client presents it on every data channel
    too. -/
def Client.session_key (digest : Bytes → Digest) (service : ClientServiceConfig) (nonce : Nonce) :
    Option Digest :=
  service.token.map fun token => digest (asBytes token ++ nonce.toList)

namespace Server

open Concurrent Machine

/-! ## 1. The handshakes of a run -/

section

variable (tr : List (State × Action))

/-- Connection task `n` drew this nonce and sent it. -/
def Drew (n : Nat) (nonce : Nonce) : Prop := ∃ s, (s, .conn n (.sendHello nonce)) ∈ tr

/-- Connection `n` carried this `Auth`. -/
def Answered (n : Nat) (x : Digest) : Prop := ∃ s, (s, .conn n (.auth x)) ∈ tr

/-- No two handshakes draw the same nonce. -/
def FreshNonces : Prop := ∀ n m nonce, Drew tr n nonce → Drew tr m nonce → n = m

/-- What the server hashed for a session key. -/
def Hashed : Set Bytes := {x | ∃ s n d nonce cfg token, (s, .conn n .lookup) ∈ tr ∧
  s.phaseOf n = .awaitServices d nonce ∧ s.services d = some cfg ∧ cfg.token = some token ∧
    x = asBytes token ++ nonce.toList}

/-- `k` is the session key of the handshake of connection `n` for a service with config `cfg`. -/
def KeyOf (digest : Bytes → Digest) (n : Nat) (cfg : ServerServiceConfig) (k : Digest) : Prop :=
  ∃ token nonce, cfg.token = some token ∧ Drew tr n nonce ∧
    asBytes token ++ nonce.toList ∈ Hashed tr ∧ k = sessionKey digest token nonce

end

section

variable {digest : Bytes → Digest} {heartbeat_interval : UInt64} {tr : List (State × Action)}
  {p : State × Action}

theorem Drew.cons {n : Nat} {nonce : Nonce} (h : Drew tr n nonce) : Drew (p :: tr) n nonce := by
  obtain ⟨s, hs⟩ := h
  exact ⟨s, List.mem_cons_of_mem _ hs⟩

theorem KeyOf.cons {n : Nat} {cfg : ServerServiceConfig} {k : Digest} (h : KeyOf tr digest n cfg k) :
    KeyOf (p :: tr) digest n cfg k := by
  obtain ⟨token, nonce, ht, hd, ⟨s, m, d, r, c, t, hm, hx⟩, hk⟩ := h
  exact ⟨token, nonce, ht, hd.cons, ⟨s, m, d, r, c, t, List.mem_cons_of_mem _ hm, hx⟩, hk⟩

theorem answered_cons {n : Nat} {x : Digest} {s : State} {a : Action} :
    Answered ((s, a) :: tr) n x ↔ a = .conn n (.auth x) ∨ Answered tr n x := by
  unfold Answered
  constructor
  · rintro ⟨t, ht⟩
    rcases List.mem_cons.mp ht with e | ht
    · exact Or.inl (congrArg Prod.snd e).symm
    · exact Or.inr ⟨t, ht⟩
  · rintro (rfl | ⟨t, ht⟩)
    · exact ⟨s, List.mem_cons_self⟩
    · exact ⟨t, List.mem_cons_of_mem _ ht⟩

/-- **Two handshakes with one key are one handshake**, whatever the lengths of their tokens. -/
theorem KeyOf.unique (hf : FreshNonces tr) (hi : Set.InjOn digest (Hashed tr)) {n m : Nat}
    {cfg cfg' : ServerServiceConfig} {k : Digest} (h : KeyOf tr digest n cfg k)
    (h' : KeyOf tr digest m cfg' k) : n = m := by
  obtain ⟨token, nonce, _, hd, hh, hk⟩ := h
  obtain ⟨token', nonce', _, hd', hh', hk'⟩ := h'
  have hbytes : asBytes token ++ nonce.toList = asBytes token' ++ nonce'.toList :=
    hi hh hh' (hk.symm.trans hk')
  obtain ⟨_, rfl⟩ := Symbolic.append_block_inj.mp hbytes
  exact hf n m nonce hd hd'

/-! ## 2. The handshake of a connection -/

variable (tr) in
/-- Connection `n` has carried no `Auth`. -/
def Silent (n : Nat) : Prop := ∀ x, ¬ Answered tr n x

variable (tr digest) in
/-- What has happened in connection task `n`, by where it is. -/
def ConnPhase.handshake (n : Nat) : ConnPhase → Prop
  | .readHello | .sendHello _ | .refusing => Silent tr n
  | .awaitServices _ nonce => Silent tr n ∧ Drew tr n nonce
  | .readAuth _ cfg k => Silent tr n ∧ KeyOf tr digest n cfg k
  | .awaitTable _ cfg k | .acking _ cfg k => (∀ x, Answered tr n x ↔ x = k) ∧ KeyOf tr digest n cfg k
  | _ => True

theorem answered_cons_other {n : Nat} {s : State} {a : Action} (ha : ∀ x, a ≠ .conn n (.auth x))
    (x : Digest) : Answered ((s, a) :: tr) n x ↔ Answered tr n x := by
  rw [answered_cons]
  exact or_iff_right (ha x)

theorem Silent.cons {n : Nat} {s : State} {a : Action} (h : Silent tr n)
    (ha : ∀ x, a ≠ .conn n (.auth x)) : Silent ((s, a) :: tr) n :=
  fun x hx => h x ((answered_cons_other ha x).mp hx)

/-- A step that is no `Auth` of connection `n` adds to what has happened there. -/
theorem ConnPhase.handshake_cons {n : Nat} {ph : ConnPhase} {s : State} {a : Action}
    (h : ph.handshake digest tr n) (ha : ∀ x, a ≠ .conn n (.auth x)) :
    ph.handshake digest ((s, a) :: tr) n := by
  cases ph with
  | readHello => exact Silent.cons h ha
  | sendHello _ => exact Silent.cons h ha
  | refusing => exact Silent.cons h ha
  | awaitServices _ _ => exact ⟨Silent.cons h.1 ha, h.2.cons⟩
  | readAuth _ _ _ => exact ⟨Silent.cons h.1 ha, h.2.cons⟩
  | awaitTable _ _ _ => exact ⟨fun x => (answered_cons_other ha x).trans (h.1 x), h.2.cons⟩
  | acking _ _ _ => exact ⟨fun x => (answered_cons_other ha x).trans (h.1 x), h.2.cons⟩
  | authFailed => trivial
  | awaitFind _ => trivial
  | sending _ => trivial
  | ended => trivial

/-- **What one step of connection task `n` adds to its handshake.** -/
theorem handshake_conn {s s' : State} {n : Nat} {c : Conn} {a : ConnAct}
    (hc : s.conns[n]? = some c) (h : ConnStep digest heartbeat_interval s n c a s')
    (hh : c.phase.handshake digest tr n) :
    ∃ c', s'.conns = s.conns.set n c' ∧ c'.phase.handshake digest ((s, .conn n a) :: tr) n := by
  cases h with
  | ends _ _ _ => exact ⟨_, endConn_conns, trivial⟩
  | endsServices _ _ _ _ => exact ⟨_, endConn_conns, trivial⟩
  | ackError _ _ _ _ => exact ⟨_, endConn_conns, trivial⟩
  | notFound _ _ _ _ => exact ⟨_, endConn_conns, trivial⟩
  | findSent _ _ _ _ _ _ _ _ _ _ => exact ⟨_, endConn_conns, trivial⟩
  | send _ _ _ _ _ _ => exact ⟨_, endConn_conns, trivial⟩
  | ack _ _ _ c' _ _ =>
      refine ⟨{ c' with phase := .ended }, ?_, trivial⟩
      simp only [endConn_conns, register_conns]
  | peerReads k =>
      have hsame : c.phase.handshake digest ((s, .conn n (.peerReads k)) :: tr) n :=
        ConnPhase.handshake_cons hh (by simp)
      exact ⟨_, rfl, hsame⟩
  | helloControl d hp =>
      rw [hp] at hh
      exact ⟨_, rfl, Silent.cons hh (by simp)⟩
  | helloData _ _ => exact ⟨_, rfl, trivial⟩
  | sendHello d nonce c' hp _ =>
      rw [hp] at hh
      have hdrew : Drew ((s, .conn n (.sendHello nonce)) :: tr) n nonce := ⟨s, List.mem_cons_self⟩
      exact ⟨_, rfl, Silent.cons hh (by simp), hdrew⟩
  | lookupMissing _ _ hp _ _ =>
      rw [hp] at hh
      exact ⟨_, rfl, Silent.cons hh.1 (by simp)⟩
  | lookup d nonce cfg token hp _ hs ht =>
      rw [hp] at hh
      have hhashed : asBytes token ++ nonce.toList ∈ Hashed ((s, .conn n .lookup) :: tr) :=
        ⟨s, n, d, nonce, cfg, token, List.mem_cons_self, (phaseOf_eq hc).trans hp, hs, ht, rfl⟩
      have hkey : KeyOf ((s, .conn n .lookup) :: tr) digest n cfg (sessionKey digest token nonce) :=
        ⟨token, nonce, ht, hh.2.cons, hhashed, rfl⟩
      exact ⟨_, rfl, Silent.cons hh.1 (by simp), hkey⟩
  | auth d cfg k hp =>
      rw [hp] at hh
      refine ⟨_, rfl, fun x => ?_, hh.2.cons⟩
      rw [answered_cons, or_iff_left (hh.1 x)]
      simp [eq_comm]
  | authWrong _ _ _ _ _ _ => exact ⟨_, rfl, trivial⟩
  | takeTable d cfg k hp _ =>
      rw [hp] at hh
      have ha : ∀ x, Action.conn n .takeTable ≠ .conn n (.auth x) := by simp
      exact ⟨_, rfl, fun x => (answered_cons_other ha x).trans (hh.1 x), hh.2.cons⟩
  | findWaits _ _ _ _ _ _ _ _ _ => exact ⟨_, rfl, trivial⟩

/-- A step of connection task `n` changes its connection alone; a task that has returned takes none
    but for what its peer reads. -/
theorem ConnStep.conns {s s' : State} {n : Nat} {c : Conn} {a : ConnAct}
    (h : ConnStep digest heartbeat_interval s n c a s') :
    ∃ c' : Conn, s'.conns = s.conns.set n c' ∧ (c.phase = .ended → c'.phase = .ended) := by
  cases h with
  | ends _ _ _ => exact ⟨_, endConn_conns, fun _ => rfl⟩
  | endsServices _ _ _ _ => exact ⟨_, endConn_conns, fun _ => rfl⟩
  | ackError _ _ _ _ => exact ⟨_, endConn_conns, fun _ => rfl⟩
  | notFound _ _ _ _ => exact ⟨_, endConn_conns, fun _ => rfl⟩
  | findSent _ _ _ _ _ _ _ _ _ _ => exact ⟨_, endConn_conns, fun _ => rfl⟩
  | send _ _ _ _ _ _ => exact ⟨_, endConn_conns, fun _ => rfl⟩
  | ack _ _ _ c' _ _ =>
      refine ⟨{ c' with phase := .ended }, ?_, fun _ => rfl⟩
      simp only [endConn_conns, register_conns]
  | peerReads k => exact ⟨_, rfl, id⟩
  | helloControl _ hp | helloData _ hp | sendHello _ _ _ hp _ | lookupMissing _ _ hp _ _
  | lookup _ _ _ _ hp _ _ _ | auth _ _ _ hp | authWrong _ _ _ _ hp _ | takeTable _ _ _ hp _
  | findWaits _ _ _ hp _ _ _ _ _ =>
      refine ⟨_, rfl, fun e => ?_⟩
      rw [hp] at e
      cases e

/-- Handle `h` has been dropped. -/
def State.Dropped (s : State) (h : Nat) : Prop :=
  ∃ x : Handle, s.handles[h]? = some x ∧ x.state.handle = false

/-- Connection task `n` has returned. -/
def State.Over (s : State) (n : Nat) : Prop := ∃ c : Conn, s.conns[n]? = some c ∧ c.phase = .ended

/-- The handshake that is acknowledged is over. -/
theorem Step.acked {s s' : State} {n : Nat} (hs : Step digest heartbeat_interval s (.conn n .ack) s') :
    s'.Over n := by
  have hend {t : State} {c : Conn} (hn : n < t.conns.length) : (t.endConn n c).Over n := by
    unfold State.Over
    rw [endConn_conns]
    exact ⟨_, List.getElem?_set_self hn, rfl⟩
  cases hs with
  | conn c hc h =>
      have hn := (List.getElem?_eq_some_iff.mp hc).1
      cases h with
      | ends _ _ _ => exact hend hn
      | endsServices _ _ _ _ => exact hend hn
      | ack _ _ _ _ _ _ => exact hend (by simpa only [register_conns] using hn)

/-- A connection task that has returned does not come back. -/
theorem Step.keepsOver {s s' : State} {a : Action} (hs : Step digest heartbeat_interval s a s') {n : Nat}
    (ho : s.Over n) : s'.Over n := by
  obtain ⟨c, hc, hp⟩ := ho
  have hn := (List.getElem?_eq_some_iff.mp hc).1
  cases hs with
  | main h =>
      cases h with
      | spawn room _ => exact ⟨c, (List.getElem?_append_left hn).trans hc, hp⟩
      | shutdown _ => exact ⟨c, by rw [settle_conns]; exact hc, hp⟩
      | _ => exact ⟨c, hc, hp⟩
  | @conn m a _ d hd h =>
      obtain ⟨d', hs', hend⟩ := h.conns
      unfold State.Over
      rw [hs']
      by_cases e : m = n
      · subst e
        rw [hc] at hd
        cases hd
        exact ⟨d', List.getElem?_set_self hn, hend hp⟩
      · exact ⟨c, (List.getElem?_set_ne e).trans hc, hp⟩
  | service _ _ _ _ _ _ _ => exact ⟨c, hc, hp⟩

/-- What is known of connection `n` by its phase, and what of a connection that is not there yet. -/
structure Phases (Q : Nat → ConnPhase → Prop) (B : Nat → Prop) (s : State) : Prop where
  conn : ∀ (n : Nat) (c : Conn), s.conns[n]? = some c → Q n c.phase
  beyond : ∀ n, s.conns[n]? = none → B n

section Phases

variable {Q Q' : Nat → ConnPhase → Prop} {B B' : Nat → Prop} {s s' : State}

theorem Phases.cons (hI : Phases Q B s) (hc : s'.conns = s.conns) (hQ : ∀ n ph, Q n ph → Q' n ph)
    (hB : ∀ n, B n → B' n) : Phases Q' B' s' where
  conn n c h := by
    rw [hc] at h
    exact hQ n _ (hI.conn n c h)
  beyond n h := by
    rw [hc] at h
    exact hB n (hI.beyond n h)

/-- A connection just accepted is known by what was known of it before it was there. -/
theorem Phases.spawn {room : Nat} (hI : Phases Q B s) (hc : s'.conns = s.conns ++ [⟨.readHello, room⟩])
    (hQ : ∀ n ph, Q n ph → Q' n ph) (hB : ∀ n, B n → B' n) (hnew : ∀ n, B' n → Q' n .readHello) :
    Phases Q' B' s' where
  conn n c h := by
    rw [hc] at h
    rcases Nat.lt_or_ge n s.conns.length with hl | hl
    · rw [List.getElem?_append_left hl] at h
      exact hQ n _ (hI.conn n c h)
    · rw [List.getElem?_append_right hl] at h
      rw [List.mem_singleton.mp (List.mem_of_getElem? h)]
      exact hnew n (hB n (hI.beyond n (List.getElem?_eq_none hl)))
  beyond n h := by
    have hl : s.conns.length ≤ n := by
      rw [hc, List.getElem?_eq_none_iff, List.length_append] at h
      omega
    exact hB n (hI.beyond n (List.getElem?_eq_none hl))

/-- **The rule for what is known of each connection**: it follows from what one step of its own task
    makes of it. -/
theorem Phases.step {a : Action} (hI : Phases Q B s) (hs : Step digest heartbeat_interval s a s')
    (hQ : ∀ n ph, (∀ b, a ≠ .conn n b) → Q n ph → Q' n ph)
    (hB : ∀ n, (∀ b, a ≠ .conn n b) → B n → B' n) (hnew : ∀ n, B' n → Q' n .readHello)
    (hown : ∀ n b c, a = .conn n b → s.conns[n]? = some c →
      ConnStep digest heartbeat_interval s n c b s' → Q n c.phase →
        ∃ c', s'.conns = s.conns.set n c' ∧ Q' n c'.phase) : Phases Q' B' s' := by
  cases hs with
  | main h =>
      cases h with
      | spawn room _ =>
          exact hI.spawn rfl (fun n ph => hQ n ph (by simp)) (fun n => hB n (by simp)) hnew
      | shutdown _ =>
          exact hI.cons (settle_conns _) (fun n ph => hQ n ph (by simp)) fun n => hB n (by simp)
      | _ => exact hI.cons rfl (fun n ph => hQ n ph (by simp)) fun n => hB n (by simp)
  | service _ _ _ _ _ _ _ =>
      exact hI.cons rfl (fun n ph => hQ n ph (by simp)) fun n => hB n (by simp)
  | @conn n a _ c hc h =>
      obtain ⟨c', hs', hq⟩ := hown n a c rfl hc h (hI.conn n c hc)
      have hn := (List.getElem?_eq_some_iff.mp hc).1
      have ha (m : Nat) (hm : m ≠ n) (b : ConnAct) : Action.conn n a ≠ .conn m b := by
        intro e
        cases e
        exact hm rfl
      constructor
      · intro m d hd
        rw [hs'] at hd
        by_cases e : n = m
        · subst e
          rw [List.getElem?_set_self hn] at hd
          cases hd
          exact hq
        · rw [List.getElem?_set_ne e] at hd
          exact hQ m _ (ha m (Ne.symm e)) (hI.conn m d hd)
      · intro m hm
        rw [hs', List.getElem?_eq_none_iff, List.length_set] at hm
        have e : m ≠ n := by omega
        exact hB m (ha m e) (hI.beyond m (List.getElem?_eq_none hm))

end Phases

/-- **Whose keys are where**: a control channel in the table comes from a handshake that is over. -/
structure KeyInv (digest : Bytes → Digest) (tr : List (State × Action)) (s : State) : Prop where
  handshakes : Phases (fun n ph => ph.handshake digest tr n) (Silent tr) s
  entry : ∀ d k h, s.control_channels.Entry d k h → ∃ n cfg, s.Over n ∧ KeyOf tr digest n cfg k

theorem keyInv_initial (config : ServerConfig) : KeyInv digest [] (initial digest config) where
  handshakes := by
    constructor
    · intro n c hc
      cases hc
    · rintro n _ x ⟨s, hs⟩
      cases hs
  entry d k h he := absurd he (MultiMap.not_entry_new d k h)

theorem keyInv_step {s s' : State} {a : Action} (hI : KeyInv digest tr s)
    (hs : Step digest heartbeat_interval s a s') : KeyInv digest ((s, a) :: tr) s' where
  handshakes := hI.handshakes.step hs
    (fun n ph ha hq => ConnPhase.handshake_cons hq fun x => ha (.auth x))
    (fun n ha hq => Silent.cons hq fun x => ha (.auth x)) (fun _ hq => hq)
    fun n b c ha hc h hq => by
      subst ha
      exact handshake_conn hc h hq
  entry d k h he := by
    rcases hs.entry he with he | ⟨n, cfg, rfl, ⟨⟨c, hc, hp⟩, _, _⟩, _⟩
    · obtain ⟨n, cfg, ho, hk⟩ := hI.entry d k h he
      exact ⟨n, cfg, hs.keepsOver ho, hk.cons⟩
    · have hh := hI.handshakes.conn n c hc
      rw [hp] at hh
      exact ⟨n, cfg, hs.acked, hh.2.cons⟩

/-! ## 3. The slots of the table -/

/-- Who acknowledges has emptied the slot of its service, and no handle is in two slots. -/
structure SlotInv (s : State) : Prop where
  free : ∀ n d cfg k, s.phaseOf n = .acking d cfg k → ∀ b h, ¬ s.control_channels.Entry d b h
  single : ∀ d k d' k' h, s.control_channels.Entry d k h → s.control_channels.Entry d' k' h →
    d = d' ∧ k = k'

theorem slotInv_initial (config : ServerConfig) : SlotInv (initial digest config) where
  free _ _ _ _ hp := by cases hp
  single d k _ _ h he := absurd he (MultiMap.not_entry_new d k h)

/-- A connection that is somewhere is there. -/
theorem conn_of_phaseOf {s : State} {n : Nat} {ph : ConnPhase} (h : s.phaseOf n = ph)
    (hne : ph ≠ .ended) : ∃ c, s.conns[n]? = some c ∧ c.phase = ph := by
  unfold State.phaseOf at h
  split at h
  · exact ⟨_, ‹_›, h⟩
  · exact absurd h.symm hne

/-- Only one connection acknowledges at a time. -/
theorem LockInv.acking_unique {s : State} (hL : LockInv s) {n m : Nat} {d d' : ServiceDigest}
    {cfg cfg' : ServerServiceConfig} {k k' : Digest} (hn : s.phaseOf n = .acking d cfg k)
    (hm : s.phaseOf m = .acking d' cfg' k') : n = m := by
  have hln := hL.conn n
  have hlm := hL.conn m
  rw [hn] at hln
  rw [hm] at hlm
  have hwn : (Task.conn n, Mode.write) ∈ s.channelsLock.holders :=
    RwLock.mem_held.mp (by rw [hln.1]; exact List.mem_cons_self)
  have hwm : (Task.conn m, Mode.write) ∈ s.channelsLock.holders :=
    RwLock.mem_held.mp (by rw [hlm.1]; exact List.mem_cons_self)
  rw [RwLock.holders_of_writer hwm, List.mem_singleton] at hwn
  simpa using hwn

/-- Who takes the table for writing removes what the slot of its service holds. -/
theorem Step.takes {s s' : State} {n : Nat} (hs : Step digest heartbeat_interval s (.conn n .takeTable) s')
    {c : Conn} (hc : s.conns[n]? = some c) {d : ServiceDigest} {cfg : ServerServiceConfig} {k : Digest}
    (hp : c.phase = .awaitTable d cfg k) :
    s'.control_channels = (s.control_channels.remove1 d).2 := by
  cases hs with
  | conn c' hc' h =>
      rw [hc] at hc'
      cases hc'
      cases h with
      | ends _ _ hq | endsServices _ _ hq _ => simp [hp] at hq
      | takeTable _ _ _ hq _ =>
          rw [hp] at hq
          cases hq
          rfl

theorem slotInv_step {s s' : State} {a : Action} (hI : SlotInv s) (hL : LockInv s) (hT : TableInv s)
    (hs : Step digest heartbeat_interval s a s') : SlotInv s' where
  free n d cfg k hp b h he := by
    obtain ⟨c', hc', hp'⟩ := conn_of_phaseOf hp (by simp)
    cases hs.connTo hc' with
    | kept _ c _ hc hq _ ha =>
        have hn : s.phaseOf n = .acking d cfg k := (phaseOf_eq hc).trans (hq.symm.trans hp')
        rcases hs.entry he with he | ⟨m, cfg', rfl, ⟨⟨cm, hcm, hpm⟩, _, _⟩, _⟩
        · exact hI.free n d cfg k hn b h he
        · have hnm : n = m := hL.acking_unique hn ((phaseOf_eq hcm).trans hpm)
          subst hnm
          obtain ⟨j, hj⟩ := ha _ rfl
          cases hj
    | free _ _ hq => exact hq (Or.inl ⟨d, cfg, k, hp'⟩)
    | takes c d' cfg' k' hc hq =>
        cases hp'
        rw [hs.takes hc hq] at he
        exact (MultiMap.entry_remove1.mp he).1 rfl
    | waits c nonce j x hc hq hf hx hh => cases hp'
  single d k d' k' h he he' := by
    rcases hs.entry he with he | ⟨n, cfg, rfl, ⟨⟨c, hc, hp⟩, _, _⟩, rfl⟩
    · rcases hs.entry he' with he' | ⟨n, cfg, rfl, _, rfl⟩
      · exact hI.single d k d' k' h he he'
      · exact absurd (hT.bound d k _ he) (Nat.lt_irrefl _)
    · rcases hs.entry he' with he' | ⟨m, cfg', e, ⟨⟨c', hc', hp'⟩, _, _⟩, _⟩
      · exact absurd (hT.bound d' k' _ he') (Nat.lt_irrefl _)
      · cases e
        rw [hc] at hc'
        cases hc'
        rw [hp] at hp'
        cases hp'
        exact ⟨rfl, rfl⟩

/-- The entry of a handle goes nowhere but out of the table, and the handle with it. -/
theorem Step.keepsOrDrops {s s' : State} {a : Action} (hI : SlotInv s) (hT : TableInv s)
    (hs : Step digest heartbeat_interval s a s') {d : ServiceDigest} {k : Digest} {h : Nat}
    (he : s.control_channels.Entry d k h) :
    s'.control_channels.Entry d k h ∨ s'.Dropped h := by
  have hl := hT.bound d k h he
  obtain ⟨x, hx, _⟩ := hs.keeps (List.getElem?_eq_getElem hl)
  cases ha : x.state.handle with
  | false => exact Or.inr ⟨x, hx, ha⟩
  | true =>
      obtain ⟨d', k', he'⟩ := (tableInv_step hT hs).inTable h x hx ha
      rcases hs.entry he' with hold | ⟨_, _, _, _, e⟩
      · obtain ⟨rfl, rfl⟩ := hI.single d k d' k' h he hold
        exact Or.inl he'
      · omega

/-- A handle that was in the slot of a service is there, or has been dropped. -/
def Accounts (tr : List (State × Action)) (s : State) : Prop :=
  ∀ p ∈ tr, ∀ d k h, p.1.control_channels.Entry d k h →
    s.control_channels.Entry d k h ∨ s.Dropped h

/-- A dropped handle stays dropped. -/
theorem Step.keepsDropped {s s' : State} {a : Action} (hs : Step digest heartbeat_interval s a s')
    {h : Nat} (hd : s.Dropped h) : s'.Dropped h := by
  obtain ⟨x, hx, ha⟩ := hd
  obtain ⟨x', hx', _, hal⟩ := hs.keeps hx
  exact ⟨x', hx', Bool.eq_false_iff.mpr fun e => by rw [hal e] at ha; cases ha⟩

theorem accounts_step {s s' : State} {a : Action} (hA : Accounts tr s) (hI : SlotInv s)
    (hT : TableInv s) (hs : Step digest heartbeat_interval s a s') : Accounts ((s, a) :: tr) s' := by
  intro p hp d k h he
  have hnow : s.control_channels.Entry d k h ∨ s.Dropped h := by
    rcases List.mem_cons.mp hp with rfl | hp
    · exact Or.inl he
    · exact hA p hp d k h he
  rcases hnow with he | hd
  · exact hs.keepsOrDrops hI hT he
  · exact Or.inr (hs.keepsDropped hd)

/-! ## 4. The run -/

/-- What holds at the end of a run of the server. -/
structure RegistrationInv (digest : Bytes → Digest) (tr : List (State × Action)) (s : State) :
    Prop where
  lock : LockInv s
  table : TableInv s
  slots : SlotInv s
  keys : KeyInv digest tr s
  accounts : Accounts tr s

theorem registrationInv {config : ServerConfig} {s : State}
    (r : (connections digest config).Run tr s) : RegistrationInv digest tr s := by
  induction r with
  | start h =>
      cases h
      exact ⟨lockInv_initial config, tableInv_initial config, slotInv_initial config,
        keyInv_initial config, fun p hp => by cases hp⟩
  | step _ h ih =>
      have hs := step_cases h
      exact ⟨lockInv_step ih.lock hs, tableInv_step ih.table hs,
        slotInv_step ih.slots ih.lock ih.table hs, keyInv_step ih.keys hs,
        accounts_step ih.accounts ih.slots ih.table hs⟩

/-- **Who acknowledges finds neither of its keys in the table.** -/
theorem RegistrationInv.vacant {s : State} (hI : RegistrationInv digest tr s) (hf : FreshNonces tr)
    (hi : Set.InjOn digest (Hashed tr)) {n : Nat} {d : ServiceDigest} {cfg : ServerServiceConfig}
    {k : Digest} {c : Conn} (hc : s.conns[n]? = some c) (hp : c.phase = .acking d cfg k) :
    s.control_channels.Vacant d k := by
  constructor
  · rw [Option.eq_none_iff_forall_ne_some]
    intro h hg
    obtain ⟨b, he⟩ := MultiMap.get1_eq_some.mp hg
    exact hI.slots.free n d cfg k ((phaseOf_eq hc).trans hp) b h he
  · rw [Option.eq_none_iff_forall_ne_some]
    intro h hg
    obtain ⟨d', he⟩ := MultiMap.get2_eq_some.mp hg
    obtain ⟨m, cfg', ⟨c', hc', hp'⟩, hk'⟩ := hI.keys.entry d' k h he
    have hk := hI.keys.handshakes.conn n c hc
    rw [hp] at hk
    -- the handshake the entry comes from has returned, this one has not
    have hnm : n = m := hk.2.unique hf hi hk'
    subst hnm
    rw [hc] at hc'
    cases hc'
    rw [hp] at hp'
    cases hp'

/-- The slot of service `d` holds handle `h` alone, under the key `k`; it serves `cfg` and has not
    been dropped. -/
structure Holds (s : State) (d : ServiceDigest) (k : Digest) (h : Nat) (cfg : ServerServiceConfig) :
    Prop where
  only : ∀ b i, s.control_channels.Entry d b i ↔ b = k ∧ i = h
  alive : ∃ x : Handle, s.handles[h]? = some x ∧ x.service = cfg ∧ x.state.handle = true

variable (heartbeat_interval) in
/-- A registration into a free slot, under a key of its own. -/
theorem holds_register {s : State} {d : ServiceDigest} {k : Digest} (cfg : ServerServiceConfig)
    (hv : s.control_channels.Vacant d k) (hfree : ∀ b h, ¬ s.control_channels.Entry d b h) :
    Holds (s.register heartbeat_interval d cfg k) d k s.handles.length cfg ∧
      ∀ a b i, a ≠ d → ((s.register heartbeat_interval d cfg k).control_channels.Entry a b i ↔
        s.control_channels.Entry a b i) := by
  obtain ⟨x, hx, hh, ⟨_, ha, hE⟩ | ⟨hn, _⟩⟩ := register_cases heartbeat_interval s d cfg k
  · refine ⟨⟨fun b i => ?_, x, by simp [hh], hx, ha⟩, fun a b i hne => ?_⟩
    · rw [hE, or_iff_left (hfree b i)]
      simp
    · rw [hE, or_iff_right]
      rintro e
      cases e
      exact hne rfl
  · exact absurd hv hn

/-- The slot is held still when the task that filled it has returned. -/
theorem holds_returned {s s' : State} {n : Nat} {c : Conn} {d : ServiceDigest} {k : Digest}
    {cfg : ServerServiceConfig} (hs : Step digest heartbeat_interval s (.conn n .ack) s')
    (hc : s.conns[n]? = some c) (hp : c.phase = .acking d cfg k)
    (hv : s.control_channels.Vacant d k) (hfree : ∀ b h, ¬ s.control_channels.Entry d b h)
    (ho : s.ownedWithout n = true) : Holds s' d k s.handles.length cfg := by
  obtain ⟨hentry, _, _, x, hx, hcfg, ha⟩ := hs.registered ⟨⟨c, hc, hp⟩, hv, ho⟩
  refine ⟨fun b i => ⟨fun he => ?_, ?_⟩, x, hx, hcfg, ha⟩
  · rcases hs.entry he with he | ⟨m, cfg', e, ⟨⟨c', hc', hp'⟩, _, _⟩, rfl⟩
    · exact absurd he (hfree b i)
    · cases e
      rw [hc] at hc'
      cases hc'
      rw [hp] at hp'
      cases hp'
      exact ⟨rfl, rfl⟩
  · rintro ⟨rfl, rfl⟩
    exact hentry

/-- **What the client of connection `n` was told is so**, where connection task `n` writes its
    `Ack::Ok` for service `d` under the key `k`. -/
structure Matches (digest : Bytes → Digest) (config : ServerConfig) (tr : List (State × Action))
    (s : State) (n : Nat) (d : ServiceDigest) (cfg : ServerServiceConfig) (k : Digest) : Prop where
  /-- the key is the digest of the token of the service, followed by the nonce -/
  key : ∃ token nonce, cfg.token = some token ∧ Drew tr n nonce ∧ k = sessionKey digest token nonce
  /-- the client has answered with it, and with nothing else -/
  answered : ∀ x, Answered tr n x ↔ x = k
  client : ∀ service nonce x, Client.session_key digest service nonce = some x → Answered tr n x →
    x = k
  inserted : ∃ m, s.control_channels.insert d k s.handles.length = .ok m
  /-- where the lock is released -/
  registered : Holds (s.register config.heartbeat_interval d cfg k) d k s.handles.length cfg
  others : ∀ a b i, a ≠ d →
    ((s.register config.heartbeat_interval d cfg k).control_channels.Entry a b i ↔
      s.control_channels.Entry a b i)
  /-- and once the task has returned, where somebody else still has the table -/
  returned : ∀ s', (connections digest config).step s (.conn n .ack) = some s' →
    s.ownedWithout n = true → Holds s' d k s.handles.length cfg
  /-- every control channel the service had before -/
  displaced : ∀ p ∈ tr, ∀ b i, p.1.control_channels.Entry d b i → s.Dropped i

/-- **A registration is what the client was told**: over all runs whose handshakes draw different
    nonces, where the digest is injective on what the server hashes. -/
theorem registration_matches (config : ServerConfig) {s : State}
    (r : (connections digest config).Run tr s) (hf : FreshNonces tr)
    (hi : Set.InjOn digest (Hashed tr)) :
    (∀ n d cfg k, s.phaseOf n = .acking d cfg k → Matches digest config tr s n d cfg k) ∧
      (∀ d k k' h h', s.control_channels.Entry d k h → s.control_channels.Entry d k' h' →
        k = k' ∧ h = h') ∧
      ∀ d d' k h h', s.control_channels.Entry d k h → s.control_channels.Entry d' k h' →
        d = d' ∧ h = h' := by
  have hI := registrationInv r
  refine ⟨fun n d cfg k hn => ?_, fun d k k' h h' he he' => MultiMap.entry_unique he he',
    fun d d' k h h' he he' => ?_⟩
  · obtain ⟨c, hc, hp⟩ := conn_of_phaseOf hn (by simp)
    have hv := hI.vacant hf hi hc hp
    have hfree := hI.slots.free n d cfg k hn
    have hhand := hI.keys.handshakes.conn n c hc
    rw [hp] at hhand
    obtain ⟨hans, token, nonce, ht, hd, _, hk⟩ := hhand
    obtain ⟨hholds, hothers⟩ := holds_register config.heartbeat_interval cfg hv hfree
    refine ⟨⟨token, nonce, ht, hd, hk⟩, hans, fun _ _ x _ hx => (hans x).mp hx, ?_, hholds, hothers,
      fun s' h ho => holds_returned (step_cases h) hc hp hv hfree ho, fun p hp b i he => ?_⟩
    · rcases s.control_channels.insert_cases d k s.handles.length with ⟨_, hn⟩ | ⟨m, hm, _⟩
      · exact absurd hv hn
      · exact ⟨m, hm⟩
    · exact (hI.accounts p hp d b i he).resolve_left (hfree b i)
  · have hd : d = d' := MultiMap.entry_key2 he he'
    subst hd
    exact ⟨rfl, (MultiMap.entry_unique he he').2⟩

/-! ## 5. The first handshake of a server with one service -/

section

variable (digest : Bytes → Digest) (t : ServiceType) (nonce : Nonce)

/-- Its connection waits for the table, or has it and acknowledges. -/
def webWriting (ph : ConnPhase) : State :=
  { webState digest t [⟨ph, ACK_LEN⟩] with channelsLock := RwLock.free.request (.conn 0) .write }

def webAcking : State :=
  webWriting digest t (.acking (nameDigest digest "web") (webService t) (sessionKey digest "secret" nonce))

/-- Its connection looks the service up. -/
def webLooking : State :=
  { webState digest t [⟨.awaitServices (nameDigest digest "web") nonce, ACK_LEN⟩] with
    servicesLock := RwLock.free.request (.conn 0) .read }

/-- The handshake, from the connection to the acknowledgement, the latest step first. -/
def webHandshake : List (State × Action) :=
  let d := nameDigest digest "web"
  let k := sessionKey digest "secret" nonce
  [(webWriting digest t (.awaitTable d (webService t) k), .conn 0 .takeTable),
    (webState digest t [⟨.readAuth d (webService t) k, ACK_LEN⟩], .conn 0 (.auth k)),
    (webLooking digest t nonce, .conn 0 .lookup),
    (webState digest t [⟨.sendHello d, ACK_LEN + HELLO_LEN⟩], .conn 0 (.sendHello nonce)),
    (webState digest t [⟨.readHello, ACK_LEN + HELLO_LEN⟩], .conn 0 (.hello (.controlChannelHello d))),
    ({ webState digest t [] with main := .handshaking }, .main (.spawn (ACK_LEN + HELLO_LEN))),
    (webState digest t [], .main .accept)]

theorem run_webHandshake : (connections digest (webServer t)).Run (webHandshake digest t nonce)
    (webAcking digest t nonce) := by
  have hlook : (connections digest (webServer t)).step (webLooking digest t nonce) (.conn 0 .lookup) =
      some (webState digest t [⟨.readAuth (nameDigest digest "web") (webService t)
        (sessionKey digest "secret" nonce), ACK_LEN⟩]) := by
    rw [step_conn]
    unfold handle_connection do_control_channel_handshake
    simp only [webLooking, webState, List.getElem?_cons_zero, waiting_request_free, if_true,
      services_webServer]
    simp only [webService, State.setConn, release_request_free, List.set_cons_zero]
    rfl
  have hauth (d : ServiceDigest) (k : Digest) : (connections digest (webServer t)).step
      (webState digest t [⟨.readAuth d (webService t) k, ACK_LEN⟩]) (.conn 0 (.auth k)) =
      some (webWriting digest t (.awaitTable d (webService t) k)) := by
    rw [step_conn]
    unfold handle_connection do_control_channel_handshake
    simp only [webState, List.getElem?_cons_zero, if_true]
    rfl
  have htake (d : ServiceDigest) (k : Digest) : (connections digest (webServer t)).step
      (webWriting digest t (.awaitTable d (webService t) k)) (.conn 0 .takeTable) =
      some (webWriting digest t (.acking d (webService t) k)) := by
    have hnew : (webWriting digest t (.awaitTable d (webService t) k)).control_channels = .new := rfl
    rw [step_conn]
    unfold handle_connection do_control_channel_handshake
    simp only [hnew, MultiMap.remove1_new, dropHandle]
    simp only [webWriting, webState, List.getElem?_cons_zero, waiting_request_free, if_true]
    rfl
  have h0 : (connections digest (webServer t)).Run [] (webState digest t []) := .start rfl
  exact .step (.step (.step (.step (.step (.step (.step h0 rfl) rfl) rfl) rfl) hlook) (hauth ..))
    (htake ..)

end

/-- What a step hashes for a session key. -/
def hashedAt (p : State × Action) : Option Bytes :=
  match p.2 with
  | .conn n .lookup => match p.1.phaseOf n with
    | .awaitServices d nonce =>
        ((p.1.services d).bind (·.token)).map fun token => asBytes token ++ nonce.toList
    | _ => none
  | _ => none

theorem mem_hashedAt {x : Bytes} (h : x ∈ Hashed tr) : x ∈ tr.filterMap hashedAt := by
  obtain ⟨s, n, d, nonce, cfg, token, hm, hp, hs, ht, rfl⟩ := h
  refine List.mem_filterMap.mpr ⟨_, hm, ?_⟩
  simp [hashedAt, hp, hs, ht]

/-- Two clients of the service, one after the other, the second up to its acknowledgement. -/
def webTwice : List Action :=
  webAnswer leading 0 (Vector.replicate 32 7) ++ [.conn 0 .takeTable, .conn 0 .ack] ++
    (webAnswer leading 1 (Vector.replicate 32 8) ++ [.conn 1 .takeTable])

/-- The second takes the place of the first. -/
theorem registration_matches_web : ∃ (digest : Bytes → Digest) (tr : List (State × Action)) (s : State)
    (d : ServiceDigest) (k k' : Digest), (connections digest (webServer .tcp)).Run tr s ∧
      (∃ p ∈ tr, p.1.control_channels.Entry d k 0) ∧ s.phaseOf 1 = .acking d (webService .tcp) k' ∧
      Matches digest (webServer .tcp) tr s 1 d (webService .tcp) k' ∧ s.Dropped 0 := by
  let M := connections leading (webServer .tcp)
  let d := nameDigest leading "web"
  let k := sessionKey leading "secret" (Vector.replicate 32 7)
  let k' := sessionKey leading "secret" (Vector.replicate 32 8)
  have h1 : (M.exec (initial leading (webServer .tcp)) webTwice).map (fun s => s.phaseOf 1) =
      some (.acking d (webService .tcp) k') := by decide +kernel
  obtain ⟨s, hs, hp⟩ := Option.map_eq_some_iff.mp h1
  have h0 : M.Run [] (initial leading (webServer .tcp)) := .start rfl
  have r := run_trace h0 hs
  rw [List.append_nil] at r
  have hf : FreshNonces (M.trace (initial leading (webServer .tcp)) webTwice) := by
    rintro n m x ⟨t, ht⟩ ⟨t', ht'⟩
    have hn := act_mem hs ht
    have hm := act_mem hs ht'
    have hne : (Vector.replicate 32 7 : Nonce) ≠ Vector.replicate 32 8 := by decide
    simp only [webTwice, webAnswer, List.cons_append, List.nil_append, List.mem_cons, reduceCtorEq,
      Action.conn.injEq, false_or, or_false, and_false, List.not_mem_nil] at hn hm
    rcases hn with ⟨rfl, e⟩ | ⟨rfl, e⟩ <;> rcases hm with ⟨rfl, e'⟩ | ⟨rfl, e'⟩
    · rfl
    · exact absurd ((ConnAct.sendHello.inj e).symm.trans (ConnAct.sendHello.inj e')) hne
    · exact absurd ((ConnAct.sendHello.inj e').symm.trans (ConnAct.sendHello.inj e)) hne
    · rfl
  have hi : Set.InjOn leading (Hashed (M.trace (initial leading (webServer .tcp)) webTwice)) := by
    have hnodup : (((M.trace (initial leading (webServer .tcp)) webTwice).filterMap hashedAt).map
        leading).Nodup := by decide +kernel
    exact fun x hx y hy e => List.inj_on_of_nodup_map hnodup (mem_hashedAt hx) (mem_hashedAt hy) e
  have hfirst : ∃ p ∈ M.trace (initial leading (webServer .tcp)) webTwice,
      p.1.control_channels.Entry d k 0 := by
    have hany : (M.trace (initial leading (webServer .tcp)) webTwice).any (fun p =>
        p.1.control_channels.map1.lookup d = some (d, k, 0)) = true := by decide +kernel
    obtain ⟨p, hp, he⟩ := List.any_eq_true.mp hany
    have hentry : p.1.control_channels.map1.lookup d = some (d, k, 0) := of_decide_eq_true he
    exact ⟨p, hp, hentry⟩
  have hmatch := (registration_matches (webServer .tcp) r hf hi).1 1 d _ k' hp
  obtain ⟨p, hpm, he⟩ := hfirst
  exact ⟨leading, _, s, d, k, k', r, ⟨p, hpm, he⟩, hp, hmatch, hmatch.displaced p hpm k 0 he⟩

end

end Server

end Penetrate
