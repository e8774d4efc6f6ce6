/-
  File:      Penetrate/Server/Routing.lean
  Subject:   WHICH QUEUE A DATA CHANNEL GETS INTO.

  A connection presents a session key, and `do_data_channel_handshake` looks it up in the table. The
  client may open it before the handle of its session is there, since its control channel speaks as
  soon as `Ack::Ok` is written; but the lookup waits for a read guard, and the handshake in its
  window has the write guard. Sessions have different keys.

  * `Presented`, `Session`, `HandleOf`, `Commanded`, `Answers` -- what has happened in a run;
  * `RoutingInv` -- whose keys the entries have, and where the sessions are; `routingInv`;
  * `Outcome`, `Routed` -- what becomes of a data channel; `data_channels_routed`;
  * `stale_data_channel` -- the pool may be gone before its handle is.
-/
import Penetrate.Server.Window

namespace Penetrate.Server

open Concurrent Machine

/-! ## 1. What has happened -/

section

variable (tr : List (Window × WindowAct))

/-- Connection `n` presented the key `k` for a data channel. -/
def Presented (n : Nat) (k : Nonce) : Prop :=
  ∃ w, (w, .server (.conn n (.hello (.dataChannelHello k)))) ∈ tr

/-- The handshake of connection `n` was acknowledged, with session key `k`. -/
def Session (n : Nat) (k : Digest) : Prop :=
  ∃ w d cfg, (w, .acked n) ∈ tr ∧ w.server.phaseOf n = .acking d cfg k

/-- Different sessions have different keys. -/
def DistinctKeys : Prop := ∀ n m k, Session tr n k → Session tr m k → n = m

/-- Handle `h` was put into the table under the session key `k`. -/
def HandleOf (h : Nat) (k : Digest) : Prop :=
  ∃ w n d cfg m, (w, .insert n) ∈ tr ∧ w.server.phaseOf n = .acking d cfg k ∧
    h = w.server.handles.length ∧ w.server.control_channels.insert d k h = .ok m

end

/-- The control channel of session `k` has written a `CreateDataChannel`, in its window or later. -/
inductive Commanded : List (Window × WindowAct) → Digest → Prop where
  | early {tr : List (Window × WindowAct)} {w : Window} {n : Nat} {state : Service}
      {d : ServiceDigest} {cfg : ServerServiceConfig} {k : Digest}
      (hn : w.pending = some (n, state)) (hp : w.server.phaseOf n = .acking d cfg k)
      (hc : state.control = .writing .createDataChannel) :
      Commanded ((w, .early (.control (.written true))) :: tr) k
  | later {tr : List (Window × WindowAct)} {w : Window} {h : Nat} {x : Handle} {k : Digest}
      (hh : HandleOf tr h k) (hx : w.server.handles[h]? = some x)
      (hc : x.state.control = .writing .createDataChannel) :
      Commanded ((w, .server (.service h (.control (.written true)))) :: tr) k
  | cons {tr : List (Window × WindowAct)} {k : Digest} (p : Window × WindowAct)
      (h : Commanded tr k) : Commanded (p :: tr) k

/-- Connection `n` was opened for a `CreateDataChannel` of session `k`: the client's
    `do_data_channel_handshake` presents the key of the session. -/
inductive Answers : List (Window × WindowAct) → Nat → Digest → Prop where
  | hello {tr : List (Window × WindowAct)} {k : Digest} (w : Window) (n : Nat)
      (hc : Commanded tr k) :
      Answers ((w, .server (.conn n (.hello (.dataChannelHello k)))) :: tr) n k
  | cons {tr : List (Window × WindowAct)} {n : Nat} {k : Digest} (p : Window × WindowAct)
      (h : Answers tr n k) : Answers (p :: tr) n k

section

variable {digest : Bytes → Digest} {heartbeat_interval : UInt64}
  {tr : List (Window × WindowAct)} {w w' : Window} {p : Window × WindowAct} {act : WindowAct}

theorem presented_cons {n : Nat} {k : Nonce} : Presented ((w, act) :: tr) n k ↔
    act = .server (.conn n (.hello (.dataChannelHello k))) ∨ Presented tr n k := by
  unfold Presented
  constructor
  · rintro ⟨v, hv⟩
    rcases List.mem_cons.mp hv with e | hv
    · exact Or.inl (congrArg Prod.snd e).symm
    · exact Or.inr ⟨v, hv⟩
  · rintro (rfl | ⟨v, hv⟩)
    · exact ⟨w, List.mem_cons_self⟩
    · exact ⟨v, List.mem_cons_of_mem _ hv⟩

theorem presented_cons_other {n : Nat} (ha : ∀ k, act ≠ .server (.conn n (.hello (.dataChannelHello k))))
    (k : Nonce) : Presented ((w, act) :: tr) n k ↔ Presented tr n k := by
  rw [presented_cons]
  exact or_iff_right (ha k)

theorem session_cons {n : Nat} {k : Digest} : Session ((w, act) :: tr) n k ↔
    (act = .acked n ∧ ∃ d cfg, w.server.phaseOf n = .acking d cfg k) ∨ Session tr n k := by
  unfold Session
  constructor
  · rintro ⟨v, d, cfg, hv, hp⟩
    rcases List.mem_cons.mp hv with e | hv
    · cases e
      exact Or.inl ⟨rfl, d, cfg, hp⟩
    · exact Or.inr ⟨v, d, cfg, hv, hp⟩
  · rintro (⟨rfl, d, cfg, hp⟩ | ⟨v, d, cfg, hv, hp⟩)
    · exact ⟨w, d, cfg, List.mem_cons_self, hp⟩
    · exact ⟨v, d, cfg, List.mem_cons_of_mem _ hv, hp⟩

theorem Session.cons {n : Nat} {k : Digest} (h : Session tr n k) : Session (p :: tr) n k :=
  session_cons.mpr (Or.inr h)

theorem DistinctKeys.tail (h : DistinctKeys (p :: tr)) : DistinctKeys tr :=
  fun n m k hn hm => h n m k hn.cons hm.cons

theorem HandleOf.cons {h : Nat} {k : Digest} (hh : HandleOf tr h k) : HandleOf (p :: tr) h k := by
  obtain ⟨v, n, d, cfg, m, hv, hp⟩ := hh
  exact ⟨v, n, d, cfg, m, List.mem_cons_of_mem _ hv, hp⟩

/-- A handle is put into the table at an insertion. -/
theorem HandleOf.before {h : Nat} {k : Digest} (hh : HandleOf ((w, act) :: tr) h k)
    (ha : ∀ n, act ≠ .insert n) : HandleOf tr h k := by
  obtain ⟨v, n, d, cfg, m, hv, hp⟩ := hh
  rcases List.mem_cons.mp hv with e | hv
  · exact absurd (congrArg Prod.snd e).symm (ha n)
  · exact ⟨v, n, d, cfg, m, hv, hp⟩

/-! ## 2. The invariant -/

variable (tr) in
/-- What is known of connection `n` and its data channel, by where its task is. -/
def ConnPhase.route (n : Nat) : ConnPhase → Prop
  | .readHello => ∀ k, ¬ Presented tr n k
  | .awaitFind k => ∀ j, Presented tr n j ↔ j = k
  | .sending h => ∃ k, (∀ j, Presented tr n j ↔ j = k) ∧ HandleOf tr h k
  | _ => True

/-- **Whose keys the entries have, and where the sessions are.** -/
structure RoutingInv (tr : List (Window × WindowAct)) (w : Window) : Prop where
  routes : Phases (fun n ph => ph.route tr n) (fun n => ∀ k, ¬ Presented tr n k) w.server
  entry : ∀ d k h, w.server.control_channels.Entry d k h → HandleOf tr h k
  handle : ∀ h k, HandleOf tr h k → h < w.server.handles.length ∧
    ∃ n, w.server.Over n ∧ Session tr n k
  /-- an acknowledged handshake is in its window, or its handle is in the table or was there -/
  session : ∀ n k, Session tr n k → (∃ state d cfg, w.pending = some (n, state) ∧
    w.server.phaseOf n = .acking d cfg k) ∨ ∃ h, HandleOf tr h k
  pending : ∀ n state, w.pending = some (n, state) → ∃ d cfg k,
    w.server.phaseOf n = .acking d cfg k ∧ Session tr n k

theorem ConnPhase.route_cons {n : Nat} {ph : ConnPhase} (h : ph.route tr n)
    (ha : ∀ k, act ≠ .server (.conn n (.hello (.dataChannelHello k)))) :
    ph.route ((w, act) :: tr) n := by
  cases ph with
  | readHello => exact fun k hk => h k ((presented_cons_other ha k).mp hk)
  | awaitFind k => exact fun j => (presented_cons_other ha j).trans (h j)
  | sending i =>
      obtain ⟨k, hk, hh⟩ := h
      exact ⟨k, fun j => (presented_cons_other ha j).trans (hk j), hh.cons⟩
  | _ => trivial

/-- What one step of connection task `n` makes of its data channel. -/
theorem route_conn {n : Nat} {c : Conn} {a : ConnAct} {s' : State}
    (hE : ∀ d k h, w.server.control_channels.Entry d k h → HandleOf tr h k)
    (h : ConnStep digest heartbeat_interval w.server n c a s') (hr : c.phase.route tr n) :
    ∃ c', s'.conns = w.server.conns.set n c' ∧
      c'.phase.route ((w, .server (.conn n a)) :: tr) n := by
  cases h with
  | ends _ _ _ => exact ⟨_, endConn_conns, trivial⟩
  | endsServices _ _ _ _ => exact ⟨_, endConn_conns, trivial⟩
  | ackError _ _ _ _ => exact ⟨_, endConn_conns, trivial⟩
  | notFound _ _ _ _ => exact ⟨_, endConn_conns, trivial⟩
  | findSent _ _ _ _ _ _ _ _ _ _ => exact ⟨_, endConn_conns, trivial⟩
  | send _ _ _ _ _ _ => exact ⟨_, endConn_conns, trivial⟩
  | ack _ _ _ c' _ _ =>
      refine ⟨{ c' with phase := .ended }, ?_, trivial⟩
      simp only [endConn_conns, register_conns]
  | peerReads j =>
      have hsame : c.phase.route ((w, .server (.conn n (.peerReads j))) :: tr) n :=
        ConnPhase.route_cons hr (by simp)
      exact ⟨_, rfl, hsame⟩
  | helloData k hp =>
      rw [hp] at hr
      refine ⟨_, rfl, fun j => ?_⟩
      rw [presented_cons, or_iff_left (hr j)]
      simp [eq_comm]
  | findWaits k i x hp _ hf _ _ _ =>
      rw [hp] at hr
      obtain ⟨d, he⟩ := MultiMap.get2_eq_some.mp hf
      have ha : ∀ j, WindowAct.server (.conn n .find) ≠
          .server (.conn n (.hello (.dataChannelHello j))) := by simp
      exact ⟨_, rfl, k, fun j => (presented_cons_other ha j).trans (hr j), (hE d k i he).cons⟩
  | helloControl _ _ => exact ⟨_, rfl, trivial⟩
  | sendHello _ _ _ _ _ => exact ⟨_, rfl, trivial⟩
  | lookupMissing _ _ _ _ _ => exact ⟨_, rfl, trivial⟩
  | lookup _ _ _ _ _ _ _ _ => exact ⟨_, rfl, trivial⟩
  | auth _ _ _ _ => exact ⟨_, rfl, trivial⟩
  | authWrong _ _ _ _ _ _ => exact ⟨_, rfl, trivial⟩
  | takeTable _ _ _ _ _ => exact ⟨_, rfl, trivial⟩

theorem routingInv_initial (config : ServerConfig) :
    RoutingInv [] ⟨initial digest config, none⟩ where
  routes := by
    constructor
    · intro n c hc
      cases hc
    · rintro n _ k ⟨w, hw⟩
      cases hw
  entry d k h he := absurd he (MultiMap.not_entry_new d k h)
  handle h k hh := by
    obtain ⟨_, _, _, _, _, hw, _⟩ := hh
    cases hw
  session n k hs := by
    obtain ⟨_, _, _, hw, _⟩ := hs
    cases hw
  pending n state hn := by cases hn

/-- A step outside the window. -/
theorem RoutingInv.server {a : Action} {s : State} (hI : RoutingInv tr w) (ha : w.allows a = true)
    (hs : Step digest heartbeat_interval w.server a s) :
    RoutingInv ((w, .server a) :: tr) { w with server := s } := by
  have hnoack (n : Nat) : a ≠ .conn n .ack := by
    rintro rfl
    cases ha
  have hnofail (n : Nat) (state : Service) (hn : w.pending = some (n, state)) :
      a ≠ .conn n .writeError := by
    rintro rfl
    simp [Window.allows, hn] at ha
  have hl : w.server.handles.length ≤ s.handles.length := by
    by_contra hlt
    have hlast : s.handles.length < w.server.handles.length := by omega
    obtain ⟨x, hx, _⟩ := hs.keeps (List.getElem?_eq_getElem hlast)
    exact absurd (List.getElem?_eq_some_iff.mp hx).1 (Nat.lt_irrefl _)
  constructor
  · refine hI.routes.step hs (fun n ph hb hq => ConnPhase.route_cons hq ?_) (fun n hb hq k hk => ?_)
      (fun _ hq => hq) fun n b c hb hc h hq => ?_
    · intro k e
      cases e
      exact hb _ rfl
    · refine hq k ((presented_cons_other (fun j e => ?_) k).mp hk)
      cases e
      exact hb _ rfl
    · subst hb
      exact route_conn hI.entry h hq
  · intro d k h he
    rcases hs.entry he with he | ⟨n, cfg, e, _⟩
    · exact (hI.entry d k h he).cons
    · exact absurd e (hnoack n)
  · intro h k hh
    obtain ⟨hlt, n, ho, hsess⟩ := hI.handle h k (hh.before (by simp))
    exact ⟨Nat.lt_of_lt_of_le hlt hl, n, hs.keepsOver ho, hsess.cons⟩
  · intro n k hsess
    rcases session_cons.mp hsess with ⟨e, _⟩ | hsess
    · cases e
    · rcases hI.session n k hsess with ⟨state, d, cfg, hn, hp⟩ | ⟨h, hh⟩
      · exact Or.inl ⟨state, d, cfg, hn, hs.keepsAcking (hnoack n) (hnofail n state hn) hp⟩
      · exact Or.inr ⟨h, hh.cons⟩
  · intro n state hn
    obtain ⟨d, cfg, k, hp, hsess⟩ := hI.pending n state hn
    exact ⟨d, cfg, k, hs.keepsAcking (hnoack n) (hnofail n state hn) hp, hsess.cons⟩

/-- A step that is neither one of the server nor an insertion changes nothing the server has. -/
theorem RoutingInv.quiet {pending : Option (Nat × Service)} (hI : RoutingInv tr w)
    (ha : ∀ a, act ≠ .server a) (hi : ∀ n, act ≠ .insert n)
    (hsess : ∀ n k, Session ((w, act) :: tr) n k → (∃ state d cfg, pending = some (n, state) ∧
      w.server.phaseOf n = .acking d cfg k) ∨ ∃ h, HandleOf ((w, act) :: tr) h k)
    (hpend : ∀ n state, pending = some (n, state) → ∃ d cfg k,
      w.server.phaseOf n = .acking d cfg k ∧ Session ((w, act) :: tr) n k) :
    RoutingInv ((w, act) :: tr) { w with pending := pending } where
  routes := by
    refine hI.routes.cons rfl (fun n ph hq => ConnPhase.route_cons hq fun k => ha _) ?_
    exact fun n hq k hk => hq k ((presented_cons_other (fun j => ha _) k).mp hk)
  entry d k h he := (hI.entry d k h he).cons
  handle h k hh := by
    obtain ⟨hlt, n, ho, hs⟩ := hI.handle h k (hh.before hi)
    exact ⟨hlt, n, ho, hs.cons⟩
  session := hsess
  pending := hpend

/-- **Who inserts its handle finds neither of its keys in the table.** -/
theorem RoutingInv.vacant (hI : RoutingInv tr w) (hS : SlotInv w.server) (hk : DistinctKeys tr) {n : Nat}
    {d : ServiceDigest} {cfg : ServerServiceConfig} {k : Digest}
    (hp : w.server.phaseOf n = .acking d cfg k) (hsess : Session tr n k) :
    w.server.control_channels.Vacant d k := by
  constructor
  · rw [Option.eq_none_iff_forall_ne_some]
    intro h hg
    obtain ⟨b, he⟩ := MultiMap.get1_eq_some.mp hg
    exact hS.free n d cfg k hp b h he
  · rw [Option.eq_none_iff_forall_ne_some]
    intro h hg
    obtain ⟨d', he⟩ := MultiMap.get2_eq_some.mp hg
    obtain ⟨_, m, ⟨c, hc, hend⟩, hm⟩ := hI.handle h k (hI.entry d' k h he)
    have hnm : n = m := hk n m k hsess hm
    subst hnm
    rw [phaseOf_eq hc, hend] at hp
    cases hp

/-- The end of the window. -/
theorem RoutingInv.insert {n : Nat} {state : Service} {s : State} (hI : RoutingInv tr w)
    (hS : SlotInv w.server) (hk : DistinctKeys tr) (hn : w.pending = some (n, state))
    (hs : Step digest heartbeat_interval w.server (.conn n .ack) s) :
    RoutingInv ((w, .insert n) :: tr) ⟨s.adopt w.server.handles.length state, none⟩ := by
  obtain ⟨d, cfg, k, hp, hsess⟩ := hI.pending n state hn
  have hv := hI.vacant hS hk hp hsess
  obtain ⟨x, hx, _⟩ := hs.created hp
  have hlen : w.server.handles.length < s.handles.length := (List.getElem?_eq_some_iff.mp hx).1
  have hover : s.Over n := hs.acked
  have hnew : HandleOf ((w, .insert n) :: tr) w.server.handles.length k := by
    rcases w.server.control_channels.insert_cases d k w.server.handles.length with
      ⟨_, hv'⟩ | ⟨m, hm, _⟩
    · exact absurd hv hv'
    · exact ⟨w, n, d, cfg, m, List.mem_cons_self, hp, rfl, hm⟩
  have hroutes : Phases (fun m ph => ph.route ((w, .insert n) :: tr) m)
      (fun m => ∀ j, ¬ Presented ((w, .insert n) :: tr) m j) s := by
    refine hI.routes.step hs (fun m ph _ hq => ConnPhase.route_cons hq (by simp)) ?_
      (fun _ hq => hq) fun m b c e hc h _ => ?_
    · exact fun m _ hq j hj => hq j ((presented_cons_other (by simp) j).mp hj)
    · cases e
      obtain ⟨c', hs', _⟩ := h.conns
      obtain ⟨c'', hc'', hend⟩ := hover
      rw [hs', List.getElem?_set_self (List.getElem?_eq_some_iff.mp hc).1] at hc''
      cases hc''
      exact ⟨c', hs', by rw [hend]; trivial⟩
  constructor
  · exact hroutes.cons rfl (fun _ _ hq => hq) fun _ hq => hq
  · intro a b h he
    rcases hs.entry he with he | ⟨m, cfg', e, ⟨⟨c, hc, hcp⟩, _, _⟩, rfl⟩
    · exact (hI.entry a b h he).cons
    · cases e
      rw [phaseOf_eq hc, hcp] at hp
      cases hp
      exact hnew
  · intro h j hh
    have hadopt : (s.adopt w.server.handles.length state).handles.length = s.handles.length :=
      List.length_modify ..
    show h < (s.adopt w.server.handles.length state).handles.length ∧ _
    rw [hadopt]
    obtain ⟨v, m, d', cfg', t, hv', hp', rfl, ht⟩ := hh
    rcases List.mem_cons.mp hv' with e | hv'
    · cases e
      rw [hp] at hp'
      cases hp'
      exact ⟨hlen, n, hover, hsess.cons⟩
    · obtain ⟨hlt, m', ho, hsess'⟩ := hI.handle _ j ⟨v, m, d', cfg', t, hv', hp', rfl, ht⟩
      exact ⟨Nat.lt_trans hlt hlen, m', hs.keepsOver ho, hsess'.cons⟩
  · intro m j hm
    rcases session_cons.mp hm with ⟨e, _⟩ | hm
    · cases e
    · rcases hI.session m j hm with ⟨state', d', cfg', hn', hp'⟩ | ⟨h, hh⟩
      · rw [hn] at hn'
        cases hn'
        rw [hp] at hp'
        cases hp'
        exact Or.inr ⟨_, hnew⟩
      · exact Or.inr ⟨h, hh.cons⟩
  · intro m st e
    cases e

theorem routingInv {config : ServerConfig} (r : (windowed digest config).Run tr w)
    (hk : DistinctKeys tr) : RoutingInv tr w := by
  induction r with
  | start h =>
      cases h
      exact routingInv_initial config
  | @step tr w w' act r h ih =>
      have hI := ih hk.tail
      obtain ⟨⟨tr', r'⟩, _⟩ := windowed_refines r
      have hS := (registrationInv r').slots
      cases window_cases h with
      | server ha hs => exact hI.server ha (step_cases hs)
      | acked n c d cfg k hn hc hp =>
          have hp' : w.server.phaseOf n = .acking d cfg k := (phaseOf_eq hc).trans hp
          refine hI.quiet (by simp) (by simp) (fun m j hm => ?_) fun m state e => ?_
          · rcases session_cons.mp hm with ⟨e, d', cfg', hm⟩ | hm
            · cases e
              exact Or.inl ⟨_, d', cfg', rfl, hm⟩
            · rcases hI.session m j hm with ⟨state', _, _, hn', _⟩ | ⟨i, hh⟩
              · rw [hn] at hn'
                cases hn'
              · exact Or.inr ⟨i, hh.cons⟩
          · cases e
            exact ⟨d, cfg, k, hp', session_cons.mpr (Or.inl ⟨rfl, d, cfg, hp'⟩)⟩
      | early n a state state' hn ho hs =>
          refine hI.quiet (by simp) (by simp) (fun m j hm => ?_) fun m st e => ?_
          · rcases session_cons.mp hm with ⟨e, _⟩ | hm
            · cases e
            · rcases hI.session m j hm with ⟨st, d, cfg, hn', hp⟩ | ⟨i, hh⟩
              · rw [hn] at hn'
                cases hn'
                exact Or.inl ⟨_, d, cfg, rfl, hp⟩
              · exact Or.inr ⟨i, hh.cons⟩
          · cases e
            obtain ⟨d, cfg, k, hp, hsess⟩ := hI.pending n state hn
            exact ⟨d, cfg, k, hp, hsess.cons⟩
      | insert n state s hn hs => exact hI.insert hS hk.tail hn (step_cases hs)

/-- The handle that is inserted has a number and a key of its own. -/
theorem RoutingInv.newHandle (hI : RoutingInv tr w) (hk : DistinctKeys tr) {n : Nat} {state : Service}
    (hn : w.pending = some (n, state)) {d : ServiceDigest} {cfg : ServerServiceConfig} {k : Digest}
    (hp : w.server.phaseOf n = .acking d cfg k) {h : Nat} {k' : Digest} (hh : HandleOf tr h k') :
    h ≠ w.server.handles.length ∧ k ≠ k' := by
  obtain ⟨hlt, m, ⟨c, hc, hend⟩, hm⟩ := hI.handle h k' hh
  obtain ⟨d', cfg', j, hp', hs⟩ := hI.pending n state hn
  rw [hp] at hp'
  cases hp'
  refine ⟨by omega, ?_⟩
  rintro rfl
  have hnm : n = m := hk n m k hs hm
  subst hnm
  rw [phaseOf_eq hc, hend] at hp
  cases hp

/-- **A handle has one key, and a key one handle.** -/
theorem handleOf_unique {config : ServerConfig} (r : (windowed digest config).Run tr w)
    (hk : DistinctKeys tr) {h h' : Nat} {k k' : Digest} (hh : HandleOf tr h k)
    (hh' : HandleOf tr h' k') : h = h' ↔ k = k' := by
  induction r with
  | start _ =>
      obtain ⟨_, _, _, _, _, hw, _⟩ := hh
      cases hw
  | @step tr w w' act r hstep ih =>
      have hI := routingInv r hk.tail
      cases window_cases hstep with
      | server _ _ => exact ih hk.tail (hh.before (by simp)) (hh'.before (by simp))
      | acked _ _ _ _ _ _ _ _ => exact ih hk.tail (hh.before (by simp)) (hh'.before (by simp))
      | early _ _ _ _ _ _ _ => exact ih hk.tail (hh.before (by simp)) (hh'.before (by simp))
      | insert n state s hn hs =>
          obtain ⟨v, _, d, cfg, m, hv, hp, rfl, hm⟩ := hh
          obtain ⟨v', _, d', cfg', m', hv', hp', rfl, hm'⟩ := hh'
          rcases List.mem_cons.mp hv with e | hv <;> rcases List.mem_cons.mp hv' with e' | hv'
          · cases e
            cases e'
            rw [hp] at hp'
            cases hp'
            exact iff_of_true rfl rfl
          · cases e
            obtain ⟨hne, hkey⟩ := hI.newHandle hk.tail hn hp ⟨v', _, d', cfg', m', hv', hp', rfl, hm'⟩
            exact iff_of_false hne.symm hkey
          · cases e'
            obtain ⟨hne, hkey⟩ := hI.newHandle hk.tail hn hp' ⟨v, _, d, cfg, m, hv, hp, rfl, hm⟩
            exact iff_of_false hne hkey.symm
          · exact ih hk.tail ⟨v, _, d, cfg, m, hv, hp, rfl, hm⟩ ⟨v', _, d', cfg', m', hv', hp', rfl, hm'⟩

/-! ## 3. What becomes of a data channel -/

/-- The key of a session that has sent a command is the key of a session. -/
theorem Commanded.session {config : ServerConfig} {k : Digest} (hc : Commanded tr k)
    (r : (windowed digest config).Run tr w) (hk : DistinctKeys tr) : ∃ n, Session tr n k := by
  induction r with
  | start _ => cases hc
  | step r _ ih =>
      have hI := routingInv r hk.tail
      cases hc with
      | early hn hp _ =>
          obtain ⟨d, cfg, k', hp', hs⟩ := hI.pending _ _ hn
          rw [hp] at hp'
          cases hp'
          exact ⟨_, hs.cons⟩
      | later hh _ _ =>
          obtain ⟨_, n, _, hs⟩ := hI.handle _ _ hh
          exact ⟨n, hs.cons⟩
      | cons _ hc =>
          obtain ⟨n, hs⟩ := ih hc hk.tail
          exact ⟨n, hs.cons⟩

/-- A data channel that answers a command presents the key of a session. -/
theorem Answers.session {config : ServerConfig} {n : Nat} {k : Digest} (ha : Answers tr n k)
    (r : (windowed digest config).Run tr w) (hk : DistinctKeys tr) :
    Presented tr n k ∧ ∃ m, Session tr m k := by
  induction r with
  | start _ => cases ha
  | step r _ ih =>
      cases ha with
      | hello _ _ hc =>
          obtain ⟨m, hs⟩ := hc.session r hk.tail
          exact ⟨⟨_, List.mem_cons_self⟩, m, hs.cons⟩
      | cons _ ha =>
          obtain ⟨⟨v, hv⟩, m, hs⟩ := ih ha hk.tail
          exact ⟨⟨v, List.mem_cons_of_mem _ hv⟩, m, hs.cons⟩

/-- **Who has its read guard of the table finds nobody in the window.** -/
theorem LockInv.not_acking {s : State} (hL : LockInv s) {n m : Nat} {j : Nonce}
    (hn : s.phaseOf n = .awaitFind j) (hw : s.channelsLock.waiting (.conn n) = [])
    (d : ServiceDigest) (cfg : ServerServiceConfig) (k : Digest) : s.phaseOf m ≠ .acking d cfg k := by
  intro hm
  have hln := hL.conn n
  have hlm := hL.conn m
  rw [hn] at hln
  rw [hm] at hlm
  have hread : Mode.read ∈ s.channelsLock.held (.conn n) := by
    rw [(RwLock.Asked.granted hln hw).1]
    exact List.mem_cons_self
  have hwrite : (Task.conn m, Mode.write) ∈ s.channelsLock.holders :=
    RwLock.mem_held.mp (by rw [hlm.1]; exact List.mem_cons_self)
  have hmode := RwLock.read_of_reader hread hwrite
  cases hmode

/-- What the step of connection task `n` makes of its data channel, which is for handle `h`. -/
inductive Outcome (s s' : State) (n h : Nat) : Prop where
  | enqueued (x x' : Handle) (hx : s.handles[h]? = some x) (he : x.state.pool.ended = false)
      (hx' : s'.handles[h]? = some x')
      (hq : x.state.data_ch.send x.state.opened = some x'.state.data_ch)
      (hp : s'.phaseOf n = .ended)
  /-- the queue is full, or others wait for a place in it -/
  | waits (x : Handle) (hx : s.handles[h]? = some x) (he : x.state.pool.ended = false)
      (hf : x.state.data_ch.full = true ∨ s.someoneSends h = true) (hp : s'.phaseOf n = .sending h)
  /-- "Data channel for a stale control channel": the pool has returned -/
  | stale (x : Handle) (hx : s.handles[h]? = some x) (he : x.state.pool.ended = true)
      (hp : s'.phaseOf n = .ended)

section Steps

variable {s s' : State} {n : Nat}

/-- A handle's queue after its task's own step, and after the connection task has returned. -/
theorem sent_handle {h : Nat} {x : Handle} (hx : s.handles[h]? = some x) (n : Nat) (c : Conn)
    (state : Service) :
    ∃ x', (s.sent n c h x state).handles[h]? = some x' ∧ x'.state.data_ch = state.data_ch := by
  have hh : HasHandle (s.sent n c h x state).handles h { x with state := state } := by
    apply HasHandle.endConn
    exact hasHandle_set_self hx
  rcases hh with hh | hh
  · exact ⟨_, hh, rfl⟩
  · exact ⟨_, hh, rfl⟩

/-- Only a full queue keeps a data channel waiting. -/
theorem sendDataChannel_eq_none {x : Service} :
    x.sendDataChannel = none ↔ x.pool.ended = false ∧ x.data_ch.full = true := by
  unfold Service.sendDataChannel
  by_cases he : x.pool.ended = true
  · simp [he]
  · simp [he, Mpsc.send_eq_none]

/-- Sending takes a place in the queue, or loses the data channel with the pool. -/
theorem outcome_sent {c : Conn} {h : Nat} {x : Handle} {state : Service}
    (hc : s.conns[n]? = some c) (hx : s.handles[h]? = some x)
    (hs : x.state.sendDataChannel = some state) :
    Outcome s (s.sent n c h x state) n h ∧ (s.sent n c h x state).phaseOf n = .ended := by
  obtain ⟨x', hx', hq⟩ := sent_handle hx n c state
  have hend : (s.sent n c h x state).conns[n]? = some { c with phase := .ended } := by
    unfold State.sent
    rw [endConn_conns]
    exact List.getElem?_set_self (List.getElem?_eq_some_iff.mp hc).1
  have hp := phaseOf_eq hend
  refine ⟨?_, hp⟩
  rcases sendDataChannel_cases hs with ⟨he, _⟩ | ⟨q, he, hsend, rfl⟩
  · exact .stale x hx he hp
  · exact .enqueued x x' hx he hx' (by rw [hq]; exact hsend) hp

/-- **What a lookup makes of a data channel whose key is in the table.** -/
theorem Step.looksUp (hs : Step digest heartbeat_interval s (.conn n .find) s') {c : Conn} {k : Nonce}
    (hc : s.conns[n]? = some c) (hp : c.phase = .awaitFind k) {h : Nat}
    (hg : s.control_channels.get2 k = some h) : Outcome s s' n h := by
  cases hs with
  | conn d hd hn =>
      rw [hc] at hd
      cases hd
      cases hn with
      | ends _ _ hq | endsServices _ _ hq _ => simp [hp] at hq
      | notFound k' hq _ hf =>
          rw [hp] at hq
          cases hq
          rw [hg] at hf
          cases hf
      | findSent k' i x state hq _ hf hx _ hsend =>
          rw [hp] at hq
          cases hq
          rw [hg] at hf
          cases hf
          exact (outcome_sent hc hx hsend).1
      | findWaits k' i x hq _ hf hx he hwait =>
          rw [hp] at hq
          cases hq
          rw [hg] at hf
          cases hf
          have hfull : x.state.data_ch.full = true ∨ s.someoneSends h = true :=
            hwait.symm.imp_left fun hn => (sendDataChannel_eq_none.mp hn).2
          exact .waits x hx he hfull (phaseOf_eq (getElem?_setConn hc))

variable (digest heartbeat_interval) in
/-- Who has its guard looks up. -/
theorem find_enabled {c : Conn} {k : Nonce} (hc : s.conns[n]? = some c) (hp : c.phase = .awaitFind k)
    (hw : s.channelsLock.waiting (.conn n) = [])
    (hh : ∀ h, s.control_channels.get2 k = some h → h < s.handles.length) :
    ∃ s', step digest heartbeat_interval s (.conn n .find) = some s' := by
  show ∃ s', handle_connection digest heartbeat_interval s n .find = some s'
  unfold handle_connection do_data_channel_handshake
  simp only [hc, hp, hw, if_true]
  cases hg : s.control_channels.get2 k with
  | none => exact ⟨_, rfl⟩
  | some h =>
      obtain ⟨x, hx⟩ : ∃ x, s.handles[h]? = some x := ⟨_, List.getElem?_eq_getElem (hh h hg)⟩
      simp only [hx]
      split
      · exact ⟨_, rfl⟩
      · split <;> exact ⟨_, rfl⟩

/-- Who waits for a place sends once there is one. -/
theorem send_enabled {c : Conn} {h : Nat} {x : Handle} {state : Service} (hc : s.conns[n]? = some c)
    (hp : c.phase = .sending h) (hx : s.handles[h]? = some x)
    (hs : x.state.sendDataChannel = some state) :
    step digest heartbeat_interval s (.conn n .send) = some (s.sent n c h x state) := by
  show handle_connection digest heartbeat_interval s n .send = _
  unfold handle_connection do_data_channel_handshake
  simp only [hc, hp, hx, hs, Option.map_some]

theorem HasHandle.data_ch {hs : List Handle} {h : Nat} {x x' : Handle} (hh : HasHandle hs h x)
    (hx' : hs[h]? = some x') : x'.state.data_ch = x.state.data_ch := by
  rcases hh with hh | hh
  · rw [hh] at hx'
    cases hx'
    rfl
  · rw [hh] at hx'
    cases hx'
    rfl

/-- A send to another handle leaves the queue of this one as it is. -/
theorem sent_other {c : Conn} {h i : Nat} {x y x' : Handle} {state : Service}
    (hx : s.handles[h]? = some x) (hne : i ≠ h) (hx' : (s.sent n c i y state).handles[h]? = some x') :
    x'.state.data_ch = x.state.data_ch := by
  refine HasHandle.data_ch ?_ hx'
  apply HasHandle.endConn
  exact hasHandle_set_ne hx hne

/-- What a send adds to a queue that it changes. -/
theorem sent_queue {c : Conn} {h : Nat} {x x' : Handle} {state : Service} (hx : s.handles[h]? = some x)
    (hs : x.state.sendDataChannel = some state)
    (hx' : (s.sent n c h x state).handles[h]? = some x') (hne : x'.state.data_ch ≠ x.state.data_ch) :
    x.state.data_ch.send x.state.opened = some x'.state.data_ch := by
  obtain ⟨y, hy, hq⟩ := sent_handle hx n c state
  rw [hx'] at hy
  cases hy
  rcases sendDataChannel_cases hs with ⟨_, rfl⟩ | ⟨q, _, hsend, rfl⟩
  · exact absurd hq hne
  · rw [hq]
    exact hsend

/-- **A connection task changes the queue its key or its lookup led it to**, and adds its data channel
    to it. -/
theorem Step.queue {a : ConnAct} (hs : Step digest heartbeat_interval s (.conn n a) s') {h : Nat}
    {x x' : Handle} (hx : s.handles[h]? = some x) (hx' : s'.handles[h]? = some x')
    (hne : x'.state.data_ch ≠ x.state.data_ch) :
    ∃ c, s.conns[n]? = some c ∧ ((∃ k, c.phase = .awaitFind k ∧
      s.control_channels.get2 k = some h) ∨ c.phase = .sending h) ∧
      x.state.data_ch.send x.state.opened = some x'.state.data_ch := by
  have h0 : HasHandle s.handles h x := Or.inl hx
  have hend {t : State} {m : Nat} {c : Conn} (ht : HasHandle t.handles h x)
      (hx' : (t.endConn m c).handles[h]? = some x') : False := hne (ht.endConn.data_ch hx')
  cases hs with
  | conn c hc hn =>
      cases hn with
      | ends _ _ _ => exact (hend h0 hx').elim
      | endsServices _ _ _ _ | ackError _ _ _ _ | notFound _ _ _ _ => exact (hend (by exact h0) hx').elim
      | takeTable _ _ _ _ _ => exact absurd ((h0.dropHandle _).data_ch hx') hne
      | ack d cfg k c' _ _ =>
          obtain ⟨y, _, hh, _⟩ := register_cases heartbeat_interval s d cfg k
          have hreg : HasHandle (s.register heartbeat_interval d cfg k).handles h x := by
            refine Or.inl ?_
            rw [hh, List.getElem?_append_left (List.getElem?_eq_some_iff.mp hx).1]
            exact hx
          exact (hend (by exact hreg) hx').elim
      | findSent k i y state hp _ hf hy _ hsend =>
          by_cases e : i = h
          · subst e
            rw [hx] at hy
            cases hy
            exact ⟨c, hc, Or.inl ⟨k, hp, hf⟩, sent_queue hx hsend hx' hne⟩
          · exact absurd (sent_other hx e hx') hne
      | send i y state hp hy hsend =>
          by_cases e : i = h
          · subst e
            rw [hx] at hy
            cases hy
            exact ⟨c, hc, Or.inr hp, sent_queue hx hsend hx' hne⟩
          · exact absurd (sent_other hx e hx') hne
      | _ => exact absurd (h0.data_ch hx') hne

end Steps

/-- Where a data channel goes, at the end of a run. -/
structure Routed (digest : Bytes → Digest) (config : ServerConfig) (tr : List (Window × WindowAct))
    (w : Window) : Prop where
  /-- a connection gets into no queue but that of the handle of the one key it presented -/
  only : ∀ n a w', (windowed digest config).step w (.server (.conn n a)) = some w' →
    ∀ (h : Nat) (x x' : Handle), w.server.handles[h]? = some x → w'.server.handles[h]? = some x' →
      x'.state.data_ch ≠ x.state.data_ch →
        ∃ k, (∀ j, Presented tr n j ↔ j = k) ∧ HandleOf tr h k ∧
          x.state.data_ch.send x.state.opened = some x'.state.data_ch
  /-- one that was opened for a command looks up as soon as it has its guard of the table; by then the
      handle of its session has been put there, and is found where it has not been removed -/
  found : ∀ n k j, Answers tr n k → w.server.phaseOf n = .awaitFind j →
    w.server.channelsLock.waiting (.conn n) = [] →
    ∃ w' h, (windowed digest config).step w (.server (.conn n .find)) = some w' ∧ HandleOf tr h k ∧
      ((∀ d b, ¬ w.server.control_channels.Entry d b h) ∨
        w.server.control_channels.get2 k = some h ∧ Outcome w.server w'.server n h)
  /-- one that waits for a place in the queue of its handle waits while the queue is full, and no
      longer -/
  sent : ∀ n h, w.server.phaseOf n = .sending h → ∃ x, w.server.handles[h]? = some x ∧
    (x.state.pool.ended = false ∧ x.state.data_ch.full = true ∨
      ∃ w', (windowed digest config).step w (.server (.conn n .send)) = some w' ∧
        Outcome w.server w'.server n h ∧ w'.server.phaseOf n = .ended)
  /-- "the handle of its key" is one handle -/
  unique : ∀ h h' k k', HandleOf tr h k → HandleOf tr h' k' → (h = h' ↔ k = k')

/-- A step of a connection task that is no acknowledgement and fails none, in the server and with the
    window. -/
theorem step_window {config : ServerConfig} {a : Action} {s' : State} (ha : w.allows a = true)
    (h : step digest config.heartbeat_interval w.server a = some s') :
    (windowed digest config).step w (.server a) = some { w with server := s' } := by
  show stepWindow digest config.heartbeat_interval w (.server a) = _
  simp only [stepWindow, ha, if_true, h, Option.map_some]

/-- **Data channels get to their session**: into no other queue, and into that one where its handle
    is in the table and its pool has not returned, at once or as soon as there is room. None is told
    that its nonce is incorrect before the handle of its session has been removed. -/
theorem data_channels_routed (config : ServerConfig) (r : (windowed digest config).Run tr w)
    (hk : DistinctKeys tr) : Routed digest config tr w := by
  have hI := routingInv r hk
  obtain ⟨⟨tr', r'⟩, hpend⟩ := windowed_refines r
  have hB := registrationInv r'
  constructor
  · intro n a w' h i x x' hx hx' hne
    have hstep : stepWindow digest config.heartbeat_interval w (.server (.conn n a)) = some w' := h
    cases window_cases hstep with
    | server ha hs =>
        obtain ⟨c, hc, hp, hq⟩ := (step_cases hs).queue hx hx' hne
        have hroute := hI.routes.conn n c hc
        rcases hp with ⟨k, hp, hg⟩ | hp
        · rw [hp] at hroute
          obtain ⟨d, he⟩ := MultiMap.get2_eq_some.mp hg
          exact ⟨k, hroute, hI.entry d k i he, hq⟩
        · rw [hp] at hroute
          obtain ⟨k, hk, hh⟩ := hroute
          exact ⟨k, hk, hh, hq⟩
  · intro n k j ha hp hwait
    obtain ⟨hpres, m, hsess⟩ := ha.session r hk
    obtain ⟨c, hc, hcp⟩ := conn_of_phaseOf hp (by simp)
    have hroute := hI.routes.conn n c hc
    rw [hcp] at hroute
    have hkj : k = j := (hroute k).mp hpres
    subst hkj
    have hbound : ∀ h, w.server.control_channels.get2 k = some h → h < w.server.handles.length := by
      intro h hg
      obtain ⟨d, he⟩ := MultiMap.get2_eq_some.mp hg
      exact (hI.handle h k (hI.entry d k h he)).1
    obtain ⟨s', hs⟩ := find_enabled digest config.heartbeat_interval hc hcp hwait hbound
    rcases hI.session m k hsess with ⟨_, d, cfg, _, hm⟩ | ⟨i, hh⟩
    · exact absurd hm (hB.lock.not_acking hp hwait d cfg k)
    · refine ⟨_, i, step_window rfl hs, hh, ?_⟩
      by_cases hin : ∃ d b, w.server.control_channels.Entry d b i
      · obtain ⟨d, b, he⟩ := hin
        have hb : k = b := (handleOf_unique r hk hh (hI.entry d b i he)).mp rfl
        subst hb
        have hg : w.server.control_channels.get2 k = some i := MultiMap.get2_eq_some.mpr ⟨d, he⟩
        exact Or.inr ⟨hg, (step_cases hs).looksUp hc hcp hg⟩
      · exact Or.inl fun d b he => hin ⟨d, b, he⟩
  · intro n h hp
    obtain ⟨c, hc, hcp⟩ := conn_of_phaseOf hp (by simp)
    have hroute := hI.routes.conn n c hc
    rw [hcp] at hroute
    obtain ⟨k, _, hh⟩ := hroute
    obtain ⟨x, hx⟩ : ∃ x, w.server.handles[h]? = some x :=
      ⟨_, List.getElem?_eq_getElem (hI.handle h k hh).1⟩
    refine ⟨x, hx, ?_⟩
    cases hs : x.state.sendDataChannel with
    | none => exact Or.inl (sendDataChannel_eq_none.mp hs)
    | some state =>
        obtain ⟨hout, hend⟩ := outcome_sent hc hx hs
        exact Or.inr ⟨_, step_window rfl (send_enabled hc hcp hx hs), hout, hend⟩
  · exact fun h h' k k' hh hh' => handleOf_unique r hk hh hh'

/-! ## 4. The first session of a server with one service -/

/-- A step of the server that is no acknowledgement and does not fail one. -/
def quietly (p : State × Action) : Window × WindowAct := (⟨p.1, none⟩, .server p.2)

/-- Where nothing is acknowledged there is no window. -/
theorem run_quietly {config : ServerConfig} {tr : List (State × Action)} {s : State}
    (r : (connections digest config).Run tr s) (hn : ∀ p ∈ tr, ∀ n, p.2 ≠ .conn n .ack) :
    (windowed digest config).Run (tr.map quietly) ⟨s, none⟩ := by
  induction r with
  | start h =>
      cases h
      exact .start rfl
  | @step tr s s' a _ h ih =>
      refine .step (ih fun p hp => hn p (List.mem_cons_of_mem _ hp)) ?_
      have hall : (⟨s, none⟩ : Window).allows a = true := by
        unfold Window.allows
        split
        · exact absurd rfl (hn _ List.mem_cons_self _)
        · rfl
        · rfl
      show stepWindow digest config.heartbeat_interval ⟨s, none⟩ (.server a) = _
      have hs : step digest config.heartbeat_interval s a = some s' := h
      simp only [stepWindow, hall, if_true, hs, Option.map_some]

/-- Where one connection is acknowledged there is one session. -/
theorem distinctKeys_of_one {m : Nat} (h : ∀ w n, (w, .acked n) ∈ tr → n = m) : DistinctKeys tr := by
  rintro n n' k ⟨w, _, _, hw, _⟩ ⟨w', _, _, hw', _⟩
  rw [h w n hw, h w' n' hw']

section

variable (digest : Bytes → Digest) (nonce : Nonce)

/-- Its handshake is in its window, and its tasks have got to `state`. -/
def webWindow (state : Service) : Window := ⟨webAcking digest .tcp nonce, some (0, state)⟩

/-- Its handle is in the table, and a second connection is there. -/
def webSecond (m : MultiMap ServiceDigest Nonce Nat) (state : Service) (main : Main)
    (conns : List Conn) : State :=
  { webRegistered digest .tcp m state (⟨.ended, 0⟩ :: conns) with main := main }

/-- The second connection presents the session key and waits for its lookup. -/
def webLookup (m : MultiMap ServiceDigest Nonce Nat) (state : Service) : Window :=
  ⟨{ webSecond digest m state .select [⟨.awaitFind (sessionKey digest "secret" nonce), 0⟩] with
    channelsLock := RwLock.free.request (.conn 1) .read }, none⟩

/-- From the window to that lookup, the latest step first. -/
def webData (m : MultiMap ServiceDigest Nonce Nat) (state : Service) : List (Window × WindowAct) :=
  [(⟨webSecond digest m state .select [⟨.readHello, 0⟩], none⟩,
      .server (.conn 1 (.hello (.dataChannelHello (sessionKey digest "secret" nonce))))),
    (⟨webSecond digest m state .handshaking [], none⟩, .server (.main (.spawn 0))),
    (⟨webSecond digest m state .select [], none⟩, .server (.main .accept)),
    (webWindow digest nonce state, .insert 0)]

/-- The control channel asks for its first data channel in the window. -/
def commanding : Service :=
  { Service.new .tcp 30 with data_ch_req := 7, control := .writing .createDataChannel }

def commanded : Service := { commanding with control := .select, commands := 1 }

/-- From the first connection to that command. -/
def webCommand : List (Window × WindowAct) :=
  (webWindow digest nonce commanding, .early (.control (.written true))) ::
    (webWindow digest nonce (.new .tcp 30), .early (.control .request)) ::
    (⟨webAcking digest .tcp nonce, none⟩, .acked 0) :: (webHandshake digest .tcp nonce).map quietly

theorem run_webCommand : (windowed digest (webServer .tcp)).Run (webCommand digest nonce)
    (webWindow digest nonce commanded) := by
  have h0 := run_quietly (run_webHandshake digest .tcp nonce) (by simp [webHandshake])
  exact .step (.step (.step h0 rfl) rfl) rfl

theorem commanded_webCommand : Commanded (webCommand digest nonce) (sessionKey digest "secret" nonce) :=
  .early rfl rfl rfl

/-- The end of the window: an empty table takes the handle. -/
theorem insert_web (state : Service) (hh : state.handle = true) :
    ∃ m : MultiMap ServiceDigest Nonce Nat,
      (MultiMap.new : MultiMap ServiceDigest Nonce Nat).insert (nameDigest digest "web")
        (sessionKey digest "secret" nonce) 0 = .ok m ∧
      m.Entry (nameDigest digest "web") (sessionKey digest "secret" nonce) 0 ∧
      stepWindow digest 30 (webWindow digest nonce state) (.insert 0) =
        some ⟨webSecond digest m state .select [], none⟩ := by
  rcases (MultiMap.new : MultiMap ServiceDigest Nonce Nat).insert_cases (nameDigest digest "web")
    (sessionKey digest "secret" nonce) 0 with ⟨_, hv⟩ | ⟨m, hm, _, hE⟩
  · exact absurd (MultiMap.vacant_new _ _) hv
  refine ⟨m, hm, (hE _ _ _).mpr (Or.inl rfl), ?_⟩
  have hreg : (webAcking digest .tcp nonce).register 30 (nameDigest digest "web") (webService .tcp)
      (sessionKey digest "secret" nonce) = { webAcking digest .tcp nonce with
        control_channels := m, handles := [⟨webService .tcp, .new .tcp 30⟩] } := by
    have hm' : (webAcking digest .tcp nonce).control_channels.insert (nameDigest digest "web")
        (sessionKey digest "secret" nonce) (webAcking digest .tcp nonce).handles.length = .ok m := hm
    unfold State.register
    rw [hm']
    rfl
  have hack : step digest 30 (webAcking digest .tcp nonce) (.conn 0 .ack) =
      some (webSecond digest m (.new .tcp 30) .select []) := by
    have hc : (webAcking digest .tcp nonce).conns[0]? = some ⟨.acking (nameDigest digest "web")
        (webService .tcp) (sessionKey digest "secret" nonce), ACK_LEN⟩ := rfl
    have hlock : (webAcking digest .tcp nonce).channelsLock.release (.conn 0) .write = .free :=
      release_request_free _ _
    show handle_connection digest 30 (webAcking digest .tcp nonce) 0 .ack = _
    unfold handle_connection do_control_channel_handshake
    simp only [hc, hreg, hlock, Conn.write, State.endConn, Nat.le_refl, if_true, Option.map_some,
      Nat.sub_self]
    rw [settle_of_select rfl]
    rfl
  have hadopt : (webSecond digest m (.new .tcp 30) .select []).adopt 0 state =
      webSecond digest m state .select [] := by
    have hstate : state.withHandle true = state := by
      unfold Service.withHandle
      rw [← hh]
    show { webSecond digest m (.new .tcp 30) .select [] with
      handles := [⟨webService .tcp, state.withHandle true⟩] } = webSecond digest m state .select []
    rw [hstate]
    rfl
  simp only [stepWindow, webWindow, if_true, hack, Option.map_some]
  exact congrArg some (congrArg (Window.mk · none) hadopt)

theorem run_webData {tr : List (Window × WindowAct)} (state : Service) (hh : state.handle = true)
    (r : (windowed digest (webServer .tcp)).Run tr (webWindow digest nonce state)) :
    ∃ m : MultiMap ServiceDigest Nonce Nat, (windowed digest (webServer .tcp)).Run
      (webData digest nonce m state ++ tr) (webLookup digest nonce m state) ∧
      m.Entry (nameDigest digest "web") (sessionKey digest "secret" nonce) 0 ∧
      HandleOf (webData digest nonce m state ++ tr) 0 (sessionKey digest "secret" nonce) := by
  obtain ⟨m, hm, he, hins⟩ := insert_web digest nonce state hh
  refine ⟨m, .step (.step (.step (.step r hins) rfl) rfl) rfl, he, ?_⟩
  exact ⟨webWindow digest nonce state, 0, _, _, m, by simp [webData], rfl, rfl, hm⟩

theorem answers_webData {tr : List (Window × WindowAct)} (m : MultiMap ServiceDigest Nonce Nat)
    (state : Service) (hc : Commanded tr (sessionKey digest "secret" nonce)) :
    Answers (webData digest nonce m state ++ tr) 1 (sessionKey digest "secret" nonce) :=
  .hello _ 1 (.cons _ (.cons _ (.cons _ hc)))

/-- The control connection breaks at the next command, and the listener with its first visitor. -/
def breaking : Service :=
  { commanded with data_ch_req := 6, control := .writing .createDataChannel }

def broken (l : Listener) (visitors : Nat) (p : TcpPool) : Service :=
  { breaking with control := .ended, visitors := visitors, pool := .tcp l .empty p }

/-- From the first command to the end of the pool, in the window. -/
def webBroken : List (Window × WindowAct) :=
  [(webWindow digest nonce (broken .ended 1 .recvVisitor), .early (.pool .recvVisitor)),
    (webWindow digest nonce (broken .select 0 .recvVisitor), .early (.listener .accept)),
    (webWindow digest nonce (broken .binding 0 .recvVisitor), .early (.listener .bound)),
    (webWindow digest nonce breaking, .early (.control (.written false))),
    (webWindow digest nonce commanded, .early (.control .request))]

theorem run_webBroken : (windowed digest (webServer .tcp)).Run
    (webBroken digest nonce ++ webCommand digest nonce)
    (webWindow digest nonce (broken .ended 1 .ended)) :=
  .step (.step (.step (.step (.step (run_webCommand digest nonce) rfl) rfl) rfl) rfl) rfl

end

/-- Where the pool has returned, the lookup loses the data channel. -/
theorem find_stale (digest : Bytes → Digest) (nonce : Nonce) (m : MultiMap ServiceDigest Nonce Nat)
    (state : Service) (he : m.Entry (nameDigest digest "web") (sessionKey digest "secret" nonce) 0)
    (hp : state.pool.ended = true) :
    ∃ s' : State, (windowed digest (webServer .tcp)).step (webLookup digest nonce m state)
        (.server (.conn 1 .find)) = some ⟨s', none⟩ ∧
      ∃ x' : Handle, s'.handles[0]? = some x' ∧ x'.state.data_ch = state.data_ch ∧
        s'.phaseOf 1 = .ended := by
  let s : State := (webLookup digest nonce m state).server
  let c : Conn := ⟨.awaitFind (sessionKey digest "secret" nonce), 0⟩
  have hx : s.handles[0]? = some ⟨webService .tcp, state⟩ := rfl
  have hc : s.conns[1]? = some c := rfl
  have hg : s.control_channels.get2 (sessionKey digest "secret" nonce) = some 0 :=
    MultiMap.get2_eq_some.mpr ⟨_, he⟩
  have hw : s.channelsLock.waiting (.conn 1) = [] := waiting_request_free _ _
  have hsend : state.sendDataChannel = some { state with opened := state.opened + 1 } := by
    unfold Service.sendDataChannel
    rw [if_pos hp]
  have hfind : handle_connection digest 30 s 1 .find = some (s.sent 1 c 0 ⟨webService .tcp, state⟩
      { state with opened := state.opened + 1 }) := by
    unfold handle_connection do_data_channel_handshake
    simp [hc, c, hw, hg, hx, hp, hsend]
  obtain ⟨x', hx', hq⟩ := sent_handle hx 1 c { state with opened := state.opened + 1 }
  refine ⟨_, ?_, x', hx', hq, ?_⟩
  · show stepWindow digest 30 (webLookup digest nonce m state) (.server (.conn 1 .find)) = _
    simp only [stepWindow, Window.allows, if_true]
    rw [show step digest 30 (webLookup digest nonce m state).server (.conn 1 .find) = _ from hfind]
    rfl
  · have hend : (s.sent 1 c 0 ⟨webService .tcp, state⟩
        { state with opened := state.opened + 1 }).conns[1]? = some { c with phase := .ended } := by
      unfold State.sent
      rw [endConn_conns]
      rfl
    exact phaseOf_eq hend

/-- **Not every data channel of a session whose handle is in the table gets into its queue**: where the
    control connection is broken and a visitor comes, the pool returns before the handle is
    dropped. -/
theorem stale_data_channel : ¬ ∀ (digest : Bytes → Digest) (config : ServerConfig)
    (tr : List (Window × WindowAct)) (w w' : Window) (n h : Nat) (k : Digest),
    (windowed digest config).Run tr w → DistinctKeys tr → Answers tr n k → HandleOf tr h k →
    (∃ d, w.server.control_channels.Entry d k h) →
    (windowed digest config).step w (.server (.conn n .find)) = some w' →
      w'.server.phaseOf n = .sending h ∨ ∃ x x' : Handle, w.server.handles[h]? = some x ∧
        w'.server.handles[h]? = some x' ∧
        x.state.data_ch.send x.state.opened = some x'.state.data_ch := by
  intro hall
  let digest : Bytes → Digest := fun _ => Vector.replicate 32 0
  let nonce : Nonce := Vector.replicate 32 7
  let state : Service := broken .ended 1 .ended
  obtain ⟨m, r, he, hh⟩ := run_webData digest nonce state rfl (run_webBroken digest nonce)
  have hk : DistinctKeys (webData digest nonce m state ++
      (webBroken digest nonce ++ webCommand digest nonce)) := by
    refine distinctKeys_of_one (m := 0) fun w n hw => ?_
    simp [webData, webBroken, webCommand, webHandshake, quietly] at hw
    exact hw.2
  have hc : Commanded (webBroken digest nonce ++ webCommand digest nonce)
      (sessionKey digest "secret" nonce) :=
    .cons _ (.cons _ (.cons _ (.cons _ (.cons _ (commanded_webCommand digest nonce)))))
  obtain ⟨s', hs, x', hx', hq, hend⟩ := find_stale digest nonce m state he rfl
  have hgone := hall digest (webServer .tcp) _ _ ⟨s', none⟩ 1 0 _ r hk
    (answers_webData digest nonce m state hc) hh ⟨_, he⟩ hs
  rcases hgone with hp | ⟨x, y, hx, hy, hsend⟩
  · rw [hend] at hp
    cases hp
  · cases hx
    rw [hx'] at hy
    cases hy
    -- the queue is as empty as it was
    rw [hq] at hsend
    cases hsend

/-- A data channel opened for the command of a session in its window. -/
theorem data_channels_routed_window : ∃ (digest : Bytes → Digest) (tr : List (Window × WindowAct))
    (w : Window) (k : Digest), (windowed digest (webServer .tcp)).Run tr w ∧ Answers tr 1 k ∧
      HandleOf tr 0 k ∧ Routed digest (webServer .tcp) tr w := by
  let digest : Bytes → Digest := fun _ => Vector.replicate 32 0
  let nonce : Nonce := Vector.replicate 32 7
  obtain ⟨m, r, _, hh⟩ := run_webData digest nonce commanded rfl
    (run_webCommand digest nonce)
  have hk : DistinctKeys (webData digest nonce m commanded ++ webCommand digest nonce) := by
    refine distinctKeys_of_one (m := 0) fun w n hw => ?_
    simp [webData, webCommand, webHandshake, quietly] at hw
    exact hw.2
  exact ⟨digest, _, _, _, r, answers_webData digest nonce m commanded
    (commanded_webCommand digest nonce), hh, data_channels_routed (webServer .tcp) r hk⟩

end

end Penetrate.Server
