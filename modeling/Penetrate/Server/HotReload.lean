/-
  File:      Penetrate/Server/HotReload.lean
  Subject:   WHETHER THE CONTROL CHANNELS IN THE TABLE BELONG TO THE SERVICES AS CONFIGURED NOW.

  A hot reload changes the services first and removes the service's control channel after that. A
  handshake looks its service up, waits for the client's answer, and registers with the
  configuration it has looked up, whatever has become of the service since.

  * `Main.reloads` -- the reload of a service is half processed;
  * `Current` -- every control channel in the table is one of its service as configured now;
  * `RegistersCurrent` -- the condition on a registration;
  * `consistent_iff` -- a run keeps the table current precisely where its registrations are.
-/
import Penetrate.Server.Schedules

namespace Penetrate.Server

open Concurrent Machine Collections

section

variable (digest : Bytes → Digest)

/-! ## 1. What is kept -/

/-- The reload of service `d` is half processed: the services are changed, the table is not. -/
def Main.reloads : Main → ServiceDigest → Prop
  | .addTable cfg, d => nameDigest digest cfg.name = d
  | .delDropped name, d => nameDigest digest name = d
  | .delTable name, d => nameDigest digest name = d
  | _, _ => False

/-- The configuration a handle was created with. -/
def State.serviceOf (s : State) (h : Nat) : Option ServerServiceConfig :=
  (s.handles[h]?).map Handle.service

/-- Every control channel in the table belongs to its service as configured now, except where the
    reload of that very service is half processed. -/
def Current (s : State) : Prop :=
  ∀ d k h, s.control_channels.Entry d k h →
    ∃ cfg, s.serviceOf h = some cfg ∧ (s.services d = some cfg ∨ s.main.reloads digest d)

/-- Hot reload and authentication are consistent, once no reload is half processed. -/
def Consistent (s : State) : Prop :=
  (∀ d, ¬ s.main.reloads digest d) → ∀ d k h, s.control_channels.Entry d k h →
    ∃ cfg, s.serviceOf h = some cfg ∧ s.services d = some cfg

/-- **A registration is current**: the service is still configured as the handshake has looked it
    up, or its reload has the control channel still to remove. -/
def RegistersCurrent (s : State) : Action → Prop
  | .conn n .ack => ∀ d cfg k, Registers s n d cfg k →
      s.services d = some cfg ∨ s.main.reloads digest d
  | _ => True

variable {digest} {heartbeat_interval : UInt64}

theorem Current.consistent {s : State} (h : Current digest s) : Consistent digest s := by
  intro hm d k h' he
  obtain ⟨cfg, hc, hs⟩ := h d k h' he
  exact ⟨cfg, hc, hs.resolve_right (hm d)⟩

theorem current_initial (config : ServerConfig) : Current digest (initial digest config) :=
  fun d k h he => absurd he (MultiMap.not_entry_new d k h)

/-! ## 2. One step -/

theorem Step.serviceOf {s s' : State} {a : Action} (hs : Step digest heartbeat_interval s a s')
    {h : Nat} {cfg : ServerServiceConfig} (hc : s.serviceOf h = some cfg) :
    s'.serviceOf h = some cfg := by
  unfold State.serviceOf at hc ⊢
  obtain ⟨x, hx, rfl⟩ := Option.map_eq_some_iff.mp hc
  obtain ⟨x', hx', e, _⟩ := hs.keeps hx
  rw [hx', ← e]
  rfl

/-- **A control channel that a step leaves in the table stays one of its service**: the step that
    changes the service begins its reload, and the step that ends the reload removes the entry. -/
theorem Step.current {s s' : State} {a : Action} (hs : Step digest heartbeat_interval s a s')
    {d : ServiceDigest} {k : Nonce} {h : Nat} (he : s'.control_channels.Entry d k h)
    {cfg : ServerServiceConfig} (hc : s.services d = some cfg ∨ s.main.reloads digest d) :
    s'.services d = some cfg ∨ s'.main.reloads digest d := by
  cases hs with
  | main hm =>
      cases hm with
      | accept hm | handshakeFailed hm | spawn _ hm | reloadAdd _ hm | reloadDelete _ hm =>
          rw [hm] at hc
          exact Or.inl (hc.resolve_right id)
      | reloadIgnored _ _ => exact hc
      | addServices cfg' hm _ =>
          by_cases e : nameDigest digest cfg'.name = d
          · exact Or.inr e
          · rw [hm] at hc
            exact Or.inl ((Function.update_of_ne (Ne.symm e) _ _).trans (hc.resolve_right id))
      | delServices name hm _ =>
          by_cases e : nameDigest digest name = d
          · exact Or.inr e
          · rw [hm] at hc
            exact Or.inl ((Function.update_of_ne (Ne.symm e) _ _).trans (hc.resolve_right id))
      | wantTable name hm =>
          rw [hm] at hc
          exact hc
      | addTable cfg' hm _ | delTable name hm _ =>
          rw [hm] at hc
          have hne := (MultiMap.entry_remove1.mp he).1
          exact Or.inl (hc.resolve_right fun e => hne e.symm)
      | shutdown hm =>
          rw [hm] at hc
          rw [settle_services]
          exact Or.inl (hc.resolve_right id)
  | conn c _ hn =>
      have hk : s'.services = s.services ∧ s'.main = s.main := by
        cases hn <;> simp [State.sent, State.setConn]
      rw [hk.1, hk.2]
      exact hc
  | service _ _ _ _ _ _ _ => exact hc

/-- **One step keeps the table current precisely when its registration is.** -/
theorem current_step {s s' : State} {a : Action} (hP : Current digest s)
    (hs : Step digest heartbeat_interval s a s') : Current digest s' ↔ RegistersCurrent digest s a := by
  constructor
  · intro hP'
    unfold RegistersCurrent
    split
    · intro d cfg k hr
      obtain ⟨he, hsv, hm, x, hx, rfl, _⟩ := hs.registered hr
      obtain ⟨cfg', hc, hcur⟩ := hP' d k _ he
      have e : some x.service = some cfg' := by
        rw [← hc]
        unfold State.serviceOf
        rw [hx]
        rfl
      rw [hsv, hm, ← e] at hcur
      exact hcur
    · trivial
  · intro hok d k h he
    rcases hs.entry he with he' | ⟨n, cfg, rfl, hr, rfl⟩
    · obtain ⟨cfg, hc, hcur⟩ := hP d k h he'
      exact ⟨cfg, hs.serviceOf hc, hs.current he hcur⟩
    · obtain ⟨_, hsv, hm, x, hx, rfl, _⟩ := hs.registered hr
      refine ⟨x.service, ?_, ?_⟩
      · unfold State.serviceOf
        rw [hx]
        rfl
      · rw [hsv, hm]
        exact hok d x.service k hr

/-! ## 3. Runs -/

/-- **Which runs keep the table current**: precisely those whose registrations are. In them, hot
    reload and authentication are consistent whenever no reload is half processed. -/
theorem consistent_iff (config : ServerConfig) {tr : List (State × Action)} {s : State}
    (r : (connections digest config).Run tr s) :
    (Throughout (Current digest) tr s ↔ Guarded (RegistersCurrent digest) tr) ∧
      (Guarded (RegistersCurrent digest) tr → Throughout (Consistent digest) tr s) := by
  have hiff : Throughout (Current digest) tr s ↔ Guarded (RegistersCurrent digest) tr := by
    refine r.throughout_iff (I := fun _ => True) (fun s h => ⟨trivial, ?_⟩) (fun _ _ _ _ _ => trivial)
      fun s a s' _ hP h => current_step hP (step_cases h)
    rw [show s = initial digest config from h]
    exact current_initial config
  refine ⟨hiff, fun hok => ?_⟩
  obtain ⟨h, ht⟩ := hiff.mpr hok
  exact ⟨h.consistent, fun p hp => (ht p hp).consistent⟩

end

/-- The service is deleted, and its reload done. -/
def webDelete : List Action :=
  [.main (.reload (.serverChange (.delete "web"))), .main .writeServices, .main .wantTable,
    .main .removeEntry]

/-- A step that acknowledges nothing registers nothing. -/
theorem registersCurrent_of_acts {digest : Bytes → Digest} {M : Machine State Action} {s : State}
    {as : List Action} (ha : ∀ n, .conn n .ack ∉ as) {s' : State} (h : M.exec s as = some s') :
    Guarded (RegistersCurrent digest) (M.trace s as) := by
  intro p hp
  have hm := act_mem h hp
  unfold RegistersCurrent
  split
  · rename_i n e
    rw [e] at hm
    exact absurd hm (ha n)
  · trivial

/-- A client of the service is registered, and after that the service is deleted: its control channel
    leaves the table with it. -/
theorem consistent_iff_delete : ∃ (digest : Bytes → Digest) (tr : List (State × Action)) (s t : State)
    (d : ServiceDigest) (k : Nonce), (connections digest (webServer .tcp)).Run tr s ∧
      (t, .conn 0 .ack) ∈ tr ∧ Registers t 0 d (webService .tcp) k ∧
      s.services d = none ∧ s.control_channels.get1 d = none ∧
      Throughout (Consistent digest) tr s := by
  let nonce : Nonce := Vector.replicate 32 7
  let d := nameDigest leading "web"
  let k := sessionKey leading "secret" nonce
  let M := connections leading (webServer .tcp)
  -- up to the acknowledgement
  have h1 : (M.exec (initial leading (webServer .tcp))
      (webAnswer leading 0 nonce ++ [.conn 0 .takeTable])).map (fun t => ((t.conns[0]?).map Conn.phase,
        t.services d, t.control_channels.get1 d, t.control_channels.get2 k, t.ownedWithout 0)) =
      some (some (.acking d (webService .tcp) k), some (webService .tcp), none, none, true) := by
    decide +kernel
  obtain ⟨t, ht, he⟩ := Option.map_eq_some_iff.mp h1
  simp only [Prod.mk.injEq] at he
  obtain ⟨hp, hsv, h1, h2, ho⟩ := he
  have hr : Registers t 0 d (webService .tcp) k :=
    ⟨Option.map_eq_some_iff.mp hp, ⟨h1, h2⟩, ho⟩
  -- the acknowledgement, the reload
  have h3 : (M.exec (initial leading (webServer .tcp)) (webAnswer leading 0 nonce ++
      [.conn 0 .takeTable] ++ [.conn 0 .ack] ++ webDelete)).map (fun s =>
        (decide (s.services d = none), s.control_channels.get1 d)) = some (true, none) := by
    decide +kernel
  obtain ⟨s, hs, he⟩ := Option.map_eq_some_iff.mp h3
  simp only [Prod.mk.injEq, decide_eq_true_eq] at he
  rw [exec_append, exec_append, ht] at hs
  obtain ⟨u, hu, hs⟩ := Option.bind_eq_some_iff.mp hs
  have hack : M.step t (.conn 0 .ack) = some u := by simpa [exec] using hu
  have r := run_trace (.step (run_trace (.start rfl) ht) hack) hs
  refine ⟨leading, _, s, t, d, k, r, by simp, hr, he.1, he.2, (consistent_iff (webServer .tcp) r).2 ?_⟩
  refine List.forall_mem_append.mpr ⟨registersCurrent_of_acts (by simp [webDelete]) hs, ?_⟩
  refine List.forall_mem_cons.mpr ⟨fun d' cfg k' hr' => ?_, ?_⟩
  · obtain ⟨⟨c, hc, hcp⟩, -⟩ := hr
    obtain ⟨⟨c', hc', hcp'⟩, -⟩ := hr'
    cases hc.symm.trans hc'
    cases hcp.symm.trans hcp'
    exact Or.inl hsv
  · rw [List.append_nil]
    exact registersCurrent_of_acts (by simp [webAnswer]) ht

/-- **A deleted service is registered.** A handshake has looked the service up and awaits the
    client's answer; the service is deleted, the reload done; the client answers and its control
    channel goes into the table. Whatever the hash, hot reload and authentication are not
    consistent. -/
theorem deleted_service_registered : ¬ ∃ digest : Bytes → Digest, ∀ config tr s,
    (connections digest config).Run tr s → Consistent digest s := by
  intro ⟨digest, h⟩
  let nonce : Nonce := Vector.replicate _ 0
  let d := nameDigest digest "web"
  let k := sessionKey digest "secret" nonce
  let M := connections digest (webServer .tcp)
  let s1 := webState digest .tcp [⟨.readAuth d (webService .tcp) k, ACK_LEN⟩]
  let s2 : State := { s1 with services := Function.update s1.services d none }
  have h1 : M.Reachable s1 := reachable_challenged digest .tcp nonce
  have h2 : M.Leads s1 s2 := by
    have hd : M.Leads s1 _ := leads_delete (quiet_webState digest .tcp _) "web"
    rw [show s1.control_channels = .new from rfl, MultiMap.remove1_new] at hd
    exact hd
  have h3 : ∃ m : MultiMap ServiceDigest Nonce Nat, (∀ a b h, m.Entry a b h ↔ (a, b, h) = (d, k, 0)) ∧
      M.Leads s2 _ := leads_register (n := 0) (s := s2) ⟨rfl, rfl, rfl⟩ rfl rfl
  obtain ⟨m, hm, h3⟩ := h3
  obtain ⟨tr, r⟩ := (h1.leads h2).leads h3
  obtain ⟨cfg, _, hs⟩ := h _ tr _ r (fun _ => id) d k 0 ((hm d k 0).mpr rfl)
  rw [show State.services _ d = none from Function.update_self _ _ _] at hs
  cases hs

end Penetrate.Server
