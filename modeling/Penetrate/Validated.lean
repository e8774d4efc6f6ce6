/-
  File:      Penetrate/Validated.lean
  Subject:   VALIDATED SERVICES AT RUN TIME: where every service configuration comes from that the
             program holds, and why no unwrap of a token or of a retry interval fails.

  The supervisor of Supervisor.lean runs the instance, and each server it has started runs as in
  Server/Connections.lean; a hot reload reaches both.

  * `Holding` -- every configuration one server holds has `P`, and its services are filed under the
    hash of their names; `holding_step` keeps it while the reloads bring such configurations only;
  * `ServerProvided`, `ClientProvided` -- a configuration that validation made of one in a text;
  * `Program`, `program` -- the supervisor and its servers together;
  * `Sound` -- **the invariant**: all that is held, under way or passed on is provided by a text that
    was accepted;
  * `services_validated` -- hence the unwraps never fail.
-/
import Penetrate.Supervisor
import Penetrate.Server.Registration

namespace Penetrate

/-- What holds of all that a table has, one place changed. -/
theorem forall_update {δ ω : Type} [DecidableEq δ] {M : δ → Option ω} {Q : δ → ω → Prop}
    (h : ∀ d w, M d = some w → Q d w) {k : δ} {v : Option ω} (hv : ∀ w, v = some w → Q k w) :
    ∀ d w, Function.update M k v d = some w → Q d w := by
  intro d w hd
  by_cases he : d = k
  · subst he
    rw [Function.update_self] at hd
    exact hv w hd
  · rw [Function.update_of_ne he] at hd
    exact h d w hd

namespace Server

open Concurrent Machine

variable {digest : Bytes → Digest} {heartbeat_interval : UInt64}

/-! ## 1. What a server holds -/

/-- The configuration a handshake goes by. -/
def ConnPhase.cfg : ConnPhase → Option ServerServiceConfig
  | .readAuth _ cfg _ => some cfg
  | .awaitTable _ cfg _ => some cfg
  | .acking _ cfg _ => some cfg
  | _ => none

/-- The configuration the main task is adding. -/
def Main.cfg : Main → Option ServerServiceConfig
  | .addServices cfg => some cfg
  | .addTable cfg => some cfg
  | _ => none

/-- The configurations the handles were created with. -/
def State.held (s : State) : List ServerServiceConfig := s.handles.map Handle.service

/-- Handles that change in their states alone. -/
theorem service_map {hs hs' : List Handle} {f : Nat → Handle → Handle}
    (h : ∀ k, hs'[k]? = (hs[k]?).map (f k)) (hf : ∀ k x, (f k x).service = x.service) :
    hs'.map Handle.service = hs.map Handle.service := by
  refine List.ext_getElem? fun k => ?_
  rw [List.getElem?_map, List.getElem?_map, h k]
  cases hs[k]? with
  | none => rfl
  | some x => exact congrArg some (hf k x)

theorem service_dropHandle (hs : List Handle) (o : Option Nat) :
    (dropHandle hs o).map Handle.service = hs.map Handle.service := by
  refine service_map (getElem?_dropHandle hs o) fun k x => ?_
  split <;> rfl

theorem held_settle (s : State) : s.settle.held = s.held := by
  refine service_map getElem?_settle fun k x => ?_
  split <;> rfl

theorem held_endConn (s : State) (n : Nat) (c : Conn) : (s.endConn n c).held = s.held :=
  held_settle _

theorem service_set {hs : List Handle} {h : Nat} {x : Handle} (hx : hs[h]? = some x)
    (state : Service) : (hs.set h { x with state := state }).map Handle.service =
      hs.map Handle.service := by
  obtain ⟨hl, rfl⟩ := List.getElem?_eq_some_iff.mp hx
  rw [List.map_set]
  have hl' : h < (hs.map Handle.service).length := by rwa [List.length_map]
  have hs' : hs[h].service = (hs.map Handle.service)[h] := (List.getElem_map ..).symm
  rw [hs']
  exact List.set_getElem_self hl'

theorem held_register (s : State) (d : ServiceDigest) (cfg : ServerServiceConfig) (k : Digest) :
    (s.register heartbeat_interval d cfg k).held = s.held ++ [cfg] := by
  obtain ⟨x, hx, hh, -⟩ := register_cases heartbeat_interval s d cfg k
  unfold State.held
  rw [hh, List.map_append, List.map_singleton, hx]

variable (digest) in
/-- Every configuration the server holds has `P`, and its services are filed under the hashes of
    their names. -/
structure Holding (P : ServerServiceConfig → Prop) (s : State) : Prop where
  services : ∀ d cfg, s.services d = some cfg → P cfg ∧ d = nameDigest digest cfg.name
  main : ∀ cfg, s.main.cfg = some cfg → P cfg
  conns : ∀ c ∈ s.conns, ∀ cfg, c.phase.cfg = some cfg → P cfg
  handles : ∀ cfg ∈ s.held, P cfg

variable {P : ServerServiceConfig → Prop} {s s' : State}

/-- The services a server starts with. -/
theorem holding_initial {config : ServerConfig}
    (h : ∀ n cfg, config.services.lookup n = some cfg → cfg.name = n ∧ P cfg) :
    Holding digest P (initial digest config) where
  services d cfg hd := by
    have hd' : generate_service_hashmap digest config d = some cfg := hd
    obtain ⟨n, s, hl, hk, rfl⟩ := Collections.HashMap.indexBy_eq_some hd'
    obtain ⟨rfl, hP⟩ := h n s hl
    exact ⟨hP, hk.symm⟩
  main cfg h := by cases h
  conns c h := by cases h
  handles cfg h := by cases h

/-- A connection moves to a phase with the configuration it has, or with one that has `P`. -/
theorem Holding.conn (hI : Holding digest P s) {n : Nat} {c' : Conn}
    (hc : ∀ cfg, c'.phase.cfg = some cfg → P cfg) :
    ∀ c ∈ s.conns.set n c', ∀ cfg, c.phase.cfg = some cfg → P cfg := by
  intro c hm
  rcases List.mem_or_eq_of_mem_set hm with hm | rfl
  · exact hI.conns c hm
  · exact hc

/-- Guards come and go. -/
theorem Holding.locks (hI : Holding digest P s) (l l' : RwLock Task) :
    Holding digest P { s with servicesLock := l, channelsLock := l' } :=
  ⟨hI.services, hI.main, hI.conns, hI.handles⟩

/-- The tasks of a handle do not change what it was created with. -/
theorem Holding.handleMoves (hI : Holding digest P s) {h : Nat} {x : Handle}
    (hx : s.handles[h]? = some x) (state : Service) :
    Holding digest P { s with handles := s.handles.set h { x with state := state } } := by
  refine { hI with handles := ?_ }
  show ∀ cfg ∈ (s.handles.set h { x with state := state }).map Handle.service, P cfg
  rw [service_set hx]
  exact hI.handles

/-- Nor does the loss of its sender. -/
theorem Holding.dropped (hI : Holding digest P s) (o : Option Nat) :
    ∀ cfg ∈ (dropHandle s.handles o).map Handle.service, P cfg := by
  rw [service_dropHandle]
  exact hI.handles

/-- A connection task returns, what it held with it. -/
theorem Holding.endConn (hI : Holding digest P s) (n : Nat) (c : Conn) :
    Holding digest P (s.endConn n c) where
  services := by
    rw [endConn_services]
    exact hI.services
  main := by
    rw [endConn_main]
    exact hI.main
  conns := by
    rw [endConn_conns]
    exact hI.conn fun cfg h => by cases h
  handles := by
    rw [held_endConn]
    exact hI.handles

theorem holding_main {a : MainAct} (hI : Holding digest P s) (h : MainStep digest s a s')
    (ha : ∀ cfg, a = .reload (.serverChange (.add cfg)) → P cfg) : Holding digest P s' := by
  cases h with
  | accept hm => exact { hI with main := fun cfg h => by cases h }
  | handshakeFailed hm => exact { hI with main := fun cfg h => by cases h }
  | spawn room hm =>
      refine { hI with main := (fun cfg h => by cases h), conns := fun c hc => ?_ }
      rcases List.mem_append.mp hc with hc | hc
      · exact hI.conns c hc
      · rw [List.mem_singleton.mp hc]
        intro cfg h
        cases h
  | reloadAdd cfg hm =>
      refine { hI with main := fun x h => ?_ }
      cases h
      exact ha _ rfl
  | reloadDelete name hm => exact { hI with main := fun cfg h => by cases h }
  | reloadIgnored e hm => exact hI
  | addServices cfg hm hw =>
      have hcfg : P cfg := hI.main cfg (by rw [hm]; rfl)
      refine { hI with services := forall_update hI.services (fun x hx => ?_), main := fun x h => ?_ }
      · cases hx
        exact ⟨hcfg, rfl⟩
      · cases h
        exact hcfg
  | delServices name hm hw =>
      exact { hI with
        services := forall_update hI.services fun x hx => by cases hx
        main := fun x h => by cases h }
  | wantTable name hm => exact { hI with main := fun cfg h => by cases h }
  | addTable cfg hm hw =>
      exact { hI with main := (fun cfg h => by cases h), handles := hI.dropped _ }
  | delTable name hm hw =>
      exact { hI with main := (fun cfg h => by cases h), handles := hI.dropped _ }
  | shutdown hm =>
      constructor
      · rw [settle_services]
        exact hI.services
      · rw [settle_main]
        exact fun cfg h => by cases h
      · rw [settle_conns]
        exact hI.conns
      · rw [held_settle]
        exact hI.handles

theorem holding_conn {n : Nat} {c : Conn} {a : ConnAct} (hI : Holding digest P s)
    (hc : s.conns[n]? = some c) (h : ConnStep digest heartbeat_interval s n c a s') :
    Holding digest P s' := by
  have hcfg := hI.conns c (List.mem_of_getElem? hc)
  cases h with
  | ends a c' hp => exact hI.endConn n c'
  | endsServices a c' hp hw => exact (hI.locks _ _).endConn n c'
  | ackError d cfg k hp => exact (hI.locks _ _).endConn n c
  | notFound nonce hp hw hf => exact (hI.locks _ _).endConn n c
  | peerReads k => exact { hI with conns := hI.conn hcfg }
  | helloControl d hp => exact { hI with conns := hI.conn fun cfg h => by cases h }
  | helloData nonce hp => exact { hI with conns := hI.conn fun cfg h => by cases h }
  | sendHello d nonce c' hp hw => exact { hI with conns := hI.conn fun cfg h => by cases h }
  | lookupMissing d nonce hp hw hs => exact { hI with conns := hI.conn fun cfg h => by cases h }
  | lookup d nonce cfg t hp hw hs ht =>
      refine { hI with conns := hI.conn fun x h => ?_ }
      cases h
      exact (hI.services d cfg hs).1
  | auth d cfg k hp =>
      refine { hI with conns := hI.conn fun x h => ?_ }
      cases h
      exact hcfg cfg (by rw [hp]; rfl)
  | authWrong d cfg k x hp hx => exact { hI with conns := hI.conn fun cfg h => by cases h }
  | takeTable d cfg k hp hw =>
      refine { hI with conns := (hI.conn fun x h => ?_), handles := hI.dropped _ }
      cases h
      exact hcfg cfg (by rw [hp]; rfl)
  | ack d cfg k c' hp hw =>
      have hr : Holding digest P (s.register heartbeat_interval d cfg k) := by
        constructor
        · rw [register_services]
          exact hI.services
        · rw [register_main]
          exact hI.main
        · rw [register_conns]
          exact hI.conns
        · rw [held_register]
          intro x hx
          rcases List.mem_append.mp hx with hx | hx
          · exact hI.handles x hx
          · rw [List.mem_singleton.mp hx]
            exact hcfg cfg (by rw [hp]; rfl)
      exact (hr.locks _ _).endConn n c'
  | findSent nonce h x state hp hw hf hx hn hs =>
      exact ((hI.handleMoves hx state).locks _ _).endConn n c
  | findWaits nonce h x hp hw hf hx he hs =>
      exact { hI with conns := hI.conn fun cfg h => by cases h }
  | send h x state hp hx hs => exact ((hI.handleMoves hx state).locks _ _).endConn n c

/-- **One step of the server keeps this**, while the reloads bring such configurations only. -/
theorem holding_step {a : Action} (hI : Holding digest P s)
    (h : step digest heartbeat_interval s a = some s')
    (ha : ∀ cfg, a = .main (.reload (.serverChange (.add cfg))) → P cfg) : Holding digest P s' := by
  cases step_cases h with
  | main h => exact holding_main hI h fun cfg e => ha cfg (by rw [e])
  | conn c hc h => exact holding_conn hI hc h
  | service k b x state hx ho hs => exact hI.handleMoves hx state

end Server

open Concurrent Machine Collections

/-! ## 2. Where the configurations come from -/

section

variable {Seed : Type} (toml : Seed → String → Except String Config) (texts : Set String)

/-- The configuration was read from one of the texts. -/
def Accepted (c : Config) : Prop := ∃ σ, ∃ t ∈ texts, Config.from_str toml σ t = .ok c

/-- Validation made the service of one in the server section of an accepted text. -/
def ServerProvided (s : ServerServiceConfig) : Prop :=
  ∃ σ, ∃ t ∈ texts, ∃ raw c sec, toml σ t = .ok raw ∧ Config.validate raw = .ok c ∧
    raw.server = some sec ∧ sec.Provides s

def ClientProvided (s : ClientServiceConfig) : Prop :=
  ∃ σ, ∃ t ∈ texts, ∃ raw c sec, toml σ t = .ok raw ∧ Config.validate raw = .ok c ∧
    raw.client = some sec ∧ sec.Provides s

/-- What a change carries comes from an accepted text. -/
def ChangeProvided : ConfigChange → Prop
  | .general c => Accepted toml texts c
  | .serverChange (.add cfg) => ServerProvided toml texts cfg
  | .clientChange (.add cfg) => ClientProvided toml texts cfg
  | _ => True

variable {toml texts}

theorem ServerProvided.token {s : ServerServiceConfig} (h : ServerProvided toml texts s) :
    s.token ≠ none := by
  obtain ⟨_, _, _, _, _, _, _, _, _, _, _, _, ht⟩ := h
  intro hn
  rw [hn] at ht
  cases ht

theorem ClientProvided.retry_interval {s : ClientServiceConfig} (h : ClientProvided toml texts s) :
    s.retry_interval.isSome = true := by
  obtain ⟨_, _, _, _, _, _, _, _, _, hp⟩ := h
  exact hp.retry_interval

/-- The services of an accepted configuration carry their keys, and are provided by its text. -/
theorem Accepted.server {c : Config} (h : Accepted toml texts c) {n : String}
    {s : ServerServiceConfig} (hs : c.serverService n = some s) :
    s.name = n ∧ ServerProvided toml texts s := by
  obtain ⟨σ, t, ht, hc⟩ := h
  obtain ⟨raw, hraw, hv⟩ := Config.from_str_ok hc
  obtain ⟨sec', hsec', hl⟩ := Option.bind_eq_some_iff.mp hs
  rcases Config.validateSection_ok (Config.validate_ok hv).1 with ⟨-, hn⟩ | ⟨sec, sec'', h1, h2, h3⟩
  · rw [hsec'] at hn
    cases hn
  · rw [hsec'] at h3
    cases h3
    obtain ⟨hn, hp⟩ := Config.validate_server_config_services h2 hl
    exact ⟨hn, σ, t, ht, raw, c, sec, hraw, hv, h1, hp⟩

theorem Accepted.client {c : Config} (h : Accepted toml texts c) {n : String}
    {s : ClientServiceConfig} (hs : c.clientService n = some s) :
    s.name = n ∧ ClientProvided toml texts s := by
  obtain ⟨σ, t, ht, hc⟩ := h
  obtain ⟨raw, hraw, hv⟩ := Config.from_str_ok hc
  obtain ⟨sec', hsec', hl⟩ := Option.bind_eq_some_iff.mp hs
  rcases Config.validateSection_ok (Config.validate_ok hv).2.1 with
    ⟨-, hn⟩ | ⟨sec, sec'', h1, h2, h3⟩
  · rw [hsec'] at hn
    cases hn
  · rw [hsec'] at h3
    cases h3
    obtain ⟨hn, hp⟩ := Config.validate_client_config_services h2 hl
    exact ⟨hn, σ, t, ht, raw, c, sec, hraw, hv, h1, hp⟩

/-- What an event carries of an accepted configuration is provided by its text. -/
theorem Accepted.change {c : Config} (h : Accepted toml texts c) {e : ConfigChange} (he : e.Of c) :
    ChangeProvided toml texts e := by
  cases e with
  | general config =>
      rw [show config = c from he]
      exact h
  | serverChange x =>
      cases x with
      | add cfg =>
          obtain ⟨n, hn⟩ := he
          exact (h.server hn).2
      | delete name => exact trivial
  | clientChange x =>
      cases x with
      | add cfg =>
          obtain ⟨n, hn⟩ := he
          exact (h.client hn).2
      | delete name => exact trivial

/-! ## 3. The instance -/

variable (digest : Bytes → Digest) (toml texts)

/-- What a running instance holds is provided by accepted texts, and filed under its names. -/
def InstanceProvided : Instance → Prop
  | .server sv => ∀ d cfg, sv.services d = some cfg →
      ServerProvided toml texts cfg ∧ d = nameDigest digest cfg.name
  | .client cl => ∀ n h, cl.service_handles n = some h →
      ClientProvided toml texts h.service ∧ n = h.service.name

def TaskProvided : Task → Prop
  | .starting c => Accepted toml texts c
  | .running i => InstanceProvided toml texts digest i
  | .hung i => InstanceProvided toml texts digest i
  | _ => True

variable {digest toml texts}

/-- **No unwrap of a retry interval fails as a client starts.** -/
theorem Accepted.client_start {c : Config} (h : Accepted toml texts c) {sec : ClientConfig}
    (hs : c.client = some sec) : ∃ M, Client.start sec = some ⟨sec, M⟩ ∧
      ∀ n x, M n = some x → ClientProvided toml texts x.service ∧ n = x.service.name := by
  obtain ⟨σ, t, ht, hc⟩ := h
  obtain ⟨M, hM, hidx⟩ := Penetrate.client_start ((Config.from_str_valid hc).client sec hs)
  refine ⟨M, hM, fun n x hx => ?_⟩
  obtain ⟨k, v, hl, rfl, rfl⟩ := (hidx n x).mp hx
  have hv : c.clientService k = some v := by rw [Config.clientService, hs]; exact hl
  obtain ⟨hn, hp⟩ := Accepted.client ⟨σ, t, ht, hc⟩ hv
  exact ⟨hp, hn.symm⟩

theorem run_instance_provided {args : Cli} {c : Config} {i : Instance} (h : Accepted toml texts c)
    (hi : run_instance digest args c = some i) : InstanceProvided toml texts digest i := by
  unfold run_instance at hi
  split at hi
  · obtain ⟨sec, hs, rfl⟩ := Option.map_eq_some_iff.mp hi
    intro d cfg hd
    have hd' : generate_service_hashmap digest sec d = some cfg := hd
    obtain ⟨n, s, hl, rfl, rfl⟩ := HashMap.indexBy_eq_some hd'
    have hv : c.serverService n = some s := by rw [Config.serverService, hs]; exact hl
    obtain ⟨rfl, hp⟩ := h.server hv
    exact ⟨hp, rfl⟩
  · obtain ⟨sec, hs, hi⟩ := Option.bind_eq_some_iff.mp hi
    obtain ⟨M, hM, hprov⟩ := h.client_start hs
    rw [hM] at hi
    cases hi
    exact hprov
  · cases hi

/-- **Nor as it applies a change**, and what it then holds is provided too. -/
theorem hot_reload_provided {i : Instance} {e : ConfigChange}
    (hi : InstanceProvided toml texts digest i) (he : ChangeProvided toml texts e) :
    ∃ i', i.handle_hot_reload digest e = some i' ∧ InstanceProvided toml texts digest i' := by
  cases i with
  | server sv =>
      refine ⟨_, rfl, ?_⟩
      cases e with
      | general c => exact hi
      | clientChange x => exact hi
      | serverChange x =>
          cases x with
          | add cfg =>
              refine forall_update hi fun w hw => ?_
              cases hw
              exact ⟨he, rfl⟩
          | delete name => exact forall_update hi fun w hw => by cases hw
  | client cl =>
      cases e with
      | general c => exact ⟨_, rfl, hi⟩
      | serverChange x => exact ⟨_, rfl, hi⟩
      | clientChange x =>
          cases x with
          | delete name => exact ⟨_, rfl, forall_update hi fun w hw => by cases hw⟩
          | add cfg =>
              obtain ⟨r, hr⟩ := Option.isSome_iff_exists.mp
                (ClientProvided.retry_interval (show ClientProvided toml texts cfg from he))
              obtain ⟨x, hx, rfl⟩ : ∃ x, ControlChannelHandle.new cfg cl.config.remote_addr
                  cl.config.transport cl.config.heartbeat_timeout = some x ∧ x.service = cfg := by
                unfold ControlChannelHandle.new
                rw [hr]
                exact ⟨_, rfl, rfl⟩
              refine ⟨.client { cl with
                service_handles := Function.update cl.service_handles x.service.name (some x) },
                ?_, forall_update hi fun w hw => ?_⟩
              · show ((ControlChannelHandle.new x.service _ _ _).map _).map Instance.client = _
                rw [hx]
                rfl
              · cases hw
                exact ⟨he, rfl⟩

/-! ## 4. The supervisor -/

variable (toml texts digest) in
/-- All that the supervisor holds or has under way is provided by accepted texts. -/
structure SupervisorSound (s : Supervisor) : Prop where
  old : Accepted toml texts s.old
  events : ∀ e ∈ s.events, ChangeProvided toml texts e
  forwarding : ∀ e, s.router = .forwarding e → ChangeProvided toml texts e
  restarting : ∀ c, s.router = .restarting c → Accepted toml texts c
  updates : ∀ i, s.last_instance = some i → ∀ e ∈ i.updates.items, ChangeProvided toml texts e
  task : ∀ i, s.last_instance = some i → TaskProvided toml texts digest i.task

variable {args : Cli} {s s' : Supervisor}

/-- The instance moves on. -/
theorem SupervisorSound.instance_moves (hI : SupervisorSound toml texts digest s) {i : LastInstance}
    (hu : ∀ e ∈ i.updates.items, ChangeProvided toml texts e)
    (ht : TaskProvided toml texts digest i.task) :
    SupervisorSound toml texts digest { s with last_instance := some i } := by
  refine { hI with updates := (fun j hj => ?_), task := fun j hj => ?_ }
  · cases hj
    exact hu
  · cases hj
    exact ht

/-- The router has nothing in hand. -/
theorem SupervisorSound.idle (hI : SupervisorSound toml texts digest s) {r : Router}
    (hr : r = .recv ∨ r = .stopped) : SupervisorSound toml texts digest { s with router := r } := by
  refine { hI with forwarding := (fun e h => ?_), restarting := fun c h => ?_ }
  · have h' : r = .forwarding e := h
    rcases hr with rfl | rfl <;> cases h'
  · have h' : r = .restarting c := h
    rcases hr with rfl | rfl <;> cases h'

/-- The router takes the next event. -/
theorem SupervisorSound.routes (hI : SupervisorSound toml texts digest s) {e : ConfigChange}
    {rest : List ConfigChange} (he : s.events = e :: rest) :
    ChangeProvided toml texts e ∧ ∀ x ∈ rest, ChangeProvided toml texts x := by
  have h := hI.events
  rw [he] at h
  exact List.forall_mem_cons.mp h

/-- The instance takes the next change, and applies it. -/
theorem SupervisorSound.applies (hI : SupervisorSound toml texts digest s) {i : LastInstance}
    {r r' : Instance} {e : ConfigChange} {q : Mpsc ConfigChange 1024} (hi : s.last_instance = some i)
    (ht : i.task = .running r) (hq : i.updates.recv = some (e, q))
    (hr : r.handle_hot_reload digest e = some r') :
    (∀ x ∈ q.items, ChangeProvided toml texts x) ∧ InstanceProvided toml texts digest r' := by
  have hu := hI.updates i hi
  rw [Mpsc.recv_eq_some hq] at hu
  obtain ⟨he, hrest⟩ := List.forall_mem_cons.mp hu
  have hir := hI.task i hi
  rw [ht] at hir
  obtain ⟨r'', hr'', hprov⟩ := hot_reload_provided hir he
  cases hr.symm.trans hr''
  exact ⟨hrest, hprov⟩

theorem supervisorSound_step {a : SupervisorAct Seed} (hI : SupervisorSound toml texts digest s)
    (h : Supervisor.step toml digest args s a = some s')
    (ha : ∀ σ t, a = .rescan σ t → t ∈ texts) : SupervisorSound toml texts digest s' := by
  cases supervisor_cases h with
  | rescanInvalid σ text hp => exact hI
  | rescan σ text new hp =>
      have hnew : Accepted toml texts new := ⟨σ, text, ha σ text rfl, hp⟩
      refine { hI with old := hnew, events := fun e he => ?_ }
      rcases List.mem_append.mp he with he | he
      · exact hI.events e he
      · cases hc : calculate_events s.old new with
        | none =>
            rw [hc] at he
            cases he
        | some evs =>
            rw [hc] at he
            exact hnew.change (calculate_events_of hc e he)
  | first config rest hr he hi =>
      obtain ⟨hc, hrest⟩ := hI.routes he
      refine { hI.instance_moves (i := spawn config) (fun e he => by cases he) hc with
        events := hrest }
  | general config rest i hr he hi hal =>
      obtain ⟨hc, hrest⟩ := hI.routes he
      refine { hI.instance_moves (i := { i with shutdown := true }) (hI.updates i hi)
        (hI.task i hi) with
        events := hrest
        forwarding := fun e h => by cases h
        restarting := fun c h => ?_ }
      cases h
      exact hc
  | generalDead config rest i hr he hi hal =>
      exact { hI.idle (.inr rfl) with events := (hI.routes he).2 }
  | drop ev rest hr he hn hi => exact { hI with events := (hI.routes he).2 }
  | route ev rest i hr he hn hi =>
      obtain ⟨hev, hrest⟩ := hI.routes he
      refine { hI with
        events := hrest
        forwarding := (fun e h => ?_)
        restarting := fun c h => by cases h }
      cases h
      exact hev
  | forward ev i q hr hi hal hq =>
      refine (hI.idle (.inl rfl)).instance_moves (i := { i with updates := q }) (fun e he => ?_)
        (hI.task i hi)
      have he' : e ∈ q.items := he
      rw [(Mpsc.send_eq_some hq).1, List.mem_append, List.mem_singleton] at he'
      rcases he' with he' | rfl
      · exact hI.updates i hi e he'
      · exact hI.forwarding e hr
  | forwardDead ev i hr hi hal => exact hI.idle (.inl rfl)
  | restart config i hr hi ht =>
      exact (hI.idle (.inl rfl)).instance_moves (i := spawn config) (fun e he => by cases he)
        (hI.restarting config hr)
  | restartFailed config i hr hi ht => exact hI.idle (.inr rfl)
  | boot config i r hi ht hr =>
      have hc := hI.task i hi
      rw [ht] at hc
      exact hI.instance_moves (i := { i with task := .running r }) (hI.updates i hi)
        (run_instance_provided hc hr)
  | bootFailed config i hi ht hr =>
      exact hI.instance_moves (i := { i with task := .failed }) (hI.updates i hi) trivial
  | apply i r r' e q hi ht hq hr =>
      obtain ⟨hrest, hprov⟩ := hI.applies hi ht hq hr
      exact hI.instance_moves (i := { i with task := .running r', updates := q }) hrest hprov
  | hang i r r' e q hi ht hq hg hr =>
      obtain ⟨hrest, hprov⟩ := hI.applies hi ht hq hr
      exact hI.instance_moves (i := { i with task := .hung r', updates := q }) hrest hprov
  | applyFailed i r e q hi ht hq hr =>
      have hu := hI.updates i hi
      rw [Mpsc.recv_eq_some hq] at hu
      exact hI.instance_moves (i := { i with task := .failed, updates := q })
        (List.forall_mem_cons.mp hu).2 trivial
  | stop i r hi ht hs =>
      exact hI.instance_moves (i := { i with task := .finished }) (hI.updates i hi) trivial
  | fail i hi hal =>
      exact hI.instance_moves (i := { i with task := .failed }) (hI.updates i hi) trivial

theorem supervisorSound_start {text : String} (ht : text ∈ texts)
    (h : (supervisor toml digest args text).start s) : SupervisorSound toml texts digest s := by
  obtain ⟨σ, config, hc, rfl⟩ := h
  have hacc : Accepted toml texts config := ⟨σ, text, ht, hc⟩
  refine ⟨hacc, fun e he => ?_, ?_, ?_, ?_, ?_⟩
  · rw [List.mem_singleton.mp he]
    exact hacc
  all_goals
    intro x hx
    cases hx

/-! ## 5. The supervisor and its servers -/

/-- The tasks of a server instance. -/
structure ServerTask where
  config : ServerConfig
  state : Server.State

/-- The supervisor, and the servers it has started, the current one first. -/
structure Program where
  supervisor : Supervisor
  servers : List ServerTask

inductive ProgramAct (Seed : Type) where
  | supervisor (a : SupervisorAct Seed)
  | server (k : Nat) (a : Server.Action)

/-- The supervisor's part in the main task of the current server. -/
def mainAct (s : Supervisor) : SupervisorAct Seed → Option Server.MainAct
  | .apply | .hang => match s.last_instance with
    | some i => match i.task with
      | .running (.server _) => i.updates.items.head?.map .reload
      | _ => none
    | none => none
  | .stop => match s.last_instance with
    | some i => match i.task with
      | .running (.server _) => some .shutdown
      | _ => none
    | none => none
  | _ => none

variable (digest) in
/-- A server that has just started. -/
def started (s : Supervisor) : SupervisorAct Seed → List ServerTask
  | .boot => match s.last_instance with
    | some i => match i.task with
      | .running (.server sv) => [⟨sv.config, Server.initial digest sv.config⟩]
      | _ => []
    | none => []
  | _ => []

variable (digest) in
def ServerTask.step (t : ServerTask) (a : Server.Action) : Option ServerTask :=
  (Server.step digest t.config.heartbeat_interval t.state a).map fun state => { t with state := state }

/-- What a server does without the supervisor. -/
def ownAct : Server.Action → Bool
  | .main (.reload _) => false
  | .main .shutdown => false
  | _ => true

variable (toml digest args) in
def Program.step (s : Program) : ProgramAct Seed → Option Program
  | .supervisor a => (Supervisor.step toml digest args s.supervisor a).bind fun sup =>
      match mainAct s.supervisor a, s.servers with
      | none, servers => some ⟨sup, started digest sup a ++ servers⟩
      | some b, t :: rest => (t.step digest (.main b)).map fun t => ⟨sup, t :: rest⟩
      | some _, [] => none
  | .server k a =>
      if ownAct a then
        (s.servers[k]?).bind fun t => (t.step digest a).map fun t =>
          { s with servers := s.servers.set k t }
      else none

variable (toml digest args) in
/-- **The program with its servers**, started on a file with the content `text`. -/
def program (text : String) : Machine Program (ProgramAct Seed) where
  start s := (supervisor toml digest args text).start s.supervisor ∧ s.servers = []
  step := Program.step toml digest args

/-- The texts the program has read. -/
def textsRead (text : String) (tr : List (Program × ProgramAct Seed)) : Set String :=
  {t | t = text ∨ ∃ s σ, (s, .supervisor (.rescan σ t)) ∈ tr}

variable (toml texts digest) in
/-- **All that is held, under way or passed on is provided by accepted texts.** -/
structure Sound (s : Program) : Prop where
  supervisor : SupervisorSound toml texts digest s.supervisor
  servers : ∀ t ∈ s.servers, Server.Holding digest (ServerProvided toml texts) t.state

/-- What the supervisor brings to a server comes out of its update queue. -/
theorem mainAct_provided {s : Supervisor} (hI : SupervisorSound toml texts digest s)
    {a : SupervisorAct Seed} {cfg : ServerServiceConfig}
    (h : mainAct s a = some (.reload (.serverChange (.add cfg)))) :
    ServerProvided toml texts cfg := by
  unfold mainAct at h
  split at h
  case h_1 | h_2 =>
    split at h
    · rename_i i hi
      split at h
      · obtain ⟨e, he, hr⟩ := Option.map_eq_some_iff.mp h
        cases hr
        exact hI.updates i hi _ (List.mem_of_mem_head? he)
      · cases h
    · cases h
  case h_3 =>
    split at h
    · split at h <;> cases h
    · cases h
  case h_4 => cases h

/-- A server starts with the services of the configuration its instance was given. -/
theorem started_holding {s s' : Supervisor} (hI : SupervisorSound toml texts digest s)
    {a : SupervisorAct Seed} (h : Supervisor.step toml digest args s a = some s') :
    ∀ t ∈ started digest s' a, Server.Holding digest (ServerProvided toml texts) t.state := by
  intro t ht
  cases supervisor_cases h with
  | boot config i r hi htask hr =>
      cases r with
      | client cl => cases ht
      | server sv =>
          rw [show t = ⟨sv.config, _⟩ from List.mem_singleton.mp ht]
          have hc : Accepted toml texts config := by
            have h := hI.task i hi
            rwa [htask] at h
          unfold run_instance at hr
          split at hr
          · obtain ⟨sec, hs, hsv⟩ := Option.map_eq_some_iff.mp hr
            cases hsv
            refine Server.holding_initial fun n cfg hl => hc.server ?_
            rw [Config.serverService, hs]
            exact hl
          · obtain ⟨sec, hs, hsv⟩ := Option.bind_eq_some_iff.mp hr
            obtain ⟨cl, -, hcl⟩ := Option.map_eq_some_iff.mp hsv
            cases hcl
          · cases hr
  | bootFailed config i hi htask hr => cases ht
  | _ => cases ht

theorem ServerTask.step_holding {t t' : ServerTask} {b : Server.Action}
    (hI : Server.Holding digest (ServerProvided toml texts) t.state) (h : t.step digest b = some t')
    (hb : ∀ cfg, b = .main (.reload (.serverChange (.add cfg))) → ServerProvided toml texts cfg) :
    Server.Holding digest (ServerProvided toml texts) t'.state := by
  obtain ⟨state, hs, rfl⟩ := Option.map_eq_some_iff.mp h
  exact Server.holding_step hI hs hb

/-- **One step of the program keeps this**, while it reads the texts only. -/
theorem sound_step {s s' : Program} {a : ProgramAct Seed} (hI : Sound toml texts digest s)
    (h : Program.step toml digest args s a = some s')
    (ha : ∀ σ t, a = .supervisor (.rescan σ t) → t ∈ texts) : Sound toml texts digest s' := by
  cases a with
  | supervisor b =>
      obtain ⟨sup, hsup, h⟩ := Option.bind_eq_some_iff.mp h
      have hs := supervisorSound_step hI.supervisor hsup fun σ t e => ha σ t (by rw [e])
      split at h
      · cases h
        refine ⟨hs, fun t ht => ?_⟩
        rcases List.mem_append.mp ht with ht | ht
        · exact started_holding hI.supervisor hsup t ht
        · exact hI.servers t ht
      · rename_i b t rest hb hservers
        obtain ⟨t', ht', rfl⟩ := Option.map_eq_some_iff.mp h
        have hI' := hI.servers
        rw [hservers] at hI'
        obtain ⟨ht, hrest⟩ := List.forall_mem_cons.mp hI'
        refine ⟨hs, List.forall_mem_cons.mpr
          ⟨ServerTask.step_holding ht ht' fun cfg e => ?_, hrest⟩⟩
        cases e
        exact mainAct_provided hI.supervisor hb
      · cases h
  | server k b =>
      rw [Program.step] at h
      split at h
      · rename_i hown
        obtain ⟨t, ht, h⟩ := Option.bind_eq_some_iff.mp h
        obtain ⟨t', ht', rfl⟩ := Option.map_eq_some_iff.mp h
        refine ⟨hI.supervisor, fun u hu => ?_⟩
        rcases List.mem_or_eq_of_mem_set hu with hu | rfl
        · exact hI.servers u hu
        · refine ServerTask.step_holding (hI.servers t (List.mem_of_getElem? ht)) ht' fun cfg e => ?_
          rw [e] at hown
          cases hown
      · cases h

/-- No unwrap fails: of a retry interval as a client starts or applies a change, of a token as a
    handshake looks a service up. -/
structure UnwrapsSucceed (digest : Bytes → Digest) (s : Program) : Prop where
  start : ∀ i c sec, s.supervisor.last_instance = some i → i.task = .starting c →
    c.client = some sec → Client.start sec ≠ none
  reload : ∀ i r e q, s.supervisor.last_instance = some i → i.task = .running r →
    i.updates.recv = some (e, q) → r.handle_hot_reload digest e ≠ none
  token : ∀ t ∈ s.servers, ∀ d cfg, t.state.services d = some cfg → cfg.token ≠ none

theorem Sound.unwraps {s : Program} (hI : Sound toml texts digest s) : UnwrapsSucceed digest s where
  start i c sec hi ht hs := by
    have hc := hI.supervisor.task i hi
    rw [ht] at hc
    obtain ⟨M, hM, -⟩ := Accepted.client_start hc hs
    rw [hM]
    simp
  reload i r e q hi ht hq := by
    have hu := hI.supervisor.updates i hi
    rw [Mpsc.recv_eq_some hq] at hu
    have hr := hI.supervisor.task i hi
    rw [ht] at hr
    obtain ⟨r', hr', -⟩ := hot_reload_provided hr (hu e List.mem_cons_self)
    rw [hr']
    simp
  token t ht d cfg hd := ((hI.servers t ht).services d cfg hd).1.token

/-- **Validated services never trip the program**: whatever it is started on and reads later, every
    service configuration it holds, has under way or passes on is one an accepted text provides,
    under its name and with a token, and on the client with a retry interval; each server files its
    services under the hashes of their names; and no unwrap fails. -/
theorem services_validated {text : String} {tr : List (Program × ProgramAct Seed)} {s : Program}
    (r : (program toml digest args text).Run tr s) :
    Sound toml (textsRead text tr) digest s ∧ UnwrapsSucceed digest s := by
  have hguard : Guarded (fun (_ : Program) (a : ProgramAct Seed) =>
      ∀ σ t, a = .supervisor (.rescan σ t) → t ∈ textsRead text tr) tr := by
    rintro ⟨p, a⟩ hp σ t rfl
    exact Or.inr ⟨p, σ, hp⟩
  have hs : Sound toml (textsRead text tr) digest s := by
    refine r.inv (fun s h => ?_) (fun s a s' hI ha h => ?_) hguard
    · refine ⟨supervisorSound_start (Or.inl rfl) h.1, fun t ht => ?_⟩
      rw [h.2] at ht
      cases ht
    · have hstep : Program.step toml digest args s a = some s' := h
      exact sound_step hI hstep ha
  exact ⟨hs, hs.unwraps⟩

end

/-- The server starts; its file changes, and the change reaches its main task. -/
def moveWeb : List (ProgramAct Unit) :=
  [.supervisor .route, .supervisor .boot, .supervisor (.rescan () (webText "0.0.0.0:81")),
    .supervisor .route, .supervisor .forward, .supervisor .apply,
    .server 0 (.main .writeServices)]

/-- The server of `webText` moves its service to another port: what its task then has is provided by
    the second text. -/
theorem services_validated_web : ∃ tr s t cfg,
    (program webToml webDigest ⟨false, false⟩ (webText "0.0.0.0:80")).Run tr s ∧ t ∈ s.servers ∧
      t.state.services (nameDigest webDigest "web") = some cfg ∧ cfg.bind_addr = "0.0.0.0:81" ∧
      ServerProvided webToml (textsRead (webText "0.0.0.0:80") tr) cfg := by
  obtain ⟨c, hc, h⟩ : ∃ c, Config.from_str webToml () (webText "0.0.0.0:80") = .ok c ∧
      ((program webToml webDigest ⟨false, false⟩ (webText "0.0.0.0:80")).exec
        ⟨⟨c, [.general c], .recv, none⟩, []⟩ moveWeb).map (fun s => s.servers.map fun t =>
          t.state.services (nameDigest webDigest "web")) =
        some [some ⟨.tcp, "web", "0.0.0.0:81", some "secret", none⟩] := ⟨_, rfl, rfl⟩
  obtain ⟨s, hs, hmap⟩ := Option.map_eq_some_iff.mp h
  obtain ⟨t, hservers, ht⟩ := List.map_eq_singleton_iff.mp hmap
  have r0 : (program webToml webDigest ⟨false, false⟩ (webText "0.0.0.0:80")).Run []
      ⟨⟨c, [.general c], .recv, none⟩, []⟩ := .start ⟨⟨(), c, hc, rfl⟩, rfl⟩
  have r := run_trace r0 hs
  have hmem : t ∈ s.servers := by
    rw [hservers]
    exact List.mem_singleton_self t
  have hsound := (services_validated r).1.servers t hmem
  exact ⟨_, s, t, _, r, hmem, ht, rfl, (hsound.services _ _ ht).1⟩

end Penetrate
