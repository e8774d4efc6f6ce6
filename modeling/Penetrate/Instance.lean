/-
  File:      Penetrate/Instance.lean
  Subject:   A RUNNING INSTANCE AND ITS CONFIGURATION: what `run_instance`, `Server`, `Client` start
             with, and what `handle_hot_reload` makes of it.

  Here an instance is the part of its state that a configuration determines; its connections are
  modelled elsewhere. The hash of a service name is a parameter.

  * `run_instance` -- the mode, the section, the first services; `none` where the code panics or
    returns an error;
  * `Instance.handle_hot_reload` -- one change applied by the instance;
  * `Effective` -- the configuration in force: the settings, and the services under the key the
    instance files them; `Effective.apply`, `replay` -- changes applied to that, `replay` with a
    restart at every general one;
  * `replay_calculate_events` -- **the events between two valid configurations turn what an
    instance started from the old one has in force into what one started from the new one has.**
-/
import Penetrate.ConfigWatcher

namespace Penetrate

open Collections

/-- `str::as_bytes`. -/
def asBytes (s : String) : Bytes := s.toUTF8.data.toList

/-! ## 1. The two kinds of instances -/

structure Cli where
  server : Bool
  client : Bool
  deriving DecidableEq, Repr

inductive RunMode where
  | server
  | client
  | undetermined
  deriving DecidableEq, Repr

def determine_run_mode (config : Config) (args : Cli) : RunMode :=
  if args.client && args.server then .undetermined
  else if args.client then .client
  else if args.server then .server
  else if config.client.isSome && config.server.isNone then .client
  else if config.client.isNone && config.server.isSome then .server
  else .undetermined

structure Server where
  config : ServerConfig
  services : ServiceDigest → Option ServerServiceConfig

/-- The client's `ControlChannelHandle`: what its task was given. -/
structure ControlChannelHandle where
  service : ClientServiceConfig
  remote_addr : String
  transport : TransportConfig
  heartbeat_timeout : UInt64

structure Client where
  config : ClientConfig
  service_handles : String → Option ControlChannelHandle

inductive Instance where
  | server (s : Server)
  | client (c : Client)

variable (digest : Bytes → Digest)

/-- The key a service is filed under on the server. -/
def nameDigest (name : String) : ServiceDigest := digest (asBytes name)

def generate_service_hashmap (server_config : ServerConfig) :
    ServiceDigest → Option ServerServiceConfig :=
  HashMap.indexBy (nameDigest digest) (fun _ s => s) server_config.services

def Server.from (config : ServerConfig) : Server := ⟨config, generate_service_hashmap digest config⟩

def Server.handle_hot_reload (s : Server) : ConfigChange → Server
  | .serverChange (.add cfg) =>
      { s with services := Function.update s.services (nameDigest digest cfg.name) (some cfg) }
  | .serverChange (.delete name) =>
      { s with services := Function.update s.services (nameDigest digest name) none }
  | _ => s

/-- `ControlChannelHandle::new`; the unwrap of `retry_interval` panics. -/
def ControlChannelHandle.new (service : ClientServiceConfig) (remote_addr : String)
    (transport : TransportConfig) (heartbeat_timeout : UInt64) : Option ControlChannelHandle :=
  match service.retry_interval with
  | none => none
  | some _ => some ⟨service, remote_addr, transport, heartbeat_timeout⟩

/-- The handles `Client::run` starts with: one for each service, in iteration order. -/
def Client.start (config : ClientConfig) : Option Client :=
  (config.services.entries.foldlM
    (fun (handles : String → Option ControlChannelHandle) e =>
      (ControlChannelHandle.new e.2 config.remote_addr config.transport
        config.heartbeat_timeout).map fun h => Function.update handles e.1 (some h))
    fun _ => none).map fun handles => ⟨config, handles⟩

def Client.handle_hot_reload (c : Client) : ConfigChange → Option Client
  | .clientChange (.add cfg) =>
      (ControlChannelHandle.new cfg c.config.remote_addr c.config.transport
        c.config.heartbeat_timeout).map fun h =>
          { c with service_handles := Function.update c.service_handles cfg.name (some h) }
  | .clientChange (.delete name) =>
      some { c with service_handles := Function.update c.service_handles name none }
  | _ => some c

def run_instance (args : Cli) (config : Config) : Option Instance :=
  match determine_run_mode config args with
  | .server => config.server.map fun c => .server (Server.from digest c)
  | .client => config.client.bind fun c => (Client.start c).map .client
  | .undetermined => none

def Instance.handle_hot_reload (i : Instance) (e : ConfigChange) : Option Instance :=
  match i with
  | .server s => some (.server (s.handle_hot_reload digest e))
  | .client c => (c.handle_hot_reload e).map .client

/-! ## 2. The configuration in force -/

/-- The settings in force and the services, as the instance files them. -/
inductive Effective where
  | server (settings : ServerConfig) (services : ServiceDigest → Option ServerServiceConfig)
  | client (settings : ClientConfig) (handles : String → Option ControlChannelHandle)

def Instance.effective : Instance → Effective
  | .server s => .server s.config.settings s.services
  | .client c => .client c.config.settings c.service_handles

/-- The handle a client with these settings makes for a service. -/
def handleOf (settings : ClientConfig) (s : ClientServiceConfig) : ControlChannelHandle :=
  ⟨s, settings.remote_addr, settings.transport, settings.heartbeat_timeout⟩

/-- A change in a table of the server's services. -/
def applyServer (M : ServiceDigest → Option ServerServiceConfig) :
    ConfigChange → ServiceDigest → Option ServerServiceConfig
  | .serverChange (.add cfg) => Function.update M (nameDigest digest cfg.name) (some cfg)
  | .serverChange (.delete name) => Function.update M (nameDigest digest name) none
  | _ => M

/-- A change in a table of the client's handles. -/
def applyClient (settings : ClientConfig) (M : String → Option ControlChannelHandle) :
    ConfigChange → String → Option ControlChannelHandle
  | .clientChange (.add cfg) => Function.update M cfg.name (some (handleOf settings cfg))
  | .clientChange (.delete name) => Function.update M name none
  | _ => M

def Effective.apply : Effective → ConfigChange → Effective
  | .server st M, e => .server st (applyServer digest M e)
  | .client st M, e => .client st (applyClient st M e)

variable {digest} in
/-- **What an instance makes of a change is the change applied to what it has in force.** -/
theorem handle_hot_reload_effective {i i' : Instance} {e : ConfigChange}
    (h : i.handle_hot_reload digest e = some i') : i'.effective = i.effective.apply digest e := by
  cases i with
  | server s =>
      cases h
      cases e with
      | general c => rfl
      | clientChange x => rfl
      | serverChange x => cases x <;> rfl
  | client c =>
      obtain ⟨c', hc, rfl⟩ := Option.map_eq_some_iff.mp h
      cases e with
      | general x =>
          cases hc
          rfl
      | serverChange x =>
          cases hc
          rfl
      | clientChange x =>
          cases x with
          | delete name =>
              cases hc
              rfl
          | add cfg =>
              obtain ⟨hd, hnew, rfl⟩ := Option.map_eq_some_iff.mp hc
              unfold ControlChannelHandle.new at hnew
              split at hnew
              · cases hnew
              · cases hnew
                rfl

/-- What a freshly started instance has in force. -/
def fresh (args : Cli) (c : Config) : Option Effective := (run_instance digest args c).map (·.effective)

/-- Changes applied one after the other; a general one starts anew. -/
def replay (args : Cli) : Option Effective → List ConfigChange → Option Effective
  | x, [] => x
  | _, .general c :: evs => replay args (fresh digest args c) evs
  | x, e :: evs => replay args (x.map (·.apply digest e)) evs

variable {digest}

theorem replay_append (args : Cli) (x : Option Effective) (evs evs' : List ConfigChange) :
    replay digest args x (evs ++ evs') = replay digest args (replay digest args x evs) evs' := by
  induction evs generalizing x with
  | nil => rfl
  | cons e evs ih => cases e <;> exact ih _

theorem replay_none {args : Cli} {evs : List ConfigChange} (h : ∀ e ∈ evs, ∀ c, e ≠ .general c) :
    replay digest args none evs = none := by
  induction evs with
  | nil => rfl
  | cons e evs ih =>
      have ih' := ih fun e' he' => h e' (List.mem_cons_of_mem _ he')
      cases e with
      | general c => exact absurd rfl (h _ List.mem_cons_self c)
      | serverChange => exact ih'
      | clientChange => exact ih'

theorem replay_server {args : Cli} {st : ServerConfig}
    {M : ServiceDigest → Option ServerServiceConfig} {evs : List ConfigChange}
    (h : ∀ e ∈ evs, ∀ c, e ≠ .general c) :
    replay digest args (some (.server st M)) evs =
      some (.server st (evs.foldl (applyServer digest) M)) := by
  induction evs generalizing M with
  | nil => rfl
  | cons e evs ih =>
      have ih' := fun M => ih (M := M) fun e' he' => h e' (List.mem_cons_of_mem _ he')
      cases e with
      | general c => exact absurd rfl (h _ List.mem_cons_self c)
      | serverChange => exact ih' _
      | clientChange => exact ih' _

theorem replay_client {args : Cli} {st : ClientConfig}
    {M : String → Option ControlChannelHandle} {evs : List ConfigChange}
    (h : ∀ e ∈ evs, ∀ c, e ≠ .general c) :
    replay digest args (some (.client st M)) evs =
      some (.client st (evs.foldl (applyClient st) M)) := by
  induction evs generalizing M with
  | nil => rfl
  | cons e evs ih =>
      have ih' := fun M => ih (M := M) fun e' he' => h e' (List.mem_cons_of_mem _ he')
      cases e with
      | general c => exact absurd rfl (h _ List.mem_cons_self c)
      | serverChange => exact ih' _
      | clientChange => exact ih' _

/-! ## 3. What a fresh instance has in force -/

/-- The names of the services of a server section. -/
def Config.serverNames (c : Config) : Set String := {n | ∃ s, c.server = some s ∧ n ∈ s.services}

theorem indexes_server {s : ServerConfig}
    (hinj : Set.InjOn (nameDigest digest) {n | n ∈ s.services}) :
    HashMap.Indexes (nameDigest digest) (fun _ s => s) (generate_service_hashmap digest s)
      s.services :=
  HashMap.indexes_indexBy hinj

/-- A valid client section starts, and its handles are a table of its services. -/
theorem client_start {c : ClientConfig} (hv : c.Valid) :
    ∃ M, Client.start c = some ⟨c, M⟩ ∧
      HashMap.Indexes id (fun _ => handleOf c.settings) M c.services := by
  refine ⟨HashMap.indexBy id (fun _ => handleOf c.settings) c.services, ?_,
    HashMap.indexes_indexBy (Function.injective_id.injOn)⟩
  -- no unwrap of `retry_interval` fails, entry by entry
  have hgo : ∀ (l : List (Sigma fun _ : String => ClientServiceConfig))
      (M : String → Option ControlChannelHandle),
      (∀ e ∈ l, e.2.retry_interval.isSome = true) →
      l.foldlM (fun (handles : String → Option ControlChannelHandle) e =>
        (ControlChannelHandle.new e.2 c.remote_addr c.transport
          c.heartbeat_timeout).map fun h => Function.update handles e.1 (some h)) M =
      some (l.foldl (fun (M : String → Option ControlChannelHandle) e =>
        Function.update M e.1 (some (handleOf c.settings e.2))) M) := by
    intro l
    induction l with
    | nil => exact fun M _ => rfl
    | cons e l ih =>
        intro M hl
        obtain ⟨r, hr⟩ := Option.isSome_iff_exists.mp (hl e List.mem_cons_self)
        have hnew : ControlChannelHandle.new e.2 c.remote_addr c.transport c.heartbeat_timeout =
            some (handleOf c.settings e.2) := by
          unfold ControlChannelHandle.new
          rw [hr]
          rfl
        rw [List.foldlM_cons, hnew]
        exact ih _ fun e' he' => hl e' (List.mem_cons_of_mem _ he')
  unfold Client.start
  rw [hgo _ _ fun e he => (hv e.1 e.2 (HashMap.mem_entries.mp he)).2.2]
  rfl

theorem determine_run_mode_congr {a b : Config} (args : Cli)
    (hs : a.server.isSome = b.server.isSome) (hc : a.client.isSome = b.client.isSome) :
    determine_run_mode a args = determine_run_mode b args := by
  simp only [determine_run_mode, ← Option.not_isSome, hs, hc]

/-! ## 4. The events between two configurations -/

theorem calculate_instance_not_general {T S : Type} [InstanceConfig T S] [DecidableEq S]
    (hd : ∀ n c, InstanceConfig.service_delete_change T n ≠ .general c)
    (ha : ∀ s c, InstanceConfig.service_add_change T s ≠ .general c) {old new : T}
    {evs : List ConfigChange} (h : calculate_instance_config_events old new = some evs) :
    ∀ e ∈ evs, ∀ c, e ≠ .general c := by
  unfold calculate_instance_config_events at h
  split at h
  · cases h
    intro e he c
    rcases List.mem_append.mp he with he | he
    · obtain ⟨n, -, rfl⟩ := List.mem_map.mp he
      exact hd n c
    · obtain ⟨x, -, rfl⟩ := List.mem_map.mp he
      exact ha _ c
  · cases h

theorem sectionEvents_not_general {T S : Type} [InstanceConfig T S] [DecidableEq S]
    (hd : ∀ n c, InstanceConfig.service_delete_change T n ≠ .general c)
    (ha : ∀ s c, InstanceConfig.service_add_change T s ≠ .general c) {eq : T → T → Bool}
    {old new : Option T} {evs : List ConfigChange} (h : sectionEvents eq old new = some evs) :
    ∀ e ∈ evs, ∀ c, e ≠ .general c := by
  unfold sectionEvents at h
  split at h
  · split at h
    · cases h
      simp
    · exact calculate_instance_not_general hd ha h
  · cases h
    simp

theorem calculate_instance_equal {T S : Type} [InstanceConfig T S] [DecidableEq S] {old new : T}
    {evs : List ConfigChange} (h : calculate_instance_config_events old new = some evs) :
    InstanceConfig.equal_without_service old new = true := by
  unfold calculate_instance_config_events at h
  split at h
  · assumption
  · cases h

/-- The events of the other section leave a table of the services alone. -/
theorem sectionEvents_ignored {T S X : Type} [InstanceConfig T S] [DecidableEq S]
    {app : X → ConfigChange → X}
    (hd : ∀ x n, app x (InstanceConfig.service_delete_change T n) = x)
    (ha : ∀ x s, app x (InstanceConfig.service_add_change T s) = x) {eq : T → T → Bool}
    {old new : Option T} {evs : List ConfigChange} (h : sectionEvents eq old new = some evs)
    (x : X) : evs.foldl app x = x := by
  have hfix : ∀ (l : List ConfigChange), (∀ e ∈ l, app x e = x) → l.foldl app x = x := by
    intro l hl
    induction l with
    | nil => rfl
    | cons e l ih =>
        rw [List.foldl_cons, hl e List.mem_cons_self]
        exact ih fun e' he' => hl e' (List.mem_cons_of_mem _ he')
  unfold sectionEvents at h
  split at h
  · split at h
    · cases h
      rfl
    · unfold calculate_instance_config_events at h
      split at h
      · cases h
        refine hfix _ fun e he => ?_
        rcases List.mem_append.mp he with he | he
        · obtain ⟨n, -, rfl⟩ := List.mem_map.mp he
          exact hd x n
        · obtain ⟨y, -, rfl⟩ := List.mem_map.mp he
          exact ha x _
      · cases h
  · cases h
    rfl

/-- The events of the server section, applied to the table of the old services. -/
theorem server_section {a b : ServerConfig} (hb : b.Valid)
    (hinj : Set.InjOn (nameDigest digest) {n | n ∈ a.services ∨ n ∈ b.services})
    {evs : List ConfigChange} (h : sectionEvents ServerConfig.eq (some a) (some b) = some evs) :
    a.settings = b.settings ∧
      evs.foldl (applyServer digest) (generate_service_hashmap digest a) =
        generate_service_hashmap digest b := by
  have ha := indexes_server (hinj.mono fun n hn => Or.inl hn)
  have hb' := indexes_server (hinj.mono fun n hn => Or.inr hn)
  rw [sectionEvents] at h
  split at h
  · rename_i heq
    cases h
    obtain ⟨hset, hl⟩ := ServerConfig.eq_iff.mp heq
    exact ⟨hset, ha.unique hb' hl⟩
  · have heq := calculate_instance_equal h
    have hset : a.settings = b.settings := (ServerConfig.eq_iff.mp heq).1
    refine ⟨hset, ?_⟩
    have hM := indexes_calculate (applyServer digest) (nameDigest digest) (fun s => s)
      ServerServiceConfig.name (fun _ _ => rfl) (fun _ _ => rfl) h
      (fun n s hs => (hb n s hs).1) hinj ha
    exact hM.unique hb' fun _ => rfl

/-- The events of the client section, applied to the table of the old handles. -/
theorem client_section {a b : ClientConfig} (ha : a.Valid) (hb : b.Valid)
    {evs : List ConfigChange} (h : sectionEvents ClientConfig.eq (some a) (some b) = some evs) :
    a.settings = b.settings ∧ ∃ M M', Client.start a = some ⟨a, M⟩ ∧ Client.start b = some ⟨b, M'⟩ ∧
      evs.foldl (applyClient a.settings) M = M' := by
  obtain ⟨M, hsa, hM⟩ := client_start ha
  obtain ⟨M', hsb, hM'⟩ := client_start hb
  rw [sectionEvents] at h
  split at h
  · rename_i heq
    cases h
    obtain ⟨hset, hl⟩ := ClientConfig.eq_iff.mp heq
    rw [← hset] at hM'
    exact ⟨hset, M, M', hsa, hsb, hM.unique hM' hl⟩
  · have heq := calculate_instance_equal h
    have hset : a.settings = b.settings := (ClientConfig.eq_iff.mp heq).1
    rw [← hset] at hM'
    refine ⟨hset, M, M', hsa, hsb, ?_⟩
    have hN := indexes_calculate (applyClient a.settings) id (handleOf a.settings)
      ClientServiceConfig.name (fun _ _ => rfl)
      (fun _ _ => rfl) h (fun n s hs => (hb n s hs).1) Function.injective_id.injOn hM
    exact hN.unique hM' fun _ => rfl

theorem sectionEvents_of_eq {T S : Type} [InstanceConfig T S] [DecidableEq S] {eq : T → T → Bool}
    {x y : Option T} (h : optEq eq x y = true) : sectionEvents eq x y = some [] := by
  cases x with
  | none => rfl
  | some a =>
      cases y with
      | none => rfl
      | some b => exact if_pos h

/-- Two configurations with the same sections, and what the events of each section come to. -/
theorem replay_sections (args : Cli) {old new : Config} (hold : old.Valid) (hnew : new.Valid)
    (hinj : Set.InjOn (nameDigest digest) (old.serverNames ∪ new.serverNames))
    (hs : old.server.isSome = new.server.isSome) (hc : old.client.isSome = new.client.isSome)
    {ret v : List ConfigChange}
    (hret : sectionEvents ServerConfig.eq old.server new.server = some ret)
    (hv : sectionEvents ClientConfig.eq old.client new.client = some v) :
    replay digest args (fresh digest args old) (ret ++ v) = fresh digest args new := by
  have hng : ∀ e ∈ ret ++ v, ∀ c, e ≠ .general c := by
    intro e he
    rcases List.mem_append.mp he with he | he
    · exact sectionEvents_not_general (by simp [InstanceConfig.service_delete_change])
        (by simp [InstanceConfig.service_add_change]) hret e he
    · exact sectionEvents_not_general (by simp [InstanceConfig.service_delete_change])
        (by simp [InstanceConfig.service_add_change]) hv e he
  have hmode := determine_run_mode_congr args hs hc
  unfold fresh run_instance
  rw [hmode]
  cases hm : determine_run_mode new args with
  | undetermined => exact replay_none hng
  | server =>
      cases ho : old.server with
      | none =>
          have hn : new.server = none := by simpa [ho] using hs.symm
          rw [hn]
          exact replay_none hng
      | some a =>
          obtain ⟨b, hb⟩ := Option.isSome_iff_exists.mp (hs.symm.trans (by rw [ho]; rfl))
          rw [ho, hb] at hret
          have hinj' : Set.InjOn (nameDigest digest) {n | n ∈ a.services ∨ n ∈ b.services} := by
            refine hinj.mono fun n hn => ?_
            rcases hn with hn | hn
            · exact Or.inl ⟨a, ho, hn⟩
            · exact Or.inr ⟨b, hb, hn⟩
          obtain ⟨hset, hfold⟩ := server_section (hnew.server b hb) hinj' hret
          rw [hb]
          show replay digest args (some (.server a.settings (generate_service_hashmap digest a)))
            (ret ++ v) = some (.server b.settings (generate_service_hashmap digest b))
          rw [replay_server hng, List.foldl_append, hfold,
            sectionEvents_ignored (fun _ _ => rfl) (fun _ _ => rfl) hv, hset]
  | client =>
      cases ho : old.client with
      | none =>
          have hn : new.client = none := by simpa [ho] using hc.symm
          rw [hn]
          exact replay_none hng
      | some a =>
          obtain ⟨b, hb⟩ := Option.isSome_iff_exists.mp (hc.symm.trans (by rw [ho]; rfl))
          rw [ho, hb] at hv
          obtain ⟨hset, M, M', hsa, hsb, hfold⟩ :=
            client_section (hold.client a ho) (hnew.client b hb) hv
          rw [hb]
          show replay digest args (((Client.start a).map Instance.client).map _) (ret ++ v) =
            ((Client.start b).map Instance.client).map _
          rw [hsa, hsb]
          show replay digest args (some (.client a.settings M)) (ret ++ v) =
            some (.client b.settings M')
          rw [replay_client hng, List.foldl_append,
            sectionEvents_ignored (fun _ _ => rfl) (fun _ _ => rfl) hret, hfold, hset]

/-- **Equal configurations put the same in force**, whatever order their services are iterated
    in. -/
theorem fresh_congr (args : Cli) {old new : Config} (hold : old.Valid) (hnew : new.Valid)
    (hinj : Set.InjOn (nameDigest digest) (old.serverNames ∪ new.serverNames))
    (h : old.eq new = true) : fresh digest args old = fresh digest args new := by
  obtain ⟨hs, hc⟩ := (Bool.and_eq_true _ _).mp h
  have hs' : old.server.isSome = new.server.isSome := by
    rw [← Option.not_isNone, ← Option.not_isNone, Config.optEq_isNone hs]
  have hc' : old.client.isSome = new.client.isSome := by
    rw [← Option.not_isNone, ← Option.not_isNone, Config.optEq_isNone hc]
  exact replay_sections args hold hnew hinj hs' hc' (sectionEvents_of_eq hs)
    (sectionEvents_of_eq hc)

/-- **The events between two valid configurations turn what an instance started from the old one
    has in force into what one started from the new one has.** -/
theorem replay_calculate_events (args : Cli) {old new : Config} (hold : old.Valid)
    (hnew : new.Valid)
    (hinj : Set.InjOn (nameDigest digest) (old.serverNames ∪ new.serverNames)) :
    replay digest args (fresh digest args old) ((calculate_events old new).getD []) =
      fresh digest args new := by
  unfold calculate_events
  split
  · rename_i heq
    exact fresh_congr args hold hnew hinj heq
  · split
    · rfl
    · rename_i hpres
      have hpres' : old.server.isSome = new.server.isSome ∧ old.client.isSome = new.client.isSome := by
        simpa using hpres
      split
      · rfl
      · rename_i ret hret
        split
        · rfl
        · rename_i v hv
          exact replay_sections args hold hnew hinj hpres'.1 hpres'.2 hret hv

end Penetrate
