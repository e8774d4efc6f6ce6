/-
  File:      Penetrate/Config.lean
  Subject:   THE CONFIGURATION (`config.rs`): its types, its equality, its validation.

  `toml::from_str` is a parameter: what it returns for a text, for each seed of the hash maps it
  builds. `Config.from_str` is that parse followed by the validation, which fills in the names
  (skipped by serde), the tokens and the retry intervals of the services.

  * `ServerConfig.eq`, `ClientConfig.eq`, `Config.eq` -- the derived `PartialEq`; two equal
    configurations may iterate their services in different orders;
  * `Config.validate_server_config`, `.validate_client_config`, `.validate_transport_config`;
  * `ServerConfig.Valid`, `ClientConfig.Valid` -- what validation establishes, for every service;
    `from_str_valid`, and `from_str_congr`: equal parses validate alike.
-/
import Penetrate.Protocol
import Penetrate.Collections.HashMap

namespace Penetrate

open Collections

/-! ## 1. The types -/

inductive TransportType where
  | tcp
  | tls
  | noise
  deriving DecidableEq, Repr

inductive ServiceType where
  | tcp
  | udp
  deriving DecidableEq, Repr

structure ClientServiceConfig where
  service_type : ServiceType
  name : String
  local_addr : String
  token : Option String
  nodelay : Option Bool
  retry_interval : Option UInt64
  deriving DecidableEq

structure ServerServiceConfig where
  service_type : ServiceType
  name : String
  bind_addr : String
  token : Option String
  nodelay : Option Bool
  deriving DecidableEq

structure TlsConfig where
  hostname : Option String
  trusted_root : Option String
  pkcs12 : Option String
  pkcs12_password : Option String
  deriving DecidableEq

structure NoiseConfig where
  pattern : String
  local_private_key : Option String
  remote_public_key : Option String
  deriving DecidableEq

/-- A parsed `url::Url`, with what the code asks it for. -/
structure Url where
  as_str : String
  scheme : String
  username : String
  password : Option String
  host_str : Option String
  port : Option UInt16
  deriving DecidableEq

structure TcpConfig where
  nodelay : Bool
  keepalive_secs : UInt64
  keepalive_interval : UInt64
  proxy : Option Url
  deriving DecidableEq

structure TransportConfig where
  transport_type : TransportType
  tcp : TcpConfig
  tls : Option TlsConfig
  noise : Option NoiseConfig
  deriving DecidableEq

structure ClientConfig where
  remote_addr : String
  default_token : Option String
  services : HashMap String ClientServiceConfig
  transport : TransportConfig
  heartbeat_timeout : UInt64
  retry_interval : UInt64

structure ServerConfig where
  bind_addr : String
  default_token : Option String
  services : HashMap String ServerServiceConfig
  transport : TransportConfig
  heartbeat_interval : UInt64

structure Config where
  server : Option ServerConfig
  client : Option ClientConfig

/-! ## 2. Equality -/

def ServerConfig.eq (a b : ServerConfig) : Bool :=
  a.bind_addr == b.bind_addr && a.default_token == b.default_token && a.services.eq b.services &&
    a.transport == b.transport && a.heartbeat_interval == b.heartbeat_interval

def ClientConfig.eq (a b : ClientConfig) : Bool :=
  a.remote_addr == b.remote_addr && a.default_token == b.default_token &&
    a.services.eq b.services && a.transport == b.transport &&
    a.heartbeat_timeout == b.heartbeat_timeout && a.retry_interval == b.retry_interval

/-- `==` on an optional section. -/
def optEq {α : Type} (eq : α → α → Bool) : Option α → Option α → Bool
  | none, none => true
  | some a, some b => eq a b
  | _, _ => false

def Config.eq (a b : Config) : Bool :=
  optEq ServerConfig.eq a.server b.server && optEq ClientConfig.eq a.client b.client

/-- The settings of a section, its services left out. -/
def ServerConfig.settings (c : ServerConfig) : ServerConfig := { c with services := ∅ }
def ClientConfig.settings (c : ClientConfig) : ClientConfig := { c with services := ∅ }

/-- **Two server sections are equal precisely when their settings are and their services hold the
    same.** -/
theorem ServerConfig.eq_iff {a b : ServerConfig} :
    a.eq b = true ↔ a.settings = b.settings ∧ ∀ n, a.services.lookup n = b.services.lookup n := by
  obtain ⟨b1, d1, s1, t1, h1⟩ := a
  obtain ⟨b2, d2, s2, t2, h2⟩ := b
  simp only [ServerConfig.eq, ServerConfig.settings, Bool.and_eq_true, beq_iff_eq, HashMap.eq_iff,
    ServerConfig.mk.injEq, true_and]
  tauto

theorem ClientConfig.eq_iff {a b : ClientConfig} :
    a.eq b = true ↔ a.settings = b.settings ∧ ∀ n, a.services.lookup n = b.services.lookup n := by
  obtain ⟨b1, d1, s1, t1, h1, r1⟩ := a
  obtain ⟨b2, d2, s2, t2, h2, r2⟩ := b
  simp only [ClientConfig.eq, ClientConfig.settings, Bool.and_eq_true, beq_iff_eq, HashMap.eq_iff,
    ClientConfig.mk.injEq, true_and]
  tauto

theorem optEq_refl {α : Type} {eq : α → α → Bool} (h : ∀ a, eq a a = true) (x : Option α) :
    optEq eq x x = true := by
  cases x with
  | none => rfl
  | some a => exact h a

theorem ServerConfig.eq_refl (a : ServerConfig) : a.eq a = true :=
  ServerConfig.eq_iff.mpr ⟨rfl, fun _ => rfl⟩

theorem ClientConfig.eq_refl (a : ClientConfig) : a.eq a = true :=
  ClientConfig.eq_iff.mpr ⟨rfl, fun _ => rfl⟩

theorem optEq_trans {α : Type} {f : α → α → Bool}
    (h : ∀ a b c, f a b = true → f b c = true → f a c = true) {x y z : Option α}
    (hxy : optEq f x y = true) (hyz : optEq f y z = true) : optEq f x z = true := by
  cases x with
  | none =>
      cases y with
      | none => exact hyz
      | some _ => cases hxy
  | some a =>
      cases y with
      | none => cases hxy
      | some b =>
          cases z with
          | none => cases hyz
          | some c => exact h a b c hxy hyz

theorem ServerConfig.eq_trans {a b c : ServerConfig} (hab : a.eq b = true) (hbc : b.eq c = true) :
    a.eq c = true := by
  obtain ⟨h1, h2⟩ := ServerConfig.eq_iff.mp hab
  obtain ⟨h3, h4⟩ := ServerConfig.eq_iff.mp hbc
  exact ServerConfig.eq_iff.mpr ⟨h1.trans h3, fun n => (h2 n).trans (h4 n)⟩

theorem ClientConfig.eq_trans {a b c : ClientConfig} (hab : a.eq b = true) (hbc : b.eq c = true) :
    a.eq c = true := by
  obtain ⟨h1, h2⟩ := ClientConfig.eq_iff.mp hab
  obtain ⟨h3, h4⟩ := ClientConfig.eq_iff.mp hbc
  exact ClientConfig.eq_iff.mpr ⟨h1.trans h3, fun n => (h2 n).trans (h4 n)⟩

theorem Config.eq_trans {a b c : Config} (hab : a.eq b = true) (hbc : b.eq c = true) :
    a.eq c = true := by
  obtain ⟨h1, h2⟩ := (Bool.and_eq_true _ _).mp hab
  obtain ⟨h3, h4⟩ := (Bool.and_eq_true _ _).mp hbc
  have hs : optEq ServerConfig.eq a.server c.server = true :=
    optEq_trans (f := ServerConfig.eq) (fun _ _ _ h h' => ServerConfig.eq_trans h h') h1 h3
  have hc : optEq ClientConfig.eq a.client c.client = true :=
    optEq_trans (f := ClientConfig.eq) (fun _ _ _ h h' => ClientConfig.eq_trans h h') h2 h4
  exact (Bool.and_eq_true _ _).mpr ⟨hs, hc⟩

/-! ## 3. Validation -/

/-- What parsing or validation bails out with. -/
inductive ConfigError where
  | parse (cause : String)
  | tokenNotSet (name : String)
  | unknownProxyScheme (scheme : String)
  | missingTls
  | missingPkcs12
  | noSection
  deriving DecidableEq, Repr

def ConfigError.message : ConfigError → String
  | .parse cause => "Failed to parse the config: " ++ cause
  | .tokenNotSet name => "The token of service " ++ name ++ " is not set"
  | .unknownProxyScheme scheme => "Unknown proxy scheme: " ++ scheme
  | .missingTls => "Missing TLS configuration"
  | .missingPkcs12 => "Missing `pkcs12` or `pkcs12_password` configuration"
  | .noSection => "Neither of `[server]` or `[client]` is defined"

namespace Config

def validate_transport_config (config : TransportConfig) (is_server : Bool) :
    Except ConfigError Unit :=
  let proxy : Except ConfigError Unit := match config.tcp.proxy with
    | none => .ok ()
    | some u =>
        if u.scheme = "socket5" then .ok ()
        else if u.scheme = "http" then .ok ()
        else .error (.unknownProxyScheme u.scheme)
  match proxy with
  | .error e => .error e
  | .ok () => match config.transport_type with
    | .tcp => .ok ()
    | .tls => match config.tls with
      | none => .error .missingTls
      | some tls_config =>
          if is_server && (tls_config.pkcs12.isNone || tls_config.pkcs12_password.isNone) then
            .error .missingPkcs12
          else .ok ()
    | .noise => .ok ()

/-- One service of `validate_server_config`: its name is its key, its token its own or the
    default. -/
def validate_server_service (default_token : Option String) (name : String)
    (s : ServerServiceConfig) : Except ConfigError ServerServiceConfig :=
  let s := { s with name := name }
  match s.token with
  | some _ => .ok s
  | none => match default_token with
    | none => .error (.tokenNotSet name)
    | some t => .ok { s with token := some t }

def validate_server_config (server : ServerConfig) : Except ConfigError ServerConfig :=
  match server.services.tryMap (validate_server_service server.default_token) with
  | .error e => .error e
  | .ok services => match validate_transport_config server.transport true with
    | .error e => .error e
    | .ok () => .ok { server with services := services }

/-- One service of `validate_client_config`: as on the server, and the retry interval its own or
    the section's. -/
def validate_client_service (default_token : Option String) (retry_interval : UInt64)
    (name : String) (s : ClientServiceConfig) : Except ConfigError ClientServiceConfig :=
  let s := { s with name := name }
  let retry (s : ClientServiceConfig) : ClientServiceConfig :=
    if s.retry_interval.isNone then { s with retry_interval := some retry_interval } else s
  match s.token with
  | some _ => .ok (retry s)
  | none => match default_token with
    | none => .error (.tokenNotSet name)
    | some t => .ok (retry { s with token := some t })

def validate_client_config (client : ClientConfig) : Except ConfigError ClientConfig :=
  match client.services.tryMap
      (validate_client_service client.default_token client.retry_interval) with
  | .error e => .error e
  | .ok services => match validate_transport_config client.transport false with
    | .error e => .error e
    | .ok () => .ok { client with services := services }

/-- A pass over an optional section. -/
def validateSection {α : Type} (f : α → Except ConfigError α) :
    Option α → Except ConfigError (Option α)
  | none => .ok none
  | some c => match f c with
    | .error e => .error e
    | .ok c => .ok (some c)

def validate (config : Config) : Except ConfigError Config :=
  match validateSection validate_server_config config.server with
  | .error e => .error e
  | .ok server => match validateSection validate_client_config config.client with
    | .error e => .error e
    | .ok client =>
        if server.isNone && client.isNone then .error .noSection else .ok ⟨server, client⟩

/-- `Config::from_str`, over the parser `toml` and the seed of the hash maps it builds. -/
def from_str {Seed : Type} (toml : Seed → String → Except String Config) (seed : Seed)
    (s : String) : Except ConfigError Config :=
  match toml seed s with
  | .error e => .error (.parse e)
  | .ok config => validate config

end Config

/-! ## 4. What validation establishes -/

/-- Every service carries its key as its name and a token: its own, or the default one. -/
def ServerConfig.Valid (c : ServerConfig) : Prop :=
  ∀ n s, c.services.lookup n = some s → s.name = n ∧ s.token.isSome = true

/-- Every service carries its key as its name, a token and a retry interval. -/
def ClientConfig.Valid (c : ClientConfig) : Prop :=
  ∀ n s, c.services.lookup n = some s →
    s.name = n ∧ s.token.isSome = true ∧ s.retry_interval.isSome = true

/-- A service as validation leaves it: its key as its name, its own token or else the default. -/
def ServerServiceConfig.filled (s : ServerServiceConfig) (name : String)
    (default_token : Option String) : ServerServiceConfig :=
  { s with name := name, token := s.token.or default_token }

def ClientServiceConfig.filled (s : ClientServiceConfig) (name : String)
    (default_token : Option String) (retry_interval : UInt64) : ClientServiceConfig :=
  { s with
    name := name
    token := s.token.or default_token
    retry_interval := some (s.retry_interval.getD retry_interval) }

/-- `s` is what validation makes of the service the parsed section has under the name of `s`. -/
def ServerConfig.Provides (c : ServerConfig) (s : ServerServiceConfig) : Prop :=
  ∃ s0, c.services.lookup s.name = some s0 ∧ s = s0.filled s.name c.default_token ∧
    s.token.isSome = true

def ClientConfig.Provides (c : ClientConfig) (s : ClientServiceConfig) : Prop :=
  ∃ s0, c.services.lookup s.name = some s0 ∧
    s = s0.filled s.name c.default_token c.retry_interval ∧ s.token.isSome = true

theorem ClientConfig.Provides.token {c : ClientConfig} {s : ClientServiceConfig}
    (h : c.Provides s) : s.token.isSome = true := by
  obtain ⟨_, _, _, ht⟩ := h
  exact ht

theorem ClientConfig.Provides.retry_interval {c : ClientConfig} {s : ClientServiceConfig}
    (h : c.Provides s) : s.retry_interval.isSome = true := by
  obtain ⟨s0, _, hs, _⟩ := h
  rw [hs]
  rfl

structure Config.Valid (c : Config) : Prop where
  server : ∀ s, c.server = some s → s.Valid
  client : ∀ s, c.client = some s → s.Valid

namespace Config

theorem validate_server_service_filled {t : Option String} {n : String}
    {s s' : ServerServiceConfig} (h : validate_server_service t n s = .ok s') :
    s' = s.filled n t ∧ s'.token.isSome = true := by
  obtain ⟨st, nm, ba, tok, nd⟩ := s
  cases tok with
  | some x =>
      cases h
      exact ⟨rfl, rfl⟩
  | none =>
      cases t with
      | none => cases h
      | some x =>
          cases h
          exact ⟨rfl, rfl⟩

theorem validate_client_service_filled {t : Option String} {r : UInt64} {n : String}
    {s s' : ClientServiceConfig} (h : validate_client_service t r n s = .ok s') :
    s' = s.filled n t r ∧ s'.token.isSome = true := by
  obtain ⟨st, nm, la, tok, nd, ri⟩ := s
  cases tok with
  | some x =>
      cases ri <;> cases h <;> exact ⟨rfl, rfl⟩
  | none =>
      cases t with
      | none => cases h
      | some x => cases ri <;> cases h <;> exact ⟨rfl, rfl⟩

theorem validate_server_config_eq {c c' : ServerConfig} (h : validate_server_config c = .ok c') :
    ∃ m, c.services.tryMap (validate_server_service c.default_token) = .ok m ∧
      validate_transport_config c.transport true = .ok () ∧ c' = { c with services := m } := by
  unfold validate_server_config at h
  split at h
  · cases h
  · rename_i m hm
    split at h
    · cases h
    · rename_i ht
      cases h
      exact ⟨m, hm, ht, rfl⟩

theorem validate_client_config_eq {c c' : ClientConfig} (h : validate_client_config c = .ok c') :
    ∃ m, c.services.tryMap (validate_client_service c.default_token c.retry_interval) = .ok m ∧
      validate_transport_config c.transport false = .ok () ∧ c' = { c with services := m } := by
  unfold validate_client_config at h
  split at h
  · cases h
  · rename_i m hm
    split at h
    · cases h
    · rename_i ht
      cases h
      exact ⟨m, hm, ht, rfl⟩

/-- Every service of a validated section comes from the one under the same key. -/
theorem validate_server_config_services {c c' : ServerConfig}
    (h : validate_server_config c = .ok c') {n : String} {s : ServerServiceConfig}
    (hs : c'.services.lookup n = some s) : s.name = n ∧ c.Provides s := by
  obtain ⟨m, hm, -, rfl⟩ := validate_server_config_eq h
  have hl := HashMap.lookup_tryMap hm n
  rw [show m.lookup n = some s from hs] at hl
  obtain ⟨s0, h0, hs0⟩ := Option.bind_eq_some_iff.mp hl.symm
  cases hv : validate_server_service c.default_token n s0 with
  | error e => rw [hv] at hs0; cases hs0
  | ok s1 =>
      rw [hv] at hs0
      cases hs0
      obtain ⟨rfl, ht⟩ := validate_server_service_filled hv
      exact ⟨rfl, s0, h0, rfl, ht⟩

theorem validate_client_config_services {c c' : ClientConfig}
    (h : validate_client_config c = .ok c') {n : String} {s : ClientServiceConfig}
    (hs : c'.services.lookup n = some s) : s.name = n ∧ c.Provides s := by
  obtain ⟨m, hm, -, rfl⟩ := validate_client_config_eq h
  have hl := HashMap.lookup_tryMap hm n
  rw [show m.lookup n = some s from hs] at hl
  obtain ⟨s0, h0, hs0⟩ := Option.bind_eq_some_iff.mp hl.symm
  cases hv : validate_client_service c.default_token c.retry_interval n s0 with
  | error e => rw [hv] at hs0; cases hs0
  | ok s1 =>
      rw [hv] at hs0
      cases hs0
      obtain ⟨rfl, ht⟩ := validate_client_service_filled hv
      exact ⟨rfl, s0, h0, rfl, ht⟩

theorem validate_server_config_valid {c c' : ServerConfig}
    (h : validate_server_config c = .ok c') : c'.Valid := by
  intro n s hs
  obtain ⟨hn, _, _, _, ht⟩ := validate_server_config_services h hs
  exact ⟨hn, ht⟩

theorem validate_client_config_valid {c c' : ClientConfig}
    (h : validate_client_config c = .ok c') : c'.Valid := by
  intro n s hs
  obtain ⟨hn, hp⟩ := validate_client_config_services h hs
  exact ⟨hn, hp.token, hp.retry_interval⟩

theorem validateSection_ok {α : Type} {f : α → Except ConfigError α} {x y : Option α}
    (h : validateSection f x = .ok y) :
    (x = none ∧ y = none) ∨ ∃ c c', x = some c ∧ f c = .ok c' ∧ y = some c' := by
  cases x with
  | none =>
      cases h
      exact Or.inl ⟨rfl, rfl⟩
  | some c =>
      rw [validateSection] at h
      split at h
      · cases h
      · rename_i c' hc'
        cases h
        exact Or.inr ⟨c, c', rfl, hc', rfl⟩

theorem validate_ok {c c' : Config} (h : validate c = .ok c') :
    validateSection validate_server_config c.server = .ok c'.server ∧
      validateSection validate_client_config c.client = .ok c'.client ∧
      (c'.server.isSome = true ∨ c'.client.isSome = true) := by
  unfold validate at h
  split at h
  · cases h
  · rename_i server hs
    split at h
    · cases h
    · rename_i client hc
      split at h
      · cases h
      · rename_i hn
        cases h
        refine ⟨hs, hc, ?_⟩
        cases server <;> cases client <;> simp_all

/-- **Every validated configuration is valid.** -/
theorem validate_valid {c c' : Config} (h : validate c = .ok c') : c'.Valid := by
  obtain ⟨hs, hc, -⟩ := validate_ok h
  constructor
  · intro s e
    rcases validateSection_ok hs with ⟨-, hn⟩ | ⟨c0, c1, -, h1, h2⟩
    · rw [hn] at e
      cases e
    · rw [h2] at e
      cases e
      exact validate_server_config_valid h1
  · intro s e
    rcases validateSection_ok hc with ⟨-, hn⟩ | ⟨c0, c1, -, h1, h2⟩
    · rw [hn] at e
      cases e
    · rw [h2] at e
      cases e
      exact validate_client_config_valid h1

/-! ## 5. Equal configurations validate alike -/

theorem validate_server_config_congr {a b a' : ServerConfig} (h : a.eq b = true)
    (ha : validate_server_config a = .ok a') :
    ∃ b', validate_server_config b = .ok b' ∧ a'.eq b' = true := by
  obtain ⟨m, hm, ht, rfl⟩ := validate_server_config_eq ha
  obtain ⟨hset, hsv⟩ := ServerConfig.eq_iff.mp h
  obtain ⟨m', hm', hl⟩ := HashMap.tryMap_congr hsv hm
  have hd : a.default_token = b.default_token := by
    show a.settings.default_token = _
    rw [hset]
    rfl
  have htr : a.transport = b.transport := by
    show a.settings.transport = _
    rw [hset]
    rfl
  rw [hd] at hm'
  rw [htr] at ht
  refine ⟨{ b with services := m' }, by simp only [validate_server_config, hm', ht],
    ServerConfig.eq_iff.mpr ⟨hset, hl⟩⟩

theorem validate_client_config_congr {a b a' : ClientConfig} (h : a.eq b = true)
    (ha : validate_client_config a = .ok a') :
    ∃ b', validate_client_config b = .ok b' ∧ a'.eq b' = true := by
  obtain ⟨m, hm, ht, rfl⟩ := validate_client_config_eq ha
  obtain ⟨hset, hsv⟩ := ClientConfig.eq_iff.mp h
  obtain ⟨m', hm', hl⟩ := HashMap.tryMap_congr hsv hm
  have hd : a.default_token = b.default_token := by
    show a.settings.default_token = _
    rw [hset]
    rfl
  have hr : a.retry_interval = b.retry_interval := by
    show a.settings.retry_interval = _
    rw [hset]
    rfl
  have htr : a.transport = b.transport := by
    show a.settings.transport = _
    rw [hset]
    rfl
  rw [hd, hr] at hm'
  rw [htr] at ht
  refine ⟨{ b with services := m' }, by simp only [validate_client_config, hm', ht],
    ClientConfig.eq_iff.mpr ⟨hset, hl⟩⟩

theorem validateSection_congr {α : Type} {f : α → Except ConfigError α} {eq : α → α → Bool}
    (hf : ∀ {a b a'}, eq a b = true → f a = .ok a' → ∃ b', f b = .ok b' ∧ eq a' b' = true)
    {x y x' : Option α} (h : optEq eq x y = true) (hx : validateSection f x = .ok x') :
    ∃ y', validateSection f y = .ok y' ∧ optEq eq x' y' = true := by
  cases x with
  | none =>
      cases y with
      | none =>
          cases hx
          exact ⟨none, rfl, rfl⟩
      | some b => cases h
  | some a =>
      cases y with
      | none => cases h
      | some b =>
          rcases validateSection_ok hx with ⟨h1, -⟩ | ⟨a0, a', h1, h2, rfl⟩
          · cases h1
          · cases h1
            obtain ⟨b', hb, he⟩ := hf h h2
            exact ⟨some b', by simp only [validateSection, hb], he⟩

theorem optEq_isNone {α : Type} {eq : α → α → Bool} {x y : Option α} (h : optEq eq x y = true) :
    x.isNone = y.isNone := by
  cases x <;> cases y <;> first | rfl | cases h

/-- **Equal configurations validate alike**, whatever order their services are iterated in. -/
theorem validate_congr {a b a' : Config} (h : a.eq b = true) (ha : validate a = .ok a') :
    ∃ b', validate b = .ok b' ∧ a'.eq b' = true := by
  obtain ⟨h1, h2⟩ := (Bool.and_eq_true _ _).mp h
  obtain ⟨hs, hc, hsome⟩ := validate_ok ha
  obtain ⟨s', hs', es⟩ := validateSection_congr (fun h => validate_server_config_congr h) h1 hs
  obtain ⟨c', hc', ec⟩ := validateSection_congr (fun h => validate_client_config_congr h) h2 hc
  refine ⟨⟨s', c'⟩, ?_, (Bool.and_eq_true _ _).mpr ⟨es, ec⟩⟩
  have hn : (s'.isNone && c'.isNone) = false := by
    rw [← optEq_isNone es, ← optEq_isNone ec]
    rcases hsome with h | h <;> simp [Option.isNone_eq_false_iff.mpr h]
  simp only [validate, hs', hc', hn, Bool.false_eq_true, if_false]

section Parser

variable {Seed : Type} {toml : Seed → String → Except String Config}

/-- `toml::from_str` reads the same configuration out of the same text, whatever seed the hash
    maps get. -/
def SeedBlind (toml : Seed → String → Except String Config) : Prop :=
  ∀ σ σ' text a, toml σ text = .ok a → ∃ b, toml σ' text = .ok b ∧ a.eq b = true

theorem from_str_ok {σ : Seed} {text : String} {c : Config} (h : from_str toml σ text = .ok c) :
    ∃ c0, toml σ text = .ok c0 ∧ validate c0 = .ok c := by
  unfold from_str at h
  split at h
  · cases h
  · rename_i c0 h0
    exact ⟨c0, h0, h⟩

/-- **What `from_str` accepts is valid.** -/
theorem from_str_valid {σ : Seed} {text : String} {c : Config}
    (h : from_str toml σ text = .ok c) : c.Valid := by
  obtain ⟨c0, -, hv⟩ := from_str_ok h
  exact validate_valid hv

/-- The same text is accepted, and as an equal configuration, whatever the seed. -/
theorem from_str_congr (ht : SeedBlind toml) {σ : Seed} (σ' : Seed) {text : String} {c : Config}
    (h : from_str toml σ text = .ok c) : ∃ c', from_str toml σ' text = .ok c' ∧ c.eq c' = true := by
  obtain ⟨c0, h0, hv⟩ := from_str_ok h
  obtain ⟨c1, h1, he⟩ := ht σ σ' text c0 h0
  obtain ⟨c', hv', he'⟩ := validate_congr he hv
  exact ⟨c', by simp only [from_str, h1, hv'], he'⟩

end Parser

end Config

end Penetrate
