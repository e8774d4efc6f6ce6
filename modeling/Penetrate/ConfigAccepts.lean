/-
  File:      Penetrate/ConfigAccepts.lean
  Subject:   WHAT `Config::from_str` ACCEPTS, AS WHAT, AND WHAT IT REPORTS OTHERWISE.

  The services of a section are checked in the order their hash map happens to iterate in, and the
  first that fails is the one reported. What follows says nothing of that order.

  * `Reports` -- the errors of a transport section, a section, a configuration;
  * `Acceptable` -- a configuration with none;
  * `Fills` -- a section as validation leaves it;
  * `from_str_exact` -- **it accepts what is acceptable, fills it in, and reports precisely the errors
    there are**; what it has accepted it accepts again, unchanged.
-/
import Penetrate.Config

namespace Penetrate

open Collections

/-! ## 1. The errors there are -/

def ProxyAccepted (config : TransportConfig) : Prop :=
  ∀ u, config.tcp.proxy = some u → u.scheme = "socket5" ∨ u.scheme = "http"

/-- An identity and its password. -/
def TlsConfig.Identified (c : TlsConfig) : Prop :=
  c.pkcs12.isSome = true ∧ c.pkcs12_password.isSome = true

/-- The errors of a transport section; a proxy is looked at first. -/
inductive TransportConfig.Reports (config : TransportConfig) (is_server : Bool) :
    ConfigError → Prop where
  | proxy (u : Url) (hu : config.tcp.proxy = some u) (h5 : u.scheme ≠ "socket5")
      (hh : u.scheme ≠ "http") : Reports config is_server (.unknownProxyScheme u.scheme)
  | tls (hp : ProxyAccepted config) (ht : config.transport_type = .tls) (hn : config.tls = none) :
      Reports config is_server .missingTls
  | pkcs12 (hp : ProxyAccepted config) (ht : config.transport_type = .tls) (c : TlsConfig)
      (hc : config.tls = some c) (hs : is_server = true) (hi : ¬ c.Identified) :
      Reports config is_server .missingPkcs12

section

variable {ν : Type} (services : HashMap String ν) (token : ν → Option String)

/-- Every service has a token. -/
def Tokens : Prop := ∀ n s, services.lookup n = some s → (token s).isSome = true

/-- The errors of a section; its services are looked at first. -/
inductive SectionReports (transport : TransportConfig) (is_server : Bool) : ConfigError → Prop where
  | token (n : String) (s : ν) (hs : services.lookup n = some s) (ht : token s = none) :
      SectionReports transport is_server (.tokenNotSet n)
  | transport (ht : Tokens services token) (e : ConfigError)
      (he : transport.Reports is_server e) : SectionReports transport is_server e

end

/-- Every service has a token, its own or the default one. -/
def ServerConfig.Tokens (c : ServerConfig) : Prop :=
  Penetrate.Tokens c.services fun s => s.token.or c.default_token

def ClientConfig.Tokens (c : ClientConfig) : Prop :=
  Penetrate.Tokens c.services fun s => s.token.or c.default_token

def ServerConfig.Reports (c : ServerConfig) : ConfigError → Prop :=
  SectionReports c.services (fun s => s.token.or c.default_token) c.transport true

def ClientConfig.Reports (c : ClientConfig) : ConfigError → Prop :=
  SectionReports c.services (fun s => s.token.or c.default_token) c.transport false

/-- The errors of a configuration; the server's section is looked at first. -/
inductive Config.Reports (c : Config) : ConfigError → Prop where
  | server (s : ServerConfig) (hs : c.server = some s) (e : ConfigError) (he : s.Reports e) :
      Reports c e
  | client (hs : ∀ s, c.server = some s → ∀ e, ¬ s.Reports e) (s : ClientConfig)
      (hc : c.client = some s) (e : ConfigError) (he : s.Reports e) : Reports c e
  | noSection (hs : c.server = none) (hc : c.client = none) : Reports c .noSection

/-- What the transport of a section needs. -/
def TransportConfig.Acceptable (config : TransportConfig) (is_server : Bool) : Prop :=
  ProxyAccepted config ∧ (config.transport_type = .tls → ∃ c, config.tls = some c ∧
    (is_server = true → c.Identified))

/-- **What a configuration needs**: a section, tokens for all services, and transports. -/
structure Config.Acceptable (c : Config) : Prop where
  present : c.server.isSome = true ∨ c.client.isSome = true
  server : ∀ s, c.server = some s → s.Tokens ∧ s.transport.Acceptable true
  client : ∀ s, c.client = some s → s.Tokens ∧ s.transport.Acceptable false

/-- `c'` has the settings of `c`, and its services filled in. -/
structure ServerConfig.Fills (c c' : ServerConfig) : Prop where
  settings : c'.settings = c.settings
  services : ∀ n, c'.services.lookup n =
    (c.services.lookup n).map fun s => s.filled n c.default_token

structure ClientConfig.Fills (c c' : ClientConfig) : Prop where
  settings : c'.settings = c.settings
  services : ∀ n, c'.services.lookup n =
    (c.services.lookup n).map fun s => s.filled n c.default_token c.retry_interval

structure Config.Fills (c c' : Config) : Prop where
  server : Option.Rel ServerConfig.Fills c.server c'.server
  client : Option.Rel ClientConfig.Fills c.client c'.client

namespace Config

/-! ## 2. The transport -/

theorem proxyAccepted_iff {config : TransportConfig} : ProxyAccepted config ↔
    ∀ u, config.tcp.proxy = some u → ¬ (u.scheme ≠ "socket5" ∧ u.scheme ≠ "http") := by
  unfold ProxyAccepted
  refine forall_congr' fun u => imp_congr_right fun _ => ?_
  tauto

/-- The check of the proxy. -/
theorem validate_transport_config_cases (config : TransportConfig) (is_server : Bool) :
    (∃ u, config.tcp.proxy = some u ∧ u.scheme ≠ "socket5" ∧ u.scheme ≠ "http" ∧
      validate_transport_config config is_server = .error (.unknownProxyScheme u.scheme)) ∨
    (ProxyAccepted config ∧ validate_transport_config config is_server =
      match config.transport_type with
      | .tcp => .ok ()
      | .tls => match config.tls with
        | none => .error .missingTls
        | some c =>
            if is_server && (c.pkcs12.isNone || c.pkcs12_password.isNone) then
              .error .missingPkcs12
            else .ok ()
      | .noise => .ok ()) := by
  cases hu : config.tcp.proxy with
  | none =>
      refine .inr ⟨fun u h => ?_, ?_⟩
      · rw [hu] at h
        cases h
      · unfold validate_transport_config
        cases config.transport_type <;> cases config.tls <;> simp only [hu]
  | some u =>
      by_cases h5 : u.scheme = "socket5"
      · refine .inr ⟨fun u' h => ?_, ?_⟩
        · rw [hu] at h
          cases h
          exact .inl h5
        · unfold validate_transport_config
          cases config.transport_type <;> cases config.tls <;> simp only [hu, h5, if_true]
      · by_cases hh : u.scheme = "http"
        · refine .inr ⟨fun u' h => ?_, ?_⟩
          · rw [hu] at h
            cases h
            exact .inr hh
          · unfold validate_transport_config
            cases config.transport_type <;> cases config.tls <;>
              simp only [hu, if_neg h5, if_pos hh]
        · refine .inl ⟨u, rfl, h5, hh, ?_⟩
          simp only [validate_transport_config, hu, if_neg h5, if_neg hh]

theorem not_identified {c : TlsConfig} :
    (c.pkcs12.isNone || c.pkcs12_password.isNone) = true ↔ ¬ c.Identified := by
  unfold TlsConfig.Identified
  cases c.pkcs12 <;> cases c.pkcs12_password <;> simp

/-- **The errors of a transport section are those it reports.** -/
theorem validate_transport_config_error {config : TransportConfig} {is_server : Bool}
    {e : ConfigError} : validate_transport_config config is_server = .error e ↔
      config.Reports is_server e := by
  rcases validate_transport_config_cases config is_server with ⟨u, hu, h5, hh, h⟩ | ⟨hp, h⟩
  · rw [h]
    constructor
    · intro he
      cases he
      exact .proxy u hu h5 hh
    · intro he
      cases he with
      | proxy u' hu' =>
          rw [hu] at hu'
          cases hu'
          rfl
      | tls hp | pkcs12 hp => exact absurd ⟨h5, hh⟩ (proxyAccepted_iff.mp hp u hu)
  · rw [h]
    constructor
    · intro he
      split at he
      · cases he
      · rename_i ht
        split at he
        · rename_i hn
          cases he
          exact .tls hp ht hn
        · rename_i c hc
          split at he
          · rename_i hs
            cases he
            obtain ⟨hs, hi⟩ := (Bool.and_eq_true _ _).mp hs
            exact .pkcs12 hp ht c hc hs (not_identified.mp hi)
          · cases he
      · cases he
    · intro he
      cases he with
      | proxy u hu h5 hh => exact absurd ⟨h5, hh⟩ (proxyAccepted_iff.mp hp u hu)
      | tls _ ht hn => simp only [ht, hn]
      | pkcs12 _ ht c hc hs hi =>
          have hb : (is_server && (c.pkcs12.isNone || c.pkcs12_password.isNone)) = true :=
            (Bool.and_eq_true _ _).mpr ⟨hs, not_identified.mpr hi⟩
          simp only [ht, hc, hb, if_true]

theorem transport_acceptable {config : TransportConfig} {is_server : Bool} :
    config.Acceptable is_server ↔ ∀ e, ¬ config.Reports is_server e := by
  constructor
  · rintro ⟨hp, ht⟩ e he
    cases he with
    | proxy u hu h5 hh => exact proxyAccepted_iff.mp hp u hu ⟨h5, hh⟩
    | tls _ htls hn =>
        obtain ⟨c, hc, -⟩ := ht htls
        rw [hn] at hc
        cases hc
    | pkcs12 _ htls c hc hs hi =>
        obtain ⟨c', hc', hi'⟩ := ht htls
        rw [hc] at hc'
        cases hc'
        exact hi (hi' hs)
  · intro h
    have hp : ProxyAccepted config :=
      proxyAccepted_iff.mpr fun u hu hn => h _ (.proxy u hu hn.1 hn.2)
    refine ⟨hp, fun ht => ?_⟩
    cases hc : config.tls with
    | none => exact absurd (.tls hp ht hc) (h _)
    | some c => exact ⟨c, rfl, fun hs => by_contra fun hi => h _ (.pkcs12 hp ht c hc hs hi)⟩

/-! ## 3. A section -/

/-- The pass over the services, and the check of the transport behind it. -/
def pass {ν : Type} (f : String → ν → Except ConfigError ν) (services : HashMap String ν)
    (transport : Except ConfigError Unit) : Except ConfigError (HashMap String ν) :=
  match services.tryMap f with
  | .error e => .error e
  | .ok services => match transport with
    | .error e => .error e
    | .ok () => .ok services

theorem pass_error_iff {ν : Type} [DecidableEq ν] {f : String → ν → Except ConfigError ν}
    {m : HashMap String ν} {t : Except ConfigError Unit} {e : ConfigError} :
    (∃ m', m.eq m' = true ∧ pass f m' t = .error e) ↔
      (∃ k v, m.lookup k = some v ∧ f k v = .error e) ∨
        ((∀ k v, m.lookup k = some v → ∃ w, f k v = .ok w) ∧ t = .error e) := by
  rw [← HashMap.tryMap_error_iff, ← HashMap.tryMap_isOk]
  constructor
  · rintro ⟨m', he, h⟩
    unfold pass at h
    split at h
    · rename_i x hx
      cases h
      exact .inl ⟨m', he, hx⟩
    · rename_i services hs
      split at h
      · rename_i x hx
        cases h
        obtain ⟨m1, hm1, -⟩ := HashMap.tryMap_congr (fun k => (HashMap.eq_iff.mp he k).symm) hs
        exact .inr ⟨⟨m1, hm1⟩, rfl⟩
      · cases h
  · rintro (⟨m', he, hx⟩ | ⟨⟨m1, hm1⟩, ht⟩)
    · exact ⟨m', he, by simp only [pass, hx]⟩
    · exact ⟨m, HashMap.eq_iff.mpr fun _ => rfl, by simp only [pass, hm1, ht]⟩

/-- One service: it fails where there is no token for it, or is filled in. -/
def ServicePass {ν : Type} (token : ν → Option String) (filled : String → ν → ν)
    (f : String → ν → Except ConfigError ν) : Prop :=
  ∀ n s, f n s = if (token s).isSome then .ok (filled n s) else .error (.tokenNotSet n)

section

variable {ν : Type} {token : ν → Option String} {filled : String → ν → ν}
  {f : String → ν → Except ConfigError ν} {m : HashMap String ν} {config : TransportConfig}
  {is_server : Bool}

theorem ServicePass.ok_iff (hf : ServicePass token filled f) {n : String} {s : ν} :
    (∃ w, f n s = .ok w) ↔ (token s).isSome = true := by
  rw [hf]
  split
  · exact iff_of_true ⟨_, rfl⟩ ‹_›
  · exact iff_of_false (fun ⟨_, h⟩ => by cases h) ‹_›

/-- **The errors of the pass, over all orders of the services, are those the section reports.** -/
theorem ServicePass.reports [DecidableEq ν] (hf : ServicePass token filled f) {e : ConfigError} :
    (∃ m', m.eq m' = true ∧ pass f m' (validate_transport_config config is_server) = .error e) ↔
      SectionReports m token config is_server e := by
  rw [pass_error_iff, validate_transport_config_error]
  constructor
  · rintro (⟨n, s, hs, h⟩ | ⟨hok, ht⟩)
    · rw [hf] at h
      split at h
      · cases h
      · rename_i hn
        cases h
        exact .token n s hs (Option.not_isSome_iff_eq_none.mp hn)
    · exact .transport (fun n s hs => hf.ok_iff.mp (hok n s hs)) e ht
  · intro h
    cases h with
    | token n s hs ht =>
        refine .inl ⟨n, s, hs, ?_⟩
        rw [hf, ht]
        rfl
    | transport ht _ he => exact .inr ⟨fun n s hs => hf.ok_iff.mpr (ht n s hs), he⟩

/-- Where it succeeds, every service is filled in. -/
theorem ServicePass.lookup (hf : ServicePass token filled f) {t : Except ConfigError Unit}
    {m' : HashMap String ν} (h : pass f m t = .ok m') (n : String) :
    m'.lookup n = (m.lookup n).map (filled n) := by
  have hm : m.tryMap f = .ok m' := by
    unfold pass at h
    split at h
    · cases h
    · rename_i services hs
      split at h <;> cases h
      exact hs
  rw [HashMap.lookup_tryMap hm]
  cases hl : m.lookup n with
  | none => rfl
  | some s =>
      obtain ⟨w, hw⟩ := HashMap.tryMap_isOk.mp ⟨m', hm⟩ n s hl
      have hs := hf n s
      rw [if_pos (hf.ok_iff.mp ⟨w, hw⟩)] at hs
      rw [Option.bind_some, hs]
      rfl

end

theorem validate_server_service_fills (t : Option String) :
    ServicePass (fun s => s.token.or t) (fun n s => s.filled n t) (validate_server_service t) := by
  rintro n ⟨st, nm, ba, tok, nd⟩
  cases tok <;> cases t <;> rfl

theorem validate_client_service_fills (t : Option String) (r : UInt64) :
    ServicePass (fun s => s.token.or t) (fun n s => s.filled n t r) (validate_client_service t r) := by
  rintro n ⟨st, nm, la, tok, nd, ri⟩
  cases tok <;> cases t <;> cases ri <;> rfl

theorem validate_server_config_pass (c : ServerConfig) : validate_server_config c =
    (pass (validate_server_service c.default_token) c.services
      (validate_transport_config c.transport true)).map fun m => { c with services := m } := by
  unfold validate_server_config pass
  cases c.services.tryMap (validate_server_service c.default_token) with
  | error e => rfl
  | ok m => cases validate_transport_config c.transport true <;> rfl

theorem validate_client_config_pass (c : ClientConfig) : validate_client_config c =
    (pass (validate_client_service c.default_token c.retry_interval) c.services
      (validate_transport_config c.transport false)).map fun m => { c with services := m } := by
  unfold validate_client_config pass
  cases c.services.tryMap (validate_client_service c.default_token c.retry_interval) with
  | error e => rfl
  | ok m => cases validate_transport_config c.transport false <;> rfl

theorem map_eq_error {ε α β : Type} {f : α → β} {r : Except ε α} {e : ε} :
    r.map f = .error e ↔ r = .error e := by
  cases r with
  | error e' => exact ⟨fun h => by cases h; rfl, fun h => by cases h; rfl⟩
  | ok a => exact ⟨nofun, nofun⟩

/-- An equal section is the same but for the order of its services. -/
theorem server_eq_iff {c d : ServerConfig} :
    c.eq d = true ↔ ∃ m, c.services.eq m = true ∧ d = { c with services := m } := by
  rw [ServerConfig.eq_iff]
  constructor
  · rintro ⟨hs, hl⟩
    refine ⟨d.services, HashMap.eq_iff.mpr hl, ?_⟩
    cases c
    cases d
    cases hs
    rfl
  · rintro ⟨m, hm, rfl⟩
    exact ⟨rfl, HashMap.eq_iff.mp hm⟩

theorem client_eq_iff {c d : ClientConfig} :
    c.eq d = true ↔ ∃ m, c.services.eq m = true ∧ d = { c with services := m } := by
  rw [ClientConfig.eq_iff]
  constructor
  · rintro ⟨hs, hl⟩
    refine ⟨d.services, HashMap.eq_iff.mpr hl, ?_⟩
    cases c
    cases d
    cases hs
    rfl
  · rintro ⟨m, hm, rfl⟩
    exact ⟨rfl, HashMap.eq_iff.mp hm⟩

theorem validate_server_config_error {c : ServerConfig} {e : ConfigError} :
    (∃ d, c.eq d = true ∧ validate_server_config d = .error e) ↔ c.Reports e := by
  rw [ServerConfig.Reports, ← (validate_server_service_fills c.default_token).reports]
  constructor
  · rintro ⟨d, hd, h⟩
    obtain ⟨m, hm, rfl⟩ := server_eq_iff.mp hd
    rw [validate_server_config_pass, map_eq_error] at h
    exact ⟨m, hm, h⟩
  · rintro ⟨m, hm, h⟩
    refine ⟨_, server_eq_iff.mpr ⟨m, hm, rfl⟩, ?_⟩
    rw [validate_server_config_pass, map_eq_error]
    exact h

theorem validate_client_config_error {c : ClientConfig} {e : ConfigError} :
    (∃ d, c.eq d = true ∧ validate_client_config d = .error e) ↔ c.Reports e := by
  rw [ClientConfig.Reports,
    ← (validate_client_service_fills c.default_token c.retry_interval).reports]
  constructor
  · rintro ⟨d, hd, h⟩
    obtain ⟨m, hm, rfl⟩ := client_eq_iff.mp hd
    rw [validate_client_config_pass, map_eq_error] at h
    exact ⟨m, hm, h⟩
  · rintro ⟨m, hm, h⟩
    refine ⟨_, client_eq_iff.mpr ⟨m, hm, rfl⟩, ?_⟩
    rw [validate_client_config_pass, map_eq_error]
    exact h

/-! ## 4. The whole configuration -/

theorem validateSection_error {α : Type} {f : α → Except ConfigError α} {x : Option α}
    {e : ConfigError} : validateSection f x = .error e ↔ ∃ c, x = some c ∧ f c = .error e := by
  cases x with
  | none => exact ⟨nofun, nofun⟩
  | some c =>
      rw [validateSection]
      constructor
      · intro h
        split at h
        · rename_i e' he
          cases h
          exact ⟨c, rfl, he⟩
        · cases h
      · rintro ⟨c', hc, h⟩
        cases hc
        rw [h]

/-- A section that is accepted in one order is in each, and reports nothing. -/
theorem validateSection_accepts {α : Type} {f : α → Except ConfigError α} {eq : α → α → Bool}
    (hrefl : ∀ a, eq a a = true)
    (hf : ∀ {a b a'}, eq a b = true → f a = .ok a' → ∃ b', f b = .ok b' ∧ eq a' b' = true)
    {reports : α → ConfigError → Prop}
    (hr : ∀ {c e}, (∃ d, eq c d = true ∧ f d = .error e) ↔ reports c e) {x : Option α} :
    (∃ y, validateSection f x = .ok y) ↔ ∀ c, x = some c → ∀ e, ¬ reports c e := by
  cases x with
  | none => exact ⟨fun _ => nofun, fun _ => ⟨none, rfl⟩⟩
  | some c =>
      constructor
      · rintro ⟨y, hy⟩ c' hc e he
        cases hc
        obtain ⟨d, hd, h⟩ := hr.mpr he
        rcases validateSection_ok hy with ⟨h0, -⟩ | ⟨c1, c', h1, h2, -⟩
        · cases h0
        · cases h1
          obtain ⟨b', hb, -⟩ := hf hd h2
          rw [h] at hb
          cases hb
      · intro h
        cases hc : f c with
        | ok c' => exact ⟨some c', by simp only [validateSection, hc]⟩
        | error e => exact absurd (hr.mp ⟨c, hrefl c, hc⟩) (h c rfl e)

theorem server_accepts {x : Option ServerConfig} :
    (∃ y, validateSection validate_server_config x = .ok y) ↔
      ∀ c, x = some c → ∀ e, ¬ c.Reports e :=
  validateSection_accepts ServerConfig.eq_refl (fun h h' => validate_server_config_congr h h')
    validate_server_config_error

theorem validateSection_isSome {α : Type} {f : α → Except ConfigError α} {x y : Option α}
    (h : validateSection f x = .ok y) : y.isNone = x.isNone := by
  rcases validateSection_ok h with ⟨rfl, rfl⟩ | ⟨_, _, rfl, -, rfl⟩ <;> rfl

/-- The check of one section after the other, and of there being one. -/
theorem validate_error_iff {c : Config} {e : ConfigError} : validate c = .error e ↔
    (∃ s, c.server = some s ∧ validate_server_config s = .error e) ∨
    ((∃ y, validateSection validate_server_config c.server = .ok y) ∧
      ((∃ s, c.client = some s ∧ validate_client_config s = .error e) ∨
        ((∃ y, validateSection validate_client_config c.client = .ok y) ∧
          c.server = none ∧ c.client = none ∧ e = .noSection))) := by
  rw [← validateSection_error (f := validate_server_config),
    ← validateSection_error (f := validate_client_config)]
  unfold validate
  cases hs : validateSection validate_server_config c.server with
  | error x => simp
  | ok server =>
      cases hc : validateSection validate_client_config c.client with
      | error x => simp
      | ok client =>
          have h1 := validateSection_isSome hs
          have h2 := validateSection_isSome hc
          rw [← Option.isNone_iff_eq_none (o := c.server), ← Option.isNone_iff_eq_none (o := c.client),
            ← h1, ← h2]
          cases server <;> cases client <;> simp [eq_comm]

theorem server_eq_symm {a b : ServerConfig} (h : a.eq b = true) : b.eq a = true := by
  obtain ⟨hs, hl⟩ := ServerConfig.eq_iff.mp h
  exact ServerConfig.eq_iff.mpr ⟨hs.symm, fun n => (hl n).symm⟩

theorem optEq_some {α : Type} {eq : α → α → Bool} {x : Option α} {b : α}
    (h : optEq eq x (some b) = true) : ∃ a, x = some a ∧ eq a b = true := by
  cases x with
  | none => cases h
  | some a => exact ⟨a, rfl, h⟩

theorem optEq_symm {α : Type} {eq : α → α → Bool} (h : ∀ {a b}, eq a b = true → eq b a = true)
    {x y : Option α} (hxy : optEq eq x y = true) : optEq eq y x = true := by
  cases x <;> cases y
  · rfl
  · cases hxy
  · cases hxy
  · exact h hxy

/-- **The errors of validation, over all orders of the services, are those reported.** -/
theorem validate_reports {c : Config} {e : ConfigError} :
    (∃ d, c.eq d = true ∧ validate d = .error e) ↔ c.Reports e := by
  have hsrefl := optEq_refl ServerConfig.eq_refl c.server
  have hcrefl := optEq_refl ClientConfig.eq_refl c.client
  constructor
  · rintro ⟨d, he, h⟩
    obtain ⟨h1, h2⟩ := (Bool.and_eq_true _ _).mp he
    rcases validate_error_iff.mp h with ⟨sd, hsd, hv⟩ | ⟨⟨y, hy⟩, h⟩
    · rw [hsd] at h1
      obtain ⟨s, hs, heq⟩ := optEq_some h1
      exact .server s hs e (validate_server_config_error.mp ⟨sd, heq, hv⟩)
    · -- the server's section is accepted in the order of `d`, and so in that of `c`
      have hs : ∀ s, c.server = some s → ∀ e, ¬ s.Reports e := by
        obtain ⟨y', hy', -⟩ := validateSection_congr (fun h => validate_server_config_congr h)
          (optEq_symm server_eq_symm h1) hy
        exact server_accepts.mp ⟨y', hy'⟩
      rcases h with ⟨cd, hcd, hv⟩ | ⟨-, hsn, hcn, rfl⟩
      · rw [hcd] at h2
        obtain ⟨cl, hcl, heq⟩ := optEq_some h2
        exact .client hs cl hcl e (validate_client_config_error.mp ⟨cd, heq, hv⟩)
      · rw [hsn] at h1
        rw [hcn] at h2
        refine .noSection ?_ ?_
        · exact Option.isNone_iff_eq_none.mp (optEq_isNone h1)
        · exact Option.isNone_iff_eq_none.mp (optEq_isNone h2)
  · intro h
    cases h with
    | server s hs _ he =>
        obtain ⟨d, hd, hv⟩ := validate_server_config_error.mpr he
        refine ⟨{ c with server := some d }, (Bool.and_eq_true _ _).mpr ⟨?_, hcrefl⟩,
          validate_error_iff.mpr (.inl ⟨d, rfl, hv⟩)⟩
        rw [hs]
        exact hd
    | client hs s hc _ he =>
        obtain ⟨d, hd, hv⟩ := validate_client_config_error.mpr he
        refine ⟨{ c with client := some d }, (Bool.and_eq_true _ _).mpr ⟨hsrefl, ?_⟩,
          validate_error_iff.mpr (.inr ⟨server_accepts.mpr hs, .inl ⟨d, rfl, hv⟩⟩)⟩
        rw [hc]
        exact hd
    | noSection hs hc =>
        refine ⟨c, (Bool.and_eq_true _ _).mpr ⟨hsrefl, hcrefl⟩, validate_error_iff.mpr (.inr ⟨?_,
          .inr ⟨?_, hs, hc, rfl⟩⟩)⟩
        · exact ⟨none, by rw [hs]; rfl⟩
        · exact ⟨none, by rw [hc]; rfl⟩

/-- It succeeds where nothing is reported. -/
theorem validate_isOk {c : Config} : (∃ c', validate c = .ok c') ↔ ∀ e, ¬ c.Reports e := by
  constructor
  · rintro ⟨c', h⟩ e he
    obtain ⟨d, hd, hv⟩ := validate_reports.mpr he
    obtain ⟨d', hd', -⟩ := validate_congr hd h
    rw [hv] at hd'
    cases hd'
  · intro h
    cases hc : validate c with
    | ok c' => exact ⟨c', rfl⟩
    | error e =>
        refine absurd (validate_reports.mp ⟨c, ?_, hc⟩) (h e)
        exact (Bool.and_eq_true _ _).mpr ⟨optEq_refl ServerConfig.eq_refl c.server,
          optEq_refl ClientConfig.eq_refl c.client⟩

/-! ## 5. What is acceptable -/

theorem section_acceptable {ν : Type} {services : HashMap String ν} {token : ν → Option String}
    {config : TransportConfig} {is_server : Bool} :
    Tokens services token ∧ config.Acceptable is_server ↔
      ∀ e, ¬ SectionReports services token config is_server e := by
  rw [transport_acceptable]
  constructor
  · rintro ⟨ht, h⟩ e he
    cases he with
    | token n s hs hn =>
        have hsome := ht n s hs
        rw [hn] at hsome
        cases hsome
    | transport _ _ he => exact h e he
  · intro h
    have ht : Tokens services token := fun n s hs =>
      by_contra fun hn => h _ (.token n s hs (Option.not_isSome_iff_eq_none.mp hn))
    exact ⟨ht, fun e he => h e (.transport ht e he)⟩

theorem acceptable_iff {c : Config} : c.Acceptable ↔ ∀ e, ¬ c.Reports e := by
  constructor
  · rintro ⟨hp, hs, hc⟩ e he
    cases he with
    | server s h _ he => exact section_acceptable.mp (hs s h) e he
    | client _ s h _ he => exact section_acceptable.mp (hc s h) e he
    | noSection h h' =>
        rw [h, h'] at hp
        rcases hp with hp | hp <;> cases hp
  · intro h
    have hs : ∀ s, c.server = some s → ∀ e, ¬ s.Reports e :=
      fun s h' e he => h e (.server s h' e he)
    refine ⟨?_, fun s h' => section_acceptable.mpr (hs s h'),
      fun s h' => section_acceptable.mpr fun e he => h e (.client hs s h' e he)⟩
    cases hs' : c.server with
    | some s => exact .inl rfl
    | none =>
        cases hc' : c.client with
        | some s => exact .inr rfl
        | none => exact absurd (.noSection hs' hc') (h _)

/-! ## 6. What it is accepted as -/

theorem validate_server_config_fills {c c' : ServerConfig} (h : validate_server_config c = .ok c') :
    c.Fills c' := by
  rw [validate_server_config_pass] at h
  cases hm : pass (validate_server_service c.default_token) c.services
      (validate_transport_config c.transport true) with
  | error e =>
      rw [hm] at h
      cases h
  | ok m =>
      rw [hm] at h
      cases h
      exact ⟨rfl, (validate_server_service_fills c.default_token).lookup hm⟩

theorem validate_client_config_fills {c c' : ClientConfig} (h : validate_client_config c = .ok c') :
    c.Fills c' := by
  rw [validate_client_config_pass] at h
  cases hm : pass (validate_client_service c.default_token c.retry_interval) c.services
      (validate_transport_config c.transport false) with
  | error e =>
      rw [hm] at h
      cases h
  | ok m =>
      rw [hm] at h
      cases h
      exact ⟨rfl, (validate_client_service_fills c.default_token c.retry_interval).lookup hm⟩

theorem validate_fills {c c' : Config} (h : validate c = .ok c') : c.Fills c' := by
  obtain ⟨hs, hc, -⟩ := validate_ok h
  constructor
  · rcases validateSection_ok hs with ⟨h1, h2⟩ | ⟨s, s', h1, h2, h3⟩
    · rw [h1, h2]
      exact .none
    · rw [h1, h3]
      exact .some (validate_server_config_fills h2)
  · rcases validateSection_ok hc with ⟨h1, h2⟩ | ⟨s, s', h1, h2, h3⟩
    · rw [h1, h2]
      exact .none
    · rw [h1, h3]
      exact .some (validate_client_config_fills h2)

/-- A service that has been filled in stays as it is. -/
theorem filled_filled (s : ServerServiceConfig) (n : String) (t : Option String) :
    (s.filled n t).filled n t = s.filled n t ∧ ((s.filled n t).token.or t) = s.token.or t := by
  obtain ⟨st, nm, ba, tok, nd⟩ := s
  cases tok <;> cases t <;> exact ⟨rfl, rfl⟩

theorem filled_filled_client (s : ClientServiceConfig) (n : String) (t : Option String)
    (r : UInt64) : (s.filled n t r).filled n t r = s.filled n t r ∧
      ((s.filled n t r).token.or t) = s.token.or t := by
  obtain ⟨st, nm, la, tok, nd, ri⟩ := s
  cases tok <;> cases t <;> exact ⟨rfl, rfl⟩

/-- What a section is filled in as is as acceptable, and filled in already. -/
theorem server_fills_again {c c' d : ServerConfig} (h : c.Fills c') :
    (c.Tokens → c'.Tokens) ∧ c'.transport = c.transport ∧ (c'.Fills d → c'.eq d = true) := by
  obtain ⟨hset, hl⟩ := h
  have hd : c'.default_token = c.default_token := by
    have h := congrArg (fun x : ServerConfig => x.default_token) hset
    exact h
  have htr : c'.transport = c.transport := by
    have h := congrArg (fun x : ServerConfig => x.transport) hset
    exact h
  refine ⟨fun ht n s' hs' => ?_, htr, fun h => ?_⟩
  · rw [hl] at hs'
    obtain ⟨s, hs, rfl⟩ := Option.map_eq_some_iff.mp hs'
    show ((s.filled n c.default_token).token.or c'.default_token).isSome = true
    rw [hd, (filled_filled s n c.default_token).2]
    exact ht n s hs
  · refine ServerConfig.eq_iff.mpr ⟨h.settings.symm, fun n => ?_⟩
    rw [h.services, hl, hd, Option.map_map]
    refine congrFun (congrArg Option.map ?_) _
    funext s
    exact (filled_filled s n c.default_token).1.symm

theorem client_fills_again {c c' d : ClientConfig} (h : c.Fills c') :
    (c.Tokens → c'.Tokens) ∧ c'.transport = c.transport ∧ (c'.Fills d → c'.eq d = true) := by
  obtain ⟨hset, hl⟩ := h
  have hd : c'.default_token = c.default_token := by
    have h := congrArg (fun x : ClientConfig => x.default_token) hset
    exact h
  have hr : c'.retry_interval = c.retry_interval := by
    have h := congrArg (fun x : ClientConfig => x.retry_interval) hset
    exact h
  have htr : c'.transport = c.transport := by
    have h := congrArg (fun x : ClientConfig => x.transport) hset
    exact h
  refine ⟨fun ht n s' hs' => ?_, htr, fun h => ?_⟩
  · rw [hl] at hs'
    obtain ⟨s, hs, rfl⟩ := Option.map_eq_some_iff.mp hs'
    show ((s.filled n c.default_token c.retry_interval).token.or c'.default_token).isSome = true
    rw [hd, (filled_filled_client s n c.default_token c.retry_interval).2]
    exact ht n s hs
  · refine ClientConfig.eq_iff.mpr ⟨h.settings.symm, fun n => ?_⟩
    rw [h.services, hl, hd, hr, Option.map_map]
    refine congrFun (congrArg Option.map ?_) _
    funext s
    exact (filled_filled_client s n c.default_token c.retry_interval).1.symm

theorem rel_some {α : Type} {R : α → α → Prop} {x : Option α} {b : α}
    (h : Option.Rel R x (some b)) : ∃ a, x = some a ∧ R a b := by
  cases h with
  | some h => exact ⟨_, rfl, h⟩

theorem optEq_of_rel {α : Type} {R : α → α → Prop} {eq : α → α → Bool}
    (hR : ∀ {a b c}, R a b → R b c → eq b c = true) {x y z : Option α} (h : Option.Rel R x y)
    (h' : Option.Rel R y z) : optEq eq y z = true := by
  cases h' with
  | none => rfl
  | some h' =>
      obtain ⟨a, -, ha⟩ := rel_some h
      exact hR ha h'

/-- **Validation does nothing to what it has accepted.** -/
theorem validate_again {c c' : Config} (h : validate c = .ok c') :
    ∃ c'', validate c' = .ok c'' ∧ c'.eq c'' = true := by
  have hf := validate_fills h
  obtain ⟨-, hs, hc⟩ := acceptable_iff.mpr (validate_isOk.mp ⟨c', h⟩)
  obtain ⟨-, -, hp⟩ := validate_ok h
  have ha : c'.Acceptable := by
    refine ⟨hp, fun s' hs' => ?_, fun s' hs' => ?_⟩
    · obtain ⟨s, hs0, hfs⟩ := rel_some (hs' ▸ hf.server)
      obtain ⟨htok, htr, -⟩ := server_fills_again (d := s) hfs
      obtain ⟨h1, h2⟩ := hs s hs0
      exact ⟨htok h1, htr ▸ h2⟩
    · obtain ⟨s, hs0, hfs⟩ := rel_some (hs' ▸ hf.client)
      obtain ⟨htok, htr, -⟩ := client_fills_again (d := s) hfs
      obtain ⟨h1, h2⟩ := hc s hs0
      exact ⟨htok h1, htr ▸ h2⟩
  obtain ⟨c'', h''⟩ := validate_isOk.mpr (acceptable_iff.mp ha)
  have hf' := validate_fills h''
  refine ⟨c'', h'', (Bool.and_eq_true _ _).mpr ⟨?_, ?_⟩⟩
  · exact optEq_of_rel (R := ServerConfig.Fills) (fun h1 h2 => (server_fills_again h1).2.2 h2)
      hf.server hf'.server
  · exact optEq_of_rel (R := ClientConfig.Fills) (fun h1 h2 => (client_fills_again h1).2.2 h2)
      hf.client hf'.client

/-- **Exactly what `from_str` does with a text that parses.** It accepts it precisely where the
    configuration is acceptable; fills it in, which a second pass leaves as it is; and over all orders
    the services may be iterated in, it reports precisely the errors there are. -/
theorem from_str_exact {Seed : Type} {toml : Seed → String → Except String Config} {σ : Seed}
    {text : String} {c : Config} (hparse : toml σ text = .ok c) :
    ((∃ c', from_str toml σ text = .ok c') ↔ c.Acceptable) ∧
    (∀ c', from_str toml σ text = .ok c' → c.Fills c' ∧
      ∃ c'', validate c' = .ok c'' ∧ c'.eq c'' = true) ∧
    ∀ e, (∃ d, c.eq d = true ∧ validate d = .error e) ↔ c.Reports e := by
  have h : from_str toml σ text = validate c := by simp only [from_str, hparse]
  rw [h]
  exact ⟨validate_isOk.trans acceptable_iff.symm, fun c' hc' => ⟨validate_fills hc',
    validate_again hc'⟩, fun _ => validate_reports⟩

/-- A client without a token for one of its two services, and no default. -/
def tokenless : Config where
  server := none
  client := some {
    remote_addr := "example.com:2333"
    default_token := none
    services := (∅ : HashMap String ClientServiceConfig).insert "ssh"
      ⟨.tcp, "", "127.0.0.1:22", none, none, none⟩ |>.insert "dns"
      ⟨.udp, "", "127.0.0.1:53", none, none, none⟩
    transport := ⟨.tcp, ⟨true, 20, 8, none⟩, none, none⟩
    heartbeat_timeout := 40
    retry_interval := 1 }

/-- It is rejected, with the name of one service or of the other. -/
theorem from_str_exact_tokenless :
    (¬ ∃ c', from_str (fun _ _ => .ok tokenless) () "" = .ok c') ∧
      (∃ d, tokenless.eq d = true ∧ validate d = .error (.tokenNotSet "ssh")) ∧
        ∃ d, tokenless.eq d = true ∧ validate d = .error (.tokenNotSet "dns") := by
  obtain ⟨haccept, -, hreport⟩ := @from_str_exact Unit (fun _ _ => .ok tokenless) () "" tokenless
    rfl
  have hssh : tokenless.Reports (.tokenNotSet "ssh") :=
    .client (fun _ h => by cases h) _ rfl _ (.token "ssh" _ rfl rfl)
  have hdns : tokenless.Reports (.tokenNotSet "dns") :=
    .client (fun _ h => by cases h) _ rfl _ (.token "dns" _ rfl rfl)
  refine ⟨fun h => ?_, (hreport _).mpr hssh, (hreport _).mpr hdns⟩
  exact acceptable_iff.mp (haccept.mp h) _ hssh

end Config

end Penetrate
