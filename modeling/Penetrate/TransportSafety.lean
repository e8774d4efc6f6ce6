/-
  File:      Penetrate/TransportSafety.lean
  Subject:   WHICH VALIDATED TRANSPORTS CANNOT PANIC, AND WHICH PROXIES THE VALIDATOR LETS THROUGH.

  The validator asks for `socket5` or `http`; the connector knows `socks5` and `http`, and insists on
  the host and the port. `url::Url::port` is `none` where the port is the scheme's own, so that
  `http://proxy:80` has none. A client with an identity file and no password is let through too; and
  nobody asks whether the TLS crate makes an acceptor of the identity it has read.

  * `Config.validate_transport_iff` -- what the validator establishes;
  * `Url.Dialable` -- the proxies whose connections cannot panic;
  * `noPanic_new_iff`, `new_ok_iff` -- the sections whose construction cannot panic (`Protected`), and
    those of which a transport is built (`Buildable`);
  * `serves_of_accepted`, `dials_iff` -- how the two sides use a transport that has been built;
  * `transport_agreement` -- where the validator and the transports agree.
-/
import Penetrate.Instance
import Penetrate.Transport

namespace Penetrate

open Fallible

/-! ## 1. The validator -/

/-- What validation establishes of a transport section. -/
structure TransportConfig.Accepted (config : TransportConfig) (is_server : Bool) : Prop where
  scheme : ∀ u, config.tcp.proxy = some u → u.scheme = "socket5" ∨ u.scheme = "http"
  tls : config.transport_type = .tls → ∃ t, config.tls = some t ∧
    (is_server = true → t.pkcs12.isSome = true ∧ t.pkcs12_password.isSome = true)

/-- The checks that come after the one of the proxy. -/
theorem Config.validate_transport_proxy {config : TransportConfig} {is_server : Bool}
    (hs : ∀ u, config.tcp.proxy = some u → u.scheme = "socket5" ∨ u.scheme = "http") :
    validate_transport_config config is_server =
      validate_transport_config { config with tcp := { config.tcp with proxy := none } } is_server := by
  unfold validate_transport_config
  cases hp : config.tcp.proxy with
  | none => rfl
  | some u => rcases hs u hp with h | h <;> simp [h]

theorem Config.validate_transport_iff {config : TransportConfig} {is_server : Bool} :
    validate_transport_config config is_server = .ok () ↔ config.Accepted is_server := by
  constructor
  · intro h
    have hs : ∀ u, config.tcp.proxy = some u → u.scheme = "socket5" ∨ u.scheme = "http" := by
      intro u hu
      by_contra hn
      rw [not_or] at hn
      simp [validate_transport_config, hu, hn.1, hn.2] at h
    refine ⟨hs, fun ht => ?_⟩
    rw [validate_transport_proxy hs] at h
    cases htls : config.tls with
    | none => simp [validate_transport_config, ht, htls] at h
    | some t =>
        refine ⟨t, rfl, fun hserver => ?_⟩
        obtain ⟨hostname, trusted_root, pkcs12, password⟩ := t
        cases pkcs12 <;> cases password <;>
          simp [validate_transport_config, ht, htls, hserver] at h ⊢
  · intro ha
    rw [validate_transport_proxy ha.scheme]
    cases ht : config.transport_type with
    | tcp => simp [validate_transport_config]
    | noise => simp [validate_transport_config]
    | tls =>
        obtain ⟨t, htls, hserver⟩ := ha.tls ht
        cases is_server with
        | false => simp [validate_transport_config, htls]
        | true =>
            obtain ⟨h1, h2⟩ := hserver rfl
            have h1' : t.pkcs12.isNone = false := by simpa using h1
            have h2' : t.pkcs12_password.isNone = false := by simpa using h2
            simp [validate_transport_config, htls, h1', h2']

/-- The validator says of a proxy that its scheme is unknown unless it is one of its two. -/
theorem Config.validate_proxy_iff {config : TransportConfig} {is_server : Bool} {u : Url}
    (hu : config.tcp.proxy = some u) :
    validate_transport_config config is_server ≠ .error (.unknownProxyScheme u.scheme) ↔
      u.scheme = "socket5" ∨ u.scheme = "http" := by
  unfold validate_transport_config
  rw [hu]
  by_cases h : u.scheme = "socket5" ∨ u.scheme = "http"
  · refine iff_of_true ?_ h
    have hok : (if u.scheme = "socket5" then .ok () else if u.scheme = "http" then .ok ()
        else .error (.unknownProxyScheme u.scheme) : Except ConfigError Unit) = .ok () := by
      rcases h with h | h <;> simp [h]
    dsimp only
    rw [hok]
    dsimp only
    split
    · simp
    · split
      · simp
      · split <;> simp
    · simp
  · refine iff_of_false ?_ h
    rw [not_or] at h
    simp [h.1, h.2]

/-! ## 2. Dialling -/

/-- What `tcp_connect_with_proxy` implements. -/
def Implemented (scheme : String) : Prop := scheme = "socks5" ∨ scheme = "http"

/-- The connector can dial this proxy. -/
structure Url.Dialable (u : Url) : Prop where
  host : u.host_str.isSome = true
  port : u.port.isSome = true
  scheme : Implemented u.scheme

section

variable {c : Crates}

theorem noPanic_host_port_pair {s : String} (h : ':' ∈ s.toList) : (host_port_pair s).NoPanic := by
  unfold host_port_pair
  rw [if_pos h]
  simp [Outcome.noPanic_bind]

/-- An address that has been resolved has a port. -/
theorem AddrMaybeCached.resolve_has_port {r : Resolver} {s : String} {addr : AddrMaybeCached}
    (h : (AddrMaybeCached.new s).resolve r = .ok addr) : ':' ∈ addr.addr.toList := by
  unfold AddrMaybeCached.resolve at h
  obtain ⟨a, ha, h⟩ := Outcome.bind_eq_ok.mp h
  unfold to_socket_addr at ha
  obtain ⟨l, hl, _⟩ := Outcome.bind_eq_ok.mp ha
  cases h
  exact r.has_port s l (Outcome.ofResult_eq_ok.mp hl)

/-- The connection to a proxy panics over the URL alone. -/
theorem noPanic_tcp_connect {addr : AddrMaybeCached} (ha : ':' ∈ addr.addr.toList)
    {proxy : Option Url} (hp : ∀ u, proxy = some u → u.Dialable) (net : Net c) :
    (tcp_connect_with_proxy net addr proxy).NoPanic := by
  unfold tcp_connect_with_proxy
  cases proxy with
  | none => cases addr.socket_addr <;> simp
  | some u =>
      obtain ⟨hhost, hport, hs⟩ := hp u rfl
      have hpair := noPanic_host_port_pair ha
      rcases hs with hs | hs
      · simp [Outcome.noPanic_bind, hhost, hport, hs, hpair]
      · simp [Outcome.noPanic_bind, hhost, hport, hs, hpair]

variable (c) in
/-- A network on which everything a client tries succeeds. -/
def Net.up : Net c where
  bind _ := .ok ()
  accept := .error "no connection"
  connect_host _ _ := .ok ⟨0⟩
  connect_socket _ := .ok ⟨0⟩
  connect_addr _ := .ok ⟨0⟩
  socks5_connect _ _ _ := .ok ()
  http_connect _ _ _ := .ok ()
  http_connect_with_basic_auth _ _ _ _ := .ok ()
  tls_accept _ s := .ok s
  tls_connect _ _ s := .ok s
  noise_handshake s _ := .ok s

/-- A proxy that can be reached has to be dialable. -/
theorem dialable_of_noPanic {addr : AddrMaybeCached} {u : Url}
    (h : (tcp_connect_with_proxy (Net.up c) addr (some u)).NoPanic) : u.Dialable := by
  unfold tcp_connect_with_proxy at h
  obtain ⟨hhost, h⟩ := Outcome.noPanic_bind.mp h
  obtain ⟨host, hh⟩ := Option.isSome_iff_exists.mp (Outcome.noPanic_expect.mp hhost)
  obtain ⟨hport, h⟩ := Outcome.noPanic_bind.mp (h host (Outcome.expect_eq_ok.mpr hh))
  obtain ⟨port, hp⟩ := Option.isSome_iff_exists.mp (Outcome.noPanic_expect.mp hport)
  have h := h port (Outcome.expect_eq_ok.mpr hp)
  refine ⟨Outcome.noPanic_expect.mp hhost, Outcome.noPanic_expect.mp hport, ?_⟩
  by_contra hs
  unfold Implemented at hs
  rw [not_or] at hs
  simp [Net.up, Outcome.ofResult, hs.1, hs.2] at h

/-! ## 3. Construction -/

section

variable (c) (files : Files)

/-- A connector is made of what `trusted_root` holds, or of what the system trusts. -/
def TlsConfig.RootUsable (t : TlsConfig) : Prop :=
  match t.trusted_root with
  | some path => ∃ s cert k, files.read_to_string path = .ok s ∧ c.from_pem s = .ok cert ∧
      c.connector (some cert) = .ok k
  | none => ∃ k, c.connector none = .ok k

/-- An identity file that can be read has a password, and the identity it holds under that password
    is one an acceptor is made of. -/
def TlsConfig.IdentityFit (t : TlsConfig) : Prop :=
  ∀ path bytes, t.pkcs12 = some path → files.read path = .ok bytes →
    ∃ password, t.pkcs12_password = some password ∧
      ∀ ident, c.from_pkcs12 bytes password = .ok ident → ∃ a, c.acceptor ident = .ok a

/-- An acceptor is made of the identity, where there is one. -/
def TlsConfig.IdentityUsable (t : TlsConfig) : Prop :=
  ∀ path, t.pkcs12 = some path → ∃ bytes password ident a, files.read path = .ok bytes ∧
    t.pkcs12_password = some password ∧ c.from_pkcs12 bytes password = .ok ident ∧
      c.acceptor ident = .ok a

/-- A Noise transport can be built of this section. -/
structure NoiseConfig.Usable (n : NoiseConfig) : Prop where
  pattern : ∃ p, c.parse_pattern n.pattern = .ok p
  remote_key : ∀ x, n.remote_public_key = some x → ∃ k, c.base64_decode x = .ok k
  local_key : ∀ x, n.local_private_key = some x → ∃ k, c.base64_decode x = .ok k
  generated : n.local_private_key = none → ∃ k, files.generate_keypair = .ok k

/-- A TLS section that gets as far as its identity has a fit one. -/
def TransportConfig.Protected (config : TransportConfig) : Prop :=
  config.transport_type = .tls → ∀ t, config.tls = some t → t.RootUsable c files →
    t.IdentityFit c files

/-- A transport can be built of this section. -/
structure TransportConfig.Buildable (config : TransportConfig) : Prop where
  tls : config.transport_type = .tls →
    ∃ t, config.tls = some t ∧ t.RootUsable c files ∧ t.IdentityUsable c files
  noise : config.transport_type = .noise → ∃ n, config.noise = some n ∧ n.Usable c files

end

section

variable {files : Files}

theorem noPanic_tlsConnector (files : Files) (config : TlsConfig) :
    (tlsConnector c files config).NoPanic := by
  unfold tlsConnector
  cases config.trusted_root <;> simp [Outcome.noPanic_bind]

theorem tlsConnector_ok_iff {t : TlsConfig} :
    (∃ k, tlsConnector c files t = .ok k) ↔ t.RootUsable c files := by
  unfold tlsConnector TlsConfig.RootUsable
  cases t.trusted_root with
  | none => simp [Outcome.bind_eq_ok]
  | some path =>
      simp only [Outcome.bind_eq_ok, Outcome.context_eq_ok, Outcome.ofResult_eq_ok, Outcome.pure_eq]
      constructor
      · rintro ⟨_, s, hs, cert, hc, k, hk, _⟩
        exact ⟨s, cert, k, hs, hc, hk⟩
      · rintro ⟨s, cert, k, hs, hc, hk⟩
        exact ⟨some k, s, hs, cert, hc, k, hk, rfl⟩

theorem tlsConnector_ok {config : TlsConfig} {k : Option c.Connector}
    (h : tlsConnector c files config = .ok k) : k.isSome = true := by
  unfold tlsConnector at h
  split at h
  · obtain ⟨_, _, h⟩ := Outcome.bind_eq_ok.mp h
    obtain ⟨_, _, h⟩ := Outcome.bind_eq_ok.mp h
    obtain ⟨_, _, h⟩ := Outcome.bind_eq_ok.mp h
    cases h
    rfl
  · obtain ⟨_, _, h⟩ := Outcome.bind_eq_ok.mp h
    cases h
    rfl

/-- **Where the acceptor panics**: over an identity without a password, and over one the TLS crate
    reads and then refuses. -/
theorem noPanic_tlsAcceptor_iff {t : TlsConfig} :
    (tlsAcceptor c files t).NoPanic ↔ t.IdentityFit c files := by
  unfold tlsAcceptor TlsConfig.IdentityFit
  cases t.pkcs12 with
  | none => simp
  | some path =>
      simp only [Outcome.noPanic_bind, Outcome.noPanic_ofResult, Outcome.ofResult_eq_ok,
        Outcome.noPanic_unwrap, Outcome.unwrap_eq_ok, Outcome.noPanic_context, Outcome.context_eq_ok,
        Outcome.noPanic_unwrapResult, Outcome.pure_eq, Outcome.noPanic_ok, implies_true, and_true,
        true_and, Option.some.injEq]
      constructor
      · rintro h _ bytes rfl hread
        obtain ⟨hsome, hfit⟩ := h bytes hread
        obtain ⟨password, hw⟩ := Option.isSome_iff_exists.mp hsome
        exact ⟨password, hw, hfit password hw⟩
      · intro h bytes hread
        obtain ⟨password, hw, hfit⟩ := h path bytes rfl hread
        refine ⟨by rw [hw]; rfl, fun password' hw' => ?_⟩
        rw [hw] at hw'
        cases hw'
        exact hfit

theorem tlsAcceptor_ok_iff {t : TlsConfig} :
    (∃ a, tlsAcceptor c files t = .ok a) ↔ t.IdentityUsable c files := by
  unfold tlsAcceptor TlsConfig.IdentityUsable
  cases t.pkcs12 with
  | none => simp
  | some path =>
      simp only [Outcome.bind_eq_ok, Outcome.ofResult_eq_ok, Outcome.unwrap_eq_ok,
        Outcome.context_eq_ok, Outcome.unwrapResult_eq_ok, Outcome.pure_eq, Option.some.injEq]
      constructor
      · rintro ⟨_, bytes, hb, password, hw, ident, hi, a, ha, _⟩ _ rfl
        exact ⟨bytes, password, ident, a, hb, hw, hi, ha⟩
      · intro h
        obtain ⟨bytes, password, ident, a, hb, hw, hi, ha⟩ := h path rfl
        exact ⟨some a, bytes, hb, password, hw, ident, hi, a, ha, rfl⟩

theorem tlsAcceptor_ok {config : TlsConfig} {a : Option c.Acceptor}
    (h : tlsAcceptor c files config = .ok a) (hp : config.pkcs12.isSome = true) :
    a.isSome = true := by
  unfold tlsAcceptor at h
  split at h
  · obtain ⟨_, _, h⟩ := Outcome.bind_eq_ok.mp h
    obtain ⟨_, _, h⟩ := Outcome.bind_eq_ok.mp h
    obtain ⟨_, _, h⟩ := Outcome.bind_eq_ok.mp h
    obtain ⟨_, _, h⟩ := Outcome.bind_eq_ok.mp h
    cases h
    rfl
  · rename_i hn
    rw [hn] at hp
    cases hp

theorem tls_new_ok {config : TransportConfig} {t : TlsTransport c}
    (h : TlsTransport.new c files config = .ok t) : t.tcp = ⟨config.tcp⟩ ∧ t.connector.isSome = true ∧
      ∀ tls, config.tls = some tls → tls.pkcs12.isSome = true → t.tls_acceptor.isSome = true := by
  unfold TlsTransport.new at h
  obtain ⟨tcp, htcp, h⟩ := Outcome.bind_eq_ok.mp h
  cases htcp
  split at h
  · cases h
  · rename_i tls htls
    obtain ⟨k, hk, h⟩ := Outcome.bind_eq_ok.mp h
    obtain ⟨a, ha, h⟩ := Outcome.bind_eq_ok.mp h
    cases h
    refine ⟨rfl, tlsConnector_ok hk, fun tls' e hp => ?_⟩
    rw [htls] at e
    cases e
    exact tlsAcceptor_ok ha hp

theorem noise_new_ok {config : TransportConfig} {t : NoiseTransport c}
    (h : NoiseTransport.new c files config = .ok t) : t.tcp = ⟨config.tcp⟩ := by
  unfold NoiseTransport.new at h
  obtain ⟨tcp, htcp, h⟩ := Outcome.bind_eq_ok.mp h
  cases htcp
  split at h
  · cases h
  · obtain ⟨_, _, h⟩ := Outcome.bind_eq_ok.mp h
    obtain ⟨_, _, h⟩ := Outcome.bind_eq_ok.mp h
    obtain ⟨_, _, h⟩ := Outcome.bind_eq_ok.mp h
    obtain ⟨_, _, h⟩ := Outcome.bind_eq_ok.mp h
    cases h
    rfl

theorem noPanic_noise_new (files : Files) (config : TransportConfig) :
    (NoiseTransport.new c files config).NoPanic := by
  have hremote (n : NoiseConfig) : (noiseRemoteKey c n).NoPanic := by
    unfold noiseRemoteKey
    cases n.remote_public_key <;> simp [Outcome.noPanic_bind]
  have hlocal (n : NoiseConfig) : (noiseLocalKey c files n).NoPanic := by
    unfold noiseLocalKey
    cases n.local_private_key <;> simp
  unfold NoiseTransport.new TcpTransport.new
  cases config.noise with
  | none => simp
  | some n => simp [Outcome.noPanic_bind, hremote, hlocal]

theorem noPanic_tls_new_iff {config : TransportConfig} :
    (TlsTransport.new c files config).NoPanic ↔
      ∀ t, config.tls = some t → t.RootUsable c files → t.IdentityFit c files := by
  unfold TlsTransport.new TcpTransport.new
  cases config.tls with
  | none => simp
  | some t =>
      simp only [Outcome.noPanic_bind, Outcome.pure_eq, Outcome.noPanic_ok, noPanic_tlsConnector,
        noPanic_tlsAcceptor_iff, ← tlsConnector_ok_iff, Option.some.injEq, forall_eq', true_and,
        implies_true, and_true, forall_exists_index, Outcome.ok.injEq]

/-- **Where the construction panics.** -/
theorem noPanic_new_iff {config : TransportConfig} :
    (AnyTransport.new c files config).NoPanic ↔ config.Protected c files := by
  unfold AnyTransport.new TransportConfig.Protected
  cases config.transport_type with
  | tcp => simp [TcpTransport.new]
  | tls => simp [Outcome.noPanic_bind, noPanic_tls_new_iff]
  | noise => simp [Outcome.noPanic_bind, noPanic_noise_new]

theorem noiseRemoteKey_ok_iff {n : NoiseConfig} : (∃ k, noiseRemoteKey c n = .ok k) ↔
    ∀ x, n.remote_public_key = some x → ∃ k, c.base64_decode x = .ok k := by
  unfold noiseRemoteKey
  cases n.remote_public_key <;> simp [Outcome.bind_eq_ok]

theorem noiseLocalKey_ok_iff {n : NoiseConfig} : (∃ k, noiseLocalKey c files n = .ok k) ↔
    (∀ x, n.local_private_key = some x → ∃ k, c.base64_decode x = .ok k) ∧
      (n.local_private_key = none → ∃ k, files.generate_keypair = .ok k) := by
  unfold noiseLocalKey
  cases n.local_private_key <;> simp

/-- **Where a transport is built.** -/
theorem new_ok_iff {config : TransportConfig} :
    (∃ t, AnyTransport.new c files config = .ok t) ↔ config.Buildable c files := by
  unfold AnyTransport.new
  cases ht : config.transport_type with
  | tcp =>
      refine iff_of_true ⟨_, rfl⟩ ⟨fun h => ?_, fun h => ?_⟩ <;>
      · rw [ht] at h
        cases h
  | tls =>
      have hnew : (∃ t, TlsTransport.new c files config = .ok t) ↔
          ∃ t, config.tls = some t ∧ t.RootUsable c files ∧ t.IdentityUsable c files := by
        unfold TlsTransport.new TcpTransport.new
        cases config.tls with
        | none => simp
        | some t =>
            simp only [Outcome.bind_eq_ok, Outcome.pure_eq, ← tlsConnector_ok_iff,
              ← tlsAcceptor_ok_iff, Option.some.injEq, exists_eq_left']
            constructor
            · rintro ⟨_, _, _, k, hk, a, ha, _⟩
              exact ⟨⟨k, hk⟩, a, ha⟩
            · rintro ⟨⟨k, hk⟩, a, ha⟩
              exact ⟨_, _, rfl, k, hk, a, ha, rfl⟩
      constructor
      · rintro ⟨_, h⟩
        obtain ⟨t, h, _⟩ := Outcome.bind_eq_ok.mp h
        refine ⟨fun _ => hnew.mp ⟨t, h⟩, fun h => ?_⟩
        rw [ht] at h
        cases h
      · intro hb
        obtain ⟨t, h⟩ := hnew.mpr (hb.tls ht)
        exact ⟨.tls t, Outcome.bind_eq_ok.mpr ⟨t, h, rfl⟩⟩
  | noise =>
      have hnew : (∃ t, NoiseTransport.new c files config = .ok t) ↔
          ∃ n, config.noise = some n ∧ n.Usable c files := by
        unfold NoiseTransport.new TcpTransport.new
        cases config.noise with
        | none => simp
        | some n =>
            simp only [Outcome.bind_eq_ok, Outcome.ofResult_eq_ok, Outcome.pure_eq,
              Option.some.injEq, exists_eq_left']
            constructor
            · rintro ⟨_, _, _, p, hp, r, hr, l, hl, _⟩
              have hlocal := noiseLocalKey_ok_iff.mp ⟨l, hl⟩
              exact ⟨⟨p, hp⟩, noiseRemoteKey_ok_iff.mp ⟨r, hr⟩, hlocal.1, hlocal.2⟩
            · rintro ⟨⟨p, hp⟩, hremote, hlocal, hgen⟩
              obtain ⟨r, hr⟩ := noiseRemoteKey_ok_iff.mpr hremote
              obtain ⟨l, hl⟩ := noiseLocalKey_ok_iff.mpr ⟨hlocal, hgen⟩
              exact ⟨_, _, rfl, p, hp, r, hr, l, hl, p, hp, rfl⟩
      constructor
      · rintro ⟨_, h⟩
        obtain ⟨t, h, _⟩ := Outcome.bind_eq_ok.mp h
        refine ⟨fun h => ?_, fun _ => hnew.mp ⟨t, h⟩⟩
        rw [ht] at h
        cases h
      · intro hb
        obtain ⟨t, h⟩ := hnew.mpr (hb.noise ht)
        exact ⟨.noise t, Outcome.bind_eq_ok.mpr ⟨t, h, rfl⟩⟩

end

/-! ## 4. Use -/

/-- A server whose section is accepted has an acceptor. -/
theorem serves_of_accepted {files : Files} {config : TransportConfig} (ha : config.Accepted true)
    {t : AnyTransport c} (h : AnyTransport.new c files config = .ok t) : t.Serves where
  bind net addr := by cases t <;>
    simp [AnyTransport.bind, TcpTransport.bind, TlsTransport.bind, NoiseTransport.bind]
  accept net := by cases t <;>
    simp [AnyTransport.accept, TcpTransport.accept, TlsTransport.accept, NoiseTransport.accept]
  handshake net conn := by
    cases t with
    | tcp t => simp [AnyTransport.handshake, TcpTransport.handshake]
    | noise t => simp [AnyTransport.handshake, NoiseTransport.handshake, Outcome.noPanic_bind]
    | tls t =>
        unfold AnyTransport.new at h
        cases ht : config.transport_type with
        | tcp =>
            rw [ht] at h
            cases h
        | noise =>
            simp only [ht] at h
            obtain ⟨_, _, h⟩ := Outcome.bind_eq_ok.mp h
            cases h
        | tls =>
            simp only [ht] at h
            obtain ⟨_, hnew, h⟩ := Outcome.bind_eq_ok.mp h
            cases h
            obtain ⟨tls, htls, hid⟩ := ha.tls ht
            have hacc := (tls_new_ok hnew).2.2 tls htls (hid rfl).1
            simp [AnyTransport.handshake, TlsTransport.handshake, Outcome.noPanic_bind, hacc]

/-- The connections of a client go through its proxy, whatever the transport. -/
theorem noPanic_connect_iff {files : Files} {config : TransportConfig} {t : AnyTransport c}
    (h : AnyTransport.new c files config = .ok t) {addr : AddrMaybeCached}
    (ha : ':' ∈ addr.addr.toList) (net : Net c) :
    (t.connect net addr).NoPanic ↔ (tcp_connect_with_proxy net addr config.tcp.proxy).NoPanic := by
  have hpair := noPanic_host_port_pair ha
  unfold AnyTransport.new at h
  cases ht : config.transport_type with
  | tcp =>
      rw [ht] at h
      cases h
      rfl
  | tls =>
      simp only [ht] at h
      obtain ⟨t, hnew, h⟩ := Outcome.bind_eq_ok.mp h
      cases h
      obtain ⟨htcp, hconn, _⟩ := tls_new_ok hnew
      unfold AnyTransport.connect TlsTransport.connect TcpTransport.connect
      simp [Outcome.noPanic_bind, htcp, hconn, hpair]
  | noise =>
      simp only [ht] at h
      obtain ⟨t, hnew, h⟩ := Outcome.bind_eq_ok.mp h
      cases h
      unfold AnyTransport.connect NoiseTransport.connect TcpTransport.connect
      simp [Outcome.noPanic_bind, noise_new_ok hnew]

/-- A resolver for every address with a port. -/
def Resolver.up : Resolver where
  lookup_host s := if ':' ∈ s.toList then .ok [.v4 0#32 0] else .error "invalid socket address"
  has_port s l h := by
    by_contra hn
    rw [if_neg hn] at h
    cases h

theorem dials_iff {files : Files} {config : TransportConfig} {t : AnyTransport c}
    (h : AnyTransport.new c files config = .ok t) :
    t.Dials ↔ ∀ u, config.tcp.proxy = some u → u.Dialable := by
  constructor
  · intro hd u hu
    have hr : (AddrMaybeCached.new "a:1").resolve Resolver.up = .ok ⟨"a:1", some (.v4 0#32 0)⟩ := rfl
    have hnet := hd Resolver.up "a:1" _ hr (Net.up c)
    rw [noPanic_connect_iff h (AddrMaybeCached.resolve_has_port hr), hu] at hnet
    exact dialable_of_noPanic hnet
  · intro hu r s addr hr net
    have hport := AddrMaybeCached.resolve_has_port hr
    exact (noPanic_connect_iff h hport net).mpr (noPanic_tcp_connect hport hu net)

/-! ## 5. The agreement -/

/-- A proxy with a scheme that is no `socket5`, a host, and a port that is not its scheme's own. -/
structure Url.Fit (u : Url) : Prop where
  scheme : u.scheme ≠ "socket5"
  host : u.host_str.isSome = true
  port : u.port.isSome = true

variable (c) in
/-- With these files a section is used without a panic: the identity it gets to is fit, and so is the
    proxy of a client whose transport can be built. -/
structure FitFor (files : Files) (config : TransportConfig) (is_server : Bool) : Prop where
  identity : config.Protected c files
  proxy : is_server = false → config.Buildable c files → ∀ u, config.tcp.proxy = some u → u.Fit

/-- A proxy the validator lets through is dialable where it is fit. -/
theorem dialable_iff {config : TransportConfig} {is_server : Bool} (ha : config.Accepted is_server)
    {u : Url} (hu : config.tcp.proxy = some u) : u.Dialable ↔ u.Fit := by
  constructor
  · rintro ⟨hh, hp, hs⟩
    refine ⟨?_, hh, hp⟩
    rintro e
    rcases hs with hs | hs <;> simp [hs] at e
  · rintro ⟨hs, hh, hp⟩
    exact ⟨hh, hp, Or.inr ((ha.scheme u hu).resolve_left hs)⟩

theorem safe_iff {files : Files} {config : TransportConfig} {is_server : Bool}
    (ha : config.Accepted is_server) : Safe c files config is_server ↔ FitFor c files config is_server := by
  unfold Safe
  rw [noPanic_new_iff]
  constructor
  · rintro ⟨hp, huse⟩
    refine ⟨hp, fun hc hb u hu => ?_⟩
    subst hc
    obtain ⟨t, h⟩ := new_ok_iff.mpr hb
    have hdials : t.Dials := huse t h
    exact (dialable_iff ha hu).mp ((dials_iff h).mp hdials u hu)
  · rintro ⟨hp, hproxy⟩
    refine ⟨hp, fun t h => ?_⟩
    cases is_server with
    | true => exact serves_of_accepted ha h
    | false =>
        have hdials : t.Dials := (dials_iff h).mpr fun u hu =>
          (dialable_iff ha hu).mpr (hproxy rfl (new_ok_iff.mp ⟨t, h⟩) u hu)
        exact hdials

variable (c) in
/-- **Where validation and the transports agree**: whatever the files hold, an accepted section is
    used without a panic precisely where it is `FitFor` its side; and of the proxies with a host and
    a port whose scheme is implemented, those that are no `socks5` are let through. -/
theorem transport_agreement :
    (∀ files config is_server, Config.validate_transport_config config is_server = .ok () →
      (Safe c files config is_server ↔ FitFor c files config is_server)) ∧
    ∀ config is_server u, config.tcp.proxy = some u → u.host_str.isSome = true →
      u.port.isSome = true → Implemented u.scheme →
      (Config.validate_transport_config config is_server ≠ .error (.unknownProxyScheme u.scheme) ↔
        u.scheme ≠ "socks5") := by
  refine ⟨fun files config is_server h => safe_iff (Config.validate_transport_iff.mp h),
    fun config is_server u hu _ _ hs => ?_⟩
  rw [Config.validate_proxy_iff hu]
  rcases hs with hs | hs <;> simp [hs]

end

/-! ## 6. Two proxies, and two identities -/

/-- Crates that take every text for a certificate and every file for an identity whose password is
    written in it; no acceptor is made of an empty one. -/
def toyCrates : Crates where
  Certificate := String
  Connector := Option String
  Identity := Bytes
  Acceptor := Bytes
  NoiseParams := String
  Handshake := Unit
  from_pem s := .ok s
  connector cert := .ok cert
  from_pkcs12 bytes password :=
    if bytes = asBytes password then .ok bytes else .error "mac verify failure"
  acceptor ident := if ident = [] then .error "ee key too small" else .ok ident
  parse_pattern s := .ok s
  base64_decode s := .ok (asBytes s)
  build_initiator _ _ _ := .ok ()
  build_responder _ _ _ := .ok ()

/-- Every file holds an identity under this password. -/
def identityFiles (password : String) : Files where
  read _ := .ok (asBytes password)
  read_to_string _ := .ok ""
  generate_keypair := .ok []

/-- `[client.transport]` with a proxy of this scheme on a port of its own. -/
def proxied (scheme : String) : TransportConfig :=
  ⟨.tcp, ⟨true, 20, 8, some ⟨scheme ++ "://127.0.0.1:1080", scheme, "", none, some "127.0.0.1",
    some 1080⟩⟩, none, none⟩

/-- `[server.transport]` with an identity file under this password. -/
def identified (password : String) : TransportConfig :=
  ⟨.tls, ⟨true, 20, 8, none⟩, some ⟨none, none, some "identity.pfx", some password⟩, none⟩

/-- A client behind an `http` proxy, a server with an identity, and one whose identity the TLS crate
    reads and refuses. -/
theorem transport_agreement_http : Safe toyCrates (identityFiles "") (proxied "http") false ∧
    Safe toyCrates (identityFiles "secret") (identified "secret") true ∧
    ¬ Safe toyCrates (identityFiles "") (identified "") true ∧
    Config.validate_transport_config (proxied "http") false ≠ .error (.unknownProxyScheme "http") := by
  have hagree := (transport_agreement toyCrates).1
  refine ⟨(hagree _ (proxied "http") false rfl).mpr ⟨?_, ?_⟩,
    (hagree _ (identified "secret") true rfl).mpr ⟨?_, by rintro ⟨⟩⟩, fun h => ?_,
    ((transport_agreement toyCrates).2 (proxied "http") false _ rfl rfl rfl (Or.inr rfl)).mpr
      (by decide)⟩
  · rintro ⟨⟩
  · rintro _ _ u ⟨⟩
    exact ⟨by decide, rfl, rfl⟩
  · rintro _ _ ⟨⟩ _ _ bytes ⟨⟩ ⟨⟩
    exact ⟨"secret", rfl, fun ident h => ⟨asBytes "secret", by cases h; rfl⟩⟩
  · obtain ⟨_, ⟨⟩, hfit⟩ := ((hagree _ (identified "") true rfl).mp h).identity rfl _ rfl ⟨none, rfl⟩
      "identity.pfx" [] rfl rfl
    obtain ⟨a, ha⟩ := hfit [] rfl
    cases ha

/-- **`socket5` is let through and the client panics; `socks5` is implemented and turned away.** -/
theorem proxies_disagree :
    ¬ (∀ (c : Crates) files config is_server,
      Config.validate_transport_config config is_server = .ok () → Safe c files config is_server) ∧
    ¬ ∀ config is_server u, config.tcp.proxy = some u → u.host_str.isSome = true →
      u.port.isSome = true → Implemented u.scheme →
      Config.validate_transport_config config is_server ≠ .error (.unknownProxyScheme u.scheme) := by
  constructor
  · intro h
    have hacc : Config.validate_transport_config (proxied "socket5") false = .ok () := rfl
    have hsafe := h toyCrates (identityFiles "") (proxied "socket5") false hacc
    have hfit := (safe_iff (Config.validate_transport_iff.mp hacc)).mp hsafe
    exact (hfit.proxy rfl ⟨by rintro ⟨⟩, by rintro ⟨⟩⟩ _ rfl).scheme rfl
  · intro h
    exact h (proxied "socks5") false _ rfl rfl rfl (Or.inl rfl) rfl

end Penetrate
