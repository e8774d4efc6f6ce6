/-
  File:      Penetrate/Transport.lean
  Subject:   THE THREE TRANSPORTS, AND WHERE THEY PANIC.

  A transport is built from a validated section and then used: a server binds, accepts and does the
  handshake of each connection, a client connects to the address it has resolved. The validator and
  this code list the proxy schemes and the fields of the TLS section each for itself.

  * `Crates`, `Files`, `Net` -- what other code answers;
  * `tcp_connect_with_proxy`, `TcpTransport`, `TlsTransport`, `NoiseTransport`;
  * `AnyTransport`, its `Serves` and `Dials` -- the transport a section asks for, and how each side
    uses it;
  * `Safe` -- no panic, whatever the network does.

  Setting the options of a socket logs what fails and is left out.
-/
import Mathlib.Algebra.Group.Nat.Defs
import Penetrate.Config
import Penetrate.Outcome
import Penetrate.Protocol

namespace Penetrate

open Fallible

/-! ## 1. What other code answers -/

/-- The crates a transport is built with. -/
structure Crates where
  Certificate : Type
  Connector : Type
  Identity : Type
  Acceptor : Type
  NoiseParams : Type
  Handshake : Type
  /-- `Certificate::from_pem` -/
  from_pem : String → Except String Certificate
  /-- `TlsConnector::builder().build()`, with a root certificate or without -/
  connector : Option Certificate → Except String Connector
  /-- `Identity::from_pkcs12` -/
  from_pkcs12 : Bytes → String → Except String Identity
  /-- `TlsAcceptor::new` -/
  acceptor : Identity → Except String Acceptor
  /-- `parse` of a Noise pattern -/
  parse_pattern : String → Except String NoiseParams
  base64_decode : String → Except String Bytes
  /-- `build_initiator`, `build_responder` of a `Builder` with these keys -/
  build_initiator : NoiseParams → Bytes → Option Bytes → Except String Handshake
  build_responder : NoiseParams → Bytes → Option Bytes → Except String Handshake

/-- What is read while a transport is built; a file may change between two reads. -/
structure Files where
  read : String → Except String Bytes
  read_to_string : String → Except String String
  generate_keypair : Except String Bytes

/-- A connection, told from others by a number. -/
structure Stream where
  id : Nat

/-- `async_socks5::Auth`. -/
structure Auth where
  username : String
  password : String

/-- What the network does during one use. -/
structure Net (c : Crates) where
  bind : String → Except String Unit
  accept : Except String (Stream × SocketAddr)
  connect_host : String → UInt16 → Except String Stream
  connect_socket : SocketAddr → Except String Stream
  connect_addr : String → Except String Stream
  socks5_connect : Stream → String × UInt16 → Option Auth → Except String Unit
  http_connect : Stream → String → UInt16 → Except String Unit
  http_connect_with_basic_auth : Stream → String → UInt16 → Auth → Except String Unit
  tls_accept : c.Acceptor → Stream → Except String Stream
  tls_connect : c.Connector → String → Stream → Except String Stream
  noise_handshake : Stream → c.Handshake → Except String Stream

/-- `lookup_host`, on a socket address or on `<host>:<port>`. -/
structure Resolver where
  lookup_host : String → Except String (List SocketAddr)
  has_port : ∀ s l, lookup_host s = .ok l → ':' ∈ s.toList

/-! ## 2. Addresses -/

structure AddrMaybeCached where
  addr : String
  socket_addr : Option SocketAddr

def AddrMaybeCached.new (addr : String) : AddrMaybeCached := ⟨addr, none⟩

def to_socket_addr (r : Resolver) (addr : String) : Outcome SocketAddr := do
  let l ← .ofResult (r.lookup_host addr)
  match l.head? with
  | some a => pure a
  | none => .err ["Failed to lookup the host"]

def AddrMaybeCached.resolve (r : Resolver) (a : AddrMaybeCached) : Outcome AddrMaybeCached := do
  let s ← to_socket_addr r a.addr
  pure { a with socket_addr := some s }

/-- `parse::<u16>`. -/
def parse_u16 (s : List Char) : Except String UInt16 :=
  let digit (n : Nat) (ch : Char) : Except String Nat :=
    if ch.isDigit then
      let m := n * 10 + (ch.toNat - '0'.toNat)
      if m < 2 ^ 16 then .ok m else .error "number too large to fit in target type"
    else .error "invalid digit found in string"
  let digits := match s with
    | '+' :: ch :: rest => ch :: rest
    | s => s
  match digits with
  | [] => .error "cannot parse integer from empty string"
  | digits => (digits.foldlM digit 0).map UInt16.ofNat

/-- Split at the last colon. -/
def host_port_pair (s : String) : Outcome (String × UInt16) :=
  if ':' ∈ s.toList then do
    let back := s.toList.reverse
    let port ← .ofResult (parse_u16 (back.takeWhile fun ch => ch ≠ ':').reverse)
    pure (String.ofList ((back.dropWhile fun ch => ch ≠ ':').drop 1).reverse, port)
  else .panic "missing semicolon"

/-! ## 3. The transports -/

section

variable {c : Crates}

def tcp_connect_with_proxy (net : Net c) (addr : AddrMaybeCached) (proxy : Option Url) :
    Outcome Stream :=
  match proxy with
  | some url => do
      let host ← .expect url.host_str "proxy url should have host field"
      let port ← .expect url.port "proxy url should have port field"
      let s ← .ofResult (net.connect_host host port)
      let auth : Option Auth :=
        if url.username ≠ "" ∨ url.password.isSome then some ⟨url.username, url.password.getD ""⟩
        else none
      if url.scheme = "socks5" then
        let target ← host_port_pair addr.addr
        let _ ← .ofResult (net.socks5_connect s target auth)
        pure s
      else if url.scheme = "http" then
        let (host, port) ← host_port_pair addr.addr
        let _ ← .ofResult (match auth with
          | some auth => net.http_connect_with_basic_auth s host port auth
          | none => net.http_connect s host port)
        pure s
      else .panic "unknown proxy scheme"
  | none => match addr.socket_addr with
    | some s => .ofResult (net.connect_socket s)
    | none => .ofResult (net.connect_addr addr.addr)

structure TcpTransport where
  cfg : TcpConfig

def TcpTransport.new (config : TransportConfig) : Outcome TcpTransport := pure ⟨config.tcp⟩

def TcpTransport.bind (net : Net c) (addr : String) : Outcome Unit := .ofResult (net.bind addr)

def TcpTransport.accept (net : Net c) : Outcome (Stream × SocketAddr) := .ofResult net.accept

def TcpTransport.handshake (conn : Stream) : Outcome Stream := pure conn

def TcpTransport.connect (t : TcpTransport) (net : Net c) (addr : AddrMaybeCached) :
    Outcome Stream := tcp_connect_with_proxy net addr t.cfg.proxy

variable (c) in
structure TlsTransport where
  tcp : TcpTransport
  config : TlsConfig
  connector : Option c.Connector
  tls_acceptor : Option c.Acceptor

variable (c) in
/-- The connector of `TlsTransport::new`, with the root certificate of the section. -/
def tlsConnector (files : Files) (config : TlsConfig) : Outcome (Option c.Connector) :=
  match config.trusted_root with
  | some path => do
      let s ← (Outcome.ofResult (files.read_to_string path)).context
        "Failed to read the `tls.trusted_root`"
      let cert ← (Outcome.ofResult (c.from_pem s)).context
        "Failed to read certificate form `tls.trusted_root`"
      let k ← .ofResult (c.connector (some cert))
      pure (some k)
  | none => do
      let k ← .ofResult (c.connector none)
      pure (some k)

variable (c) in
/-- The acceptor of `TlsTransport::new`: where there is an identity file, it insists on a
    password. -/
def tlsAcceptor (files : Files) (config : TlsConfig) : Outcome (Option c.Acceptor) :=
  match config.pkcs12 with
  | some path => do
      let bytes ← .ofResult (files.read path)
      let password ← .unwrap config.pkcs12_password
      let ident ← (Outcome.ofResult (c.from_pkcs12 bytes password)).context
        "Failed to create identity"
      let a ← .unwrapResult (c.acceptor ident)
      pure (some a)
  | none => pure none

variable (c) in
def TlsTransport.new (files : Files) (config : TransportConfig) : Outcome (TlsTransport c) := do
  let tcp ← TcpTransport.new config
  match config.tls with
  | none => .err ["Missing tls config"]
  | some config => do
      let connector ← tlsConnector c files config
      let tls_acceptor ← tlsAcceptor c files config
      pure ⟨tcp, config, connector, tls_acceptor⟩

def TlsTransport.bind (net : Net c) (addr : String) : Outcome Unit :=
  (Outcome.ofResult (net.bind addr)).context "Failed to create up listener"

def TlsTransport.accept (net : Net c) : Outcome (Stream × SocketAddr) :=
  (TcpTransport.accept net).context "Failed to accept TCP connection"

def TlsTransport.handshake (t : TlsTransport c) (net : Net c) (conn : Stream) : Outcome Stream := do
  let a ← .unwrap t.tls_acceptor
  .ofResult (net.tls_accept a conn)

/-- The address is split whether the section has a hostname or not. -/
def TlsTransport.connect (t : TlsTransport c) (net : Net c) (addr : AddrMaybeCached) :
    Outcome Stream := do
  let conn ← t.tcp.connect net addr
  let connector ← .unwrap t.connector
  let pair ← host_port_pair addr.addr
  .ofResult (net.tls_connect connector (t.config.hostname.getD pair.1) conn)

variable (c) in
structure NoiseTransport where
  tcp : TcpTransport
  config : NoiseConfig
  params : c.NoiseParams
  local_private_key : Bytes
  remote_public_key : Option Bytes

variable (c) in
def noiseRemoteKey (config : NoiseConfig) : Outcome (Option Bytes) :=
  match config.remote_public_key with
  | some x => do
      let k ← (Outcome.ofResult (c.base64_decode x)).context
        ("Failed to decode remote_public_key: " ++ x.quote)
      pure (some k)
  | none => pure none

variable (c) in
def noiseLocalKey (files : Files) (config : NoiseConfig) : Outcome Bytes :=
  match config.local_private_key with
  | some x => (Outcome.ofResult (c.base64_decode x)).context "Failed to decode remote_public_key"
  | none => .ofResult files.generate_keypair

variable (c) in
def NoiseTransport.new (files : Files) (config : TransportConfig) : Outcome (NoiseTransport c) := do
  let tcp ← TcpTransport.new config
  match config.noise with
  | none => .err ["Missing noise config"]
  | some config => do
      let _ ← .ofResult (c.parse_pattern config.pattern)
      let remote_public_key ← noiseRemoteKey c config
      let local_private_key ← noiseLocalKey c files config
      let params ← .ofResult (c.parse_pattern config.pattern)
      pure ⟨tcp, config, params, local_private_key, remote_public_key⟩

def NoiseTransport.bind (net : Net c) (addr : String) : Outcome Unit := .ofResult (net.bind addr)

def NoiseTransport.accept (net : Net c) : Outcome (Stream × SocketAddr) :=
  (TcpTransport.accept net).context "Failed to accept TCP connection"

def NoiseTransport.handshake (t : NoiseTransport c) (net : Net c) (conn : Stream) :
    Outcome Stream := do
  let h ← .ofResult (c.build_responder t.params t.local_private_key t.remote_public_key)
  (Outcome.ofResult (net.noise_handshake conn h)).context "Failed to do noise handshake"

def NoiseTransport.connect (t : NoiseTransport c) (net : Net c) (addr : AddrMaybeCached) :
    Outcome Stream := do
  let conn ← (t.tcp.connect net addr).context "Failed to connect TCP socket"
  let h ← .ofResult (c.build_initiator t.params t.local_private_key t.remote_public_key)
  (Outcome.ofResult (net.noise_handshake conn h)).context "Failed to do noise handshake"

/-! ## 4. A transport and its uses -/

variable (c) in
/-- The transport a section asks for. -/
inductive AnyTransport where
  | tcp (t : TcpTransport)
  | tls (t : TlsTransport c)
  | noise (t : NoiseTransport c)

variable (c) in
/-- The transport `run_client` and `run_server` build. -/
def AnyTransport.new (files : Files) (config : TransportConfig) : Outcome (AnyTransport c) :=
  match config.transport_type with
  | .tcp => do
      let t ← TcpTransport.new config
      pure (.tcp t)
  | .tls => do
      let t ← TlsTransport.new c files config
      pure (.tls t)
  | .noise => do
      let t ← NoiseTransport.new c files config
      pure (.noise t)

def AnyTransport.bind (t : AnyTransport c) (net : Net c) (addr : String) : Outcome Unit :=
  match t with
  | .tcp _ => TcpTransport.bind net addr
  | .tls _ => TlsTransport.bind net addr
  | .noise _ => NoiseTransport.bind net addr

def AnyTransport.accept (t : AnyTransport c) (net : Net c) : Outcome (Stream × SocketAddr) :=
  match t with
  | .tcp _ => TcpTransport.accept net
  | .tls _ => TlsTransport.accept net
  | .noise _ => NoiseTransport.accept net

def AnyTransport.handshake (t : AnyTransport c) (net : Net c) (conn : Stream) : Outcome Stream :=
  match t with
  | .tcp _ => TcpTransport.handshake conn
  | .tls t => t.handshake net conn
  | .noise t => t.handshake net conn

def AnyTransport.connect (t : AnyTransport c) (net : Net c) (addr : AddrMaybeCached) :
    Outcome Stream :=
  match t with
  | .tcp t => t.connect net addr
  | .tls t => t.connect net addr
  | .noise t => t.connect net addr

/-- The uses of a server do not panic. -/
structure AnyTransport.Serves (t : AnyTransport c) : Prop where
  bind : ∀ net addr, (t.bind net addr).NoPanic
  accept : ∀ net, (t.accept net).NoPanic
  handshake : ∀ net conn, (t.handshake net conn).NoPanic

/-- The use of a client does not: it connects, again and again, to an address it has resolved. -/
def AnyTransport.Dials (t : AnyTransport c) : Prop :=
  ∀ r remote_addr addr, (AddrMaybeCached.new remote_addr).resolve r = .ok addr →
    ∀ net, (t.connect net addr).NoPanic

variable (c) in
/-- **No panic is reachable** with these files: neither while the transport is built, nor while it is
    used, whatever the network does. -/
def Safe (files : Files) (config : TransportConfig) (is_server : Bool) : Prop :=
  (AnyTransport.new c files config).NoPanic ∧ ∀ t, AnyTransport.new c files config = .ok t →
    if is_server then t.Serves else t.Dials

end

end Penetrate
