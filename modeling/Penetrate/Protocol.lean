/-
  File:      Penetrate/Protocol.lean
  Subject:   THE PROTOCOL'S DATA (`protocol.rs`) and the sizes of `constants.rs`, `server.rs`.

  Messages are typed here; a reader that fails (connection lost, undecodable bytes, another
  protocol version) is an error outcome of the step that reads.
-/
import Mathlib.Tactic.Common

namespace Penetrate

abbrev Bytes := List UInt8

/-! ## 1. Sizes -/

/-- Buffer of one datagram, and capacity of the client's outbound queue. -/
def UDP_BUFFER_SIZE : Nat := 2048
/-- Capacity of a forwarder's inbound queue. -/
def UDP_SEND_Q_SIZE : Nat := 1024
/-- The number of cached connections for TCP services. -/
def TCP_POOL_SIZE : Nat := 8
/-- The number of cached connections for UDP services. -/
def UDP_POOL_SIZE : Nat := 2
/-- The capacity of various channels. -/
def CHAN_SIZE : Nat := 2048

/-! ## 2. Addresses and UDP traffic -/

/-- `std::net::SocketAddr`. -/
inductive SocketAddr where
  | v4 (ip : BitVec 32) (port : UInt16)
  | v6 (ip : BitVec 128) (port : UInt16) (flowinfo scope_id : UInt32)
  deriving DecidableEq, Repr

/-- `UdpTraffic`: one datagram with the visitor's address. -/
structure UdpTraffic where
  from_ : SocketAddr
  data : Bytes
  deriving DecidableEq, Repr

/-! ## 3. Handshake messages -/

def HASH_WIDTH_IN_BYTES : Nat := 32

/-- A SHA-256 hash; also a nonce and a session key. -/
abbrev Digest := Vector UInt8 HASH_WIDTH_IN_BYTES

abbrev ServiceDigest := Digest
abbrev Nonce := Digest

/-- `Hello`, in the current protocol version (`read_hello` rejects every other one). -/
inductive Hello where
  | controlChannelHello (d : Digest)
  | dataChannelHello (nonce : Nonce)
  deriving DecidableEq

/-- `Ack`. -/
inductive Ack where
  | ok
  | serviceNotExist
  | authFailed
  deriving DecidableEq, Repr

/-- `ControlChannelCmd`. -/
inductive ControlChannelCmd where
  | createDataChannel
  | heartBeat
  deriving DecidableEq, Repr

/-- `DataChannelCmd`. -/
inductive DataChannelCmd where
  | startForwardTcp
  | startForwardUdp
  deriving DecidableEq, Repr

end Penetrate
