/-
  File:      Penetrate/Wire.lean
  Subject:   THE HANDSHAKE AND THE COMMANDS ON THE WIRE (`protocol.rs`): `bincode::serialize`, the
             packet lengths and the readers.

  bincode writes integers with fixed width, the lowest byte first, an array as its bytes, and a
  variant as its number in 4 bytes with the fields behind it. Reading a value ignores what is left
  of the buffer. A reader takes as many bytes from the connection as one sample of the type has.

  * `Hello.codec`, `Auth.codec`, `Ack.codec`, `ControlChannelCmd.codec`, `DataChannelCmd.codec` --
    the formats;
  * `readPacket_eq_ok` -- **what a reader accepts is what the writer writes**, because every
    value of the type has the sample's length;
  * `messages_framed` -- any sequence of messages is read back, and the payload behind it is left
    whole; `accepts_iff` says which buffers a reader takes.
-/
import Penetrate.Protocol
import Penetrate.Encoding.Codec

namespace Penetrate.Wire

open Encoding

/-! ## 1. bincode -/

/-- `bincode::serialize`. -/
def serialize {α : Type*} (c : Codec α) (a : α) : Bytes := c.encode a

/-- `bincode::serialized_size`. -/
def serialized_size {α : Type*} (c : Codec α) (a : α) : Nat := (serialize c a).length

/-- `bincode::deserialize`: bytes behind the value are ignored. -/
def deserialize {α : Type*} (c : Codec α) (buf : Bytes) : Option α := (c.decode buf).map Prod.fst

def u8 : Codec UInt8 := (Codec.le 1).map ⟨UInt8.ofBitVec, UInt8.toBitVec, fun _ => rfl, fun _ => rfl⟩

def u16 : Codec UInt16 :=
  (Codec.le 2).map ⟨UInt16.ofBitVec, UInt16.toBitVec, fun _ => rfl, fun _ => rfl⟩

theorem fixed_u8 : u8.Fixed 1 := (Codec.fixed_le 1).map _
theorem fixed_u16 : u16.Fixed 2 := (Codec.fixed_le 2).map _

theorem encode_u8 (b : UInt8) : u8.encode b = [b] := by
  show [UInt8.ofNat b.toNat] = [b]
  rw [UInt8.ofNat_toNat]

/-! ## 2. The formats -/

abbrev ProtocolVersion := UInt8

def PROTO_V1 : UInt8 := 1
def CURRENT_PROTO_VERSION : ProtocolVersion := PROTO_V1

/-- `Hello`, with the version it is sent in. -/
inductive Hello where
  | controlChannelHello (v : ProtocolVersion) (d : Digest)
  | dataChannelHello (v : ProtocolVersion) (nonce : Digest)
  deriving DecidableEq

/-- `Auth`. -/
structure Auth where
  digest : Digest
  deriving DecidableEq

def Hello.version : Hello → ProtocolVersion
  | .controlChannelHello v _ => v
  | .dataChannelHello v _ => v

/-- What the model of the handshake keeps of a `Hello`. -/
def Hello.content : Hello → Penetrate.Hello
  | .controlChannelHello _ d => .controlChannelHello d
  | .dataChannelHello _ nonce => .dataChannelHello nonce

/-- A `Hello` in the current version. -/
def Hello.current : Penetrate.Hello → Hello
  | .controlChannelHello d => .controlChannelHello CURRENT_PROTO_VERSION d
  | .dataChannelHello nonce => .dataChannelHello CURRENT_PROTO_VERSION nonce

@[simp] theorem Hello.version_current (h : Penetrate.Hello) :
    (Hello.current h).version = CURRENT_PROTO_VERSION := by
  cases h <;> rfl

@[simp] theorem Hello.content_current (h : Penetrate.Hello) : (Hello.current h).content = h := by
  cases h <;> rfl

theorem Hello.current_content {h : Hello} (hv : h.version = CURRENT_PROTO_VERSION) :
    Hello.current h.content = h := by
  cases h <;> simp_all [Hello.current, Hello.content, Hello.version]

/-- The variants of `Hello`, both with the same fields. -/
def helloEquiv : (Σ _ : Fin 2, ProtocolVersion × Digest) ≃ Hello where
  toFun
    | ⟨0, v, d⟩ => .controlChannelHello v d
    | ⟨1, v, d⟩ => .dataChannelHello v d
  invFun
    | .controlChannelHello v d => ⟨0, v, d⟩
    | .dataChannelHello v d => ⟨1, v, d⟩
  left_inv := by
    rintro ⟨i, v, d⟩
    match i with
    | 0 => rfl
    | 1 => rfl
  right_inv h := by cases h <;> rfl

def ackEquiv : Fin 3 ≃ Ack where
  toFun
    | 0 => .ok
    | 1 => .serviceNotExist
    | 2 => .authFailed
  invFun
    | .ok => 0
    | .serviceNotExist => 1
    | .authFailed => 2
  left_inv i := by
    revert i
    decide
  right_inv a := by cases a <;> rfl

def controlChannelCmdEquiv : Fin 2 ≃ ControlChannelCmd where
  toFun
    | 0 => .createDataChannel
    | 1 => .heartBeat
  invFun
    | .createDataChannel => 0
    | .heartBeat => 1
  left_inv i := by
    revert i
    decide
  right_inv c := by cases c <;> rfl

def dataChannelCmdEquiv : Fin 2 ≃ DataChannelCmd where
  toFun
    | 0 => .startForwardTcp
    | 1 => .startForwardUdp
  invFun
    | .startForwardTcp => 0
    | .startForwardUdp => 1
  left_inv i := by
    revert i
    decide
  right_inv c := by cases c <;> rfl

def variant (n : Nat) (h : n ≤ 2 ^ 32 := by decide) : Codec (Fin n) := Codec.tag n h

def digestCodec : Codec Digest := Codec.raw HASH_WIDTH_IN_BYTES

def Hello.codec : Codec Hello := ((variant 2).sigma fun _ => u8.pair digestCodec).map helloEquiv
def Auth.codec : Codec Auth := digestCodec.map ⟨Auth.mk, Auth.digest, fun _ => rfl, fun _ => rfl⟩
def Ack.codec : Codec Ack := (variant 3).map ackEquiv
def ControlChannelCmd.codec : Codec ControlChannelCmd := (variant 2).map controlChannelCmdEquiv
def DataChannelCmd.codec : Codec DataChannelCmd := (variant 2).map dataChannelCmdEquiv

theorem fixed_variant (n : Nat) (h : n ≤ 2 ^ 32) : (variant n h).Fixed 4 := Codec.fixed_tag n h

theorem fixed_digest : digestCodec.Fixed 32 := Codec.fixed_raw 32

theorem fixed_hello : Hello.codec.Fixed 37 :=
  ((fixed_variant 2 _).sigma fun _ => fixed_u8.pair fixed_digest).map _

theorem fixed_auth : Auth.codec.Fixed 32 := fixed_digest.map _
theorem fixed_ack : Ack.codec.Fixed 4 := (fixed_variant 3 _).map _
theorem fixed_controlCmd : ControlChannelCmd.codec.Fixed 4 := (fixed_variant 2 _).map _
theorem fixed_dataCmd : DataChannelCmd.codec.Fixed 4 := (fixed_variant 2 _).map _

/-! ## 3. The packet lengths -/

/-- `PacketLength`: the length of one sample of each type. -/
structure PacketLength where
  hello : Nat
  ack : Nat
  auth : Nat
  c_cmd : Nat
  d_cmd : Nat
  deriving DecidableEq, Repr

/-- `PacketLength::new`; `digest` hashes the sample. -/
def PacketLength.new (digest : Bytes → Digest) : PacketLength :=
  let d := digest "default".toUTF8.toList
  { hello := serialized_size Hello.codec (.controlChannelHello CURRENT_PROTO_VERSION d)
    c_cmd := serialized_size ControlChannelCmd.codec .createDataChannel
    d_cmd := serialized_size DataChannelCmd.codec .startForwardTcp
    ack := serialized_size Ack.codec .ok
    auth := serialized_size Auth.codec ⟨d⟩ }

/-- Every type has one length, whatever the sample. -/
theorem packetLength_new (digest : Bytes → Digest) :
    PacketLength.new digest = { hello := 37, ack := 4, auth := 32, c_cmd := 4, d_cmd := 4 } := by
  simp only [PacketLength.new, serialized_size, serialize]
  rw [fixed_hello, fixed_ack, fixed_auth, fixed_controlCmd, fixed_dataCmd]

/-! ## 4. The readers -/

/-- Why a reader fails. -/
inductive ReadError where
  | read (what : String)
  | deserialize (what : String)
  | version (expected got : ProtocolVersion)
  deriving DecidableEq, Repr

def ReadError.text : ReadError → String
  | .read what => "Failed to read " ++ what
  | .deserialize what => "Failed to deserialize " ++ what
  | .version expected got =>
      "Protocol version mismatched. Expected " ++ toString expected ++ ", got " ++ toString got ++
        ". Please update"

/-- What every reader does: `read_exact` of the packet length, then `bincode::deserialize`. -/
def readPacket {α : Type*} (c : Codec α) (len : Nat) (what : String) (conn : Bytes) :
    Except ReadError (α × Bytes) :=
  match readExact len conn with
  | none => .error (.read what)
  | some (buf, rest) =>
      match deserialize c buf with
      | none => .error (.deserialize what)
      | some a => .ok (a, rest)

section Readers

variable (PACKET_LEN : PacketLength)

def read_hello (conn : Bytes) : Except ReadError (Hello × Bytes) :=
  match readPacket Hello.codec PACKET_LEN.hello "hello" conn with
  | .error e => .error e
  | .ok (hello, rest) =>
      match hello with
      | .controlChannelHello v _ =>
          if v ≠ CURRENT_PROTO_VERSION then .error (.version CURRENT_PROTO_VERSION v)
          else .ok (hello, rest)
      | .dataChannelHello v _ =>
          if v ≠ CURRENT_PROTO_VERSION then .error (.version CURRENT_PROTO_VERSION v)
          else .ok (hello, rest)

def read_auth (conn : Bytes) : Except ReadError (Auth × Bytes) :=
  readPacket Auth.codec PACKET_LEN.auth "auth" conn

def read_ack (conn : Bytes) : Except ReadError (Ack × Bytes) :=
  readPacket Ack.codec PACKET_LEN.ack "ack" conn

def read_control_cmd (conn : Bytes) : Except ReadError (ControlChannelCmd × Bytes) :=
  readPacket ControlChannelCmd.codec PACKET_LEN.c_cmd "control cmd" conn

def read_data_cmd (conn : Bytes) : Except ReadError (DataChannelCmd × Bytes) :=
  readPacket DataChannelCmd.codec PACKET_LEN.d_cmd "data cmd" conn

end Readers

theorem deserialize_serialize {α : Type*} (c : Codec α) (a : α) :
    deserialize c (serialize c a) = some a := by
  have h := c.decode_encode a []
  rw [List.append_nil] at h
  rw [deserialize, serialize, h]
  rfl

/-- **What a reader accepts is what the writer writes**, with all its bytes used. -/
theorem readPacket_eq_ok {α : Type*} {c : Codec α} {len : Nat} (hc : c.Fixed len) {what : String}
    {conn rest : Bytes} {a : α} :
    readPacket c len what conn = .ok (a, rest) ↔ serialize c a ++ rest = conn := by
  constructor
  · intro h
    unfold readPacket at h
    split at h
    · cases h
    · rename_i buf r hr
      obtain ⟨hlen, rfl⟩ := readExact_eq_some.mp hr
      split at h
      · cases h
      · rename_i a' hd
        cases h
        obtain ⟨⟨a', left⟩, hd', rfl⟩ := Option.map_eq_some_iff.mp hd
        have henc := c.encode_decode _ _ _ hd'
        -- the value fills the buffer, so nothing was ignored
        have hleft : left.length = 0 := by
          have hsum := congrArg List.length henc
          rw [List.length_append, hc, hlen] at hsum
          omega
        rw [List.eq_nil_of_length_eq_zero hleft, List.append_nil] at henc
        rw [serialize, henc]
  · rintro rfl
    unfold readPacket
    rw [readExact_append (show (serialize c a).length = len from hc a)]
    simp only [deserialize_serialize]

/-- `read_hello` checks the version of either variant. -/
theorem read_hello_eq (PACKET_LEN : PacketLength) (conn : Bytes) :
    read_hello PACKET_LEN conn =
      (readPacket Hello.codec PACKET_LEN.hello "hello" conn).bind fun p =>
        if p.1.version = CURRENT_PROTO_VERSION then .ok p
        else .error (.version CURRENT_PROTO_VERSION p.1.version) := by
  unfold read_hello
  cases readPacket Hello.codec PACKET_LEN.hello "hello" conn with
  | error e => rfl
  | ok p =>
      obtain ⟨h, rest⟩ := p
      cases h <;> simp only [Except.bind, Hello.version, ne_eq, ite_not] <;> rfl

theorem read_hello_eq_ok {digest : Bytes → Digest} {conn rest : Bytes} {h : Hello} :
    read_hello (PacketLength.new digest) conn = .ok (h, rest) ↔
      h.version = CURRENT_PROTO_VERSION ∧ serialize Hello.codec h ++ rest = conn := by
  have hpacket : readPacket Hello.codec 37 "hello" conn = .ok (h, rest) ↔
      serialize Hello.codec h ++ rest = conn := readPacket_eq_ok fixed_hello
  rw [← hpacket, read_hello_eq, packetLength_new]
  cases readPacket Hello.codec 37 "hello" conn with
  | error e => simp [Except.bind]
  | ok p =>
      by_cases hv : p.1.version = CURRENT_PROTO_VERSION
      · simp only [Except.bind, if_pos hv, Except.ok.injEq]
        refine ⟨fun he => ⟨?_, he⟩, fun he => he.2⟩
        rw [he] at hv
        exact hv
      · simp only [Except.bind, if_neg hv, reduceCtorEq, Except.ok.injEq, false_iff]
        rintro ⟨hv', rfl⟩
        exact hv hv'

/-! ## 5. Sequences of messages -/

/-- The messages of the protocol, a `Hello` in the current version. -/
inductive Message where
  | hello (h : Penetrate.Hello)
  | auth (a : Auth)
  | ack (a : Ack)
  | controlCmd (cmd : ControlChannelCmd)
  | dataCmd (cmd : DataChannelCmd)
  deriving DecidableEq

/-- Which reader reads a message. -/
inductive Kind where
  | hello
  | auth
  | ack
  | controlCmd
  | dataCmd
  deriving DecidableEq, Repr

def Message.kind : Message → Kind
  | .hello _ => .hello
  | .auth _ => .auth
  | .ack _ => .ack
  | .controlCmd _ => .controlCmd
  | .dataCmd _ => .dataCmd

def Message.serialize : Message → Bytes
  | .hello h => Wire.serialize Hello.codec (Hello.current h)
  | .auth a => Wire.serialize Auth.codec a
  | .ack a => Wire.serialize Ack.codec a
  | .controlCmd cmd => Wire.serialize ControlChannelCmd.codec cmd
  | .dataCmd cmd => Wire.serialize DataChannelCmd.codec cmd

/-- The packet length a reader reads. -/
def Kind.length (PACKET_LEN : PacketLength) : Kind → Nat
  | .hello => PACKET_LEN.hello
  | .auth => PACKET_LEN.auth
  | .ack => PACKET_LEN.ack
  | .controlCmd => PACKET_LEN.c_cmd
  | .dataCmd => PACKET_LEN.d_cmd

def Kind.read (PACKET_LEN : PacketLength) (k : Kind) (conn : Bytes) :
    Except ReadError (Message × Bytes) :=
  match k with
  | .hello => (read_hello PACKET_LEN conn).map fun p => (.hello p.1.content, p.2)
  | .auth => (read_auth PACKET_LEN conn).map fun p => (.auth p.1, p.2)
  | .ack => (read_ack PACKET_LEN conn).map fun p => (.ack p.1, p.2)
  | .controlCmd => (read_control_cmd PACKET_LEN conn).map fun p => (.controlCmd p.1, p.2)
  | .dataCmd => (read_data_cmd PACKET_LEN conn).map fun p => (.dataCmd p.1, p.2)

/-- The readers one after another, each where the one before it stopped. -/
def readAll (PACKET_LEN : PacketLength) : List Kind → Bytes → Except ReadError (List Message × Bytes)
  | [], conn => .ok ([], conn)
  | k :: ks, conn =>
      match k.read PACKET_LEN conn with
      | .error e => .error e
      | .ok (m, rest) => (readAll PACKET_LEN ks rest).map fun p => (m :: p.1, p.2)

theorem map_eq_ok {ε α β : Type*} {f : α → β} {r : Except ε α} {b : β} :
    r.map f = .ok b ↔ ∃ a, r = .ok a ∧ f a = b := by
  cases r <;> simp [Except.map]

theorem readPacket_map_eq_ok {α : Type} {c : Codec α} {n : Nat} (hc : c.Fixed n) (mk : α → Message)
    {what : String} {conn rest : Bytes} {m : Message} :
    (readPacket c n what conn).map (fun p => (mk p.1, p.2)) = .ok (m, rest) ↔
      ∃ a, mk a = m ∧ serialize c a ++ rest = conn := by
  rw [map_eq_ok]
  constructor
  · rintro ⟨⟨a, r⟩, hr, he⟩
    cases he
    exact ⟨a, rfl, (readPacket_eq_ok hc).mp hr⟩
  · rintro ⟨a, rfl, h⟩
    exact ⟨(a, rest), (readPacket_eq_ok hc).mpr h, rfl⟩

/-- **Each reader takes its own messages off the connection, and no byte more.** -/
theorem read_eq_ok {digest : Bytes → Digest} {k : Kind} {conn rest : Bytes} {m : Message} :
    k.read (PacketLength.new digest) conn = .ok (m, rest) ↔
      m.kind = k ∧ m.serialize ++ rest = conn := by
  unfold Kind.read
  cases k with
  | hello =>
      simp only [map_eq_ok]
      constructor
      · rintro ⟨⟨h, r⟩, hr, he⟩
        cases he
        obtain ⟨hv, hs⟩ := read_hello_eq_ok.mp hr
        exact ⟨rfl, by rw [Message.serialize, Hello.current_content hv]; exact hs⟩
      · rintro ⟨hk, hs⟩
        cases m <;> cases hk
        rename_i h
        exact ⟨(Hello.current h, rest), read_hello_eq_ok.mpr ⟨Hello.version_current h, hs⟩,
          by simp⟩
  | auth =>
      simp only [read_auth, packetLength_new]
      rw [readPacket_map_eq_ok fixed_auth Message.auth]
      cases m <;> simp [Message.kind, Message.serialize]
  | ack =>
      simp only [read_ack, packetLength_new]
      rw [readPacket_map_eq_ok fixed_ack Message.ack]
      cases m <;> simp [Message.kind, Message.serialize]
  | controlCmd =>
      simp only [read_control_cmd, packetLength_new]
      rw [readPacket_map_eq_ok fixed_controlCmd Message.controlCmd]
      cases m <;> simp [Message.kind, Message.serialize]
  | dataCmd =>
      simp only [read_data_cmd, packetLength_new]
      rw [readPacket_map_eq_ok fixed_dataCmd Message.dataCmd]
      cases m <;> simp [Message.kind, Message.serialize]

/-- Messages written back to back are read in the same order, up to the payload behind them. -/
theorem readAll_serialize (digest : Bytes → Digest) (msgs : List Message) (payload : Bytes) :
    readAll (PacketLength.new digest) (msgs.map Message.kind)
      (msgs.flatMap Message.serialize ++ payload) = .ok (msgs, payload) := by
  induction msgs with
  | nil => rfl
  | cons m msgs ih =>
      have hm : m.kind.read (PacketLength.new digest)
          (m.serialize ++ (msgs.flatMap Message.serialize ++ payload)) =
          .ok (m, msgs.flatMap Message.serialize ++ payload) := read_eq_ok.mpr ⟨rfl, rfl⟩
      simp only [List.flatMap_cons, List.append_assoc, List.map_cons, readAll, hm, ih]
      rfl

/-! ## 6. The buffers a reader takes -/

/-- The number in the first 4 bytes of a buffer. -/
def variantNumber (buf : Bytes) : Nat := Codec.ofDigits (buf.take 4)

/-- A known variant and, in a `Hello`, the current version. -/
def Kind.Known (buf : Bytes) : Kind → Prop
  | .hello => variantNumber buf < 2 ∧ buf[4]? = some CURRENT_PROTO_VERSION
  | .auth => True
  | .ack => variantNumber buf < 3
  | .controlCmd => variantNumber buf < 2
  | .dataCmd => variantNumber buf < 2

/-- The fifth byte of a `Hello` is its version. -/
theorem hello_version (h : Hello) : (serialize Hello.codec h)[4]? = some h.version := by
  have fifth : ∀ (i : Fin 2) (v : ProtocolVersion) (d : Digest),
      ((variant 2).encode i ++ (u8.encode v ++ digestCodec.encode d))[4]? = some v := by
    intro i v d
    have hlen : ((variant 2).encode i).length = 4 := fixed_variant 2 _ i
    rw [List.getElem?_append_right (Nat.le_of_eq hlen), hlen, encode_u8]
    rfl
  cases h with
  | controlChannelHello v d => exact fifth 0 v d
  | dataChannelHello v d => exact fifth 1 v d

theorem length_serialize (digest : Bytes → Digest) (m : Message) :
    m.serialize.length = m.kind.length (PacketLength.new digest) := by
  rw [packetLength_new]
  cases m with
  | hello h => exact fixed_hello _
  | auth a => exact fixed_auth _
  | ack a => exact fixed_ack _
  | controlCmd cmd => exact fixed_controlCmd _
  | dataCmd cmd => exact fixed_dataCmd _

/-- Four bytes are a variant precisely where their number is below the number of variants. -/
theorem written_variant {n : Nat} {h : n ≤ 2 ^ 32} {α : Type} {e : Fin n ≃ α} {buf : Bytes}
    (hb : buf.length = 4) : ((variant n h).map e).Written buf ↔ variantNumber buf < n := by
  have htake : buf.take 4 = buf := List.take_of_length_le (Nat.le_of_eq hb)
  rw [Codec.written_map, variant, Codec.written_tag hb, variantNumber, htake]

theorem written_hello {buf : Bytes} (hb : buf.length = 37) :
    Hello.codec.Written buf ↔ variantNumber buf < 2 := by
  have hbody : (u8.pair digestCodec).Total 33 :=
    Codec.Total.pair fixed_u8 ((Codec.total_le 1).map _) (Codec.total_raw 32)
  have htake : (buf.take 4).length = 4 := by
    rw [List.length_take]
    omega
  rw [Hello.codec, Codec.written_map,
    Codec.written_sigma (n := 4) (m := 33) (fixed_variant 2 _) (fun _ => hbody) hb, variant,
    Codec.written_tag htake, variantNumber]

/-- **What a reader accepts from a buffer of its packet length is the message with these bytes.** -/
theorem read_buffer {digest : Bytes → Digest} {k : Kind} {buf rest : Bytes} {m : Message}
    (hb : buf.length = k.length (PacketLength.new digest))
    (hr : k.read (PacketLength.new digest) buf = .ok (m, rest)) :
    m.kind = k ∧ m.serialize = buf ∧ rest = [] := by
  obtain ⟨rfl, rfl⟩ := read_eq_ok.mp hr
  have hrest : rest.length = 0 := by
    rw [List.length_append, length_serialize digest] at hb
    omega
  have hnil := List.eq_nil_of_length_eq_zero hrest
  exact ⟨rfl, by rw [hnil, List.append_nil], hnil⟩

theorem accepts_iff_serialize {digest : Bytes → Digest} {k : Kind} {buf : Bytes}
    (hb : buf.length = k.length (PacketLength.new digest)) :
    (∃ m rest, k.read (PacketLength.new digest) buf = .ok (m, rest)) ↔
      ∃ m : Message, m.kind = k ∧ m.serialize = buf := by
  constructor
  · rintro ⟨m, rest, hr⟩
    obtain ⟨hk, hs, _⟩ := read_buffer hb hr
    exact ⟨m, hk, hs⟩
  · rintro ⟨m, rfl, rfl⟩
    exact ⟨m, [], read_eq_ok.mpr ⟨rfl, List.append_nil _⟩⟩

/-- The messages of a kind that is one type are the values of its codec. -/
theorem exists_kind {α : Type} {c : Codec α} {k : Kind} (mk : α → Message) {buf : Bytes}
    (hk : ∀ m : Message, m.kind = k → ∃ a, mk a = m)
    (hmk : ∀ a, (mk a).kind = k ∧ (mk a).serialize = Wire.serialize c a) :
    (∃ m : Message, m.kind = k ∧ m.serialize = buf) ↔ c.Written buf := by
  constructor
  · rintro ⟨m, hm, rfl⟩
    obtain ⟨a, rfl⟩ := hk m hm
    exact ⟨a, (hmk a).2.symm⟩
  · rintro ⟨a, rfl⟩
    exact ⟨mk a, hmk a⟩

/-- **A buffer of the packet length is accepted precisely where its variant is known and, in a
    `Hello`, its version is the current one.** -/
theorem accepts_iff {digest : Bytes → Digest} {k : Kind} {buf : Bytes}
    (hb : buf.length = k.length (PacketLength.new digest)) :
    (∃ m rest, k.read (PacketLength.new digest) buf = .ok (m, rest)) ↔ k.Known buf := by
  rw [accepts_iff_serialize hb]
  rw [packetLength_new] at hb
  cases k with
  | hello =>
      show _ ↔ variantNumber buf < 2 ∧ buf[4]? = some CURRENT_PROTO_VERSION
      rw [← written_hello hb]
      constructor
      · rintro ⟨m, hk, rfl⟩
        cases m <;> cases hk
        rename_i h
        exact ⟨⟨_, rfl⟩, (hello_version _).trans (by rw [Hello.version_current])⟩
      · rintro ⟨⟨h, rfl⟩, hv⟩
        have hcur := Option.some.inj ((hello_version h).symm.trans hv)
        exact ⟨.hello h.content, rfl, by rw [Message.serialize, Hello.current_content hcur]; rfl⟩
  | auth =>
      have hw : Auth.codec.Written buf := (Codec.total_raw 32).map _ buf hb
      rw [exists_kind Message.auth (fun m h => ?_) (fun a => ⟨rfl, rfl⟩)]
      · exact iff_of_true hw trivial
      · cases m <;> cases h
        exact ⟨_, rfl⟩
  | ack =>
      rw [exists_kind Message.ack (fun m h => ?_) (fun a => ⟨rfl, rfl⟩)]
      · exact written_variant hb
      · cases m <;> cases h
        exact ⟨_, rfl⟩
  | controlCmd =>
      rw [exists_kind Message.controlCmd (fun m h => ?_) (fun a => ⟨rfl, rfl⟩)]
      · exact written_variant hb
      · cases m <;> cases h
        exact ⟨_, rfl⟩
  | dataCmd =>
      rw [exists_kind Message.dataCmd (fun m h => ?_) (fun a => ⟨rfl, rfl⟩)]
      · exact written_variant hb
      · cases m <;> cases h
        exact ⟨_, rfl⟩

/-- **The framing of the handshake and the commands never drifts.** Every sequence of messages is
    read back with the payload behind it whole; what a reader accepts from a buffer of its packet
    length is the message with exactly these bytes; and it accepts precisely the known variants,
    and of `Hello` the current version only. -/
theorem messages_framed (digest : Bytes → Digest) :
    (∀ (msgs : List Message) (payload : Bytes),
      readAll (PacketLength.new digest) (msgs.map Message.kind)
        (msgs.flatMap Message.serialize ++ payload) = .ok (msgs, payload)) ∧
    (∀ (k : Kind) (buf : Bytes) (m : Message) (rest : Bytes),
      buf.length = k.length (PacketLength.new digest) →
        k.read (PacketLength.new digest) buf = .ok (m, rest) →
          m.kind = k ∧ m.serialize = buf ∧ rest = []) ∧
    (∀ (k : Kind) (buf : Bytes), buf.length = k.length (PacketLength.new digest) →
      ((∃ m rest, k.read (PacketLength.new digest) buf = .ok (m, rest)) ↔ k.Known buf)) :=
  ⟨readAll_serialize digest, fun _ _ _ _ hb hr => read_buffer hb hr, fun _ _ hb => accepts_iff hb⟩

/-- Two messages and the payload behind them. -/
theorem messages_framed_forward :
    readAll (PacketLength.new fun _ => Vector.replicate HASH_WIDTH_IN_BYTES 0) [.ack, .dataCmd]
      ([Message.ack .ok, .dataCmd .startForwardUdp].flatMap Message.serialize ++ [71, 69, 84]) =
      .ok ([.ack .ok, .dataCmd .startForwardUdp], [71, 69, 84]) ∧
      Kind.Known [2, 0, 0, 0] .ack := by
  have hread : ∃ m rest, Kind.read (PacketLength.new fun _ => Vector.replicate HASH_WIDTH_IN_BYTES 0) .ack
      [2, 0, 0, 0] = .ok (m, rest) := ⟨.ack .authFailed, [], read_eq_ok.mpr ⟨rfl, by decide⟩⟩
  obtain ⟨hall, -, haccepts⟩ := messages_framed fun _ => Vector.replicate HASH_WIDTH_IN_BYTES 0
  refine ⟨hall [.ack .ok, .dataCmd .startForwardUdp] _, (haccepts .ack _ ?_).mp hread⟩
  rw [packetLength_new]
  rfl

end Penetrate.Wire
