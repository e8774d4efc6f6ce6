/-
  File:      Penetrate/UdpFraming.lean
  Subject:   UDP TRAFFIC ON A DATA CHANNEL (`UdpTraffic::write`, `write_slice`, `read`).

  A datagram is sent as one byte with the length of its header, the header (the sender's address
  and the length of the data, in bincode's format) and the data. serde writes an address as its
  variant, the octets and the port; flowinfo and scope id of an IPv6 address are not written, and
  are 0 in the address read.

  * `readPacket_write` -- one datagram is read back;
  * `readPacket_cut` -- a part of one is an error;
  * `udp_framing` -- **whole streams**: every list of datagrams is read back up to the tail, and a
    truncated stream gives the datagrams it wholly contains and then an error.
-/
import Mathlib.Algebra.GroupWithZero.Nat
import Penetrate.Wire

namespace Penetrate

open Encoding Wire

/-! ## 1. The header -/

/-- The families of an address: IPv4 and IPv6. -/
local instance families : NeZero 2 := ⟨Nat.succ_ne_zero 1⟩

theorem families_fit : 2 ≤ 2 ^ 32 := by decide

/-- What serde writes of an address of either family. -/
def AddrBody : Fin 2 → Type
  | 0 => BitVec 32 × UInt16
  | 1 => BitVec 128 × UInt16

def addrBody : ∀ i, Codec (AddrBody i)
  | 0 => (Codec.be 4).pair u16
  | 1 => (Codec.be 16).pair u16

def SocketAddr.compact : SocketAddr → Σ i, AddrBody i
  | .v4 ip port => ⟨0, ip, port⟩
  | .v6 ip port _ _ => ⟨1, ip, port⟩

def SocketAddr.ofCompact : (Σ i, AddrBody i) → SocketAddr
  | ⟨0, ip, port⟩ => .v4 ip port
  | ⟨1, ip, port⟩ => .v6 ip port 0 0

/-- Nothing of the address is lost: it is IPv4, or has no flowinfo and no scope id. -/
def SocketAddr.Plain : SocketAddr → Prop
  | .v4 _ _ => True
  | .v6 _ _ flowinfo scope_id => flowinfo = 0 ∧ scope_id = 0

theorem SocketAddr.ofCompact_compact {a : SocketAddr} (h : a.Plain) : ofCompact a.compact = a := by
  cases a with
  | v4 ip port => rfl
  | v6 ip port flowinfo scope_id =>
      obtain ⟨hf, hs⟩ := h
      rw [hf, hs]
      rfl

abbrev UdpPacketLen := UInt16

/-- `UdpHeader`. -/
structure UdpHeader where
  from_ : SocketAddr
  len : UdpPacketLen
  deriving DecidableEq, Repr

def headerCodec : Codec ((Σ i, AddrBody i) × UInt16) :=
  ((variant 2 families_fit).sigma addrBody).pair u16

def UdpHeader.serialize (hdr : UdpHeader) : Bytes :=
  Wire.serialize headerCodec (hdr.from_.compact, hdr.len)

def UdpHeader.deserialize (buf : Bytes) : Option UdpHeader :=
  (Wire.deserialize headerCodec buf).map fun p => { from_ := .ofCompact p.1, len := p.2 }

theorem UdpHeader.deserialize_serialize {hdr : UdpHeader} (h : hdr.from_.Plain) :
    deserialize hdr.serialize = some hdr := by
  rw [deserialize, serialize, Wire.deserialize_serialize]
  show some { from_ := SocketAddr.ofCompact hdr.from_.compact, len := hdr.len } = some hdr
  rw [SocketAddr.ofCompact_compact h]

/-- A header has 12 or 24 bytes: its length fits the byte in front of it. -/
theorem UdpHeader.length_serialize (hdr : UdpHeader) : hdr.serialize.length < 256 := by
  have hlen : hdr.serialize.length =
      4 + ((addrBody hdr.from_.compact.1).encode hdr.from_.compact.2).length + 2 := by
    unfold serialize Wire.serialize headerCodec
    rw [Codec.encode_pair, Codec.encode_sigma, List.length_append, List.length_append,
      fixed_variant, fixed_u16]
  have hbody : ((addrBody hdr.from_.compact.1).encode hdr.from_.compact.2).length ≤ 18 := by
    cases hdr.from_ with
    | v4 ip port =>
        have h4 : ((Codec.be 4).pair u16).Fixed 6 := (Codec.fixed_be 4).pair fixed_u16
        exact Nat.le_trans (Nat.le_of_eq (h4 _)) (by decide)
    | v6 ip port flowinfo scope_id =>
        have h6 : ((Codec.be 16).pair u16).Fixed 18 := (Codec.fixed_be 16).pair fixed_u16
        exact Nat.le_of_eq (h6 _)
  omega

/-! ## 2. Writing and reading -/

/-- `UdpTraffic::write_slice`: the bytes it writes. -/
def UdpTraffic.write_slice (from_ : SocketAddr) (data : Bytes) : Bytes :=
  let hdr : UdpHeader := { from_ := from_, len := UInt16.ofNat data.length }
  let v := hdr.serialize
  UInt8.ofNat v.length :: (v ++ data)

/-- `UdpTraffic::write`. -/
def UdpTraffic.write (t : UdpTraffic) : Bytes :=
  let hdr : UdpHeader := { from_ := t.from_, len := UInt16.ofNat t.data.length }
  let v := hdr.serialize
  UInt8.ofNat v.length :: (v ++ t.data)

/-- Why the reader loop ends. -/
inductive UdpReadError where
  /-- `read_u8` finds the end of the stream -/
  | headerLength
  | header
  | deserialize
  /-- `read_exact` of the data finds the end of the stream -/
  | data
  deriving DecidableEq, Repr

/-- The context the source puts to an error; the others are passed on as they are. -/
def UdpReadError.context : UdpReadError → Option String
  | .header => some "Failed to read udp header"
  | .deserialize => some "Failed to bincode::deserialize UdpHeader"
  | .headerLength => none
  | .data => none

/-- `UdpTraffic::read`. -/
def UdpTraffic.read (reader : Bytes) (hdr_len : UInt8) : Except UdpReadError (UdpTraffic × Bytes) :=
  match readExact hdr_len.toNat reader with
  | none => .error .header
  | some (buf, reader) =>
      match UdpHeader.deserialize buf with
      | none => .error .deserialize
      | some hdr =>
          match readExact hdr.len.toNat reader with
          | none => .error .data
          | some (data, reader) => .ok ({ from_ := hdr.from_, data := data }, reader)

/-- One iteration of the reader loops: `read_u8`, then `UdpTraffic::read`. -/
def readPacket : Bytes → Except UdpReadError (UdpTraffic × Bytes)
  | [] => .error .headerLength
  | hdr_len :: reader => UdpTraffic.read reader hdr_len

/-- `n` iterations: the datagrams read, and the error that ended the loop or what is left to
    read. -/
def readPackets : Nat → Bytes → List UdpTraffic × Except UdpReadError Bytes
  | 0, reader => ([], .ok reader)
  | n + 1, reader =>
      match readPacket reader with
      | .error e => ([], .error e)
      | .ok (t, rest) => (t :: (readPackets n rest).1, (readPackets n rest).2)

/-- The datagram fits its header. -/
def UdpTraffic.Sendable (t : UdpTraffic) : Prop := t.data.length ≤ 65535 ∧ t.from_.Plain

def UdpTraffic.header (t : UdpTraffic) : UdpHeader :=
  { from_ := t.from_, len := UInt16.ofNat t.data.length }

theorem UdpTraffic.write_eq (t : UdpTraffic) :
    t.write = UInt8.ofNat t.header.serialize.length :: (t.header.serialize ++ t.data) := rfl

/-- Neither cast loses anything. -/
theorem header_len (t : UdpTraffic) :
    (UInt8.ofNat t.header.serialize.length).toNat = t.header.serialize.length := by
  rw [UInt8.toNat_ofNat']
  exact Nat.mod_eq_of_lt t.header.length_serialize

theorem data_len {t : UdpTraffic} (h : t.Sendable) : t.header.len.toNat = t.data.length := by
  have hle := h.1
  show (UInt16.ofNat t.data.length).toNat = t.data.length
  rw [UInt16.toNat_ofNat']
  omega

/-- With the header whole, `read` goes on to the data. -/
theorem read_header {t : UdpTraffic} (h : t.Sendable) (rest : Bytes) :
    readPacket (UInt8.ofNat t.header.serialize.length :: (t.header.serialize ++ rest)) =
      match readExact t.data.length rest with
      | none => .error .data
      | some (data, reader) => .ok ({ from_ := t.from_, data := data }, reader) := by
  unfold readPacket UdpTraffic.read
  have hbuf : readExact (UInt8.ofNat t.header.serialize.length).toNat (t.header.serialize ++ rest) =
      some (t.header.serialize, rest) := readExact_append (header_len t).symm rest
  have hde : UdpHeader.deserialize t.header.serialize = some t.header :=
    UdpHeader.deserialize_serialize h.2
  simp only [hbuf, hde, data_len h]
  rfl

/-- **One datagram is read back.** -/
theorem readPacket_write {t : UdpTraffic} (h : t.Sendable) (rest : Bytes) :
    readPacket (t.write ++ rest) = .ok (t, rest) := by
  rw [UdpTraffic.write_eq, List.cons_append, List.append_assoc, read_header h,
    readExact_append rfl]

/-- **A part of a datagram is an error**, whichever field the end of the stream falls into. -/
theorem readPacket_cut {t : UdpTraffic} (h : t.Sendable) {bytes : Bytes} (hp : bytes <+: t.write)
    (hlt : bytes.length < t.write.length) : ∃ e, readPacket bytes = .error e := by
  rw [UdpTraffic.write_eq] at hp hlt
  rcases List.prefix_cons_iff.mp hp with rfl | ⟨more, rfl, hmore⟩
  · exact ⟨.headerLength, rfl⟩
  · by_cases hhdr : more.length < t.header.serialize.length
    · refine ⟨.header, ?_⟩
      have hnone : readExact (UInt8.ofNat t.header.serialize.length).toNat more = none := by
        rw [readExact_eq_none, header_len]
        exact hhdr
      simp only [readPacket, UdpTraffic.read, hnone]
    · -- the header is whole, so what is missing is data
      have hwhole : t.header.serialize <+: more :=
        List.prefix_of_prefix_length_le (List.prefix_append _ _) hmore (by omega)
      obtain ⟨data, rfl⟩ := hwhole
      refine ⟨.data, ?_⟩
      have hnone : readExact t.data.length data = none := by
        rw [readExact_eq_none]
        simp only [List.length_cons, List.length_append] at hlt
        omega
      rw [read_header h, hnone]

/-! ## 3. Streams -/

/-- Which of the two functions writes a datagram. -/
inductive Writer where
  | write
  | write_slice
  deriving DecidableEq, Repr

def Writer.bytes : Writer → UdpTraffic → Bytes
  | .write, t => t.write
  | .write_slice, t => UdpTraffic.write_slice t.from_ t.data

/-- Both write the same. -/
theorem Writer.bytes_eq (w : Writer) (t : UdpTraffic) : w.bytes t = t.write := by
  cases w <;> rfl

/-- Datagrams written one after another. -/
def stream : List (Writer × UdpTraffic) → Bytes
  | [] => []
  | p :: l => p.1.bytes p.2 ++ stream l

theorem readPackets_stream {l : List (Writer × UdpTraffic)} (h : ∀ p ∈ l, p.2.Sendable)
    (tail : Bytes) : readPackets l.length (stream l ++ tail) = (l.map Prod.snd, .ok tail) := by
  induction l with
  | nil => rfl
  | cons p l ih =>
      have hp : p.2.Sendable := h p List.mem_cons_self
      have hl : ∀ q ∈ l, q.2.Sendable := fun q hq => h q (List.mem_cons_of_mem _ hq)
      have hread : readPacket (stream (p :: l) ++ tail) = .ok (p.2, stream l ++ tail) := by
        rw [stream, Writer.bytes_eq, List.append_assoc]
        exact readPacket_write hp _
      simp only [List.length_cons, readPackets, hread, ih hl, List.map_cons]

/-- The reader loop on a stream that ends early: `k` datagrams are whole. -/
structure Truncated (l : List (Writer × UdpTraffic)) (bytes : Bytes) (k : Nat) (e : UdpReadError) :
    Prop where
  whole : stream (l.take k) <+: bytes
  cut : ¬ stream (l.take (k + 1)) <+: bytes
  /-- however often the loop goes round, it returns these and then the error -/
  reads : ∀ n, k < n → readPackets n bytes = ((l.take k).map Prod.snd, .error e)

theorem truncated_stream {l : List (Writer × UdpTraffic)} (h : ∀ p ∈ l, p.2.Sendable)
    {bytes : Bytes} (hp : bytes <+: stream l) (hne : bytes ≠ stream l) :
    ∃ k e, k < l.length ∧ Truncated l bytes k e := by
  induction l generalizing bytes with
  | nil => exact absurd (List.prefix_nil.mp hp) hne
  | cons p l ih =>
      have hs : p.2.Sendable := h p List.mem_cons_self
      have hl : ∀ q ∈ l, q.2.Sendable := fun q hq => h q (List.mem_cons_of_mem _ hq)
      have hstream : stream (p :: l) = p.2.write ++ stream l := by rw [stream, Writer.bytes_eq]
      rw [hstream] at hp hne
      by_cases hw : p.2.write <+: bytes
      · -- the first datagram is whole: the rest of the stream ends early
        obtain ⟨rest, rfl⟩ := hw
        have hrest : rest <+: stream l := (List.prefix_append_right_inj _).mp hp
        obtain ⟨k, e, hk, ht⟩ := ih hl hrest fun he => hne (by rw [he])
        refine ⟨k + 1, e, Nat.succ_lt_succ hk, ?_, ?_, ?_⟩
        · rw [List.take_succ_cons, stream, Writer.bytes_eq]
          exact (List.prefix_append_right_inj _).mpr ht.whole
        · rw [List.take_succ_cons, stream, Writer.bytes_eq]
          exact fun hc => ht.cut ((List.prefix_append_right_inj _).mp hc)
        · intro n hn
          obtain ⟨n, rfl⟩ : ∃ m, n = m + 1 := ⟨n - 1, by omega⟩
          have hread := ht.reads n (by omega)
          simp only [readPackets, readPacket_write hs, hread, List.take_succ_cons, List.map_cons]
      · have hlt : bytes.length < p.2.write.length := by
          by_contra hge
          exact hw (List.prefix_of_prefix_length_le (List.prefix_append _ _) hp (by omega))
        have hcut : bytes <+: p.2.write :=
          List.prefix_of_prefix_length_le hp (List.prefix_append _ _) (Nat.le_of_lt hlt)
        obtain ⟨e, he⟩ := readPacket_cut hs hcut hlt
        refine ⟨0, e, Nat.succ_pos _, List.nil_prefix, ?_, ?_⟩
        · rw [List.take_succ_cons, List.take_zero, stream, stream, List.append_nil, Writer.bytes_eq]
          exact hw
        · intro n hn
          obtain ⟨n, rfl⟩ : ∃ m, n = m + 1 := ⟨n - 1, by omega⟩
          simp only [readPackets, he, List.take_zero, List.map_nil]

/-- **UDP framing is lossless over whole streams**: any datagrams that fit their headers, written
    one after another by either function, are read back up to the tail; and from a proper prefix of
    the stream the reader gets exactly the datagrams it wholly contains, and then an error. -/
theorem udp_framing (l : List (Writer × UdpTraffic)) (h : ∀ p ∈ l, p.2.Sendable) :
    (∀ tail, readPackets l.length (stream l ++ tail) = (l.map Prod.snd, .ok tail)) ∧
      ∀ bytes, bytes <+: stream l → bytes ≠ stream l →
        ∃ k e, k < l.length ∧ Truncated l bytes k e :=
  ⟨readPackets_stream h, fun _ hp hne => truncated_stream h hp hne⟩

/-- A datagram from each family, and the first bytes of an answer behind them. -/
theorem udp_framing_families :
    readPackets 2 (stream [(.write, ⟨.v4 0x7f000001 80, [1, 2, 3]⟩),
        (.write_slice, ⟨.v6 1 443 0 0, []⟩)] ++ [12, 0]) =
      ([⟨.v4 0x7f000001 80, [1, 2, 3]⟩, ⟨.v6 1 443 0 0, []⟩], .ok [12, 0]) := by
  refine (udp_framing [(.write, ⟨.v4 0x7f000001 80, [1, 2, 3]⟩),
    (.write_slice, ⟨.v6 1 443 0 0, []⟩)] fun p hp => ?_).1 [12, 0]
  rcases List.mem_cons.mp hp with rfl | hp
  · exact ⟨by decide, trivial⟩
  · rw [List.mem_singleton.mp hp]
    exact ⟨by decide, rfl, rfl⟩

end Penetrate
