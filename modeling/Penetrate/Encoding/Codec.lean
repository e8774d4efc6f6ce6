/-
  File:      Penetrate/Encoding/Codec.lean
  Subject:   BINARY FORMATS AS PAIRS OF A WRITER AND A READER. Names nothing of a particular
             program.

  A `Codec` writes a value as bytes and reads one off the front of a byte string; both laws are
  fields, so a writer and a reader that disagree cannot be put together:

  * what is written is read back, and the reader stops right behind it;
  * what is read is what the writer would have written.

  Below:

  * `raw`, `le`, `be` -- byte arrays and integers of fixed width;
  * `sigma`, `pair`, `filterMap`, `tag` -- a value after another, a part of a type, the number of a
    variant;
  * `Fixed`, `Total` -- every value has the same length; all strings of that length are values;
  * `readExact` -- a read of so many bytes, or none at all.
-/
import Mathlib.Algebra.Group.Nat.Defs
import Mathlib.Logic.Equiv.Defs
import Mathlib.Tactic.Common

namespace Encoding

/-! ## 1. Reading a number of bytes -/

/-- The first `n` bytes and the others; `none` where there are not as many. -/
def readExact (n : Nat) (bytes : List UInt8) : Option (List UInt8 × List UInt8) :=
  if n ≤ bytes.length then some (bytes.take n, bytes.drop n) else none

theorem readExact_append {n : Nat} {a : List UInt8} (h : a.length = n) (rest : List UInt8) :
    readExact n (a ++ rest) = some (a, rest) := by
  have hle : n ≤ (a ++ rest).length := by
    rw [List.length_append]
    omega
  rw [readExact, if_pos hle, List.take_left' h, List.drop_left' h]

theorem readExact_eq_some {n : Nat} {bytes a rest : List UInt8} :
    readExact n bytes = some (a, rest) ↔ a.length = n ∧ a ++ rest = bytes := by
  constructor
  · intro h
    unfold readExact at h
    split at h
    · rename_i hle
      cases h
      exact ⟨List.length_take_of_le hle, List.take_append_drop _ _⟩
    · cases h
  · rintro ⟨h, rfl⟩
    exact readExact_append h rest

theorem readExact_eq_none {n : Nat} {bytes : List UInt8} :
    readExact n bytes = none ↔ bytes.length < n := by
  simp [readExact]

/-! ## 2. Codecs -/

structure Codec (α : Type*) where
  encode : α → List UInt8
  decode : List UInt8 → Option (α × List UInt8)
  decode_encode : ∀ a rest, decode (encode a ++ rest) = some (a, rest)
  encode_decode : ∀ bytes a rest, decode bytes = some (a, rest) → encode a ++ rest = bytes

namespace Codec

variable {α β : Type*}

/-- Every value is written with `n` bytes. -/
def Fixed (c : Codec α) (n : Nat) : Prop := ∀ a, (c.encode a).length = n

/-- `n` bytes as they are. -/
def raw (n : Nat) : Codec (Vector UInt8 n) where
  encode v := v.toList
  decode bytes :=
    if h : n ≤ bytes.length then
      some (⟨(bytes.take n).toArray, by simp [h]⟩, bytes.drop n)
    else none
  decode_encode v rest := by
    have hlen : v.toList.length = n := v.length_toList
    have hle : n ≤ (v.toList ++ rest).length := by
      rw [List.length_append]
      omega
    rw [dif_pos hle]
    have htake : (v.toList ++ rest).take n = v.toList := List.take_left' hlen
    have hdrop : (v.toList ++ rest).drop n = rest := List.drop_left' hlen
    simp only [htake, hdrop]
    rfl
  encode_decode bytes v rest h := by
    split at h
    · cases h
      exact List.take_append_drop _ _
    · cases h

/-- A part of a type: `part` finds the value a `whole` comes from. -/
def filterMap (c : Codec α) (whole : β → α) (part : α → Option β)
    (h : ∀ a b, part a = some b ↔ whole b = a) : Codec β where
  encode b := c.encode (whole b)
  decode bytes := (c.decode bytes).bind fun p => (part p.1).map fun b => (b, p.2)
  decode_encode b rest := by
    rw [c.decode_encode, Option.bind_some, (h _ _).mpr rfl]
    rfl
  encode_decode bytes b rest hd := by
    obtain ⟨⟨a, r⟩, ha, hb⟩ := Option.bind_eq_some_iff.mp hd
    obtain ⟨b', hb', he⟩ := Option.map_eq_some_iff.mp hb
    cases he
    rw [(h _ _).mp hb']
    exact c.encode_decode _ _ _ ha

/-- The same format for an equivalent type. -/
def map (c : Codec α) (e : α ≃ β) : Codec β :=
  c.filterMap e.symm (fun a => some (e a)) fun a b => by
    rw [Option.some.injEq, Equiv.symm_apply_eq, eq_comm]

/-- A value, and behind it one whose format depends on the first. -/
def sigma {γ : α → Type*} (c : Codec α) (d : ∀ a, Codec (γ a)) : Codec (Σ a, γ a) where
  encode p := c.encode p.1 ++ (d p.1).encode p.2
  decode bytes := (c.decode bytes).bind fun p =>
    ((d p.1).decode p.2).map fun q => (⟨p.1, q.1⟩, q.2)
  decode_encode p rest := by
    rw [List.append_assoc, c.decode_encode, Option.bind_some, (d p.1).decode_encode]
    rfl
  encode_decode bytes p rest h := by
    obtain ⟨⟨a, r⟩, ha, hb⟩ := Option.bind_eq_some_iff.mp h
    obtain ⟨⟨b, r'⟩, hb', he⟩ := Option.map_eq_some_iff.mp hb
    cases he
    rw [List.append_assoc, (d a).encode_decode _ _ _ hb']
    exact c.encode_decode _ _ _ ha

/-- A value behind another. -/
def pair (c : Codec α) (d : Codec β) : Codec (α × β) :=
  (c.sigma fun _ => d).map (Equiv.sigmaEquivProd α β)

@[simp] theorem encode_raw {n : Nat} (v : Vector UInt8 n) : (raw n).encode v = v.toList := rfl

@[simp] theorem encode_map (c : Codec α) (e : α ≃ β) (b : β) :
    (c.map e).encode b = c.encode (e.symm b) := rfl

@[simp] theorem encode_sigma {γ : α → Type*} (c : Codec α) (d : ∀ a, Codec (γ a)) (p : Σ a, γ a) :
    (c.sigma d).encode p = c.encode p.1 ++ (d p.1).encode p.2 := rfl

@[simp] theorem encode_pair (c : Codec α) (d : Codec β) (p : α × β) :
    (c.pair d).encode p = c.encode p.1 ++ d.encode p.2 := rfl

theorem Fixed.map {c : Codec α} {n : Nat} (h : c.Fixed n) (e : α ≃ β) : (c.map e).Fixed n :=
  fun _ => h _

theorem fixed_raw (n : Nat) : (raw n).Fixed n := fun v => v.length_toList

theorem Fixed.sigma {γ : α → Type*} {c : Codec α} {d : ∀ a, Codec (γ a)} {n m : Nat}
    (h : c.Fixed n) (h' : ∀ a, (d a).Fixed m) : (c.sigma d).Fixed (n + m) := by
  intro p
  rw [encode_sigma, List.length_append, h, h']

theorem Fixed.pair {c : Codec α} {d : Codec β} {n m : Nat} (h : c.Fixed n) (h' : d.Fixed m) :
    (c.pair d).Fixed (n + m) :=
  (h.sigma fun _ => h').map _

/-! ## 3. Integers of fixed width -/

/-- The `n` low digits of `k` to base 256, the lowest first. -/
def digits : Nat → Nat → List UInt8
  | 0, _ => []
  | n + 1, k => UInt8.ofNat k :: digits n (k / 256)

/-- The number with the digits `bytes`. -/
def ofDigits : List UInt8 → Nat
  | [] => 0
  | b :: bytes => b.toNat + 256 * ofDigits bytes

@[simp] theorem length_digits (n k : Nat) : (digits n k).length = n := by
  induction n generalizing k with
  | zero => rfl
  | succ n ih => simp [digits, ih]

theorem ofDigits_digits {n k : Nat} (h : k < 256 ^ n) : ofDigits (digits n k) = k := by
  induction n generalizing k with
  | zero =>
      have : k = 0 := by simpa using h
      subst this
      rfl
  | succ n ih =>
      have hlt : k / 256 < 256 ^ n := by
        rw [Nat.pow_succ] at h
        exact Nat.div_lt_of_lt_mul (by omega)
      have hb : (UInt8.ofNat k).toNat = k % 256 := UInt8.toNat_ofNat'
      rw [digits, ofDigits, ih hlt, hb]
      omega

theorem ofDigits_lt (bytes : List UInt8) : ofDigits bytes < 256 ^ bytes.length := by
  induction bytes with
  | nil => decide
  | cons b bytes ih =>
      have hb := b.toNat_lt
      rw [ofDigits, List.length_cons, Nat.pow_succ]
      omega

theorem digits_ofDigits (bytes : List UInt8) : digits bytes.length (ofDigits bytes) = bytes := by
  induction bytes with
  | nil => rfl
  | cons b bytes ih =>
      have hb := b.toNat_lt
      have hdiv : (b.toNat + 256 * ofDigits bytes) / 256 = ofDigits bytes := by omega
      have hmod : UInt8.ofNat (b.toNat + 256 * ofDigits bytes) = b := by
        apply UInt8.toNat_inj.mp
        rw [UInt8.toNat_ofNat']
        omega
      rw [ofDigits, List.length_cons, digits, hdiv, hmod, ih]

theorem pow_bytes (n : Nat) : 256 ^ n = 2 ^ (8 * n) := by
  rw [Nat.pow_mul]

/-- `n` bytes as an integer, the lowest byte first. -/
def leEquiv (n : Nat) : Vector UInt8 n ≃ BitVec (8 * n) where
  toFun v := BitVec.ofNat (8 * n) (ofDigits v.toList)
  invFun k := ⟨(digits n k.toNat).toArray, by simp⟩
  left_inv v := by
    have hlt : ofDigits v.toList < 2 ^ (8 * n) := by
      rw [← pow_bytes]
      simpa using ofDigits_lt v.toList
    have hd : digits n (ofDigits v.toList) = v.toList := by
      simpa using digits_ofDigits v.toList
    apply Vector.toList_inj.mp
    show digits n (BitVec.ofNat (8 * n) (ofDigits v.toList)).toNat = v.toList
    rw [BitVec.toNat_ofNat, Nat.mod_eq_of_lt hlt, hd]
  right_inv k := by
    have hlt : k.toNat < 256 ^ n := by
      rw [pow_bytes]
      exact k.isLt
    apply BitVec.eq_of_toNat_eq
    show (BitVec.ofNat (8 * n) (ofDigits (digits n k.toNat))).toNat = k.toNat
    rw [ofDigits_digits hlt, BitVec.toNat_ofNat, Nat.mod_eq_of_lt k.isLt]

/-- The bytes in the other order. -/
def reverseEquiv (n : Nat) : Vector UInt8 n ≃ Vector UInt8 n where
  toFun v := v.reverse
  invFun v := v.reverse
  left_inv v := by simp
  right_inv v := by simp

/-- A little-endian integer of `n` bytes. -/
def le (n : Nat) : Codec (BitVec (8 * n)) := (raw n).map (leEquiv n)

/-- A big-endian integer of `n` bytes. -/
def be (n : Nat) : Codec (BitVec (8 * n)) := (raw n).map ((reverseEquiv n).trans (leEquiv n))

theorem fixed_le (n : Nat) : (le n).Fixed n := (fixed_raw n).map _
theorem fixed_be (n : Nat) : (be n).Fixed n := (fixed_raw n).map _

/-! ## 4. Variants -/

/-- The number of one of `n` variants, in 4 bytes. Another number is no variant. -/
def tag (n : Nat) (h : n ≤ 2 ^ 32) : Codec (Fin n) :=
  (le 4).filterMap (fun i => BitVec.ofNat 32 i)
    (fun t => if ht : t.toNat < n then some ⟨t.toNat, ht⟩ else none) fun t i => by
      have hi : i.val < 2 ^ 32 := Nat.lt_of_lt_of_le i.isLt h
      constructor
      · intro hs
        split at hs
        · cases hs
          exact BitVec.ofNat_toNat _ _
        · cases hs
      · intro he
        have ht : t.toNat = i.val := by
          rw [← he]
          exact (BitVec.toNat_ofNat _ _).trans (Nat.mod_eq_of_lt hi)
        rw [dif_pos (ht ▸ i.isLt)]
        simp only [ht]

theorem fixed_tag (n : Nat) (h : n ≤ 2 ^ 32) : (tag n h).Fixed 4 := fun _ => fixed_le 4 _

/-! ## 5. Which byte strings are values -/

/-- The bytes are those of a value. -/
def Written (c : Codec α) (bytes : List UInt8) : Prop := ∃ a, c.encode a = bytes

/-- All strings of `n` bytes are values. -/
def Total (c : Codec α) (n : Nat) : Prop := ∀ bytes, bytes.length = n → c.Written bytes

theorem written_map {c : Codec α} {e : α ≃ β} {bytes : List UInt8} :
    (c.map e).Written bytes ↔ c.Written bytes := by
  constructor
  · rintro ⟨b, h⟩
    exact ⟨e.symm b, h⟩
  · rintro ⟨a, h⟩
    exact ⟨e a, by rw [encode_map, Equiv.symm_apply_apply, h]⟩

theorem total_raw (n : Nat) : (raw n).Total n := by
  intro bytes h
  exact ⟨⟨bytes.toArray, by simpa using h⟩, rfl⟩

theorem Total.map {c : Codec α} {n : Nat} (h : c.Total n) (e : α ≃ β) : (c.map e).Total n :=
  fun bytes hb => written_map.mpr (h bytes hb)

theorem total_le (n : Nat) : (le n).Total n := (total_raw n).map _

theorem written_sigma {γ : α → Type*} {c : Codec α} {d : ∀ a, Codec (γ a)} {n m : Nat}
    (hc : c.Fixed n) (hd : ∀ a, (d a).Total m) {bytes : List UInt8} (hb : bytes.length = n + m) :
    (c.sigma d).Written bytes ↔ c.Written (bytes.take n) := by
  constructor
  · rintro ⟨p, rfl⟩
    exact ⟨p.1, by rw [encode_sigma, List.take_left' (hc p.1)]⟩
  · rintro ⟨a, ha⟩
    have hdrop : (bytes.drop n).length = m := by
      rw [List.length_drop]
      omega
    obtain ⟨b, hb'⟩ := hd a _ hdrop
    exact ⟨⟨a, b⟩, by rw [encode_sigma, ha, hb', List.take_append_drop]⟩

theorem Total.pair {c : Codec α} {d : Codec β} {n m : Nat} (hf : c.Fixed n) (hc : c.Total n)
    (hd : d.Total m) : (c.pair d).Total (n + m) := by
  intro bytes hb
  have htake : (bytes.take n).length = n := by
    rw [List.length_take]
    omega
  exact written_map.mpr ((written_sigma hf (fun _ => hd) hb).mpr (hc _ htake))

theorem written_tag {n : Nat} {h : n ≤ 2 ^ 32} {bytes : List UInt8} (hb : bytes.length = 4) :
    (tag n h).Written bytes ↔ ofDigits bytes < n := by
  constructor
  · rintro ⟨i, rfl⟩
    show ofDigits (digits 4 (BitVec.ofNat 32 i).toNat) < n
    have hi : i.val < 2 ^ 32 := Nat.lt_of_lt_of_le i.isLt h
    rw [BitVec.toNat_ofNat, Nat.mod_eq_of_lt hi, ofDigits_digits (by omega)]
    exact i.isLt
  · intro hlt
    refine ⟨⟨ofDigits bytes, hlt⟩, ?_⟩
    show digits 4 (BitVec.ofNat 32 (ofDigits bytes)).toNat = bytes
    rw [BitVec.toNat_ofNat, Nat.mod_eq_of_lt (Nat.lt_of_lt_of_le hlt h), ← hb, digits_ofDigits]

end Codec

end Encoding
