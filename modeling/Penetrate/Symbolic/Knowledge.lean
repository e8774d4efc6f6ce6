/-
  File:      Penetrate/Symbolic/Knowledge.lean
  Subject:   STRINGS OF SYMBOLS, AND WHAT CAN BE BUILT FROM THEM. Names nothing of a particular
             program.

  A string is a list of symbols: a letter, a place of a nonce, a place of the hash of a string.
  Hashing is free and injective, and nonces are different from everything else. Who knows some
  symbols can join and cut strings of them and hash them, and nothing more: it has the symbol of a
  hash precisely when it has seen it or can build the string.

  * `Sym`, `digest`, `nonce` -- the symbols; `digest_inj`, `nonce_inj`, `append_block_inj`;
  * `Derives`, `Builds` -- what can be built; `derives_letter`, `derives_hashed`, `builds_digest`;
  * `Known` -- some letters, and what has been seen; membership and `Builds` are decided.
-/
import Mathlib.Data.Set.Basic
import Mathlib.Tactic.Common

namespace Symbolic

/-! ## 1. Symbols -/

inductive Sym (κ : Type*) where
  | letter (a : κ)
  /-- place `j` of nonce `n` -/
  | nonce (n j : Nat)
  /-- place `j` of the hash of `w` -/
  | hashed (w : List (Sym κ)) (j : Nat)

variable {κ : Type*}

mutual

/-- Equality of symbols, threaded through the strings that are hashed. -/
def Sym.decEq [DecidableEq κ] : (a b : Sym κ) → Decidable (a = b)
  | .letter a, .letter b => if h : a = b then .isTrue (by rw [h]) else .isFalse (by simp [h])
  | .nonce n i, .nonce m j =>
      if h : n = m ∧ i = j then .isTrue (by rw [h.1, h.2]) else .isFalse (by simpa using h)
  | .hashed v i, .hashed w j =>
      match Sym.decEqList v w with
      | .isTrue h => if hi : i = j then .isTrue (by rw [h, hi]) else .isFalse (by simp [hi])
      | .isFalse h => .isFalse (by simp [h])
  | .letter _, .nonce _ _ => .isFalse (by simp)
  | .letter _, .hashed _ _ => .isFalse (by simp)
  | .nonce _ _, .letter _ => .isFalse (by simp)
  | .nonce _ _, .hashed _ _ => .isFalse (by simp)
  | .hashed _ _, .letter _ => .isFalse (by simp)
  | .hashed _ _, .nonce _ _ => .isFalse (by simp)

def Sym.decEqList [DecidableEq κ] : (v w : List (Sym κ)) → Decidable (v = w)
  | [], [] => .isTrue rfl
  | [], _ :: _ => .isFalse (by simp)
  | _ :: _, [] => .isFalse (by simp)
  | a :: v, b :: w =>
      match Sym.decEq a b, Sym.decEqList v w with
      | .isTrue h, .isTrue h' => .isTrue (by rw [h, h'])
      | .isFalse h, _ => .isFalse (by simp [h])
      | _, .isFalse h' => .isFalse (by simp [h'])

end

instance [DecidableEq κ] : DecidableEq (Sym κ) := Sym.decEq

section Blocks

variable {N : Nat}

/-- The hash of a string: `N` symbols. -/
def digest (N : Nat) (w : List (Sym κ)) : Vector (Sym κ) N := Vector.ofFn fun j => .hashed w j

/-- The nonce with number `n`. -/
def nonce (N n : Nat) : Vector (Sym κ) N := Vector.ofFn fun j => .nonce n j

theorem mem_digest {w : List (Sym κ)} {a : Sym κ} :
    a ∈ (digest N w).toList ↔ ∃ j, j < N ∧ a = .hashed w j := by
  unfold digest
  rw [Vector.mem_toList_iff, Vector.mem_ofFn]
  constructor
  · rintro ⟨j, rfl⟩
    exact ⟨j, j.isLt, rfl⟩
  · rintro ⟨j, hj, rfl⟩
    exact ⟨⟨j, hj⟩, rfl⟩

theorem mem_nonce {n : Nat} {a : Sym κ} :
    a ∈ (nonce N n : Vector (Sym κ) N).toList ↔ ∃ j, j < N ∧ a = .nonce n j := by
  unfold nonce
  rw [Vector.mem_toList_iff, Vector.mem_ofFn]
  constructor
  · rintro ⟨j, rfl⟩
    exact ⟨j, j.isLt, rfl⟩
  · rintro ⟨j, hj, rfl⟩
    exact ⟨⟨j, hj⟩, rfl⟩

theorem digest_inj (hN : 0 < N) {v w : List (Sym κ)} : digest N v = digest N w ↔ v = w := by
  constructor
  · intro h
    have hmem : Sym.hashed v 0 ∈ (digest N w).toList := by
      rw [← h]
      exact mem_digest.mpr ⟨0, hN, rfl⟩
    obtain ⟨j, _, e⟩ := mem_digest.mp hmem
    exact (Sym.hashed.inj e).1
  · intro h
    rw [h]

theorem nonce_inj (hN : 0 < N) {n m : Nat} :
    (nonce N n : Vector (Sym κ) N) = nonce N m ↔ n = m := by
  constructor
  · intro h
    have hmem : Sym.nonce n 0 ∈ (nonce N m : Vector (Sym κ) N).toList := by
      rw [← h]
      exact mem_nonce.mpr ⟨0, hN, rfl⟩
    obtain ⟨j, _, e⟩ := mem_nonce.mp hmem
    exact (Sym.nonce.inj e).1
  · intro h
    rw [h]

/-- A string with a block of a fixed length behind it, whatever the length of the string. -/
theorem append_block_inj {β : Type*} {v w : List β} {x y : Vector β N} :
    v ++ x.toList = w ++ y.toList ↔ v = w ∧ x = y := by
  constructor
  · intro h
    have hlen : x.toList.length = y.toList.length := by simp
    obtain ⟨hv, hx⟩ := List.append_inj' h hlen
    exact ⟨hv, Vector.toList_inj.mp hx⟩
  · rintro ⟨rfl, rfl⟩
    rfl

end Blocks

/-! ## 2. Knowledge -/

/-- Who knows the symbols `K` has this symbol. -/
inductive Derives (K : Set (Sym κ)) : Sym κ → Prop where
  | known {a : Sym κ} (h : a ∈ K) : Derives K a
  | hash {w : List (Sym κ)} (j : Nat) (h : ∀ a ∈ w, Derives K a) : Derives K (.hashed w j)

/-- Who knows the symbols `K` can build this string. -/
def Builds (K : Set (Sym κ)) (w : List (Sym κ)) : Prop := ∀ a ∈ w, Derives K a

theorem Derives.mono {K L : Set (Sym κ)} (hKL : K ⊆ L) {a : Sym κ} (h : Derives K a) :
    Derives L a := by
  induction h with
  | known h => exact .known (hKL h)
  | hash j _ ih => exact .hash j ih

theorem Builds.mono {K L : Set (Sym κ)} (hKL : K ⊆ L) {w : List (Sym κ)} (h : Builds K w) :
    Builds L w := fun a ha => (h a ha).mono hKL

theorem builds_append {K : Set (Sym κ)} {v w : List (Sym κ)} :
    Builds K (v ++ w) ↔ Builds K v ∧ Builds K w := by
  unfold Builds
  simp only [List.mem_append, or_imp, forall_and]

/-- **A letter is not built.** -/
theorem derives_letter {K : Set (Sym κ)} {a : κ} : Derives K (.letter a) ↔ .letter a ∈ K := by
  constructor
  · intro h
    cases h with
    | known h => exact h
  · exact .known

/-- **A hash is seen, or its string is known.** -/
theorem derives_hashed {K : Set (Sym κ)} {w : List (Sym κ)} {j : Nat} :
    Derives K (.hashed w j) ↔ .hashed w j ∈ K ∨ Builds K w := by
  constructor
  · intro h
    cases h with
    | known h => exact Or.inl h
    | hash _ h => exact Or.inr h
  · rintro (h | h)
    · exact .known h
    · exact .hash j h

theorem derives_nonce {K : Set (Sym κ)} {n j : Nat} :
    Derives K (.nonce n j) ↔ .nonce n j ∈ K := by
  constructor
  · intro h
    cases h with
    | known h => exact h
  · exact .known

/-- Who has the hash of a string has seen a symbol of it, or knows the string. -/
theorem builds_digest {K : Set (Sym κ)} {N : Nat} (hN : 0 < N) {w : List (Sym κ)}
    (h : Builds K (digest N w).toList) : .hashed w 0 ∈ K ∨ Builds K w := by
  have h0 : Derives K (.hashed w 0) := h _ (mem_digest.mpr ⟨0, hN, rfl⟩)
  exact derives_hashed.mp h0

/-! ## 3. Knowledge of letters, and of what has been seen -/

/-- Some letters, and the symbols seen. -/
def Known (leaked : κ → Bool) (seen : List (Sym κ)) : Set (Sym κ) :=
  {a | a ∈ seen ∨ ∃ c, leaked c = true ∧ a = .letter c}

theorem known_mono {leaked : κ → Bool} {seen seen' : List (Sym κ)} (h : ∀ a ∈ seen, a ∈ seen') :
    Known leaked seen ⊆ Known leaked seen' := fun a ha => ha.imp_left (h a)

/-- A letter that is not leaked and has not been seen is in no string that is built. -/
theorem letter_mem_known {leaked : κ → Bool} {seen : List (Sym κ)} {c : κ} :
    .letter c ∈ Known leaked seen ↔ .letter c ∈ seen ∨ leaked c = true := by
  simp [Known]

section Decide

variable [DecidableEq κ]

instance (leaked : κ → Bool) (seen : List (Sym κ)) : DecidablePred (· ∈ Known leaked seen)
  | .letter _ => decidable_of_iff _ letter_mem_known.symm
  | .nonce n j => decidable_of_iff (.nonce n j ∈ seen) (by simp [Known])
  | .hashed w j => decidable_of_iff (.hashed w j ∈ seen) (by simp [Known])

variable (K : Set (Sym κ)) [DecidablePred (· ∈ K)]

mutual

def Derives.dec : (a : Sym κ) → Decidable (Derives K a)
  | .letter c => decidable_of_iff (.letter c ∈ K) derives_letter.symm
  | .nonce n j => decidable_of_iff (.nonce n j ∈ K) derives_nonce.symm
  | .hashed w j =>
      match Builds.dec w with
      | .isTrue h => .isTrue (derives_hashed.mpr (Or.inr h))
      | .isFalse h => decidable_of_iff (.hashed w j ∈ K) (by rw [derives_hashed, or_iff_left h])

def Builds.dec : (w : List (Sym κ)) → Decidable (Builds K w)
  | [] => .isTrue (by simp [Builds])
  | a :: w =>
      match Derives.dec a, Builds.dec w with
      | .isTrue h, .isTrue h' => .isTrue (List.forall_mem_cons.mpr ⟨h, h'⟩)
      | .isFalse h, _ => .isFalse (by simp [Builds, h])
      | _, .isFalse h' => .isFalse fun h => h' fun b hb => h b (List.mem_cons_of_mem _ hb)

end

instance : DecidablePred (Builds K) := Builds.dec K

end Decide

end Symbolic
