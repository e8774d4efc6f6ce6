/-
  File:      Penetrate/Memory/Heap.lean
  Subject:   A HEAP OF CELLS, WITH A LEDGER OF WHAT WAS ALLOCATED AND FREED. Names nothing of a
             particular program.

  An address may be given out again once its cell has been freed, so a cell is told apart by the
  number of its allocation. `read`, `write` and `free` of an address where nothing is allocated
  have no outcome (`none`): that is a dangling pointer, or a second `free`.

  * `Ledger` -- every allocation is live at one address, or has been freed once;
  * `Heap` -- the cells, and their ledger as a field;
  * `Allocator` -- where the next cell goes: any address that is not in use. `firstFit` is one;
  * `write_allocated`, `free_allocated`, `freeAll_allocated` -- what becomes of allocated cells;
  * `freed_once` -- **where nothing is allocated, every allocation has been freed exactly once**.
-/
import Mathlib.Data.Finset.Card
import Mathlib.Tactic.Common

namespace Memory

abbrev Address := Nat

/-! ## 1. The ledger -/

section Update

variable {β : Type*} {f : Address → Option β} {p q : Address} {x y : β}

theorem update_some_eq_some :
    Function.update f p (some y) q = some x ↔ (q = p ∧ x = y) ∨ (q ≠ p ∧ f q = some x) := by
  by_cases e : q = p
  · subst e
    rw [Function.update_self]
    simp [eq_comm]
  · rw [Function.update_of_ne e]
    simp [e]

theorem update_none_eq_some : Function.update f p none q = some x ↔ q ≠ p ∧ f q = some x := by
  by_cases e : q = p
  · subst e
    rw [Function.update_self]
    simp
  · rw [Function.update_of_ne e]
    simp [e]

end Update

/-- The allocations below `next` are live, each at one address, or `freed`, each once. -/
structure Ledger (live : Address → Option Nat) (next : Nat) (freed : List Nat) : Prop where
  bounded : ∀ p i, live p = some i → i < next
  apart : ∀ p q i, live p = some i → live q = some i → p = q
  once : freed.Nodup
  freed_iff : ∀ i, i ∈ freed ↔ i < next ∧ ∀ p, live p ≠ some i

section Ledger

variable {live : Address → Option Nat} {next : Nat} {freed : List Nat}

theorem Ledger.alloc (h : Ledger live next freed) {p : Address} (hp : live p = none) :
    Ledger (Function.update live p (some next)) (next + 1) freed where
  bounded q i hq := by
    rcases update_some_eq_some.mp hq with ⟨-, rfl⟩ | ⟨-, hq⟩
    · exact Nat.lt_succ_self _
    · exact Nat.lt_succ_of_lt (h.bounded q i hq)
  apart q r i hq hr := by
    -- the new number is no live one
    rcases update_some_eq_some.mp hq with ⟨eq, ei⟩ | ⟨-, hq'⟩ <;>
      rcases update_some_eq_some.mp hr with ⟨er, ei'⟩ | ⟨-, hr'⟩
    · rw [eq, er]
    · have hlt := h.bounded r i hr'
      omega
    · have hlt := h.bounded q i hq'
      omega
    · exact h.apart q r i hq' hr'
  once := h.once
  freed_iff i := by
    rw [h.freed_iff]
    constructor
    · intro ⟨hi, hno⟩
      refine ⟨Nat.lt_succ_of_lt hi, fun q hq => ?_⟩
      rcases update_some_eq_some.mp hq with ⟨-, rfl⟩ | ⟨-, hq⟩
      · exact Nat.lt_irrefl _ hi
      · exact hno q hq
    · intro ⟨hi, hno⟩
      have hne : i ≠ next := fun e => hno p (update_some_eq_some.mpr (Or.inl ⟨rfl, e⟩))
      refine ⟨by omega, fun q hq => hno q (update_some_eq_some.mpr (Or.inr ⟨fun e => ?_, hq⟩))⟩
      rw [e, hp] at hq
      cases hq

theorem Ledger.free (h : Ledger live next freed) {p : Address} {i : Nat} (hp : live p = some i) :
    Ledger (Function.update live p none) next (i :: freed) where
  bounded q j hq := h.bounded q j (update_none_eq_some.mp hq).2
  apart q r j hq hr := h.apart q r j (update_none_eq_some.mp hq).2 (update_none_eq_some.mp hr).2
  once := List.nodup_cons.mpr ⟨fun hm => ((h.freed_iff i).mp hm).2 p hp, h.once⟩
  freed_iff j := by
    rw [List.mem_cons, h.freed_iff]
    constructor
    · rintro (rfl | ⟨hj, hno⟩)
      · refine ⟨h.bounded p j hp, fun q hq => ?_⟩
        obtain ⟨hne, hq⟩ := update_none_eq_some.mp hq
        exact hne (h.apart q p j hq hp)
      · exact ⟨hj, fun q hq => hno q (update_none_eq_some.mp hq).2⟩
    · intro ⟨hj, hno⟩
      by_cases e : j = i
      · exact Or.inl e
      · refine Or.inr ⟨hj, fun q hq => hno q (update_none_eq_some.mpr ⟨fun e' => ?_, hq⟩)⟩
        rw [e', hp] at hq
        cases hq
        exact e rfl

end Ledger

/-! ## 2. Heaps -/

/-- An allocated cell, and the number of its allocation. -/
structure Cell (α : Type*) where
  id : Nat
  content : α

structure Heap (α : Type*) where
  cells : Address → Option (Cell α)
  /-- how many allocations there have been -/
  next : Nat
  /-- the allocations that have been freed, the latest first -/
  freed : List Nat
  ledger : Ledger (fun p => (cells p).map Cell.id) next freed

/-- Where the next cell goes: an address that is not in use. -/
structure Allocator (α : Type*) where
  pick : Heap α → Address
  fresh : ∀ h : Heap α, h.cells (pick h) = none

namespace Heap

variable {α : Type*}

def empty : Heap α where
  cells _ := none
  next := 0
  freed := []
  ledger := ⟨(fun _ _ h => by cases h), (fun _ _ _ h => by cases h), .nil, fun _ => by simp⟩

/-- Something is allocated at `p`. -/
def Allocated (h : Heap α) (p : Address) : Prop := ∃ c, h.cells p = some c

theorem map_update (cells : Address → Option (Cell α)) (p : Address) (c : Option (Cell α)) :
    (fun q => (Function.update cells p c q).map Cell.id) =
      Function.update (fun q => (cells q).map Cell.id) p (c.map Cell.id) := by
  funext q
  by_cases e : q = p
  · subst e
    rw [Function.update_self, Function.update_self]
  · rw [Function.update_of_ne e, Function.update_of_ne e]

def alloc (A : Allocator α) (h : Heap α) (x : α) : Address × Heap α :=
  (A.pick h, {
    cells := Function.update h.cells (A.pick h) (some ⟨h.next, x⟩)
    next := h.next + 1
    freed := h.freed
    ledger := by
      rw [map_update]
      exact h.ledger.alloc (by rw [A.fresh]; rfl) })

def read (h : Heap α) (p : Address) : Option α := (h.cells p).map Cell.content

def write (h : Heap α) (p : Address) (x : α) : Option (Heap α) :=
  match hp : h.cells p with
  | none => none
  | some c => some {
      cells := Function.update h.cells p (some ⟨c.id, x⟩)
      next := h.next
      freed := h.freed
      ledger := by
        have hid : (h.cells p).map Cell.id = some c.id := by rw [hp]; rfl
        rw [map_update, Option.map_some, ← hid, Function.update_eq_self]
        exact h.ledger }

/-- The content comes with the rest of the heap. -/
def free (h : Heap α) (p : Address) : Option (α × Heap α) :=
  match hp : h.cells p with
  | none => none
  | some c => some (c.content, {
      cells := Function.update h.cells p none
      next := h.next
      freed := c.id :: h.freed
      ledger := by
        rw [map_update]
        exact h.ledger.free (by rw [hp]; rfl) })

def freeAll : Heap α → List Address → Option (Heap α)
  | h, [] => some h
  | h, p :: ps => (h.free p).bind fun r => r.2.freeAll ps

/-! ## 3. What becomes of cells that are there -/

theorem read_allocated {h : Heap α} {p : Address} {c : Cell α} (hp : h.cells p = some c) :
    h.read p = some c.content := by
  unfold read
  rw [hp]
  rfl

theorem write_allocated {h : Heap α} {p : Address} {c : Cell α} (hp : h.cells p = some c) (x : α) :
    ∃ h', h.write p x = some h' ∧ h'.cells = Function.update h.cells p (some ⟨c.id, x⟩) ∧
      h'.next = h.next ∧ h'.freed = h.freed := by
  unfold write
  split
  · rename_i hn
    rw [hp] at hn
    cases hn
  · rename_i c' hc
    rw [hp] at hc
    cases hc
    exact ⟨_, rfl, rfl, rfl, rfl⟩

theorem free_allocated {h : Heap α} {p : Address} {c : Cell α} (hp : h.cells p = some c) :
    ∃ h', h.free p = some (c.content, h') ∧ h'.cells = Function.update h.cells p none ∧
      h'.next = h.next ∧ h'.freed = c.id :: h.freed := by
  unfold free
  split
  · rename_i hn
    rw [hp] at hn
    cases hn
  · rename_i c' hc
    rw [hp] at hc
    cases hc
    exact ⟨_, rfl, rfl, rfl, rfl⟩

/-- Cells freed one after the other, each once. -/
theorem freeAll_allocated {h : Heap α} {ps : List Address} (hn : ps.Nodup)
    (hps : ∀ p ∈ ps, h.Allocated p) :
    ∃ h', h.freeAll ps = some h' ∧ h'.next = h.next ∧
      ∀ p, h'.cells p = if p ∈ ps then none else h.cells p := by
  induction ps generalizing h with
  | nil => exact ⟨h, rfl, rfl, fun p => by simp⟩
  | cons p ps ih =>
      obtain ⟨hp, hn⟩ := List.nodup_cons.mp hn
      obtain ⟨c, hc⟩ := hps p List.mem_cons_self
      obtain ⟨h1, hfree, hcells, hnext, -⟩ := free_allocated hc
      have hother : ∀ q, q ≠ p → h1.cells q = h.cells q := fun q e => by
        rw [hcells, Function.update_of_ne e]
      have hps' : ∀ q ∈ ps, h1.Allocated q := by
        intro q hq
        unfold Allocated
        rw [hother q fun e => hp (e ▸ hq)]
        exact hps q (List.mem_cons_of_mem _ hq)
      obtain ⟨h', hall, hnext', hcells'⟩ := ih hn hps'
      refine ⟨h', by rw [freeAll, hfree]; exact hall, hnext'.trans hnext, fun q => ?_⟩
      rw [hcells']
      by_cases hq : q ∈ ps
      · rw [if_pos hq, if_pos (List.mem_cons_of_mem _ hq)]
      · by_cases e : q = p
        · rw [if_neg hq, if_pos (by rw [e]; exact List.mem_cons_self), e, hcells,
            Function.update_self]
        · rw [if_neg hq, if_neg (by simp [e, hq]), hother q e]

/-- **Where nothing is allocated, every allocation has been freed exactly once.** -/
theorem freed_once {h : Heap α} (hno : ∀ p, h.cells p = none) {i : Nat} (hi : i < h.next) :
    h.freed.count i = 1 := by
  refine List.count_eq_one_of_mem h.ledger.once ((h.ledger.freed_iff i).mpr ⟨hi, fun p => ?_⟩)
  rw [hno p]
  simp

/-! ## 4. An allocator -/

/-- Fewer than `next + 1` addresses are in use. -/
theorem exists_free (h : Heap α) : ∃ p ∈ List.range (h.next + 1), (h.cells p).isNone = true := by
  by_contra hno
  push Not at hno
  have hlive : ∀ p ∈ Finset.range (h.next + 1), ∃ i, (h.cells p).map Cell.id = some i := by
    intro p hp
    have hp' := hno p (List.mem_range.mpr (Finset.mem_range.mp hp))
    cases hc : h.cells p with
    | none =>
        rw [hc] at hp'
        exact absurd rfl hp'
    | some c => exact ⟨c.id, rfl⟩
  have hmaps : ∀ p ∈ Finset.range (h.next + 1),
      ((h.cells p).map Cell.id).getD 0 ∈ Finset.range h.next := by
    intro p hp
    obtain ⟨i, hi⟩ := hlive p hp
    rw [hi]
    exact Finset.mem_range.mpr (h.ledger.bounded p i hi)
  obtain ⟨p, hp, q, hq, hne, he⟩ :=
    Finset.exists_ne_map_eq_of_card_lt_of_maps_to (by simp) hmaps
  obtain ⟨i, hi⟩ := hlive p hp
  obtain ⟨j, hj⟩ := hlive q hq
  rw [hi, hj] at he
  cases (show i = j from he)
  exact hne (h.ledger.apart p q i hi hj)

end Heap

/-- The lowest address that is not in use; a freed address is used again at once. -/
def firstFit {α : Type*} : Allocator α where
  pick h := ((List.range (h.next + 1)).find? fun p => (h.cells p).isNone).getD 0
  fresh h := by
    obtain ⟨p, hp, hfree⟩ := h.exists_free
    cases hf : (List.range (h.next + 1)).find? fun p => (h.cells p).isNone with
    | none => exact absurd hfree (List.find?_eq_none.mp hf p hp)
    | some q =>
        have hq : (h.cells q).isNone = true := by simpa using List.find?_some hf
        exact Option.isNone_iff_eq_none.mp hq

end Memory
