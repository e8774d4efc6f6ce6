/-
  File:      Penetrate/RawMultiMap.lean
  Subject:   `MultiMap` IN MEMORY: raw pointers into boxed items, and who frees them.

  `insert` boxes the item and files a pointer to it, `RawItem`, in both maps; the keys of the maps,
  `Key`, point into the same box. A removal takes the box back, cleans the other map with the key
  that is still in it, and frees it at the end of its scope; `Drop` frees what the second map holds.
  The addresses the allocator picks, the hashes, and the layout of the two maps are left open
  (`Runtime`). An operation that would read or free what is not allocated has no outcome.

  * `RawMultiMap.insert`, `remove1`, … -- the operations; `rawMultiMap` -- their sequences;
  * `RawMultiMap.Effect` -- what an operation answers, and what it does to the cells;
  * `RawMultiMap.Inv` -- **the invariant**: both maps index the heap;
  * `apply_spec` -- every operation has an outcome, has that effect, and keeps the invariant;
  * `freed_exactly_once` -- **every cell is owned by one entry of each map, and freed once**;
  * `rawMultiMap_refines` -- the answers are those of `MultiMap`.
-/
import Penetrate.Concurrent.Machine
import Penetrate.Memory.Table
import Penetrate.MultiMapRefines

namespace Penetrate

open Concurrent Collections Memory

/-! ## 1. The operations -/

/-- What the standard library leaves open. -/
structure Runtime (K1 K2 V : Type*) where
  allocator : Allocator (K1 × K2 × V)
  layout1 : Layout K1
  layout2 : Layout K2

/-- The two maps, and the heap their items are in. -/
structure RawMultiMap (K1 K2 V : Type*) where
  map1 : List Slot
  map2 : List Slot
  heap : Heap (K1 × K2 × V)

/-- The operations of `MultiMap`, and the two that hand out a mutable reference to a value; `f` is
    what its holder does with it. -/
inductive RawOp (K1 K2 V : Type*) where
  | op (o : BiKeyedOp K1 K2 V)
  | get1_mut (k1 : K1) (f : V → V)
  | get2_mut (k2 : K2) (f : V → V)

namespace RawMultiMap

variable {K1 K2 V : Type*}

/-- What the keys of the maps point to. -/
def key1 (item : K1 × K2 × V) : K1 := item.1
def key2 (item : K1 × K2 × V) : K2 := item.2.1

def new : RawMultiMap K1 K2 V := ⟨[], [], .empty⟩

/-- `Drop`: the first map is cleared, the second one drained. What is left of the heap. -/
def drop (s : RawMultiMap K1 K2 V) : Option (Heap (K1 × K2 × V)) :=
  s.heap.freeAll (s.map2.map Slot.item)

section

variable {K : Type*} [DecidableEq K] (L : Layout K) (π : K1 × K2 × V → K)

/-- `get1` and `get2`: the value of the item that is found. -/
def getIn (t : List Slot) (h : Heap (K1 × K2 × V)) (k : K) : Option (Option V) :=
  (Table.find L π h k t).bind fun
    | none => some none
    | some e => (h.read e.item).map fun item => some item.2.2

/-- `get1_mut` and `get2_mut`, with what the reference is then used for. -/
def getMutIn (t : List Slot) (h : Heap (K1 × K2 × V)) (k : K) (f : V → V) :
    Option (Option V × Heap (K1 × K2 × V)) :=
  (Table.find L π h k t).bind fun
    | none => some (none, h)
    | some e => (h.read e.item).bind fun item =>
        (h.write e.item (item.1, item.2.1, f item.2.2)).map fun h => (some item.2.2, h)

/-- `remove1` and `remove2`: the box is back in hand while the other map is cleaned with the key
    in it, and goes at the end of the scope. -/
def removeIn {K' : Type*} [DecidableEq K'] (L' : Layout K') (π' : K1 × K2 × V → K')
    (t t' : List Slot) (h : Heap (K1 × K2 × V)) (k : K) :
    Option (Option V × List Slot × List Slot × Heap (K1 × K2 × V)) :=
  (Table.remove L π h k t).bind fun
    | (none, t) => some (none, t, t', h)
    | (some e, t) => (h.read e.item).bind fun item =>
        (Table.remove L' π' h (π' item) t').bind fun r =>
          (h.free e.item).map fun b => (some b.1.2.2, t, r.2, b.2)

end

variable [DecidableEq K1] [DecidableEq K2] (E : Runtime K1 K2 V) (s : RawMultiMap K1 K2 V)

def insert (k1 : K1) (k2 : K2) (v : V) :
    Option (Except (K1 × K2 × V) Unit × RawMultiMap K1 K2 V) :=
  (Table.contains E.layout1 key1 s.heap k1 s.map1).bind fun hit1 =>
    (if hit1 then some true else Table.contains E.layout2 key2 s.heap k2 s.map2).bind fun hit =>
      if hit then some (.error (k1, k2, v), s)
      else
        let b := s.heap.alloc E.allocator (k1, k2, v)
        (Table.insert E.layout1 key1 b.2 b.1 b.1 s.map1).bind fun map1 =>
          (Table.insert E.layout2 key2 b.2 b.1 b.1 s.map2).map fun map2 =>
            (.ok (), ⟨map1, map2, b.2⟩)

def get1 (k1 : K1) : Option (Option V) := getIn E.layout1 key1 s.map1 s.heap k1
def get2 (k2 : K2) : Option (Option V) := getIn E.layout2 key2 s.map2 s.heap k2

def get1_mut (k1 : K1) (f : V → V) : Option (Option V × RawMultiMap K1 K2 V) :=
  (getMutIn E.layout1 key1 s.map1 s.heap k1 f).map fun r => (r.1, { s with heap := r.2 })

def get2_mut (k2 : K2) (f : V → V) : Option (Option V × RawMultiMap K1 K2 V) :=
  (getMutIn E.layout2 key2 s.map2 s.heap k2 f).map fun r => (r.1, { s with heap := r.2 })

def remove1 (k1 : K1) : Option (Option V × RawMultiMap K1 K2 V) :=
  (removeIn E.layout1 key1 E.layout2 key2 s.map1 s.map2 s.heap k1).map fun (v, map1, map2, heap) =>
    (v, ⟨map1, map2, heap⟩)

def remove2 (k2 : K2) : Option (Option V × RawMultiMap K1 K2 V) :=
  (removeIn E.layout2 key2 E.layout1 key1 s.map2 s.map1 s.heap k2).map fun (v, map2, map1, heap) =>
    (v, ⟨map1, map2, heap⟩)

def apply : RawOp K1 K2 V → Option (BiKeyedAnswer K1 K2 V × RawMultiMap K1 K2 V)
  | .op (.insert k1 k2 v) => (s.insert E k1 k2 v).map fun r => (.inserted r.1, r.2)
  | .op (.get1 k1) => (s.get1 E k1).map fun v => (.value v, s)
  | .op (.get2 k2) => (s.get2 E k2).map fun v => (.value v, s)
  | .op (.remove1 k1) => (s.remove1 E k1).map fun r => (.value r.1, r.2)
  | .op (.remove2 k2) => (s.remove2 E k2).map fun r => (.value r.1, r.2)
  | .get1_mut k1 f => (s.get1_mut E k1 f).map fun r => (.value r.1, r.2)
  | .get2_mut k2 f => (s.get2_mut E k2 f).map fun r => (.value r.1, r.2)

end RawMultiMap

section

variable {K1 K2 V : Type*} [DecidableEq K1] [DecidableEq K2] (E : Runtime K1 K2 V)

/-- **Sequences of operations**, from `MultiMap::new`. -/
def rawMultiMap : Machine (RawMultiMap K1 K2 V) (RawOp K1 K2 V) where
  start s := s = .new
  step s a := (s.apply E a).map Prod.snd

end

namespace RawMultiMap

variable {K1 K2 V : Type*}

/-! ## 2. What the operations do to the cells -/

section Effect

variable (s s' : RawMultiMap K1 K2 V)

/-- Nothing has one of the keys, and the item gets a cell; or something has, and it is returned. -/
def Inserts (k1 : K1) (k2 : K2) (v : V) : Except (K1 × K2 × V) Unit → Prop
  | .error item => item = (k1, k2, v) ∧ s' = s ∧
      (Table.Present key1 s.heap k1 ∨ Table.Present key2 s.heap k2)
  | .ok () => ¬ Table.Present key1 s.heap k1 ∧ ¬ Table.Present key2 s.heap k2 ∧
      ∃ p, s.heap.cells p = none ∧
        s'.heap.cells = Function.update s.heap.cells p (some ⟨s.heap.next, (k1, k2, v)⟩) ∧
        s'.heap.next = s.heap.next + 1 ∧ s'.heap.freed = s.heap.freed

/-- Nothing has the key, and nothing happens; or a cell has, its value is the answer, and `eff`
    happens to it. -/
def Looks {K : Type*} (π : K1 × K2 × V → K) (k : K) (eff : Address → Cell (K1 × K2 × V) → Prop) :
    Option V → Prop
  | none => ¬ Table.Present π s.heap k ∧ s' = s
  | some v => ∃ p c, s.heap.cells p = some c ∧ π c.content = k ∧ c.content.2.2 = v ∧ eff p c

/-- The cell stays, with another value. -/
structure Rewrites (f : V → V) (p : Address) (c : Cell (K1 × K2 × V)) : Prop where
  cells : s'.heap.cells = Function.update s.heap.cells p
    (some ⟨c.id, c.content.1, c.content.2.1, f c.content.2.2⟩)
  next : s'.heap.next = s.heap.next
  freed : s'.heap.freed = s.heap.freed

/-- The cell is freed, and no other. -/
structure Releases (p : Address) (c : Cell (K1 × K2 × V)) : Prop where
  cells : s'.heap.cells = Function.update s.heap.cells p none
  next : s'.heap.next = s.heap.next
  freed : s'.heap.freed = c.id :: s.heap.freed

/-- **What an operation answers, and what it does to the cells**: a removal frees the cell whose
    value it returns, and nothing else frees a cell. -/
def Effect : RawOp K1 K2 V → BiKeyedAnswer K1 K2 V → Prop
  | .op (.insert k1 k2 v), .inserted r => s.Inserts s' k1 k2 v r
  | .op (.get1 k1), .value v => s.Looks s' key1 k1 (fun _ _ => s' = s) v
  | .op (.get2 k2), .value v => s.Looks s' key2 k2 (fun _ _ => s' = s) v
  | .op (.remove1 k1), .value v => s.Looks s' key1 k1 (s.Releases s') v
  | .op (.remove2 k2), .value v => s.Looks s' key2 k2 (s.Releases s') v
  | .get1_mut k1 f, .value v => s.Looks s' key1 k1 (s.Rewrites s' f) v
  | .get2_mut k2 f, .value v => s.Looks s' key2 k2 (s.Rewrites s' f) v
  | _, _ => False

end Effect

/-! ## 3. The invariant -/

/-- **Both maps index the heap**, by the first and by the second key. -/
structure Inv (E : Runtime K1 K2 V) (s : RawMultiMap K1 K2 V) : Prop where
  first : Table.Indexes E.layout1 key1 s.heap s.map1
  second : Table.Indexes E.layout2 key2 s.heap s.map2

variable {E : Runtime K1 K2 V} {s : RawMultiMap K1 K2 V}

theorem inv_new : Inv E (new : RawMultiMap K1 K2 V) :=
  ⟨Table.indexes_empty _ _, Table.indexes_empty _ _⟩

/-- The keys of a cell are not its value. -/
theorem Looks.rewritten {K : Type*} {π : K1 × K2 × V → K} {k : K} {f : V → V}
    {heap : Heap (K1 × K2 × V)} {v : Option V}
    (h : s.Looks { s with heap := heap } π k (s.Rewrites { s with heap := heap } f) v)
    (hI : s.Inv E) : Inv E { s with heap := heap } := by
  cases v with
  | none =>
      rw [h.2]
      exact hI
  | some v =>
      obtain ⟨p, c, hc, -, -, hw⟩ := h
      let x : K1 × K2 × V := (c.content.1, c.content.2.1, f c.content.2.2)
      exact ⟨hI.first.rewritten (x := x) hc rfl hw.cells,
        hI.second.rewritten (x := x) hc rfl hw.cells⟩

section

variable {K K' : Type*} [DecidableEq K] [DecidableEq K'] {L : Layout K} {L' : Layout K'}
  {π : K1 × K2 × V → K} {π' : K1 × K2 × V → K'} {t t' : List Slot}

theorem getIn_spec (hI : Table.Indexes L π s.heap t) (k : K) :
    ∃ v, getIn L π t s.heap k = some v ∧ s.Looks s π k (fun _ _ => s = s) v := by
  unfold getIn
  rcases hI.find k with ⟨hf, hno⟩ | ⟨e, c, hf, hc, hk⟩
  · rw [hf]
    exact ⟨none, rfl, hno, rfl⟩
  · rw [hf, Option.bind_some]
    dsimp only
    rw [Heap.read_allocated hc]
    exact ⟨some c.content.2.2, rfl, e.item, c, hc, hk, rfl, rfl⟩

theorem getMutIn_spec (hI : Table.Indexes L π s.heap t) (k : K) (f : V → V) :
    ∃ v heap, getMutIn L π t s.heap k f = some (v, heap) ∧
      s.Looks { s with heap := heap } π k (s.Rewrites { s with heap := heap } f) v := by
  unfold getMutIn
  rcases hI.find k with ⟨hf, hno⟩ | ⟨e, c, hf, hc, hk⟩
  · rw [hf]
    exact ⟨none, s.heap, rfl, hno, rfl⟩
  · obtain ⟨heap, hw, hcells, hnext, hfreed⟩ :=
      Heap.write_allocated hc (c.content.1, c.content.2.1, f c.content.2.2)
    rw [hf, Option.bind_some]
    dsimp only
    rw [Heap.read_allocated hc, Option.bind_some, hw]
    exact ⟨some c.content.2.2, heap, rfl, e.item, c, hc, hk, rfl, hcells, hnext, hfreed⟩

/-- **A removal frees the one cell with its key**, after both maps have let go of it. -/
theorem removeIn_spec {h : Heap (K1 × K2 × V)} (hI : Table.Indexes L π h t)
    (hI' : Table.Indexes L' π' h t') (k : K) :
    (removeIn L π L' π' t t' h k = some (none, t, t', h) ∧ ¬ Table.Present π h k) ∨
      ∃ p c u u' h', removeIn L π L' π' t t' h k = some (some c.content.2.2, u, u', h') ∧
        h.cells p = some c ∧ π c.content = k ∧ h'.cells = Function.update h.cells p none ∧
        h'.next = h.next ∧ h'.freed = c.id :: h.freed ∧
        Table.Indexes L π h' u ∧ Table.Indexes L' π' h' u' := by
  unfold removeIn
  rcases hI.removed k with ⟨hr, hno⟩ | ⟨e, u, c, hr, hc, hk, hu⟩
  · rw [hr]
    exact Or.inl ⟨rfl, hno⟩
  · obtain ⟨h', hfree, hcells, hnext, hfreed⟩ := Heap.free_allocated hc
    rw [hr, Option.bind_some]
    dsimp only
    rw [Heap.read_allocated hc, Option.bind_some]
    -- the partner map has the cell under the key read from the box
    rcases hI'.removed (π' c.content) with ⟨-, hno'⟩ | ⟨e', u', c', hr', hc', hk', hu'⟩
    · exact absurd ⟨e.item, c, hc, rfl⟩ hno'
    · have hsame : e'.item = e.item := hI'.distinct _ _ _ _ hc' hc hk'
      rw [hr', Option.bind_some, hfree]
      exact Or.inr ⟨e.item, c, u, u', h', rfl, hc, hk, hcells, hnext, hfreed, hu h' hcells,
        hu' h' (by rw [hsame]; exact hcells)⟩

end

/-! ## 4. Every operation has an outcome -/

variable [DecidableEq K1] [DecidableEq K2]

theorem insert_spec (hI : s.Inv E) (k1 : K1) (k2 : K2) (v : V) :
    ∃ r s', s.insert E k1 k2 v = some (r, s') ∧ s'.Inv E ∧ s.Inserts s' k1 k2 v r := by
  unfold insert
  rcases hI.first.contains k1 with ⟨hc1, hno1⟩ | ⟨hc1, hp1⟩
  · rcases hI.second.contains k2 with ⟨hc2, hno2⟩ | ⟨hc2, hp2⟩
    · have hp := E.allocator.fresh s.heap
      let c : Cell (K1 × K2 × V) := ⟨s.heap.next, (k1, k2, v)⟩
      have hcells : (s.heap.alloc E.allocator (k1, k2, v)).2.cells =
          Function.update s.heap.cells (E.allocator.pick s.heap) (some c) := rfl
      obtain ⟨map1, hi1, hI1⟩ := hI.first.inserted (c := c) hp hno1 hcells
      obtain ⟨map2, hi2, hI2⟩ := hI.second.inserted (c := c) hp hno2 hcells
      refine ⟨.ok (), ⟨map1, map2, (s.heap.alloc E.allocator (k1, k2, v)).2⟩, ?_, ⟨hI1, hI2⟩,
        hno1, hno2, _, hp, hcells, rfl, rfl⟩
      rw [hc1, Option.bind_some, if_neg Bool.false_ne_true, hc2, Option.bind_some,
        if_neg Bool.false_ne_true]
      dsimp only
      rw [show (s.heap.alloc E.allocator (k1, k2, v)).1 = E.allocator.pick s.heap from rfl, hi1,
        Option.bind_some, hi2]
      rfl
    · refine ⟨.error (k1, k2, v), s, ?_, hI, rfl, rfl, Or.inr hp2⟩
      rw [hc1, Option.bind_some, if_neg Bool.false_ne_true, hc2]
      rfl
  · refine ⟨.error (k1, k2, v), s, ?_, hI, rfl, rfl, Or.inl hp1⟩
    rw [hc1]
    rfl

/-- **Every operation has an outcome and keeps the invariant.** -/
theorem apply_spec (hI : s.Inv E) (a : RawOp K1 K2 V) :
    ∃ r s', s.apply E a = some (r, s') ∧ s'.Inv E ∧ s.Effect s' a r := by
  cases a with
  | op o =>
      cases o with
      | insert k1 k2 v =>
          obtain ⟨r, s', hs, hI', he⟩ := insert_spec hI k1 k2 v
          exact ⟨.inserted r, s', by rw [apply, hs]; rfl, hI', he⟩
      | get1 k1 =>
          obtain ⟨v, hg, hl⟩ := getIn_spec hI.first k1
          exact ⟨.value v, s, by rw [apply, get1, hg]; rfl, hI, hl⟩
      | get2 k2 =>
          obtain ⟨v, hg, hl⟩ := getIn_spec hI.second k2
          exact ⟨.value v, s, by rw [apply, get2, hg]; rfl, hI, hl⟩
      | remove1 k1 =>
          rcases removeIn_spec hI.first hI.second k1 with
            ⟨hr, hno⟩ | ⟨p, c, map1, map2, heap, hr, hc, hk, hcells, hnext, hfreed, h1, h2⟩
          · exact ⟨.value none, s, by rw [apply, remove1, hr]; rfl, hI, hno, rfl⟩
          · exact ⟨.value (some c.content.2.2), ⟨map1, map2, heap⟩,
              by rw [apply, remove1, hr]; rfl, ⟨h1, h2⟩, p, c, hc, hk, rfl, hcells, hnext, hfreed⟩
      | remove2 k2 =>
          rcases removeIn_spec hI.second hI.first k2 with
            ⟨hr, hno⟩ | ⟨p, c, map2, map1, heap, hr, hc, hk, hcells, hnext, hfreed, h2, h1⟩
          · exact ⟨.value none, s, by rw [apply, remove2, hr]; rfl, hI, hno, rfl⟩
          · exact ⟨.value (some c.content.2.2), ⟨map1, map2, heap⟩,
              by rw [apply, remove2, hr]; rfl, ⟨h1, h2⟩, p, c, hc, hk, rfl, hcells, hnext, hfreed⟩
  | get1_mut k1 f =>
      obtain ⟨v, heap, hg, hl⟩ := getMutIn_spec hI.first k1 f
      exact ⟨.value v, { s with heap := heap }, by rw [apply, get1_mut, hg]; rfl,
        hl.rewritten hI, hl⟩
  | get2_mut k2 f =>
      obtain ⟨v, heap, hg, hl⟩ := getMutIn_spec hI.second k2 f
      exact ⟨.value v, { s with heap := heap }, by rw [apply, get2_mut, hg]; rfl,
        hl.rewritten hI, hl⟩

/-! ## 5. Sequences of operations -/

/-- **Each map owns the allocated cells, each by one entry.** -/
structure OwnsOnce (s : RawMultiMap K1 K2 V) : Prop where
  first : Table.Owns s.heap s.map1
  second : Table.Owns s.heap s.map2

/-- The operation has an outcome, and the effect it should have. -/
def Settles (E : Runtime K1 K2 V) (s : RawMultiMap K1 K2 V) (a : RawOp K1 K2 V) : Prop :=
  ∃ r s', s.apply E a = some (r, s') ∧ s.Effect s' a r

theorem step_total (s : RawMultiMap K1 K2 V) (a : RawOp K1 K2 V) (hI : s.Inv E) :
    ∃ s', (rawMultiMap E).step s a = some s' ∧ s'.Inv E := by
  obtain ⟨r, s', hs, hI', -⟩ := apply_spec hI a
  exact ⟨s', congrArg (Option.map Prod.snd) hs, hI'⟩

theorem step_inv (s : RawMultiMap K1 K2 V) (a : RawOp K1 K2 V) (s' : RawMultiMap K1 K2 V)
    (hI : s.Inv E) (hs : (rawMultiMap E).step s a = some s') : s'.Inv E := by
  obtain ⟨t, ht, hI'⟩ := step_total s a hI
  rw [ht] at hs
  cases hs
  exact hI'

theorem start_inv (s : RawMultiMap K1 K2 V) (hs : (rawMultiMap E).start s) : s.Inv E := by
  rw [show s = .new from hs]
  exact inv_new

omit [DecidableEq K1] [DecidableEq K2] in
/-- **`Drop` frees what is left**: no cell stays allocated. -/
theorem drop_spec (hI : s.Inv E) :
    ∃ heap, s.drop = some heap ∧ heap.next = s.heap.next ∧ ∀ p, heap.cells p = none := by
  have hps : ∀ p ∈ s.map2.map Slot.item, s.heap.Allocated p := by
    intro p hp
    obtain ⟨e, he, rfl⟩ := List.mem_map.mp hp
    exact (hI.second.item_allocated he).2
  obtain ⟨heap, hd, hnext, hcells⟩ := Heap.freeAll_allocated hI.second.once hps
  refine ⟨heap, hd, hnext, fun p => ?_⟩
  rw [hcells]
  split
  · rfl
  · rename_i hp
    exact Option.eq_none_iff_forall_ne_some.mpr fun c hc => hp (hI.second.all p ⟨c, hc⟩)

/-- **Every item is owned once.** Whatever the operations, and wherever the allocator and the hash
    tables put things: no operation reads or frees what is not allocated; in every state each map
    owns every allocated cell by exactly one entry; a removal frees the cell whose value it returns,
    and nothing else frees one before `Drop`; after it nothing is allocated, and every allocation
    there was has been freed exactly once. -/
theorem freed_exactly_once (E : Runtime K1 K2 V) (ops : List (RawOp K1 K2 V)) :
    ∃ s, (rawMultiMap E).exec .new ops = some s ∧
      Machine.Throughout OwnsOnce ((rawMultiMap E).trace .new ops) s ∧
      Machine.Guarded (Settles E) ((rawMultiMap E).trace .new ops) ∧
      ∃ heap, s.drop = some heap ∧ (∀ p, heap.cells p = none) ∧
        ∀ i < s.heap.next, heap.freed.count i = 1 := by
  obtain ⟨s, hs, hI⟩ := Machine.exec_total step_total ops (inv_new (E := E))
  have r := Machine.run_trace (.start (M := rawMultiMap E) (s := .new) rfl) hs
  rw [List.append_nil] at r
  have hinv := r.throughout start_inv step_inv
  have howns : ∀ t : RawMultiMap K1 K2 V, t.Inv E → t.OwnsOnce :=
    fun t ht => ⟨ht.first.owns, ht.second.owns⟩
  obtain ⟨heap, hd, hnext, hno⟩ := drop_spec hI
  refine ⟨s, hs, ⟨howns s hinv.1, fun p hp => howns p.1 (hinv.2 p hp)⟩, fun p hp => ?_, heap, hd,
    hno, fun i hi => ?_⟩
  · obtain ⟨answer, s', ha, -, he⟩ := apply_spec (hinv.2 p hp) p.2
    exact ⟨answer, s', ha, he⟩
  · exact Heap.freed_once hno (by rw [hnext]; exact hi)

/-- Every key collides, and the last item goes where the first one was. -/
example : (((rawMultiMap ⟨firstFit, .scan fun _ => 0, .scan fun _ => 0⟩).exec .new
    [.op (.insert 1 10 true), .op (.insert 1 11 true), .op (.insert 2 12 false),
      .op (.remove1 (1 : Nat)), .op (.insert 3 10 true), .op (.remove2 (12 : Nat))]).bind
        fun s => s.drop.map fun heap => (s.map1.map Slot.item, heap.freed)) =
    some ([0], [2, 1, 0]) := by
  decide

/-! ## 6. The map of the items -/

/-- The item is in an allocated cell. -/
def Item (s : RawMultiMap K1 K2 V) (item : K1 × K2 × V) : Prop :=
  ∃ p c, s.heap.cells p = some c ∧ c.content = item

/-- Such an item has the key `k`, and the value `v`. -/
def Finds {K : Type*} (s : RawMultiMap K1 K2 V) (π : K1 × K2 × V → K) (k : K) (v : V) : Prop :=
  ∃ p c, s.heap.cells p = some c ∧ π c.content = k ∧ c.content.2.2 = v

/-- The allocated items are the entries of `m`. -/
def Mirrors (s : RawMultiMap K1 K2 V) (m : MultiMap K1 K2 V) : Prop :=
  ∀ k1 k2 v, s.Item (k1, k2, v) ↔ m.Entry k1 k2 v

variable {s' : RawMultiMap K1 K2 V} {m : MultiMap K1 K2 V}

/-- An allocated item is an entry. -/
theorem Mirrors.entry (hm : s.Mirrors m) {p : Address} {c : Cell (K1 × K2 × V)}
    (hc : s.heap.cells p = some c) : m.Entry c.content.1 c.content.2.1 c.content.2.2 :=
  (hm _ _ _).mp ⟨p, c, hc, rfl⟩

theorem Mirrors.get1 (hm : s.Mirrors m) {k1 : K1} (v : V) :
    m.get1 k1 = some v ↔ s.Finds key1 k1 v := by
  rw [MultiMap.get1_eq_some]
  constructor
  · rintro ⟨k2, he⟩
    obtain ⟨p, c, hc, hi⟩ := (hm _ _ _).mpr he
    exact ⟨p, c, hc, congrArg key1 hi, by rw [hi]⟩
  · rintro ⟨p, c, hc, rfl, rfl⟩
    exact ⟨_, hm.entry hc⟩

theorem Mirrors.get2 (hm : s.Mirrors m) {k2 : K2} (v : V) :
    m.get2 k2 = some v ↔ s.Finds key2 k2 v := by
  rw [MultiMap.get2_eq_some]
  constructor
  · rintro ⟨k1, he⟩
    obtain ⟨p, c, hc, hi⟩ := (hm _ _ _).mpr he
    exact ⟨p, c, hc, congrArg key2 hi, by rw [hi]⟩
  · rintro ⟨p, c, hc, rfl, rfl⟩
    exact ⟨_, hm.entry hc⟩

section

variable {K : Type*} {π : K1 × K2 × V → K} {k : K} {v : Option V}

omit [DecidableEq K1] [DecidableEq K2]

/-- Where `g` is what can be found under a key, it is nothing where nothing has the key. -/
theorem absent_iff {g : Option V} (hg : ∀ v, g = some v ↔ s.Finds π k v) :
    g = none ↔ ¬ Table.Present π s.heap k := by
  rw [Option.eq_none_iff_forall_ne_some]
  constructor
  · rintro hn ⟨p, c, hc, hk⟩
    exact hn _ ((hg _).mpr ⟨p, c, hc, hk, rfl⟩)
  · intro hno v hv
    obtain ⟨p, c, hc, hk, -⟩ := (hg v).mp hv
    exact hno ⟨p, c, hc, hk⟩

/-- A lookup answers what can be found. -/
theorem Looks.answer {g : Option V} (hg : ∀ v, g = some v ↔ s.Finds π k v)
    {eff : Address → Cell (K1 × K2 × V) → Prop} (h : s.Looks s' π k eff v) : v = g := by
  cases v with
  | none => exact ((absent_iff hg).mpr h.1).symm
  | some v =>
      obtain ⟨p, c, hc, hk, hv, -⟩ := h
      exact ((hg v).mpr ⟨p, c, hc, hk, hv⟩).symm

theorem Looks.same (h : s.Looks s' π k (fun _ _ => s' = s) v) : s' = s := by
  cases v with
  | none => exact h.2
  | some v =>
      obtain ⟨p, c, -, -, -, hs⟩ := h
      exact hs

/-- What is left after a removal, where no two cells have one key. -/
theorem Looks.removed (hd : ∀ p q c d, s.heap.cells p = some c → s.heap.cells q = some d →
      π c.content = π d.content → p = q)
    (h : s.Looks s' π k (s.Releases s') v) (item : K1 × K2 × V) :
    s'.Item item ↔ π item ≠ k ∧ s.Item item := by
  cases v with
  | none =>
      rw [h.2]
      refine ⟨fun hi => ⟨?_, hi⟩, And.right⟩
      rintro rfl
      obtain ⟨p, c, hc, rfl⟩ := hi
      exact h.1 ⟨p, c, hc, rfl⟩
  | some v =>
      obtain ⟨p, c, hc, rfl, -, hr⟩ := h
      unfold Item
      rw [hr.cells]
      constructor
      · rintro ⟨q, d, hq, rfl⟩
        obtain ⟨hne, hq⟩ := update_none_eq_some.mp hq
        exact ⟨fun hk => hne (hd _ _ _ _ hq hc hk), q, d, hq, rfl⟩
      · rintro ⟨hne, q, d, hq, rfl⟩
        refine ⟨q, d, update_none_eq_some.mpr ⟨?_, hq⟩, rfl⟩
        rintro rfl
        rw [hc] at hq
        cases hq
        exact hne rfl

/-- What is there after an insertion. -/
theorem Inserts.items {k1 : K1} {k2 : K2} {v : V} (h : s.Inserts s' k1 k2 v (.ok ()))
    (item : K1 × K2 × V) : s'.Item item ↔ item = (k1, k2, v) ∨ s.Item item := by
  obtain ⟨-, -, p, hp, hcells, -, -⟩ := h
  unfold Item
  rw [hcells]
  constructor
  · rintro ⟨q, d, hq, rfl⟩
    rcases update_some_eq_some.mp hq with ⟨-, rfl⟩ | ⟨-, hq⟩
    · exact Or.inl rfl
    · exact Or.inr ⟨q, d, hq, rfl⟩
  · rintro (rfl | ⟨q, d, hq, rfl⟩)
    · exact ⟨p, _, update_some_eq_some.mpr (Or.inl ⟨rfl, rfl⟩), rfl⟩
    · refine ⟨q, d, update_some_eq_some.mpr (Or.inr ⟨?_, hq⟩), rfl⟩
      rintro rfl
      rw [hp] at hq
      cases hq

end

theorem Mirrors.vacant (hm : s.Mirrors m) {k1 : K1} {k2 : K2} : m.Vacant k1 k2 ↔
    ¬ Table.Present key1 s.heap k1 ∧ ¬ Table.Present key2 s.heap k2 :=
  and_congr (absent_iff hm.get1) (absent_iff hm.get2)

theorem Inserts.mirrors (hm : s.Mirrors m) {k1 : K1} {k2 : K2} {v : V}
    {r : Except (K1 × K2 × V) Unit} (h : s.Inserts s' k1 k2 v r) :
    .inserted r = (MultiMap.component.apply m (.insert k1 k2 v)).1 ∧
      s'.Mirrors (MultiMap.component.apply m (.insert k1 k2 v)).2 := by
  simp only [MultiMap.component]
  rcases MultiMap.insert_cases m k1 k2 v with ⟨hi, hn⟩ | ⟨m', hi, hn, he⟩
  · rw [hi]
    cases r with
    | error item =>
        obtain ⟨rfl, rfl, -⟩ := h
        exact ⟨rfl, hm⟩
    | ok u => exact absurd (hm.vacant.mpr ⟨h.1, h.2.1⟩) hn
  · rw [hi]
    obtain ⟨hno1, hno2⟩ := hm.vacant.mp hn
    cases r with
    | error item =>
        obtain ⟨-, -, hp | hp⟩ := h
        · exact absurd hp hno1
        · exact absurd hp hno2
    | ok u =>
        refine ⟨rfl, fun a b w => ?_⟩
        rw [Inserts.items h, he, hm]

/-- **An operation answers as `MultiMap` does, and its items stay those of the map.** -/
theorem Effect.mirrors (hI : s.Inv E) (hm : s.Mirrors m) {o : BiKeyedOp K1 K2 V}
    {r : BiKeyedAnswer K1 K2 V} (h : s.Effect s' (.op o) r) :
    r = (MultiMap.component.apply m o).1 ∧ s'.Mirrors (MultiMap.component.apply m o).2 := by
  cases o with
  | insert k1 k2 v =>
      cases r with
      | value v => exact False.elim h
      | inserted r => exact Inserts.mirrors hm h
  | get1 k1 =>
      cases r with
      | inserted r => exact False.elim h
      | value v =>
          have hs : s' = s := Looks.same h
          exact ⟨congrArg _ (Looks.answer hm.get1 h), by rw [hs]; exact hm⟩
  | get2 k2 =>
      cases r with
      | inserted r => exact False.elim h
      | value v =>
          have hs : s' = s := Looks.same h
          exact ⟨congrArg _ (Looks.answer hm.get2 h), by rw [hs]; exact hm⟩
  | remove1 k1 =>
      cases r with
      | inserted r => exact False.elim h
      | value v =>
          refine ⟨congrArg _ ((Looks.answer hm.get1 h).trans (m.remove1_fst_eq k1).symm),
            fun a b w => ?_⟩
          rw [Looks.removed hI.first.distinct h, hm]
          exact MultiMap.entry_remove1.symm
  | remove2 k2 =>
      cases r with
      | inserted r => exact False.elim h
      | value v =>
          refine ⟨congrArg _ ((Looks.answer hm.get2 h).trans (m.remove2_fst_eq k2).symm),
            fun a b w => ?_⟩
          rw [Looks.removed hI.second.distinct h, hm]
          exact MultiMap.entry_remove2.symm

/-- What an operation answers, where it has an outcome. -/
def answer (E : Runtime K1 K2 V) (s : RawMultiMap K1 K2 V) (a : RawOp K1 K2 V) :
    Option (BiKeyedAnswer K1 K2 V) :=
  (s.apply E a).map Prod.fst

theorem mirrors_runFrom (hI : s.Inv E) (hm : s.Mirrors m) (ops : List (BiKeyedOp K1 K2 V)) :
    ∃ s', (rawMultiMap E).exec s (ops.map .op) = some s' ∧
      Machine.history (answer E) ((rawMultiMap E).trace s (ops.map .op)) =
        (MultiMap.component.runFrom m ops).1 ∧
      s'.Mirrors (MultiMap.component.runFrom m ops).2 := by
  induction ops generalizing s m with
  | nil => exact ⟨s, rfl, rfl, hm⟩
  | cons o ops ih =>
      obtain ⟨r, t, ha, hI', he⟩ := apply_spec hI (.op o)
      obtain ⟨hr, hm'⟩ := Effect.mirrors hI hm he
      obtain ⟨s', hs, hans, hm''⟩ := ih hI' hm'
      have hstep : (rawMultiMap E).step s (.op o) = some t := congrArg (Option.map Prod.snd) ha
      refine ⟨s', by rw [List.map_cons, Machine.exec, hstep]; exact hs, ?_, hm''⟩
      have hanswer : answer E s (.op o) = some r := congrArg (Option.map Prod.fst) ha
      rw [List.map_cons, Machine.trace, hstep]
      dsimp only
      rw [Machine.history_append, Machine.history_cons, hanswer, hans, hr]
      rfl

/-- **The map in memory refines `MultiMap`**: on every sequence of operations it has an outcome,
    the answers are those of `MultiMap`, and the items in its cells are the entries. -/
theorem rawMultiMap_refines (E : Runtime K1 K2 V) (ops : List (BiKeyedOp K1 K2 V)) :
    ∃ s, (rawMultiMap E).exec .new (ops.map .op) = some s ∧
      Machine.history (answer E) ((rawMultiMap E).trace .new (ops.map .op)) =
        (MultiMap.component.run ops).1 ∧
      s.Mirrors (MultiMap.component.run ops).2 := by
  have hm : (new : RawMultiMap K1 K2 V).Mirrors .new := by
    intro k1 k2 v
    refine iff_of_false ?_ (MultiMap.not_entry_new k1 k2 v)
    rintro ⟨p, c, hc, -⟩
    cases hc
  exact mirrors_runFrom inv_new hm ops

end RawMultiMap

end Penetrate
