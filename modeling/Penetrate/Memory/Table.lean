/-
  File:      Penetrate/Memory/Table.lean
  Subject:   HASH TABLES WHOSE KEYS LIE BEHIND POINTERS. Names nothing of a particular program.

  A slot has the hash its key was filed under, a pointer to the cell the key is part of, and the
  pointer it was filed with. To hash or to compare a stored key is to read its cell: where that is
  not allocated the operation has no outcome.

  * `Layout` -- what a table leaves open: the hash, which keys a lookup compares and in what order,
    when the table grows, where a new slot goes;
  * `Table.find`, `Table.remove`, `Table.insert` -- the operations, over a heap;
  * `Sound` -- every slot points to a cell with its key; the operations then have an outcome
    (`find_sound`, `rehash_sound`, `insert_sound`);
  * `Indexes` -- **every allocated cell is in exactly one slot, under its key** (`Indexes.owns`);
    `Indexes.removed` and `Indexes.inserted` keep it while a cell is freed or allocated.
-/
import Penetrate.Memory.Heap

namespace Memory

/-- A slot; `key` is the cell its key is part of. -/
structure Slot where
  tag : UInt64
  key : Address
  item : Address
  deriving DecidableEq

/-- What a hash table leaves open. The layout of a table depends on its past: the number is that of
    the allocations there have been. -/
structure Layout (K : Type*) where
  hash : K → UInt64
  /-- the slots whose keys are compared with one of that hash -/
  probe : Nat → UInt64 → List Slot → List Slot
  probe_subset : ∀ n x t, probe n x t ⊆ t
  probe_all : ∀ n t, ∀ e ∈ t, e ∈ probe n e.tag t
  /-- whether it makes room, and hashes every key again, before an insertion -/
  grows : Nat → List Slot → Bool
  place : Nat → Slot → List Slot → List Slot
  perm : ∀ n e t, (place n e t).Perm (e :: t)

/-- Compare what has the hash, hash everything at every insertion, put a new slot first. -/
def Layout.scan {K : Type*} (hash : K → UInt64) : Layout K where
  hash := hash
  probe _ x t := t.filter fun e => e.tag = x
  probe_subset _ _ _ := List.filter_subset_self _
  probe_all _ _ _ he := List.mem_filter.mpr ⟨he, decide_eq_true rfl⟩
  grows _ _ := true
  place _ e t := e :: t
  perm _ _ _ := .refl _

namespace Table

variable {α K : Type*} (L : Layout K) (π : α → K) (h : Heap α)

/-! ## 1. Operations -/

section Operations

variable [DecidableEq K]

/-- The first slot with the key `k`; every key before it is read. -/
def findIn (k : K) : List Slot → Option (Option Slot)
  | [] => some none
  | e :: t => (h.read e.key).bind fun x => if π x = k then some (some e) else findIn k t

def find (k : K) (t : List Slot) : Option (Option Slot) :=
  findIn π h k (L.probe h.next (L.hash k) t)

def contains (k : K) (t : List Slot) : Option Bool := (find L π h k t).map Option.isSome

def remove (k : K) (t : List Slot) : Option (Option Slot × List Slot) :=
  (find L π h k t).map fun
    | none => (none, t)
    | some e => (some e, t.erase e)

def rehash : List Slot → Option (List Slot)
  | [] => some []
  | e :: t => (h.read e.key).bind fun x =>
      (rehash t).map fun t => { e with tag := L.hash (π x) } :: t

/-- A key that is present stays where it is and gets the new pointer. -/
def insert (key item : Address) (t : List Slot) : Option (List Slot) :=
  (h.read key).bind fun x =>
    (if L.grows h.next t then rehash L π h t else some t).bind fun t =>
      (find L π h (π x) t).map fun
        | some e => t.replace e { e with item := item }
        | none => L.place h.next ⟨L.hash (π x), key, item⟩ t

end Operations

/-! ## 2. Sound slots -/

/-- The slot is filed with the cell of its key, and that cell is there, with the key `k`. -/
def HasKey (e : Slot) (k : K) : Prop :=
  e.key = e.item ∧ e.tag = L.hash k ∧ ∃ c, h.cells e.item = some c ∧ π c.content = k

def Sound (t : List Slot) : Prop := ∀ e ∈ t, ∃ k, HasKey L π h e k

variable {L π h} {e : Slot} {k k' : K} {t : List Slot}

theorem HasKey.unique (hk : HasKey L π h e k) (hk' : HasKey L π h e k') : k = k' := by
  obtain ⟨-, -, c, hc, rfl⟩ := hk
  obtain ⟨-, -, d, hd, rfl⟩ := hk'
  rw [hc] at hd
  cases hd
  rfl

theorem HasKey.read (hk : HasKey L π h e k) : ∃ x, h.read e.key = some x ∧ π x = k := by
  obtain ⟨he, -, c, hc, rfl⟩ := hk
  exact ⟨c.content, by rw [he]; exact Heap.read_allocated hc, rfl⟩

theorem Sound.tail (ht : Sound L π h (e :: t)) : Sound L π h t :=
  fun e' he => ht e' (List.mem_cons_of_mem _ he)

/-- Slots stay sound while the cells they point to stay as they are. -/
theorem Sound.mono (ht : Sound L π h t) {h' : Heap α}
    (hcells : ∀ e ∈ t, ∀ c, h.cells e.item = some c → h'.cells e.item = some c) :
    Sound L π h' t := by
  intro e he
  obtain ⟨k, hkey, htag, c, hc, hk⟩ := ht e he
  exact ⟨k, hkey, htag, c, hcells e he c hc, hk⟩

/-- The hashes are those the slots have. -/
theorem rehash_sound (ht : Sound L π h t) : rehash L π h t = some t := by
  induction t with
  | nil => rfl
  | cons e t ih =>
      obtain ⟨k, hk⟩ := ht e List.mem_cons_self
      obtain ⟨x, hx, rfl⟩ := hk.read
      rw [rehash, hx, Option.bind_some, ih ht.tail, ← hk.2.1]
      rfl

/-! ## 3. Tables that index a heap -/

/-- **Every allocated cell is in exactly one slot, under its key**, and keys are told apart. -/
structure Indexes (L : Layout K) (π : α → K) (h : Heap α) (t : List Slot) : Prop where
  sound : Sound L π h t
  once : (t.map Slot.item).Nodup
  all : ∀ p, h.Allocated p → p ∈ t.map Slot.item
  distinct : ∀ p q c d, h.cells p = some c → h.cells q = some d → π c.content = π d.content → p = q

/-- Some allocated cell has the key `k`. -/
def Present (π : α → K) (h : Heap α) (k : K) : Prop := ∃ p c, h.cells p = some c ∧ π c.content = k

/-- **The slots own the cells**: a slot's key is in the cell it was filed with, which is allocated,
    and every allocated cell is that of exactly one slot. -/
structure Owns (h : Heap α) (t : List Slot) : Prop where
  points : ∀ e ∈ t, e.key = e.item ∧ h.Allocated e.item
  once : ∀ p, h.Allocated p → t.countP (fun e => e.key = p || e.item = p) = 1

theorem indexes_empty (L : Layout K) (π : α → K) : Indexes L π .empty [] where
  sound e he := by cases he
  once := .nil
  all p hp := by
    obtain ⟨c, hc⟩ := hp
    cases hc
  distinct p q c d hc := by cases hc

theorem Indexes.item_allocated (hI : Indexes L π h t) (he : e ∈ t) :
    e.key = e.item ∧ h.Allocated e.item := by
  obtain ⟨k, hk, -, c, hc, -⟩ := hI.sound e he
  exact ⟨hk, c, hc⟩

theorem Indexes.owns (hI : Indexes L π h t) : Owns h t where
  points _ he := hI.item_allocated he
  once p hp := by
    have hcount : (t.map Slot.item).count p = 1 := List.count_eq_one_of_mem hI.once (hI.all p hp)
    rw [List.count_eq_countP, List.countP_map] at hcount
    rw [← hcount]
    refine List.countP_congr fun e he => ?_
    rw [(hI.item_allocated he).1]
    simp

/-- No slot has the key of no cell. -/
theorem Indexes.absent (hI : Indexes L π h t) (hno : ∀ e ∈ t, ¬ HasKey L π h e k) :
    ¬ Present π h k := by
  rintro ⟨p, c, hc, hk⟩
  obtain ⟨e, he, rfl⟩ := List.mem_map.mp (hI.all p ⟨c, hc⟩)
  obtain ⟨k', hk'⟩ := hI.sound e he
  obtain ⟨-, -, d, hd, hkd⟩ := id hk'
  rw [hc] at hd
  cases hd
  have hkk : k' = k := hkd.symm.trans hk
  exact hno e he (hkk ▸ hk')

/-- A slot goes, and then its cell. -/
theorem Indexes.erased (hI : Indexes L π h t) {t' : List Slot} (hperm : t.Perm (e :: t'))
    {h' : Heap α} (hcells : h'.cells = Function.update h.cells e.item none) :
    Indexes L π h' t' := by
  have hnd : ((e :: t').map Slot.item).Nodup := (hperm.map Slot.item).nodup_iff.mp hI.once
  rw [List.map_cons, List.nodup_cons] at hnd
  refine ⟨fun e' he' => ?_, hnd.2, fun p hp => ?_, fun p q c d hc hd => ?_⟩
  · have hmem : e' ∈ t := hperm.mem_iff.mpr (List.mem_cons_of_mem _ he')
    obtain ⟨k, hkey, htag, c, hc, hk⟩ := hI.sound e' hmem
    have hne : e'.item ≠ e.item := fun he => hnd.1 (he ▸ List.mem_map_of_mem he')
    exact ⟨k, hkey, htag, c, by rw [hcells, Function.update_of_ne hne]; exact hc, hk⟩
  · obtain ⟨c, hc⟩ := hp
    rw [hcells] at hc
    obtain ⟨hne, hc⟩ := update_none_eq_some.mp hc
    have hm : p ∈ (e :: t').map Slot.item := (hperm.map Slot.item).mem_iff.mp (hI.all p ⟨c, hc⟩)
    rw [List.map_cons, List.mem_cons] at hm
    exact hm.resolve_left hne
  · rw [hcells] at hc hd
    exact hI.distinct p q c d (update_none_eq_some.mp hc).2 (update_none_eq_some.mp hd).2

/-- An allocation leaves the cells there are as they are. -/
theorem cells_kept {p q : Address} {c d : Cell α} (hp : h.cells p = none) {h' : Heap α}
    (hcells : h'.cells = Function.update h.cells p (some c)) (hd : h.cells q = some d) :
    h'.cells q = some d := by
  have hne : q ≠ p := by
    rintro rfl
    rw [hp] at hd
    cases hd
  rw [hcells, Function.update_of_ne hne]
  exact hd

/-- A cell comes, and then its slot. -/
theorem Indexes.placed (hI : Indexes L π h t) {p : Address} {c : Cell α} (hp : h.cells p = none)
    (hno : ¬ Present π h (π c.content)) {h' : Heap α}
    (hcells : h'.cells = Function.update h.cells p (some c)) {t' : List Slot}
    (hperm : t'.Perm (⟨L.hash (π c.content), p, p⟩ :: t)) : Indexes L π h' t' := by
  have hfresh : p ∉ t.map Slot.item := by
    intro hm
    obtain ⟨e, he, rfl⟩ := List.mem_map.mp hm
    obtain ⟨-, d, hd⟩ := hI.item_allocated he
    rw [hp] at hd
    cases hd
  refine ⟨fun e he => ?_, ?_, fun q hq => ?_, fun q r d d' hd hd' hk => ?_⟩
  · rcases List.mem_cons.mp (hperm.mem_iff.mp he) with rfl | he
    · exact ⟨_, rfl, rfl, c, by rw [hcells, Function.update_self], rfl⟩
    · exact hI.sound.mono (fun e _ d hd => cells_kept hp hcells hd) e he
  · rw [(hperm.map Slot.item).nodup_iff, List.map_cons, List.nodup_cons]
    exact ⟨hfresh, hI.once⟩
  · obtain ⟨d, hd⟩ := hq
    rw [(hperm.map Slot.item).mem_iff, List.map_cons, List.mem_cons]
    rw [hcells] at hd
    rcases update_some_eq_some.mp hd with ⟨e, -⟩ | ⟨-, hd⟩
    · exact Or.inl e
    · exact Or.inr (hI.all q ⟨d, hd⟩)
  · -- the new cell has a key of its own
    rw [hcells] at hd hd'
    rcases update_some_eq_some.mp hd with ⟨eq, ec⟩ | ⟨-, ho⟩ <;>
      rcases update_some_eq_some.mp hd' with ⟨er, ec'⟩ | ⟨-, ho'⟩
    · rw [eq, er]
    · rw [ec] at hk
      exact absurd ⟨r, d', ho', hk.symm⟩ hno
    · rw [ec'] at hk
      exact absurd ⟨q, d, ho, hk⟩ hno
    · exact hI.distinct q r d d' ho ho' hk

/-- Another content with the same key changes nothing. -/
theorem Indexes.rewritten (hI : Indexes L π h t) {p : Address} {c : Cell α} {x : α}
    (hp : h.cells p = some c) (hx : π x = π c.content) {h' : Heap α}
    (hcells : h'.cells = Function.update h.cells p (some ⟨c.id, x⟩)) : Indexes L π h' t := by
  -- every cell of the new heap has the key it had
  have hback : ∀ q d, h'.cells q = some d →
      ∃ d0, h.cells q = some d0 ∧ π d0.content = π d.content := by
    intro q d hd
    rw [hcells] at hd
    rcases update_some_eq_some.mp hd with ⟨rfl, rfl⟩ | ⟨-, hd⟩
    · exact ⟨c, hp, hx.symm⟩
    · exact ⟨d, hd, rfl⟩
  refine ⟨fun e he => ?_, hI.once, fun q hq => ?_, fun q r d d' hd hd' hk => ?_⟩
  · obtain ⟨k, hkey, htag, d, hd, hk⟩ := hI.sound e he
    by_cases heq : e.item = p
    · rw [heq, hp] at hd
      cases hd
      exact ⟨k, hkey, htag, _, by rw [hcells, heq, Function.update_self], hx.trans hk⟩
    · exact ⟨k, hkey, htag, d, by rw [hcells, Function.update_of_ne heq]; exact hd, hk⟩
  · obtain ⟨d, hd⟩ := hq
    obtain ⟨d0, hd0, -⟩ := hback q d hd
    exact hI.all q ⟨d0, hd0⟩
  · obtain ⟨d0, hd0, hk0⟩ := hback q d hd
    obtain ⟨d1, hd1, hk1⟩ := hback r d' hd'
    exact hI.distinct q r d0 d1 hd0 hd1 (hk0.trans (hk.trans hk1.symm))

/-! ## 4. What the operations do -/

variable [DecidableEq K]

theorem findIn_sound (ht : Sound L π h t) (k : K) :
    (findIn π h k t = some none ∧ ∀ e ∈ t, ¬ HasKey L π h e k) ∨
      ∃ e ∈ t, findIn π h k t = some (some e) ∧ HasKey L π h e k := by
  induction t with
  | nil => exact Or.inl ⟨rfl, fun e he => by cases he⟩
  | cons e t ih =>
      obtain ⟨k', hk'⟩ := ht e List.mem_cons_self
      obtain ⟨x, hx, rfl⟩ := hk'.read
      rw [findIn, hx, Option.bind_some]
      by_cases hkk : π x = k
      · rw [if_pos hkk]
        exact Or.inr ⟨e, List.mem_cons_self, rfl, hkk ▸ hk'⟩
      · rw [if_neg hkk]
        rcases ih ht.tail with ⟨hf, hno⟩ | ⟨e', he', hf, hke⟩
        · refine Or.inl ⟨hf, fun e' he' => ?_⟩
          rcases List.mem_cons.mp he' with rfl | he'
          · exact fun hk => hkk (hk'.unique hk)
          · exact hno e' he'
        · exact Or.inr ⟨e', List.mem_cons_of_mem _ he', hf, hke⟩

/-- **Every key that is compared can be read**, and a key that is there is compared. -/
theorem find_sound (ht : Sound L π h t) (k : K) :
    (find L π h k t = some none ∧ ∀ e ∈ t, ¬ HasKey L π h e k) ∨
      ∃ e ∈ t, find L π h k t = some (some e) ∧ HasKey L π h e k := by
  have hsub := L.probe_subset h.next (L.hash k) t
  have hprobe : Sound L π h (L.probe h.next (L.hash k) t) := fun e he => ht e (hsub he)
  rcases findIn_sound hprobe k with ⟨hf, hno⟩ | ⟨e, he, hf, hk⟩
  · refine Or.inl ⟨hf, fun e he hk => hno e ?_ hk⟩
    rw [← hk.2.1]
    exact L.probe_all h.next t e he
  · exact Or.inr ⟨e, hsub he, hf, hk⟩

theorem insert_sound (ht : Sound L π h t) {p : Address} {c : Cell α} (hp : h.cells p = some c)
    (hno : ∀ e ∈ t, ¬ HasKey L π h e (π c.content)) :
    insert L π h p p t = some (L.place h.next ⟨L.hash (π c.content), p, p⟩ t) := by
  have hgrown : (if L.grows h.next t then rehash L π h t else some t) = some t := by
    rw [rehash_sound ht, ite_self]
  have hfind : find L π h (π c.content) t = some none := by
    rcases find_sound ht (π c.content) with ⟨hf, -⟩ | ⟨e, he, -, hk⟩
    · exact hf
    · exact absurd hk (hno e he)
  unfold insert
  rw [Heap.read_allocated hp, Option.bind_some, hgrown, Option.bind_some, hfind]
  rfl

theorem Indexes.find (hI : Indexes L π h t) (k : K) :
    (find L π h k t = some none ∧ ¬ Present π h k) ∨
      ∃ e c, find L π h k t = some (some e) ∧ h.cells e.item = some c ∧ π c.content = k := by
  rcases find_sound hI.sound k with ⟨hf, hno⟩ | ⟨e, he, hf, -, -, c, hc, hk⟩
  · exact Or.inl ⟨hf, hI.absent hno⟩
  · exact Or.inr ⟨e, c, hf, hc, hk⟩

theorem Indexes.contains (hI : Indexes L π h t) (k : K) :
    (contains L π h k t = some false ∧ ¬ Present π h k) ∨
      (contains L π h k t = some true ∧ Present π h k) := by
  unfold Table.contains
  rcases hI.find k with ⟨hf, hno⟩ | ⟨e, c, hf, hc, hk⟩
  · exact Or.inl ⟨by rw [hf]; rfl, hno⟩
  · exact Or.inr ⟨by rw [hf]; rfl, e.item, c, hc, hk⟩

/-- **A removal finds the cell with its key**, and what it leaves indexes the heap without it. -/
theorem Indexes.removed (hI : Indexes L π h t) (k : K) :
    (remove L π h k t = some (none, t) ∧ ¬ Present π h k) ∨
      ∃ e t' c, remove L π h k t = some (some e, t') ∧ h.cells e.item = some c ∧
        π c.content = k ∧ ∀ h' : Heap α, h'.cells = Function.update h.cells e.item none →
          Indexes L π h' t' := by
  unfold Table.remove
  rcases find_sound hI.sound k with ⟨hf, hno⟩ | ⟨e, he, hf, -, -, c, hc, hk⟩
  · exact Or.inl ⟨by rw [hf]; rfl, hI.absent hno⟩
  · exact Or.inr ⟨e, t.erase e, c, by rw [hf]; rfl, hc, hk,
      fun h' hcells => hI.erased (List.perm_cons_erase he) hcells⟩

/-- **An insertion files the new cell under its key**, where no cell has that key. -/
theorem Indexes.inserted (hI : Indexes L π h t) {p : Address} {c : Cell α} (hp : h.cells p = none)
    (hno : ¬ Present π h (π c.content)) {h' : Heap α}
    (hcells : h'.cells = Function.update h.cells p (some c)) :
    ∃ t', insert L π h' p p t = some t' ∧ Indexes L π h' t' := by
  have hnew : h'.cells p = some c := by rw [hcells, Function.update_self]
  have hfree : ∀ e ∈ t, ¬ HasKey L π h' e (π c.content) := by
    rintro e he ⟨-, -, d, hd, hk⟩
    obtain ⟨-, d', hd'⟩ := hI.item_allocated he
    rw [cells_kept hp hcells hd'] at hd
    cases hd
    exact hno ⟨e.item, d, hd', hk⟩
  refine ⟨_, insert_sound (hI.sound.mono fun e _ d hd => cells_kept hp hcells hd) hnew hfree, ?_⟩
  exact hI.placed hp hno hcells (L.perm h'.next _ t)

end Table

end Memory
