/-
  File:      Penetrate/MultiMap.lean
  Subject:   `multi_map.rs`: a hash map that indexes an item by two keys.

  Both maps hold the items under their own keys; that they hold the same items is a field of the
  structure, so a `MultiMap` whose maps disagree cannot be built. `Entry` is what the map holds;
  `insert_cases`, `entry_remove1`, `mem_drain` say what each operation does to it.
-/
import Penetrate.Collections.HashMap

namespace Penetrate

open Collections

structure MultiMap (K1 K2 V : Type*) [DecidableEq K1] [DecidableEq K2] where
  map1 : HashMap K1 (K1 × K2 × V)
  map2 : HashMap K2 (K1 × K2 × V)
  under1 : ∀ k item, map1.lookup k = some item → item.1 = k ∧ map2.lookup item.2.1 = some item
  under2 : ∀ k item, map2.lookup k = some item → item.2.1 = k ∧ map1.lookup item.1 = some item

namespace MultiMap

variable {K1 K2 V : Type*} [DecidableEq K1] [DecidableEq K2]

def new : MultiMap K1 K2 V where
  map1 := ∅
  map2 := ∅
  under1 k item h := by rw [AList.lookup_empty] at h; cases h
  under2 k item h := by rw [AList.lookup_empty] at h; cases h

/-- The item `(k1, k2, v)` is in the map. -/
def Entry (m : MultiMap K1 K2 V) (k1 : K1) (k2 : K2) (v : V) : Prop :=
  m.map1.lookup k1 = some (k1, k2, v)

theorem entry_iff2 {m : MultiMap K1 K2 V} {k1 : K1} {k2 : K2} {v : V} :
    m.Entry k1 k2 v ↔ m.map2.lookup k2 = some (k1, k2, v) :=
  ⟨fun h => (m.under1 _ _ h).2, fun h => (m.under2 _ _ h).2⟩

theorem lookup1_eq {m : MultiMap K1 K2 V} {k1 : K1} {item : K1 × K2 × V}
    (h : m.map1.lookup k1 = some item) : item = (k1, item.2.1, item.2.2) := by
  rw [← (m.under1 _ _ h).1]

/-- The item is refused, and returned, where one of its keys is present. -/
def insert (m : MultiMap K1 K2 V) (k1 : K1) (k2 : K2) (v : V) :
    Except (K1 × K2 × V) (MultiMap K1 K2 V) :=
  if h : (m.map1.lookup k1).isSome = true ∨ (m.map2.lookup k2).isSome = true then
    .error (k1, k2, v)
  else
    .ok {
      map1 := m.map1.insert k1 (k1, k2, v)
      map2 := m.map2.insert k2 (k1, k2, v)
      under1 := by
        intro k item hk
        by_cases e : k = k1
        · subst e
          rw [AList.lookup_insert] at hk
          cases hk
          exact ⟨rfl, AList.lookup_insert _⟩
        · rw [AList.lookup_insert_ne e] at hk
          obtain ⟨h1, h2⟩ := m.under1 k item hk
          have hne : item.2.1 ≠ k2 := fun e' => h (Or.inr (by rw [← e', h2]; rfl))
          exact ⟨h1, by rw [AList.lookup_insert_ne hne]; exact h2⟩
      under2 := by
        intro k item hk
        by_cases e : k = k2
        · subst e
          rw [AList.lookup_insert] at hk
          cases hk
          exact ⟨rfl, AList.lookup_insert _⟩
        · rw [AList.lookup_insert_ne e] at hk
          obtain ⟨h1, h2⟩ := m.under2 k item hk
          have hne : item.1 ≠ k1 := fun e' => h (Or.inl (by rw [← e', h2]; rfl))
          exact ⟨h1, by rw [AList.lookup_insert_ne hne]; exact h2⟩ }

def get1 (m : MultiMap K1 K2 V) (k1 : K1) : Option V := (m.map1.lookup k1).map fun item => item.2.2
def get2 (m : MultiMap K1 K2 V) (k2 : K2) : Option V := (m.map2.lookup k2).map fun item => item.2.2

/-- An item taken out of both maps. -/
def without (m : MultiMap K1 K2 V) (k1 : K1) (k2 : K2) (v : V) (h : m.Entry k1 k2 v) :
    MultiMap K1 K2 V where
  map1 := m.map1.erase k1
  map2 := m.map2.erase k2
  under1 := by
    intro k item hk
    by_cases e : k = k1
    · subst e
      rw [AList.lookup_erase] at hk
      cases hk
    · rw [AList.lookup_erase_ne e] at hk
      obtain ⟨h1, h2⟩ := m.under1 k item hk
      have hne : item.2.1 ≠ k2 := by
        intro e'
        rw [e', entry_iff2.mp h] at h2
        cases h2
        exact e h1.symm
      exact ⟨h1, by rw [AList.lookup_erase_ne hne]; exact h2⟩
  under2 := by
    intro k item hk
    by_cases e : k = k2
    · subst e
      rw [AList.lookup_erase] at hk
      cases hk
    · rw [AList.lookup_erase_ne e] at hk
      obtain ⟨h1, h2⟩ := m.under2 k item hk
      have hne : item.1 ≠ k1 := by
        intro e'
        have h' : m.map1.lookup k1 = some (k1, k2, v) := h
        rw [e', h'] at h2
        cases h2
        exact e h1.symm
      exact ⟨h1, by rw [AList.lookup_erase_ne hne]; exact h2⟩

def remove1 (m : MultiMap K1 K2 V) (k1 : K1) : Option V × MultiMap K1 K2 V :=
  match h : m.map1.lookup k1 with
  | none => (none, m)
  | some item => (some item.2.2, m.without k1 item.2.1 item.2.2 (h.trans (by rw [← lookup1_eq h])))

def remove2 (m : MultiMap K1 K2 V) (k2 : K2) : Option V × MultiMap K1 K2 V :=
  match h : m.map2.lookup k2 with
  | none => (none, m)
  | some item => (some item.2.2, m.without item.1 k2 item.2.2 (by
      obtain ⟨h1, h2⟩ := m.under2 _ _ h
      unfold Entry
      rw [h2, ← h1]))

/-- The values `Drop` frees: it drains the second map. -/
def drain (m : MultiMap K1 K2 V) : List V := m.map2.entries.map fun e => e.2.2.2

/-! ## What the operations do to the entries -/

theorem not_entry_new (k1 : K1) (k2 : K2) (v : V) : ¬ (new : MultiMap K1 K2 V).Entry k1 k2 v := by
  intro h
  unfold Entry new at h
  rw [AList.lookup_empty] at h
  cases h

/-- Neither key is present. -/
def Vacant (m : MultiMap K1 K2 V) (k1 : K1) (k2 : K2) : Prop := m.get1 k1 = none ∧ m.get2 k2 = none

theorem vacant_new (k1 : K1) (k2 : K2) : (new : MultiMap K1 K2 V).Vacant k1 k2 := by
  unfold Vacant get1 get2 new
  rw [AList.lookup_empty, AList.lookup_empty]
  exact ⟨rfl, rfl⟩

/-- There is nothing to remove under a key that is not there. -/
theorem remove1_none {m : MultiMap K1 K2 V} {k1 : K1} (h : m.get1 k1 = none) :
    m.remove1 k1 = (none, m) := by
  have hl : m.map1.lookup k1 = none := by simpa [get1] using h
  unfold remove1
  split
  · rfl
  · rename_i hk
    rw [hl] at hk
    cases hk

theorem remove1_new (k1 : K1) : (new : MultiMap K1 K2 V).remove1 k1 = (none, new) := by
  refine remove1_none ?_
  unfold get1 new
  rw [AList.lookup_empty]
  rfl

theorem entry_unique {m : MultiMap K1 K2 V} {k1 : K1} {k2 k2' : K2} {v v' : V}
    (h : m.Entry k1 k2 v) (h' : m.Entry k1 k2' v') : k2 = k2' ∧ v = v' := by
  have h1 : some (k1, k2, v) = some (k1, k2', v') := h.symm.trans h'
  cases h1
  exact ⟨rfl, rfl⟩

theorem get2_eq_some {m : MultiMap K1 K2 V} {k2 : K2} {v : V} :
    m.get2 k2 = some v ↔ ∃ k1, m.Entry k1 k2 v := by
  unfold get2
  rw [Option.map_eq_some_iff]
  constructor
  · intro ⟨item, h, hv⟩
    obtain ⟨h1, h2⟩ := m.under2 _ _ h
    refine ⟨item.1, ?_⟩
    unfold Entry
    rw [h2, ← h1, ← hv]
  · intro ⟨k1, h⟩
    exact ⟨_, entry_iff2.mp h, rfl⟩

theorem get1_eq_some {m : MultiMap K1 K2 V} {k1 : K1} {v : V} :
    m.get1 k1 = some v ↔ ∃ k2, m.Entry k1 k2 v := by
  unfold get1
  rw [Option.map_eq_some_iff]
  constructor
  · intro ⟨item, h, hv⟩
    refine ⟨item.2.1, ?_⟩
    unfold Entry
    rw [h, ← hv, ← lookup1_eq h]
  · intro ⟨k2, h⟩
    exact ⟨_, h, rfl⟩

/-- **The insertion fails precisely where one of the keys is present.** -/
theorem insert_cases (m : MultiMap K1 K2 V) (k1 : K1) (k2 : K2) (v : V) :
    (m.insert k1 k2 v = .error (k1, k2, v) ∧ ¬ m.Vacant k1 k2) ∨
      ∃ m', m.insert k1 k2 v = .ok m' ∧ m.Vacant k1 k2 ∧
        ∀ a b c, m'.Entry a b c ↔ (a, b, c) = (k1, k2, v) ∨ m.Entry a b c := by
  have hv : m.Vacant k1 k2 ↔
      ¬ ((m.map1.lookup k1).isSome = true ∨ (m.map2.lookup k2).isSome = true) := by
    simp [Vacant, get1, get2]
  unfold insert
  split
  · rename_i h
    exact Or.inl ⟨rfl, fun hn => hv.mp hn h⟩
  · rename_i h
    refine Or.inr ⟨_, rfl, hv.mpr h, fun a b c => ?_⟩
    have hfree : m.Entry a b c → a ≠ k1 := by
      intro he e
      subst e
      have hsome : (m.map1.lookup a).isSome = true := by rw [show m.map1.lookup a = _ from he]; rfl
      exact h (Or.inl hsome)
    refine HashMap.lookup_insert_eq_some.trans ⟨fun h' => ?_, fun h' => ?_⟩
    · rcases h' with ⟨_, e⟩ | ⟨_, he⟩
      · exact Or.inl e
      · exact Or.inr he
    · rcases h' with e | he
      · exact Or.inl ⟨congrArg Prod.fst e, e⟩
      · exact Or.inr ⟨hfree he, he⟩

theorem remove1_fst {m : MultiMap K1 K2 V} {k1 : K1} {v : V} :
    (m.remove1 k1).1 = some v ↔ ∃ k2, m.Entry k1 k2 v := by
  unfold remove1
  split
  · rename_i h
    refine iff_of_false (by simp) ?_
    intro ⟨k2, he⟩
    rw [show m.map1.lookup k1 = _ from he] at h
    cases h
  · rename_i item h
    constructor
    · intro hv
      cases hv
      exact ⟨item.2.1, h.trans (by rw [← lookup1_eq h])⟩
    · intro ⟨k2, he⟩
      rw [show m.map1.lookup k1 = _ from he] at h
      cases h
      rfl

theorem entry_remove1 {m : MultiMap K1 K2 V} {k a : K1} {b : K2} {c : V} :
    (m.remove1 k).2.Entry a b c ↔ a ≠ k ∧ m.Entry a b c := by
  unfold remove1
  split
  · rename_i h
    constructor
    · intro he
      refine ⟨fun e => ?_, he⟩
      subst e
      rw [show m.map1.lookup a = _ from he] at h
      cases h
    · exact fun he => he.2
  · exact HashMap.lookup_erase_eq_some

theorem mem_drain {m : MultiMap K1 K2 V} {v : V} : v ∈ m.drain ↔ ∃ k1 k2, m.Entry k1 k2 v := by
  unfold drain
  rw [List.mem_map]
  constructor
  · intro ⟨e, he, hv⟩
    have h : m.map2.lookup e.1 = some e.2 := HashMap.mem_entries.mp he
    obtain ⟨h1, h2⟩ := m.under2 _ _ h
    refine ⟨e.2.1, e.2.2.1, ?_⟩
    unfold Entry
    rw [h2, ← hv]
  · intro ⟨k1, k2, he⟩
    exact ⟨⟨k2, (k1, k2, v)⟩, HashMap.mem_entries.mpr (entry_iff2.mp he), rfl⟩

end MultiMap

end Penetrate
