/-
  File:      Penetrate/MultiMapRefines.lean
  Subject:   `MultiMap` REFINES the collection of triples with two keys.

  * `MultiMap.Holds` -- the refinement relation: the entries of the map are the items of the
    collection;
  * `multiMap_simulates` -- every operation keeps it and answers alike;
  * `multiMap_refines` -- **so does every sequence of operations**, after which both hash maps
    index the items of the collection, each item under its own keys.
-/
import Penetrate.MultiMap
import Penetrate.Collections.BiKeyed

namespace Penetrate

open Collections

namespace MultiMap

variable {K1 K2 V : Type*} [DecidableEq K1] [DecidableEq K2]

/-! ## 1. Removal by the second key -/

theorem remove1_fst_eq (m : MultiMap K1 K2 V) (k1 : K1) : (m.remove1 k1).1 = m.get1 k1 := by
  apply Option.ext
  intro v
  rw [remove1_fst, get1_eq_some]

theorem remove2_fst_eq (m : MultiMap K1 K2 V) (k2 : K2) : (m.remove2 k2).1 = m.get2 k2 := by
  unfold remove2 get2
  split <;> rename_i h <;> simp [h]

theorem entry_without {m : MultiMap K1 K2 V} {k1 a : K1} {k2 b : K2} {v c : V}
    (h : m.Entry k1 k2 v) : (m.without k1 k2 v h).Entry a b c ↔ b ≠ k2 ∧ m.Entry a b c := by
  rw [entry_iff2, entry_iff2]
  exact HashMap.lookup_erase_eq_some

theorem entry_remove2 {m : MultiMap K1 K2 V} {k : K2} {a : K1} {b : K2} {c : V} :
    (m.remove2 k).2.Entry a b c ↔ b ≠ k ∧ m.Entry a b c := by
  unfold remove2
  split
  · rename_i h
    refine ⟨fun he => ⟨fun e => ?_, he⟩, fun he => he.2⟩
    subst e
    rw [entry_iff2.mp he] at h
    cases h
  · rename_i item h
    obtain ⟨h2, h1⟩ := m.under2 _ _ h
    exact entry_without (v := item.2.2) (h1.trans (by rw [← h2]))

/-! ## 2. The map as a component -/

/-- A failed insertion returns before it touches either map. -/
def component : Component (MultiMap K1 K2 V) (BiKeyedOp K1 K2 V) (BiKeyedAnswer K1 K2 V) where
  start := new
  apply m op :=
    match op with
    | .insert k1 k2 v =>
        match m.insert k1 k2 v with
        | .error item => (.inserted (.error item), m)
        | .ok m' => (.inserted (.ok ()), m')
    | .get1 k1 => (.value (m.get1 k1), m)
    | .get2 k2 => (.value (m.get2 k2), m)
    | .remove1 k1 => (.value (m.remove1 k1).1, (m.remove1 k1).2)
    | .remove2 k2 => (.value (m.remove2 k2).1, (m.remove2 k2).2)

/-- The map holds the items of the collection. -/
def Holds (m : MultiMap K1 K2 V) (c : BiKeyed K1 K2 V) : Prop :=
  ∀ k1 k2 v, m.Entry k1 k2 v ↔ (k1, k2, v) ∈ c.items

theorem Holds.get1 {m : MultiMap K1 K2 V} {c : BiKeyed K1 K2 V} (h : m.Holds c) (k1 : K1) :
    m.get1 k1 = c.get1 k1 := by
  apply Option.ext
  intro v
  rw [get1_eq_some, BiKeyed.get1_eq_some]
  exact exists_congr fun k2 => h k1 k2 v

theorem Holds.get2 {m : MultiMap K1 K2 V} {c : BiKeyed K1 K2 V} (h : m.Holds c) (k2 : K2) :
    m.get2 k2 = c.get2 k2 := by
  apply Option.ext
  intro v
  rw [get2_eq_some, BiKeyed.get2_eq_some]
  exact exists_congr fun k1 => h k1 k2 v

theorem Holds.vacant {m : MultiMap K1 K2 V} {c : BiKeyed K1 K2 V} (h : m.Holds c) (k1 : K1)
    (k2 : K2) : m.Vacant k1 k2 ↔ ¬ c.Present k1 k2 := by
  constructor
  · rintro ⟨h1, h2⟩ ⟨⟨a, b, v⟩, hm, he⟩
    have he' := (h a b v).mpr hm
    rcases he with rfl | rfl
    · rw [get1_eq_some.mpr ⟨_, he'⟩] at h1
      cases h1
    · rw [get2_eq_some.mpr ⟨_, he'⟩] at h2
      cases h2
  · intro hn
    constructor
    · refine Option.eq_none_iff_forall_ne_some.mpr fun v hg => ?_
      obtain ⟨b, he⟩ := get1_eq_some.mp hg
      exact hn ⟨_, (h _ _ _).mp he, Or.inl rfl⟩
    · refine Option.eq_none_iff_forall_ne_some.mpr fun v hg => ?_
      obtain ⟨a, he⟩ := get2_eq_some.mp hg
      exact hn ⟨_, (h _ _ _).mp he, Or.inr rfl⟩

/-- **Each operation answers as the collection does, and the map still holds its items.** -/
theorem multiMap_simulates :
    (component : Component (MultiMap K1 K2 V) _ _).Simulates BiKeyed.component Holds where
  start k1 k2 v := iff_of_false (not_entry_new k1 k2 v) List.not_mem_nil
  apply m c op h := by
    cases op with
    | insert k1 k2 v =>
        have hv := h.vacant k1 k2
        simp only [component, BiKeyed.component]
        rcases insert_cases m k1 k2 v with ⟨hm, hn⟩ | ⟨m', hm, hn, he⟩ <;>
          rcases BiKeyed.insert_cases c k1 k2 v with ⟨hc, hp⟩ | ⟨c', hc, hp, hi⟩
        · rw [hm, hc]
          exact ⟨rfl, h⟩
        · exact absurd (hv.mpr hp) hn
        · exact absurd hp (hv.mp hn)
        · rw [hm, hc]
          refine ⟨rfl, fun a b w => ?_⟩
          show m'.Entry a b w ↔ (a, b, w) ∈ c'.items
          rw [he, hi, List.mem_cons, h]
    | get1 k1 => exact ⟨congrArg _ (h.get1 k1), h⟩
    | get2 k2 => exact ⟨congrArg _ (h.get2 k2), h⟩
    | remove1 k1 =>
        refine ⟨congrArg _ ((remove1_fst_eq m k1).trans (h.get1 k1)), fun a b w => ?_⟩
        show (m.remove1 k1).2.Entry a b w ↔ (a, b, w) ∈ (c.remove1 k1).2.items
        rw [entry_remove1, BiKeyed.mem_remove1, h]
        exact And.comm
    | remove2 k2 =>
        refine ⟨congrArg _ ((remove2_fst_eq m k2).trans (h.get2 k2)), fun a b w => ?_⟩
        show (m.remove2 k2).2.Entry a b w ↔ (a, b, w) ∈ (c.remove2 k2).2.items
        rw [entry_remove2, BiKeyed.mem_remove2, h]
        exact And.comm

/-! ## 3. Sequences of operations -/

/-- The two hash maps of a map that holds a collection. -/
theorem Holds.lookup1 {m : MultiMap K1 K2 V} {c : BiKeyed K1 K2 V} (h : m.Holds c) (k : K1)
    (item : K1 × K2 × V) : m.map1.lookup k = some item ↔ item ∈ c.items ∧ item.1 = k := by
  constructor
  · intro hl
    have he : m.Entry k item.2.1 item.2.2 := hl.trans (by rw [← lookup1_eq hl])
    have hi := lookup1_eq hl
    exact ⟨by rw [hi]; exact (h _ _ _).mp he, by rw [hi]⟩
  · rintro ⟨hm, rfl⟩
    exact (h item.1 item.2.1 item.2.2).mpr hm

theorem Holds.lookup2 {m : MultiMap K1 K2 V} {c : BiKeyed K1 K2 V} (h : m.Holds c) (k : K2)
    (item : K1 × K2 × V) : m.map2.lookup k = some item ↔ item ∈ c.items ∧ item.2.1 = k := by
  constructor
  · intro hl
    obtain ⟨h2, h1⟩ := m.under2 _ _ hl
    exact ⟨((h.lookup1 _ _).mp h1).1, h2⟩
  · rintro ⟨hm, rfl⟩
    exact (m.under1 _ _ ((h.lookup1 _ _).mpr ⟨hm, rfl⟩)).2

/-- What an insertion into the map does: it returns its arguments, or both keys find the item. -/
def InsertsFresh (m : MultiMap K1 K2 V) : Prop :=
  ∀ k1 k2 v,
    (component.apply m (.insert k1 k2 v) = (.inserted (.error (k1, k2, v)), m) ↔
      m.get1 k1 ≠ none ∨ m.get2 k2 ≠ none) ∧
    ((component.apply m (.insert k1 k2 v)).1 = .inserted (.ok ()) ↔
      m.get1 k1 = none ∧ m.get2 k2 = none)

/-- What a removal does: neither key finds the item again, both still find every other. -/
def RemovesOne (m : MultiMap K1 K2 V) : Prop :=
  ∀ k1 k2 v, m.Entry k1 k2 v →
    ∀ m', m' = (m.remove1 k1).2 ∨ m' = (m.remove2 k2).2 →
      m'.get1 k1 = none ∧ m'.get2 k2 = none ∧
      ∀ a b w, m.Entry a b w → (a, b) ≠ (k1, k2) → m'.get1 a = some w ∧ m'.get2 b = some w

theorem insertsFresh (m : MultiMap K1 K2 V) : m.InsertsFresh := by
  intro k1 k2 v
  simp only [component]
  rcases insert_cases m k1 k2 v with ⟨hm, hn⟩ | ⟨m', hm, hn, he⟩
  · rw [hm]
    refine ⟨iff_of_true rfl ?_, iff_of_false (by simp) hn⟩
    by_contra hno
    exact hn ⟨by_contra fun h => hno (Or.inl h), by_contra fun h => hno (Or.inr h)⟩
  · rw [hm]
    refine ⟨iff_of_false (by simp) ?_, iff_of_true rfl hn⟩
    rintro (h | h)
    · exact h hn.1
    · exact h hn.2

theorem entry_key2 {m : MultiMap K1 K2 V} {k1 k1' : K1} {k2 : K2} {v v' : V}
    (h : m.Entry k1 k2 v) (h' : m.Entry k1' k2 v') : k1 = k1' := by
  have h2 := (entry_iff2.mp h).symm.trans (entry_iff2.mp h')
  cases h2
  rfl

theorem removesOne (m : MultiMap K1 K2 V) : m.RemovesOne := by
  intro k1 k2 v he m' hm'
  -- the item goes with either key, and nothing else does
  have hent : ∀ a b w, m'.Entry a b w ↔ m.Entry a b w ∧ a ≠ k1 ∧ b ≠ k2 := by
    intro a b w
    rcases hm' with rfl | rfl
    · rw [entry_remove1]
      refine ⟨fun ⟨ha, h⟩ => ⟨h, ha, fun hb => ?_⟩, fun ⟨h, ha, _⟩ => ⟨ha, h⟩⟩
      subst hb
      exact ha (entry_key2 h he)
    · rw [entry_remove2]
      refine ⟨fun ⟨hb, h⟩ => ⟨h, fun ha => ?_, hb⟩, fun ⟨h, _, hb⟩ => ⟨hb, h⟩⟩
      subst ha
      exact hb (entry_unique h he).1
  refine ⟨?_, ?_, fun a b w h hne => ?_⟩
  · refine Option.eq_none_iff_forall_ne_some.mpr fun w hg => ?_
    obtain ⟨b, h⟩ := get1_eq_some.mp hg
    exact ((hent _ _ _).mp h).2.1 rfl
  · refine Option.eq_none_iff_forall_ne_some.mpr fun w hg => ?_
    obtain ⟨a, h⟩ := get2_eq_some.mp hg
    exact ((hent _ _ _).mp h).2.2 rfl
  · have ha : a ≠ k1 := by
      rintro rfl
      exact hne (by rw [(entry_unique h he).1])
    have hb : b ≠ k2 := by
      rintro rfl
      exact hne (by rw [entry_key2 h he])
    have h' := (hent _ _ _).mpr ⟨h, ha, hb⟩
    exact ⟨get1_eq_some.mpr ⟨b, h'⟩, get2_eq_some.mpr ⟨a, h'⟩⟩

/-- **`MultiMap` refines the collection of triples with two keys.** After any sequence of
    operations from `new`: the answers are those of the collection; both hash maps index its items,
    each item under its own first and second key; an insertion fails, and returns its arguments,
    precisely where a key is present; and a removal by either key removes the one item. -/
theorem multiMap_refines (ops : List (BiKeyedOp K1 K2 V)) :
    (component.run ops).1 = (BiKeyed.component.run ops).1 ∧
      (∀ k item, (component.run ops).2.map1.lookup k = some item ↔
        item ∈ (BiKeyed.component.run ops).2.items ∧ item.1 = k) ∧
      (∀ k item, (component.run ops).2.map2.lookup k = some item ↔
        item ∈ (BiKeyed.component.run ops).2.items ∧ item.2.1 = k) ∧
      (component.run ops).2.InsertsFresh ∧ (component.run ops).2.RemovesOne := by
  obtain ⟨hans, hholds⟩ := multiMap_simulates.run ops
  exact ⟨hans, hholds.lookup1, hholds.lookup2, insertsFresh _, removesOne _⟩

end MultiMap

end Penetrate
