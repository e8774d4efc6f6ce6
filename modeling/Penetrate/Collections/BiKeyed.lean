/-
  File:      Penetrate/Collections/BiKeyed.lean
  Subject:   THE REFERENCE COLLECTION OF ITEMS WITH TWO KEYS: a list of triples, no first key and
             no second key twice. Names nothing of a particular program.

  An operation looks the whole list through. `insert_cases`, `mem_remove1`, `mem_remove2` say what
  the list holds afterwards, `get1_eq_some`, `get2_eq_some` what a lookup finds.
-/
import Mathlib.Data.List.Nodup
import Penetrate.Collections.Component

namespace Collections

/-- Items with two keys: both are fields of the list, each different in every item. -/
structure BiKeyed (K1 K2 V : Type*) where
  items : List (K1 × K2 × V)
  distinct1 : (items.map fun item => item.1).Nodup
  distinct2 : (items.map fun item => item.2.1).Nodup

/-- The operations on a collection with two keys. -/
inductive BiKeyedOp (K1 K2 V : Type*) where
  | insert (k1 : K1) (k2 : K2) (v : V)
  | get1 (k1 : K1)
  | get2 (k2 : K2)
  | remove1 (k1 : K1)
  | remove2 (k2 : K2)

/-- What an insertion answers, and what the others do. -/
inductive BiKeyedAnswer (K1 K2 V : Type*) where
  | inserted (r : Except (K1 × K2 × V) Unit)
  | value (v : Option V)

namespace BiKeyed

variable {K1 K2 V : Type*}

def empty : BiKeyed K1 K2 V := ⟨[], .nil, .nil⟩

/-- Items may leave. -/
def keep (c : BiKeyed K1 K2 V) (p : K1 × K2 × V → Bool) : BiKeyed K1 K2 V where
  items := c.items.filter p
  distinct1 := c.distinct1.sublist (List.filter_sublist.map _)
  distinct2 := c.distinct2.sublist (List.filter_sublist.map _)

theorem eq_of_key1 {c : BiKeyed K1 K2 V} {a b : K1 × K2 × V} (ha : a ∈ c.items) (hb : b ∈ c.items)
    (h : a.1 = b.1) : a = b :=
  List.inj_on_of_nodup_map c.distinct1 ha hb h

theorem eq_of_key2 {c : BiKeyed K1 K2 V} {a b : K1 × K2 × V} (ha : a ∈ c.items) (hb : b ∈ c.items)
    (h : a.2.1 = b.2.1) : a = b :=
  List.inj_on_of_nodup_map c.distinct2 ha hb h

section Key1

variable [DecidableEq K1]

def get1 (c : BiKeyed K1 K2 V) (k1 : K1) : Option V :=
  (c.items.find? fun item => item.1 = k1).map fun item => item.2.2

def remove1 (c : BiKeyed K1 K2 V) (k1 : K1) : Option V × BiKeyed K1 K2 V :=
  (c.get1 k1, c.keep fun item => item.1 ≠ k1)

theorem get1_eq_some {c : BiKeyed K1 K2 V} {k1 : K1} {v : V} :
    c.get1 k1 = some v ↔ ∃ k2, (k1, k2, v) ∈ c.items := by
  unfold get1
  rw [Option.map_eq_some_iff]
  constructor
  · rintro ⟨⟨a, b, w⟩, hf, rfl⟩
    have ha : a = k1 := by simpa using List.find?_some hf
    subst ha
    exact ⟨b, List.mem_of_find?_eq_some hf⟩
  · rintro ⟨k2, hm⟩
    cases hf : c.items.find? fun item => item.1 = k1 with
    | none =>
        have := List.find?_eq_none.mp hf _ hm
        simp at this
    | some item =>
        have ha : item.1 = k1 := by simpa using List.find?_some hf
        rw [eq_of_key1 (List.mem_of_find?_eq_some hf) hm ha]
        exact ⟨_, rfl, rfl⟩

theorem mem_remove1 {c : BiKeyed K1 K2 V} {k1 : K1} {item : K1 × K2 × V} :
    item ∈ (c.remove1 k1).2.items ↔ item ∈ c.items ∧ item.1 ≠ k1 := by
  simp [remove1, keep]

end Key1

section Key2

variable [DecidableEq K2]

def get2 (c : BiKeyed K1 K2 V) (k2 : K2) : Option V :=
  (c.items.find? fun item => item.2.1 = k2).map fun item => item.2.2

def remove2 (c : BiKeyed K1 K2 V) (k2 : K2) : Option V × BiKeyed K1 K2 V :=
  (c.get2 k2, c.keep fun item => item.2.1 ≠ k2)

theorem get2_eq_some {c : BiKeyed K1 K2 V} {k2 : K2} {v : V} :
    c.get2 k2 = some v ↔ ∃ k1, (k1, k2, v) ∈ c.items := by
  unfold get2
  rw [Option.map_eq_some_iff]
  constructor
  · rintro ⟨⟨a, b, w⟩, hf, rfl⟩
    have hb : b = k2 := by simpa using List.find?_some hf
    subst hb
    exact ⟨a, List.mem_of_find?_eq_some hf⟩
  · rintro ⟨k1, hm⟩
    cases hf : c.items.find? fun item => item.2.1 = k2 with
    | none =>
        have := List.find?_eq_none.mp hf _ hm
        simp at this
    | some item =>
        have hb : item.2.1 = k2 := by simpa using List.find?_some hf
        rw [eq_of_key2 (List.mem_of_find?_eq_some hf) hm hb]
        exact ⟨_, rfl, rfl⟩

theorem mem_remove2 {c : BiKeyed K1 K2 V} {k2 : K2} {item : K1 × K2 × V} :
    item ∈ (c.remove2 k2).2.items ↔ item ∈ c.items ∧ item.2.1 ≠ k2 := by
  simp [remove2, keep]

end Key2

/-! ## Insertion -/

theorem nodup_cons_key {α β : Type*} {f : α → β} {l : List α} {a : α}
    (hl : (l.map f).Nodup) (h : ∀ b ∈ l, f b ≠ f a) : ((a :: l).map f).Nodup := by
  rw [List.map_cons, List.nodup_cons]
  refine ⟨fun hm => ?_, hl⟩
  obtain ⟨b, hb, he⟩ := List.mem_map.mp hm
  exact h b hb he

variable [DecidableEq K1] [DecidableEq K2]

/-- One of the two keys is there already. -/
def Present (c : BiKeyed K1 K2 V) (k1 : K1) (k2 : K2) : Prop :=
  ∃ item ∈ c.items, item.1 = k1 ∨ item.2.1 = k2

instance (c : BiKeyed K1 K2 V) (k1 : K1) (k2 : K2) : Decidable (c.Present k1 k2) :=
  inferInstanceAs (Decidable (∃ item ∈ c.items, item.1 = k1 ∨ item.2.1 = k2))

def insert (c : BiKeyed K1 K2 V) (k1 : K1) (k2 : K2) (v : V) :
    Except (K1 × K2 × V) (BiKeyed K1 K2 V) :=
  if h : c.Present k1 k2 then .error (k1, k2, v)
  else .ok {
    items := (k1, k2, v) :: c.items
    distinct1 := nodup_cons_key c.distinct1 fun b hb he => h ⟨b, hb, Or.inl he⟩
    distinct2 := nodup_cons_key c.distinct2 fun b hb he => h ⟨b, hb, Or.inr he⟩ }

/-- **The insertion fails precisely where one of the keys is present.** -/
theorem insert_cases (c : BiKeyed K1 K2 V) (k1 : K1) (k2 : K2) (v : V) :
    (c.insert k1 k2 v = .error (k1, k2, v) ∧ c.Present k1 k2) ∨
      ∃ c', c.insert k1 k2 v = .ok c' ∧ ¬ c.Present k1 k2 ∧
        c'.items = (k1, k2, v) :: c.items := by
  unfold insert
  split
  · rename_i h
    exact Or.inl ⟨rfl, h⟩
  · rename_i h
    exact Or.inr ⟨_, rfl, h, rfl⟩

/-- The collection as a component; a failed insertion leaves it as it is. -/
def component : Component (BiKeyed K1 K2 V) (BiKeyedOp K1 K2 V) (BiKeyedAnswer K1 K2 V) where
  start := empty
  apply c op :=
    match op with
    | .insert k1 k2 v =>
        match c.insert k1 k2 v with
        | .error item => (.inserted (.error item), c)
        | .ok c' => (.inserted (.ok ()), c')
    | .get1 k1 => (.value (c.get1 k1), c)
    | .get2 k2 => (.value (c.get2 k2), c)
    | .remove1 k1 => (.value (c.remove1 k1).1, (c.remove1 k1).2)
    | .remove2 k2 => (.value (c.remove2 k2).1, (c.remove2 k2).2)

end BiKeyed

end Collections
