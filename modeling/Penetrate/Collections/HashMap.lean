/-
  File:      Penetrate/Collections/HashMap.lean
  Subject:   HASH MAPS WITH AN ITERATION ORDER OF THEIR OWN. Names nothing of a particular program.

  A hash map is Mathlib's association list: what it holds is `lookup`, the order it is iterated in
  is `entries`, and two maps that hold the same may be iterated differently.

  * `HashMap.eq` -- the equality of hash maps, which ignores the order (`eq_iff`);
  * `HashMap.tryMap` -- a pass over the values that may fail (`lookup_tryMap`, `tryMap_isOk`,
    `tryMap_error_iff`);
  * `Indexes` -- a table `M` keyed by another type holds what `m` holds; `indexBy` builds one,
    `Indexes.insertAll` and `Indexes.eraseAll` keep it up to date, `Indexes.unique` says that it
    depends on what `m` holds alone;
  * `lookup_patch` -- the keys that are gone erased, then the entries new or changed inserted,
    make a map hold what another one does.
-/
import Mathlib.Data.List.AList
import Mathlib.Data.Set.Function
import Mathlib.Logic.Function.Basic
import Mathlib.Tactic.Common

namespace Collections

/-- A hash map; `entries` is its iteration order. -/
abbrev HashMap (κ ν : Type*) := AList fun _ : κ => ν

namespace HashMap

variable {κ ν ω δ ε : Type*} [DecidableEq κ]

/-! ## 1. Equality -/

/-- `==` on hash maps: the same length, and every entry of the first is in the second. -/
def eq [DecidableEq ν] (m m' : HashMap κ ν) : Bool :=
  m.entries.length == m'.entries.length && m.entries.all fun e => m'.lookup e.1 == some e.2

theorem mem_entries {m : HashMap κ ν} {k : κ} {v : ν} : ⟨k, v⟩ ∈ m.entries ↔ m.lookup k = some v :=
  AList.mem_lookup_iff.symm

/-- What a map still holds without `k`. -/
theorem lookup_erase_eq_some {m : HashMap κ ν} {k n : κ} {v : ν} :
    (m.erase k).lookup n = some v ↔ n ≠ k ∧ m.lookup n = some v := by
  by_cases e : n = k
  · subst e
    rw [AList.lookup_erase]
    simp
  · rw [AList.lookup_erase_ne e]
    simp [e]

/-- What a map holds with `v` at `k`. -/
theorem lookup_insert_eq_some {m : HashMap κ ν} {k n : κ} {v w : ν} :
    (m.insert k w).lookup n = some v ↔ (n = k ∧ v = w) ∨ (n ≠ k ∧ m.lookup n = some v) := by
  by_cases e : n = k
  · subst e
    rw [AList.lookup_insert]
    simp [eq_comm]
  · rw [AList.lookup_insert_ne e]
    simp [e]

theorem entries_perm {m m' : HashMap κ ν} (h : ∀ k, m.lookup k = m'.lookup k) :
    m.entries.Perm m'.entries := by
  refine List.lookup_ext m.nodupKeys m'.nodupKeys fun k v => ?_
  have hk : m.entries.dlookup k = m'.entries.dlookup k := h k
  rw [hk]

/-- **Two hash maps are equal precisely when they hold the same.** -/
theorem eq_iff [DecidableEq ν] {m m' : HashMap κ ν} :
    m.eq m' = true ↔ ∀ k, m.lookup k = m'.lookup k := by
  simp only [eq, Bool.and_eq_true, beq_iff_eq, List.all_eq_true]
  constructor
  · rintro ⟨hlen, hall⟩ k
    have hsub : m.entries ⊆ m'.entries := by
      rintro ⟨k, v⟩ he
      exact mem_entries.mpr (hall ⟨k, v⟩ he)
    have hp : m.entries.Perm m'.entries :=
      (List.subperm_of_subset m.nodupKeys.nodup hsub).perm_of_length_le (Nat.le_of_eq hlen.symm)
    exact AList.perm_lookup hp
  · intro h
    refine ⟨(entries_perm h).length_eq, fun e he => ?_⟩
    rw [← h]
    exact mem_entries.mp he

/-! ## 2. A pass that may fail -/

def tryMapEntries (f : κ → ν → Except ε ω) :
    List (Sigma fun _ : κ => ν) → Except ε (List (Sigma fun _ : κ => ω))
  | [] => .ok []
  | e :: l => match f e.1 e.2 with
    | .error x => .error x
    | .ok v => match tryMapEntries f l with
      | .error x => .error x
      | .ok l' => .ok (⟨e.1, v⟩ :: l')

omit [DecidableEq κ] in
theorem tryMapEntries_keys {f : κ → ν → Except ε ω} {l : List (Sigma fun _ : κ => ν)}
    {l' : List (Sigma fun _ : κ => ω)} (h : tryMapEntries f l = .ok l') : l'.keys = l.keys := by
  induction l generalizing l' with
  | nil =>
      cases h
      rfl
  | cons e l ih =>
      rw [tryMapEntries] at h
      split at h
      · cases h
      · split at h
        · cases h
        · rename_i l1 hl
          cases h
          rw [List.keys_cons, List.keys_cons, ih hl]

/-- The map with `f` applied to every value; the first error, in iteration order, is returned. -/
def tryMap (f : κ → ν → Except ε ω) (m : HashMap κ ν) : Except ε (HashMap κ ω) :=
  match h : tryMapEntries f m.entries with
  | .error x => .error x
  | .ok l => .ok ⟨l, by
      unfold List.NodupKeys
      rw [tryMapEntries_keys h]
      exact m.nodupKeys⟩

omit [DecidableEq κ] in
theorem tryMap_entries {f : κ → ν → Except ε ω} {m : HashMap κ ν} {m' : HashMap κ ω}
    (h : tryMap f m = .ok m') : tryMapEntries f m.entries = .ok m'.entries := by
  unfold tryMap at h
  split at h
  · cases h
  · rename_i l hl
    cases h
    exact hl

theorem dlookup_tryMapEntries {f : κ → ν → Except ε ω} {l : List (Sigma fun _ : κ => ν)}
    {l' : List (Sigma fun _ : κ => ω)} (h : tryMapEntries f l = .ok l') (k : κ) :
    l'.dlookup k = (l.dlookup k).bind fun v => (f k v).toOption := by
  induction l generalizing l' with
  | nil =>
      cases h
      rfl
  | cons e l ih =>
      obtain ⟨k', v⟩ := e
      rw [tryMapEntries] at h
      split at h
      · cases h
      · rename_i w hw
        split at h
        · cases h
        · rename_i l1 hl
          cases h
          by_cases hk : k' = k
          · subst hk
            rw [List.dlookup_cons_eq, List.dlookup_cons_eq, Option.bind_some]
            have hw' : f k' v = .ok w := hw
            rw [hw']
            rfl
          · rw [List.dlookup_cons_ne _ _ (Ne.symm hk), List.dlookup_cons_ne _ _ (Ne.symm hk)]
            exact ih hl

theorem lookup_tryMap {f : κ → ν → Except ε ω} {m : HashMap κ ν} {m' : HashMap κ ω}
    (h : tryMap f m = .ok m') (k : κ) :
    m'.lookup k = (m.lookup k).bind fun v => (f k v).toOption :=
  dlookup_tryMapEntries (tryMap_entries h) k

omit [DecidableEq κ] in
theorem tryMapEntries_ok {f : κ → ν → Except ε ω} {l : List (Sigma fun _ : κ => ν)} :
    (∃ l', tryMapEntries f l = .ok l') ↔ ∀ e ∈ l, ∃ w, f e.1 e.2 = .ok w := by
  induction l with
  | nil => simp [tryMapEntries]
  | cons e l ih =>
      rw [List.forall_mem_cons, ← ih, tryMapEntries]
      constructor
      · rintro ⟨l', h⟩
        split at h
        · cases h
        · rename_i w hw
          split at h
          · cases h
          · rename_i l1 hl
            exact ⟨⟨w, hw⟩, l1, hl⟩
      · rintro ⟨⟨w, hw⟩, l1, hl⟩
        exact ⟨⟨e.1, w⟩ :: l1, by simp [hw, hl]⟩

/-- **The pass succeeds precisely when it does on every value the map holds.** -/
theorem tryMap_isOk {f : κ → ν → Except ε ω} {m : HashMap κ ν} :
    (∃ m', tryMap f m = .ok m') ↔ ∀ k v, m.lookup k = some v → ∃ w, f k v = .ok w := by
  have h : (∃ m', tryMap f m = .ok m') ↔ ∃ l, tryMapEntries f m.entries = .ok l := by
    constructor
    · rintro ⟨m', h⟩
      exact ⟨_, tryMap_entries h⟩
    · rintro ⟨l, hl⟩
      unfold tryMap
      split
      · rename_i x hx
        rw [hl] at hx
        cases hx
      · exact ⟨_, rfl⟩
  rw [h, tryMapEntries_ok]
  constructor
  · intro h k v hv
    exact h ⟨k, v⟩ (mem_entries.mpr hv)
  · rintro h ⟨k, v⟩ he
    exact h k v (mem_entries.mp he)

/-- The pass does not see the iteration order. -/
theorem tryMap_congr {f : κ → ν → Except ε ω} {m₁ m₂ : HashMap κ ν}
    (h : ∀ k, m₁.lookup k = m₂.lookup k) {m : HashMap κ ω} (h₁ : tryMap f m₁ = .ok m) :
    ∃ m', tryMap f m₂ = .ok m' ∧ ∀ k, m.lookup k = m'.lookup k := by
  obtain ⟨m', h₂⟩ := tryMap_isOk.mpr fun k v hv =>
    tryMap_isOk.mp ⟨m, h₁⟩ k v ((h k).trans hv)
  exact ⟨m', h₂, fun k => by rw [lookup_tryMap h₁, lookup_tryMap h₂, h]⟩

omit [DecidableEq κ] in
theorem tryMap_entries_error {f : κ → ν → Except ε ω} {m : HashMap κ ν} {x : ε} :
    tryMap f m = .error x ↔ tryMapEntries f m.entries = .error x := by
  unfold tryMap
  split
  · rename_i y hy
    rw [hy]
    exact ⟨fun h => by cases h; rfl, fun h => by cases h; rfl⟩
  · rename_i l hl
    exact ⟨nofun, fun h => by rw [hl] at h; cases h⟩

omit [DecidableEq κ] in
theorem tryMapEntries_error {f : κ → ν → Except ε ω} {l : List (Sigma fun _ : κ => ν)} {x : ε}
    (h : tryMapEntries f l = .error x) : ∃ e ∈ l, f e.1 e.2 = .error x := by
  induction l with
  | nil => cases h
  | cons e l ih =>
      rw [tryMapEntries] at h
      split at h
      · rename_i y hy
        cases h
        exact ⟨e, List.mem_cons_self, hy⟩
      · split at h
        · rename_i y hy
          cases h
          obtain ⟨e', he', hx⟩ := ih hy
          exact ⟨e', List.mem_cons_of_mem e he', hx⟩
        · cases h

/-- **Which error the pass returns depends on the iteration order**: in some order it is that of any
    value it fails on, and it is that of one in each. -/
theorem tryMap_error_iff [DecidableEq ν] {f : κ → ν → Except ε ω} {m : HashMap κ ν} {x : ε} :
    (∃ m', m.eq m' = true ∧ tryMap f m' = .error x) ↔
      ∃ k v, m.lookup k = some v ∧ f k v = .error x := by
  constructor
  · rintro ⟨m', he, h⟩
    obtain ⟨⟨k, v⟩, hm, hx⟩ := tryMapEntries_error (tryMap_entries_error.mp h)
    exact ⟨k, v, (eq_iff.mp he k).trans (mem_entries.mp hm), hx⟩
  · rintro ⟨k, v, hk, hx⟩
    refine ⟨m.insert k v, eq_iff.mpr fun n => ?_, tryMap_entries_error.mpr ?_⟩
    · by_cases hn : n = k
      · rw [hn, AList.lookup_insert, hk]
      · rw [AList.lookup_insert_ne hn]
    · rw [AList.entries_insert, tryMapEntries, hx]

/-! ## 3. Tables under another key -/

/-- The entries of `m` inserted one by one under `key`. -/
def indexBy [DecidableEq δ] (key : κ → δ) (mk : κ → ν → ω) (m : HashMap κ ν) : δ → Option ω :=
  m.entries.foldl (fun M e => Function.update M (key e.1) (some (mk e.1 e.2))) fun _ => none

/-- `M` holds what `m` holds, under `key`. -/
def Indexes (key : κ → δ) (mk : κ → ν → ω) (M : δ → Option ω) (m : HashMap κ ν) : Prop :=
  ∀ d w, M d = some w ↔ ∃ k v, m.lookup k = some v ∧ key k = d ∧ mk k v = w

variable {key : κ → δ} {mk : κ → ν → ω}

/-- **What a table holds depends on what the map holds, not on its order.** -/
theorem Indexes.unique {M M' : δ → Option ω} {m m' : HashMap κ ν} (h : Indexes key mk M m)
    (h' : Indexes key mk M' m') (hm : ∀ k, m.lookup k = m'.lookup k) : M = M' := by
  funext d
  refine Option.ext fun w => ?_
  rw [h d w, h' d w]
  simp only [hm]

theorem Indexes.congr {M : δ → Option ω} {m m' : HashMap κ ν} (h : Indexes key mk M m)
    (hm : ∀ k, m.lookup k = m'.lookup k) : Indexes key mk M m' := by
  intro d w
  rw [h d w]
  simp only [hm]

variable [DecidableEq δ]

theorem Indexes.insert {M : δ → Option ω} {m : HashMap κ ν} (h : Indexes key mk M m) {k : κ}
    (hk : ∀ k' ∈ m, key k' = key k → k' = k) (v : ν) :
    Indexes key mk (Function.update M (key k) (some (mk k v))) (m.insert k v) := by
  intro d w
  by_cases hd : d = key k
  · subst hd
    rw [Function.update_self]
    constructor
    · intro hw
      exact ⟨k, v, AList.lookup_insert m, rfl, Option.some.inj hw⟩
    · rintro ⟨k', v', hl, hkey, rfl⟩
      have hkk : k' = k := by
        by_contra hne
        rw [AList.lookup_insert_ne hne] at hl
        exact hne (hk k' (AList.lookup_isSome.mp (by rw [hl]; rfl)) hkey)
      subst hkk
      rw [AList.lookup_insert] at hl
      cases hl
      rfl
  · rw [Function.update_of_ne hd, h d w]
    constructor
    · rintro ⟨k', v', hl, hkey, hw⟩
      have hne : k' ≠ k := fun e => hd (by rw [← hkey, e])
      exact ⟨k', v', by rw [AList.lookup_insert_ne hne]; exact hl, hkey, hw⟩
    · rintro ⟨k', v', hl, hkey, hw⟩
      have hne : k' ≠ k := fun e => hd (by rw [← hkey, e])
      exact ⟨k', v', by rw [AList.lookup_insert_ne hne] at hl; exact hl, hkey, hw⟩

theorem Indexes.erase {M : δ → Option ω} {m : HashMap κ ν} (h : Indexes key mk M m) {k : κ}
    (hk : ∀ k' ∈ m, key k' = key k → k' = k) :
    Indexes key mk (Function.update M (key k) none) (m.erase k) := by
  intro d w
  by_cases hd : d = key k
  · subst hd
    rw [Function.update_self]
    refine iff_of_false (by simp) ?_
    rintro ⟨k', v', hl, hkey, _⟩
    by_cases hkk : k' = k
    · subst hkk
      rw [AList.lookup_erase] at hl
      cases hl
    · rw [AList.lookup_erase_ne hkk] at hl
      exact hkk (hk k' (AList.lookup_isSome.mp (by rw [hl]; rfl)) hkey)
  · rw [Function.update_of_ne hd, h d w]
    constructor
    · rintro ⟨k', v', hl, hkey, hw⟩
      have hne : k' ≠ k := fun e => hd (by rw [← hkey, e])
      exact ⟨k', v', by rw [AList.lookup_erase_ne hne]; exact hl, hkey, hw⟩
    · rintro ⟨k', v', hl, hkey, hw⟩
      have hne : k' ≠ k := fun e => hd (by rw [← hkey, e])
      exact ⟨k', v', by rw [AList.lookup_erase_ne hne] at hl; exact hl, hkey, hw⟩

/-! ## 4. Many entries at once -/

/-- The entries of `l` inserted one by one, then looked up: `l` hides what the map held before. -/
theorem lookup_insertAll {l : List (Sigma fun _ : κ => ν)} (hl : l.NodupKeys) (m : HashMap κ ν)
    (k : κ) : (l.foldl (fun m e => m.insert e.1 e.2) m).lookup k = (l.dlookup k).or (m.lookup k) := by
  induction l generalizing m with
  | nil => simp
  | cons e l ih =>
      obtain ⟨k', v⟩ := e
      obtain ⟨hk', hl'⟩ := List.nodupKeys_cons.mp hl
      rw [List.foldl_cons, ih hl']
      by_cases hk : k = k'
      · subst hk
        rw [List.dlookup_eq_none.mpr hk', AList.lookup_insert, List.dlookup_cons_eq]
        rfl
      · rw [AList.lookup_insert_ne hk, List.dlookup_cons_ne _ _ hk]

/-- The keys of `l` erased one by one, then looked up. -/
theorem lookup_eraseAll (l : List κ) (m : HashMap κ ν) (k : κ) :
    (l.foldl (fun m k => m.erase k) m).lookup k = if k ∈ l then none else m.lookup k := by
  induction l generalizing m with
  | nil => simp
  | cons k' l ih =>
      rw [List.foldl_cons, ih]
      by_cases hk : k = k'
      · subst hk
        simp
      · rw [AList.lookup_erase_ne hk]
        simp [hk]

/-- **A patch**: the keys that are gone erased, then the entries that are new or changed inserted,
    and `m` holds what `m'` holds. -/
theorem lookup_patch [DecidableEq ν] (m m' : HashMap κ ν) (k : κ) :
    ((m'.entries.filter fun e => m.lookup e.1 ≠ some e.2).foldl (fun m e => m.insert e.1 e.2)
      ((m.keys.filter fun k => m'.lookup k = none).foldl (fun m k => m.erase k) m)).lookup k =
      m'.lookup k := by
  have hnd : (m'.entries.filter fun e => m.lookup e.1 ≠ some e.2).NodupKeys :=
    m'.nodupKeys.sublist List.filter_sublist
  rw [lookup_insertAll hnd, lookup_eraseAll]
  have hadd : ∀ v, (m'.entries.filter fun e => m.lookup e.1 ≠ some e.2).dlookup k = some v ↔
      m'.lookup k = some v ∧ m.lookup k ≠ some v := by
    intro v
    have hmem : (m'.entries.filter fun e => m.lookup e.1 ≠ some e.2).dlookup k = some v ↔
        ⟨k, v⟩ ∈ m'.entries.filter fun e => m.lookup e.1 ≠ some e.2 :=
      List.mem_dlookup_iff hnd
    rw [hmem, List.mem_filter, mem_entries]
    simp
  cases hnew : m'.lookup k with
  | none =>
      have hn : (m'.entries.filter fun e => m.lookup e.1 ≠ some e.2).dlookup k = none := by
        refine Option.eq_none_iff_forall_ne_some.mpr fun v hv => ?_
        have h := ((hadd v).mp hv).1
        rw [hnew] at h
        cases h
      rw [hn, Option.none_or]
      split
      · rfl
      · rename_i hk
        by_contra hne
        refine hk (List.mem_filter.mpr ⟨?_, by simp [hnew]⟩)
        exact AList.mem_keys.mp (AList.lookup_isSome.mp (Option.isSome_iff_ne_none.mpr hne))
  | some v =>
      by_cases hold : m.lookup k = some v
      · have hn : (m'.entries.filter fun e => m.lookup e.1 ≠ some e.2).dlookup k = none := by
          refine Option.eq_none_iff_forall_ne_some.mpr fun w hw => ?_
          obtain ⟨h1, h2⟩ := (hadd w).mp hw
          rw [hnew] at h1
          cases h1
          exact h2 hold
        rw [hn, Option.none_or, if_neg (by simp [hnew]), hold]
      · rw [(hadd v).mpr ⟨hnew, hold⟩, Option.some_or]

/-- Inserting entries into a table and into the map, where no two keys of `S` collide. -/
theorem Indexes.insertAll {S : Set κ} (hk : Set.InjOn key S) {l : List (Sigma fun _ : κ => ν)}
    {M : δ → Option ω} {m : HashMap κ ν} (h : Indexes key mk M m) (hm : ∀ k ∈ m, k ∈ S)
    (hl : ∀ e ∈ l, e.1 ∈ S) :
    Indexes key mk (l.foldl (fun M e => Function.update M (key e.1) (some (mk e.1 e.2))) M)
      (l.foldl (fun m e => m.insert e.1 e.2) m) := by
  induction l generalizing M m with
  | nil => exact h
  | cons e l ih =>
      have he : e.1 ∈ S := hl e List.mem_cons_self
      refine ih (h.insert (fun k' hk' hkey => hk (hm k' hk') he hkey) e.2) (fun k' hk' => ?_)
        fun e' he' => hl e' (List.mem_cons_of_mem _ he')
      rcases (AList.mem_insert m).mp hk' with rfl | hk'
      · exact he
      · exact hm k' hk'

/-- Erasing keys from a table and from the map, where no two keys of `S` collide. -/
theorem Indexes.eraseAll {S : Set κ} (hk : Set.InjOn key S) {l : List κ} {M : δ → Option ω}
    {m : HashMap κ ν} (h : Indexes key mk M m) (hm : ∀ k ∈ m, k ∈ S) (hl : ∀ k ∈ l, k ∈ S) :
    Indexes key mk (l.foldl (fun M k => Function.update M (key k) none) M)
      (l.foldl (fun m k => m.erase k) m) ∧ ∀ k ∈ l.foldl (fun m k => m.erase k) m, k ∈ S := by
  induction l generalizing M m with
  | nil => exact ⟨h, hm⟩
  | cons k l ih =>
      have hkS : k ∈ S := hl k List.mem_cons_self
      refine ih (h.erase fun k' hk' hkey => hk (hm k' hk') hkS hkey) (fun k' hk' => ?_)
        fun k' hk' => hl k' (List.mem_cons_of_mem _ hk')
      exact hm k' (AList.mem_erase.mp hk').2

/-- Whatever the keys, a table holds nothing that the map does not hold. -/
theorem indexBy_eq_some {m : HashMap κ ν} {d : δ} {w : ω} (h : indexBy key mk m d = some w) :
    ∃ k v, m.lookup k = some v ∧ key k = d ∧ mk k v = w := by
  have hgo : ∀ (l : List (Sigma fun _ : κ => ν)) (M : δ → Option ω),
      l.foldl (fun M e => Function.update M (key e.1) (some (mk e.1 e.2))) M d = some w →
        M d = some w ∨ ∃ e ∈ l, key e.1 = d ∧ mk e.1 e.2 = w := by
    intro l
    induction l with
    | nil => exact fun M hM => Or.inl hM
    | cons e l ih =>
        intro M hM
        rcases ih _ hM with hM | ⟨x, hx, hw⟩
        · have hM' : Function.update M (key e.1) (some (mk e.1 e.2)) d = some w := hM
          by_cases hd : d = key e.1
          · subst hd
            rw [Function.update_self] at hM'
            exact Or.inr ⟨e, List.mem_cons_self, rfl, Option.some.inj hM'⟩
          · rw [Function.update_of_ne hd] at hM'
            exact Or.inl hM'
        · exact Or.inr ⟨x, List.mem_cons_of_mem _ hx, hw⟩
  rcases hgo m.entries _ h with hn | ⟨e, he, hk, hw⟩
  · cases hn
  · exact ⟨e.1, e.2, mem_entries.mp he, hk, hw⟩

/-- **Inserting the entries one by one makes a table of the map**, where no two keys collide. -/
theorem indexes_indexBy {m : HashMap κ ν} (hk : Set.InjOn key {k | k ∈ m}) :
    Indexes key mk (indexBy key mk m) m := by
  have hnone : Indexes key mk (fun _ => none) (∅ : HashMap κ ν) := by
    intro d w
    refine iff_of_false (by simp) ?_
    rintro ⟨k, v, hl, _⟩
    rw [AList.lookup_empty] at hl
    cases hl
  refine (hnone.insertAll hk (fun k h => absurd h (AList.notMem_empty k)) fun e he => ?_).congr
    fun k => ?_
  · exact AList.mem_keys.mpr (List.mem_keys_of_mem he)
  · rw [lookup_insertAll m.nodupKeys, AList.lookup_empty, Option.or_none]
    rfl

end HashMap

end Collections
