/-
  File:      Penetrate/ConfigWatcher.lean
  Subject:   THE DIFFER OF `config_watcher.rs`.

  `calculate_events` compares two configurations; `calculate_instance_config_events` compares two
  sections of either kind, through `InstanceConfig`. The deletions and additions come in the
  iteration order of the two service maps.

  `indexes_calculate` is what the events are good for: applied one by one to a table of the old
  services they turn it into a table of the new ones, whatever the iteration orders.
  `calculate_events_exact` says which events there are: none more than the change asks for.
-/
import Penetrate.Config

namespace Penetrate

open Collections

/-! ## 1. Changes -/

inductive ClientServiceChange where
  | add (cfg : ClientServiceConfig)
  | delete (name : String)

inductive ServerServiceChange where
  | add (cfg : ServerServiceConfig)
  | delete (name : String)

inductive ConfigChange where
  | general (config : Config)
  | serverChange (c : ServerServiceChange)
  | clientChange (c : ClientServiceChange)

/-- The trait `InstanceConfig`. -/
class InstanceConfig (T : Type) (ServiceConfig : outParam Type) where
  equal_without_service : T → T → Bool
  service_delete_change : String → ConfigChange
  service_add_change : ServiceConfig → ConfigChange
  get_services : T → HashMap String ServiceConfig

instance : InstanceConfig ServerConfig ServerServiceConfig where
  equal_without_service a b := a.settings.eq b.settings
  service_delete_change s := .serverChange (.delete s)
  service_add_change cfg := .serverChange (.add cfg)
  get_services := ServerConfig.services

instance : InstanceConfig ClientConfig ClientServiceConfig where
  equal_without_service a b := a.settings.eq b.settings
  service_delete_change s := .clientChange (.delete s)
  service_add_change cfg := .clientChange (.add cfg)
  get_services := ClientConfig.services

open InstanceConfig

/-! ## 2. The differ -/

/-- `none` asks for a `General` change. -/
def calculate_instance_config_events {T S : Type} [InstanceConfig T S] [DecidableEq S]
    (old new : T) : Option (List ConfigChange) :=
  if equal_without_service old new then
    let old := get_services old
    let new := get_services new
    let deletions := (old.keys.filter fun name => new.lookup name = none).map
      (service_delete_change T)
    let addition := (new.entries.filter fun e => old.lookup e.1 ≠ some e.2).map
      fun e => service_add_change T e.2
    some (deletions ++ addition)
  else none

/-- One section of `calculate_events`: nothing where it is unchanged. -/
def sectionEvents {T S : Type} [InstanceConfig T S] [DecidableEq S] (eq : T → T → Bool) :
    Option T → Option T → Option (List ConfigChange)
  | some old, some new => if eq old new then some [] else calculate_instance_config_events old new
  | _, _ => some []

def calculate_events (old new : Config) : Option (List ConfigChange) :=
  if old.eq new then none
  else if old.server.isSome != new.server.isSome || old.client.isSome != new.client.isSome then
    some [.general new]
  else match sectionEvents ServerConfig.eq old.server new.server with
    | none => some [.general new]
    | some ret => match sectionEvents ClientConfig.eq old.client new.client with
      | none => some [.general new]
      | some v => some (ret ++ v)

/-! ## 3. What the events do to a table of the services -/

theorem foldl_congr_mem {α β : Type} {f g : β → α → β} {l : List α} (h : ∀ b, ∀ a ∈ l, f b a = g b a)
    (b : β) : l.foldl f b = l.foldl g b := by
  induction l generalizing b with
  | nil => rfl
  | cons a l ih =>
      rw [List.foldl_cons, List.foldl_cons, h b a List.mem_cons_self]
      exact ih (fun b a' ha' => h b a' (List.mem_cons_of_mem _ ha')) _

section Patch

variable {T S ω δ : Type} [InstanceConfig T S] [DecidableEq S] [DecidableEq δ]

/-- **The events turn a table of the old services into one of the new.** `app` applies one change;
    it files a service under the key of the name the service carries. -/
theorem indexes_calculate (app : (δ → Option ω) → ConfigChange → δ → Option ω) (key : String → δ)
    (mk : S → ω) (nameOf : S → String)
    (hdel : ∀ M n, app M (service_delete_change T n) = Function.update M (key n) none)
    (hadd : ∀ M s, app M (service_add_change T s) =
      Function.update M (key (nameOf s)) (some (mk s)))
    {old new : T} {evs : List ConfigChange}
    (h : calculate_instance_config_events old new = some evs)
    (hname : ∀ n s, (get_services new).lookup n = some s → nameOf s = n)
    (hkey : Set.InjOn key {n | n ∈ get_services old ∨ n ∈ get_services new}) {M : δ → Option ω}
    (hM : HashMap.Indexes key (fun _ => mk) M (get_services old)) :
    HashMap.Indexes key (fun _ => mk) (evs.foldl app M) (get_services new) := by
  unfold calculate_instance_config_events at h
  split at h
  · cases h
    have hdels : ∀ k ∈ (get_services old).keys.filter fun name => (get_services new).lookup name = none,
        k ∈ {n | n ∈ get_services old ∨ n ∈ get_services new} :=
      fun k hk => Or.inl (AList.mem_keys.mpr (List.mem_filter.mp hk).1)
    have hadds : ∀ e ∈ (get_services new).entries.filter
        fun e => (get_services old).lookup e.1 ≠ some e.2,
        (get_services new).lookup e.1 = some e.2 :=
      fun e he => HashMap.mem_entries.mp (List.mem_filter.mp he).1
    obtain ⟨hM1, hmem1⟩ := hM.eraseAll hkey (fun k hk => Or.inl hk) hdels
    have hM2 := hM1.insertAll hkey hmem1 fun e he =>
      Or.inr (AList.lookup_isSome.mp (by rw [hadds e he]; rfl))
    rw [List.foldl_append, List.foldl_map, List.foldl_map]
    simp only [hdel, hadd]
    rw [foldl_congr_mem (g := fun M e => Function.update M (key e.1) (some (mk e.2)))
      fun b e he => by rw [hname e.1 e.2 (hadds e he)]]
    exact hM2.congr (HashMap.lookup_patch _ _)
  · cases h

end Patch

/-! ## 4. The events are exact -/

/-- The events of one section: one deletion for each name that is gone, one addition for each
    service that is new or changed, the deletions first. -/
structure SectionExact {S : Type} (delete : String → ConfigChange) (add : S → ConfigChange)
    (nameOf : S → String) (old new : String → Option S) (evs : List ConfigChange) : Prop where
  deletes : ∀ n, delete n ∈ evs ↔ old n ≠ none ∧ new n = none
  adds : ∀ s, add s ∈ evs ↔ new (nameOf s) = some s ∧ old (nameOf s) ≠ some s
  ordered : evs.Pairwise fun x y => (∃ s, x = add s) → ∀ n, y ≠ delete n

section

variable {T S : Type} [InstanceConfig T S] [DecidableEq S] {old new : T} {evs : List ConfigChange}

/-- Every event of a section is a deletion, or the addition of a service it has now. -/
theorem calculate_instance_kinds (h : calculate_instance_config_events old new = some evs) :
    ∀ e ∈ evs, (∃ n, e = service_delete_change T n) ∨
      ∃ s, e = service_add_change T s ∧ ∃ n, (get_services new).lookup n = some s := by
  unfold calculate_instance_config_events at h
  split at h
  · cases h
    intro e he
    rcases List.mem_append.mp he with he | he
    · obtain ⟨n, -, rfl⟩ := List.mem_map.mp he
      exact Or.inl ⟨n, rfl⟩
    · obtain ⟨x, hx, rfl⟩ := List.mem_map.mp he
      exact Or.inr ⟨x.2, rfl, x.1, HashMap.mem_entries.mp (List.mem_filter.mp hx).1⟩
  · cases h

theorem sectionEvents_kinds {eq : T → T → Bool} {x y : Option T}
    (h : sectionEvents eq x y = some evs) :
    ∀ e ∈ evs, (∃ n, e = service_delete_change T n) ∨
      ∃ s, e = service_add_change T s ∧
        ∃ n, (y.bind fun b => (get_services b).lookup n) = some s := by
  unfold sectionEvents at h
  split at h
  · split at h
    · cases h
      simp
    · exact calculate_instance_kinds h
  · cases h
    simp

/-- The names that are gone. -/
def goneNames (old new : T) : List String :=
  (get_services old).keys.filter fun name => (get_services new).lookup name = none

/-- The services that are new or changed, under their names. -/
def newEntries (old new : T) : List (Sigma fun _ : String => S) :=
  (get_services new).entries.filter fun e => (get_services old).lookup e.1 ≠ some e.2

omit [DecidableEq S] in
theorem mem_goneNames {n : String} :
    n ∈ goneNames old new ↔ (get_services old).lookup n ≠ none ∧ (get_services new).lookup n = none := by
  have hkeys : n ∈ (get_services old).keys ↔ (get_services old).lookup n ≠ none := by
    rw [Ne, AList.lookup_eq_none, not_not, AList.mem_keys]
  unfold goneNames
  rw [List.mem_filter, decide_eq_true_eq, hkeys]

theorem mem_newEntries {e : Sigma fun _ : String => S} :
    e ∈ newEntries old new ↔
      (get_services new).lookup e.1 = some e.2 ∧ (get_services old).lookup e.1 ≠ some e.2 := by
  unfold newEntries
  rw [List.mem_filter, HashMap.mem_entries, decide_eq_true_eq]

theorem calculate_instance_eq (h : calculate_instance_config_events old new = some evs) :
    evs = (goneNames old new).map (service_delete_change T) ++
      (newEntries old new).map fun e => service_add_change T e.2 := by
  unfold calculate_instance_config_events at h
  split at h
  · cases h
    rfl
  · cases h

/-- Deletions and additions come once each: an added service names its key. -/
theorem calculate_instance_nodup {nameOf : S → String}
    (hd : Function.Injective (service_delete_change T))
    (ha : Function.Injective (service_add_change T))
    (hne : ∀ n s, service_delete_change T n ≠ service_add_change T s)
    (hname : ∀ n s, (get_services new).lookup n = some s → nameOf s = n)
    (h : calculate_instance_config_events old new = some evs) : evs.Nodup := by
  have hgone : (goneNames old new).Nodup := (get_services old).keys_nodup.filter _
  have hnew : (newEntries old new).Nodup := ((get_services new).nodupKeys.nodup).filter _
  rw [calculate_instance_eq h]
  refine List.nodup_append.mpr ⟨hgone.map hd, hnew.map_on ?_, ?_⟩
  · intro x hx y hy e
    have he : x.2 = y.2 := ha e
    have hk : x.1 = y.1 := by
      rw [← hname _ _ (mem_newEntries.mp hx).1, ← hname _ _ (mem_newEntries.mp hy).1, he]
    exact Sigma.ext hk (heq_of_eq he)
  · intro x hx y hy e
    obtain ⟨n, -, rfl⟩ := List.mem_map.mp hx
    obtain ⟨z, -, rfl⟩ := List.mem_map.mp hy
    exact hne _ _ e

/-- The deletions and additions of a section are exact, and the deletions come first. -/
theorem calculate_instance_exact {nameOf : S → String}
    (hd : Function.Injective (service_delete_change T))
    (ha : Function.Injective (service_add_change T))
    (hne : ∀ n s, service_delete_change T n ≠ service_add_change T s)
    (hname : ∀ n s, (get_services new).lookup n = some s → nameOf s = n)
    (h : calculate_instance_config_events old new = some evs) :
    SectionExact (service_delete_change T) (service_add_change T) nameOf
      (get_services old).lookup (get_services new).lookup evs := by
  have hdel : ∀ n x, x ∈ (newEntries old new).map (fun e => service_add_change T e.2) →
      x ≠ service_delete_change T n := by
    intro n x hx e
    obtain ⟨z, -, rfl⟩ := List.mem_map.mp hx
    exact hne _ _ e.symm
  have hadd : ∀ s x, x ∈ (goneNames old new).map (service_delete_change T) →
      x ≠ service_add_change T s := by
    intro s x hx e
    obtain ⟨n, -, rfl⟩ := List.mem_map.mp hx
    exact hne _ _ e
  rw [calculate_instance_eq h]
  refine ⟨fun n => ?_, fun s => ?_, List.pairwise_append.mpr ⟨?_, ?_, ?_⟩⟩
  · rw [List.mem_append, or_iff_left fun hm => hdel n _ hm rfl, List.mem_map_of_injective hd,
      mem_goneNames]
  · rw [List.mem_append, or_iff_right fun hm => hadd s _ hm rfl, List.mem_map]
    constructor
    · rintro ⟨x, hx, e⟩
      cases ha e
      obtain ⟨h1, h2⟩ := mem_newEntries.mp hx
      rw [hname _ _ h1]
      exact ⟨h1, h2⟩
    · intro hs
      exact ⟨⟨nameOf s, s⟩, mem_newEntries.mpr hs, rfl⟩
  · refine List.pairwise_of_forall_mem_list fun x hx y _ hs => ?_
    obtain ⟨s, rfl⟩ := hs
    exact absurd rfl (hadd s _ hx)
  · exact List.pairwise_of_forall_mem_list fun x _ y hy _ n => hdel n y hy
  · intro x hx y hy hs
    obtain ⟨s, rfl⟩ := hs
    exact absurd rfl (hadd s _ hx)

/-- One section of two configurations that both have it, or both lack it. -/
theorem sectionEvents_exact {eq : T → T → Bool} (nameOf : S → String)
    (hd : Function.Injective (service_delete_change T))
    (ha : Function.Injective (service_add_change T))
    (hne : ∀ n s, service_delete_change T n ≠ service_add_change T s)
    (heq : ∀ {a b : T}, eq a b = true → ∀ n, (get_services a).lookup n = (get_services b).lookup n)
    {x y : Option T} (hxy : x.isSome = y.isSome)
    (hname : ∀ b, y = some b → ∀ n s, (get_services b).lookup n = some s → nameOf s = n)
    (h : sectionEvents eq x y = some evs) :
    evs.Nodup ∧ SectionExact (service_delete_change T) (service_add_change T) nameOf
        (fun n => x.bind fun a => (get_services a).lookup n)
        (fun n => y.bind fun b => (get_services b).lookup n) evs := by
  unfold sectionEvents at h
  split at h
  · rename_i a b
    split at h
    · rename_i he
      cases h
      have hl := heq he
      refine ⟨.nil, fun n => ?_, fun s => ?_, .nil⟩ <;> simp [hl]
    · exact ⟨calculate_instance_nodup hd ha hne (hname b rfl) h,
        calculate_instance_exact hd ha hne (hname b rfl) h⟩
  · rename_i hns
    cases h
    cases x with
    | none => cases y with
      | none => exact ⟨.nil, fun n => by simp, fun s => by simp, .nil⟩
      | some b => cases hxy
    | some a => cases y with
      | none => cases hxy
      | some b => exact absurd rfl (hns a b rfl)

/-- Events of other kinds around those of a section change nothing of it. -/
theorem SectionExact.among {S : Type} {delete : String → ConfigChange} {add : S → ConfigChange}
    {nameOf : S → String} {old new : String → Option S} {evs : List ConfigChange}
    (h : SectionExact delete add nameOf old new evs) (pre post : List ConfigChange)
    (hpre : ∀ e ∈ pre, (∀ n, e ≠ delete n) ∧ ∀ s, e ≠ add s)
    (hpost : ∀ e ∈ post, (∀ n, e ≠ delete n) ∧ ∀ s, e ≠ add s) :
    SectionExact delete add nameOf old new (pre ++ evs ++ post) where
  deletes n := by
    have h1 : delete n ∉ pre := fun hm => (hpre _ hm).1 n rfl
    have h2 : delete n ∉ post := fun hm => (hpost _ hm).1 n rfl
    simpa [h1, h2] using h.deletes n
  adds s := by
    have h1 : add s ∉ pre := fun hm => (hpre _ hm).2 s rfl
    have h2 : add s ∉ post := fun hm => (hpost _ hm).2 s rfl
    simpa [h1, h2] using h.adds s
  ordered := by
    refine List.pairwise_append.mpr ⟨List.pairwise_append.mpr ⟨?_, h.ordered, ?_⟩, ?_, ?_⟩
    · refine List.pairwise_of_forall_mem_list ?_
      rintro x hx y - ⟨s, rfl⟩
      exact absurd rfl ((hpre _ hx).2 s)
    · rintro x hx y - ⟨s, rfl⟩
      exact absurd rfl ((hpre _ hx).2 s)
    · refine List.pairwise_of_forall_mem_list ?_
      rintro x - y hy - n rfl
      exact (hpost _ hy).1 n rfl
    · rintro x - y hy - n rfl
      exact (hpost _ hy).1 n rfl

end

/-- The service a configuration has under a name, in either section. -/
def Config.serverService (c : Config) (n : String) : Option ServerServiceConfig :=
  c.server.bind fun s => s.services.lookup n

def Config.clientService (c : Config) (n : String) : Option ClientServiceConfig :=
  c.client.bind fun s => s.services.lookup n

/-- A section appeared, disappeared, or changed in something other than its services. -/
def NeedsRestart (old new : Config) : Prop :=
  old.server.map ServerConfig.settings ≠ new.server.map ServerConfig.settings ∨
    old.client.map ClientConfig.settings ≠ new.client.map ClientConfig.settings

/-- The events of both sections, and no other. -/
structure Exact (old new : Config) (evs : List ConfigChange) : Prop where
  nodup : evs.Nodup
  no_general : ∀ c, .general c ∉ evs
  server : SectionExact (fun n => .serverChange (.delete n)) (fun s => .serverChange (.add s))
    ServerServiceConfig.name old.serverService new.serverService evs
  client : SectionExact (fun n => .clientChange (.delete n)) (fun s => .clientChange (.add s))
    ClientServiceConfig.name old.clientService new.clientService evs

theorem equal_server {a b : ServerConfig} :
    equal_without_service a b = true ↔ a.settings = b.settings := by
  refine ⟨fun h => (ServerConfig.eq_iff.mp h).1, fun h => ?_⟩
  exact ServerConfig.eq_iff.mpr ⟨h, fun _ => rfl⟩

theorem equal_client {a b : ClientConfig} :
    equal_without_service a b = true ↔ a.settings = b.settings := by
  refine ⟨fun h => (ClientConfig.eq_iff.mp h).1, fun h => ?_⟩
  exact ClientConfig.eq_iff.mpr ⟨h, fun _ => rfl⟩

/-- A section asks for a restart precisely when its settings changed. -/
theorem sectionEvents_eq_none {T S : Type} [InstanceConfig T S] [DecidableEq S]
    {eq : T → T → Bool} {σ : Type} (settings : T → σ)
    (heq : ∀ {a b : T}, eq a b = true → settings a = settings b)
    (hset : ∀ {a b : T}, equal_without_service a b = true ↔ settings a = settings b)
    {x y : Option T} (hxy : x.isSome = y.isSome) :
    sectionEvents eq x y = none ↔ x.map settings ≠ y.map settings := by
  cases x with
  | none => cases y with
    | none => simp [sectionEvents]
    | some b => cases hxy
  | some a => cases y with
    | none => cases hxy
    | some b =>
        by_cases he : eq a b = true
        · simp [sectionEvents, he, heq he]
        · by_cases hs : settings a = settings b
          · simp [sectionEvents, he, calculate_instance_config_events, hset.mpr hs, hs]
          · have hs' : ¬ equal_without_service a b = true := fun h => hs (hset.mp h)
            simp [sectionEvents, he, calculate_instance_config_events, hs', hs]

theorem optEq_map {α β : Type} {eq : α → α → Bool} {f : α → β}
    (heq : ∀ {a b : α}, eq a b = true → f a = f b) {x y : Option α} (h : optEq eq x y = true) :
    x.map f = y.map f := by
  cases x <;> cases y
  · rfl
  · cases h
  · cases h
  · exact congrArg some (heq h)

/-- Equal configurations need no restart. -/
theorem not_needsRestart_of_eq {old new : Config} (h : old.eq new = true) :
    ¬ NeedsRestart old new := by
  obtain ⟨hs, hc⟩ := (Bool.and_eq_true _ _).mp h
  have hs' := optEq_map (f := ServerConfig.settings) (fun h => (ServerConfig.eq_iff.mp h).1) hs
  have hc' := optEq_map (f := ClientConfig.settings) (fun h => (ClientConfig.eq_iff.mp h).1) hc
  rintro (h | h)
  · exact h hs'
  · exact h hc'

/-- A section that appeared or disappeared asks for a restart. -/
theorem needsRestart_of_presence {old new : Config}
    (h : (old.server.isSome != new.server.isSome || old.client.isSome != new.client.isSome) = true) :
    NeedsRestart old new := by
  by_contra hn
  unfold NeedsRestart at hn
  push Not at hn
  obtain ⟨hs, hc⟩ := hn
  have hs' : old.server.isSome = new.server.isSome := by
    rw [← Option.isSome_map (f := ServerConfig.settings), hs, Option.isSome_map]
  have hc' : old.client.isSome = new.client.isSome := by
    rw [← Option.isSome_map (f := ClientConfig.settings), hc, Option.isSome_map]
  simp [hs', hc'] at h

/-- The events of the two sections, one after the other. -/
theorem exact_append {old new : Config} (hnew : new.Valid)
    (hs : old.server.isSome = new.server.isSome) (hc : old.client.isSome = new.client.isSome)
    {ret v : List ConfigChange}
    (hret : sectionEvents ServerConfig.eq old.server new.server = some ret)
    (hv : sectionEvents ClientConfig.eq old.client new.client = some v) :
    Exact old new (ret ++ v) := by
  obtain ⟨hrn, hrx⟩ := sectionEvents_exact ServerServiceConfig.name
    (fun _ _ e => by cases e; rfl) (fun _ _ e => by cases e; rfl) (fun _ _ e => by cases e)
    (fun h => (ServerConfig.eq_iff.mp h).2) hs (fun b hb n s h => (hnew.server b hb n s h).1) hret
  obtain ⟨hvn, hvx⟩ := sectionEvents_exact ClientServiceConfig.name
    (fun _ _ e => by cases e; rfl) (fun _ _ e => by cases e; rfl) (fun _ _ e => by cases e)
    (fun h => (ClientConfig.eq_iff.mp h).2) hc (fun b hb n s h => (hnew.client b hb n s h).1) hv
  have hrk := sectionEvents_kinds hret
  have hvk := sectionEvents_kinds hv
  refine ⟨List.nodup_append.mpr ⟨hrn, hvn, fun x hx y hy e => ?_⟩, fun c hm => ?_, ?_, ?_⟩
  · subst e
    rcases hrk x hx with ⟨n, rfl⟩ | ⟨s, rfl, -⟩ <;>
      rcases hvk _ hy with ⟨m, e⟩ | ⟨s', e, -⟩ <;> cases e
  · rcases List.mem_append.mp hm with hm | hm
    · rcases hrk _ hm with ⟨n, e⟩ | ⟨s, e, -⟩ <;> cases e
    · rcases hvk _ hm with ⟨n, e⟩ | ⟨s, e, -⟩ <;> cases e
  · refine hrx.among [] v (by simp) fun e he => ?_
    rcases hvk e he with ⟨n, rfl⟩ | ⟨s, rfl, -⟩ <;>
      exact ⟨(fun n e => by cases e), (fun s e => by cases e)⟩
  · have hx := hvx.among ret [] (fun e he => ?_) (by simp)
    · rw [List.append_nil] at hx
      exact hx
    · rcases hrk e he with ⟨n, rfl⟩ | ⟨s, rfl, -⟩ <;>
        exact ⟨(fun n e => by cases e), (fun s e => by cases e)⟩

/-- What the differ answers where the sections are the same ones. -/
theorem calculate_events_sections {old new : Config} (he : old.eq new = false)
    (hs : old.server.isSome = new.server.isSome) (hc : old.client.isSome = new.client.isSome) :
    calculate_events old new =
      match sectionEvents ServerConfig.eq old.server new.server with
      | none => some [.general new]
      | some ret => match sectionEvents ClientConfig.eq old.client new.client with
        | none => some [.general new]
        | some v => some (ret ++ v) := by
  unfold calculate_events
  rw [he, hs, hc]
  simp only [Bool.false_eq_true, if_false, bne_self_eq_false, Bool.or_self]

/-- Where both have the same sections, a restart is needed where one of them asks for it. -/
theorem needsRestart_iff_sections {old new : Config}
    (hs : old.server.isSome = new.server.isSome) (hc : old.client.isSome = new.client.isSome) :
    NeedsRestart old new ↔ sectionEvents ServerConfig.eq old.server new.server = none ∨
      sectionEvents ClientConfig.eq old.client new.client = none := by
  have hsn := sectionEvents_eq_none ServerConfig.settings
    (fun h => (ServerConfig.eq_iff.mp h).1) equal_server hs
  have hcn := sectionEvents_eq_none ClientConfig.settings
    (fun h => (ClientConfig.eq_iff.mp h).1) equal_client hc
  unfold NeedsRestart
  rw [hsn, hcn]

theorem calculate_events_eq_none {old new : Config} :
    calculate_events old new = none ↔ old.eq new = true := by
  unfold calculate_events
  split
  · rename_i he
    exact iff_of_true rfl he
  · rename_i he
    refine iff_of_false ?_ he
    split
    · simp
    · split
      · simp
      · split <;> simp

theorem calculate_events_general {old new : Config} (hneed : NeedsRestart old new) :
    calculate_events old new = some [.general new] := by
  have he : old.eq new = false := by
    by_contra hne
    exact not_needsRestart_of_eq (by simpa using hne) hneed
  by_cases hp : (old.server.isSome != new.server.isSome ||
      old.client.isSome != new.client.isSome) = true
  · unfold calculate_events
    rw [if_neg (by simp [he]), if_pos hp]
  · obtain ⟨hs, hc⟩ : old.server.isSome = new.server.isSome ∧
        old.client.isSome = new.client.isSome := by simpa using hp
    rw [calculate_events_sections he hs hc]
    rcases (needsRestart_iff_sections hs hc).mp hneed with h | h
    · rw [h]
    · rw [h]
      cases sectionEvents ServerConfig.eq old.server new.server <;> rfl

theorem calculate_events_services {old new : Config} (hnew : new.Valid) (he : old.eq new = false)
    (hno : ¬ NeedsRestart old new) :
    ∃ evs, calculate_events old new = some evs ∧ Exact old new evs := by
  obtain ⟨hs, hc⟩ : old.server.isSome = new.server.isSome ∧
      old.client.isSome = new.client.isSome := by
    by_contra hp
    exact hno (needsRestart_of_presence (by simpa [imp_iff_not_or] using hp))
  rw [calculate_events_sections he hs hc]
  rw [needsRestart_iff_sections hs hc, not_or] at hno
  cases hret : sectionEvents ServerConfig.eq old.server new.server with
  | none => exact absurd hret hno.1
  | some ret =>
      cases hv : sectionEvents ClientConfig.eq old.client new.client with
      | none => exact absurd hv hno.2
      | some v => exact ⟨ret ++ v, rfl, exact_append hnew hs hc hret hv⟩

/-- **The differ is exact and minimal**: it is silent precisely on equal configurations, asks for a
    restart with the new one precisely where that is needed, and otherwise gives one event for each
    service that is gone, new or changed, whatever order the services are iterated in. -/
theorem calculate_events_exact {old new : Config} (hnew : new.Valid) :
    (calculate_events old new = none ↔ old.eq new = true) ∧
      (calculate_events old new = some [.general new] ↔ NeedsRestart old new) ∧
      (old.eq new = false → ¬ NeedsRestart old new →
        ∃ evs, calculate_events old new = some evs ∧ Exact old new evs) := by
  refine ⟨calculate_events_eq_none, ⟨fun hgen => ?_, calculate_events_general⟩,
    calculate_events_services hnew⟩
  by_contra hno
  cases he : old.eq new with
  | true =>
      rw [calculate_events_eq_none.mpr he] at hgen
      cases hgen
  | false =>
      obtain ⟨evs, hevs, hx⟩ := calculate_events_services hnew he hno
      rw [hgen] at hevs
      cases hevs
      exact hx.no_general new (List.mem_singleton_self _)

/-- A server with the given services. -/
def serverWith (services : HashMap String ServerServiceConfig) : Config where
  server := some {
    bind_addr := "0.0.0.0:2333"
    default_token := none
    services := services
    transport := ⟨.tcp, ⟨true, 20, 8, none⟩, none, none⟩
    heartbeat_interval := 30 }
  client := none

def sshService : ServerServiceConfig := ⟨.tcp, "ssh", "0.0.0.0:22", some "secret", none⟩

/-- A service that is added is exactly one event. -/
theorem calculate_events_exact_ssh :
    ∃ evs, calculate_events (serverWith ∅) (serverWith (AList.singleton "ssh" sshService)) = some evs ∧
      Exact (serverWith ∅) (serverWith (AList.singleton "ssh" sshService)) evs := by
  have hnew : (serverWith (AList.singleton "ssh" sshService)).Valid := by
    refine ⟨fun c hc n s hs => ?_, fun c hc => by cases hc⟩
    cases hc
    have hs' : (⟨n, s⟩ : Sigma fun _ : String => ServerServiceConfig) ∈
        (AList.singleton "ssh" sshService).entries := HashMap.mem_entries.mpr hs
    cases List.mem_singleton.mp hs'
    exact ⟨rfl, rfl⟩
  refine (calculate_events_exact hnew).2.2 (by decide) ?_
  rintro (h | h) <;> exact h rfl

/-! ## 5. What the events carry -/

/-- What an event carries is of the configuration `c`. -/
def ConfigChange.Of (c : Config) : ConfigChange → Prop
  | .general config => config = c
  | .serverChange (.add cfg) => ∃ n, c.serverService n = some cfg
  | .clientChange (.add cfg) => ∃ n, c.clientService n = some cfg
  | _ => True

/-- **Events carry nothing of the old configuration.** -/
theorem calculate_events_of {old new : Config} {evs : List ConfigChange}
    (h : calculate_events old new = some evs) : ∀ e ∈ evs, e.Of new := by
  have hgen : ∀ e ∈ [ConfigChange.general new], e.Of new := by
    intro e he
    rw [List.mem_singleton.mp he]
    rfl
  unfold calculate_events at h
  split at h
  · cases h
  · split at h
    · cases h
      exact hgen
    · split at h
      · cases h
        exact hgen
      · rename_i ret hret
        split at h
        · cases h
          exact hgen
        · rename_i v hv
          cases h
          intro e he
          rcases List.mem_append.mp he with he | he
          · rcases sectionEvents_kinds hret e he with ⟨n, rfl⟩ | ⟨s, rfl, hs⟩
            · exact trivial
            · exact hs
          · rcases sectionEvents_kinds hv e he with ⟨n, rfl⟩ | ⟨s, rfl, hs⟩
            · exact trivial
            · exact hs

end Penetrate
