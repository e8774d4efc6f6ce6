/-
  File:      Penetrate/Concurrent/Conduit.lean
  Subject:   A CHAIN OF BUFFERS FROM A SOURCE TO A SINK. Names nothing of a particular program.

  The stages stand in the order an item meets them last: the sink takes from the first, the source
  puts into the last. At the seam between two neighbours items move on, the end of the stream is
  passed on, or the seam is cut: what the farther stage holds is lost and the nearer one sees
  the end of the stream.

  * `seam`, `Conduit.step`, `conduit` -- the machine; a stage has room for one item at least;
  * `reaching` -- what a chain still delivers: all in front of its first broken stage;
  * `Ordered` -- the end of the stream comes after all items, or from a broken stage;
  * `Carries` -- **the invariant**; `Carries.received`, `Carries.ended` -- what is received is a prefix
    of what was sent, and all of it where no stage is broken and the sink has seen the end;
  * `load_seamAt`, `exists_enabled` -- the measure of the work left, and progress.
-/
import Mathlib.Data.List.Basic
import Mathlib.Data.List.Infix
import Mathlib.Tactic.Common
import Penetrate.Concurrent.Machine

namespace Concurrent

universe u

/-- A buffer, the oldest item first. -/
structure Stage (β : Type u) where
  items : List β
  /-- nothing more comes in -/
  closed : Bool
  /-- what was in it, or behind it, is lost -/
  broken : Bool
  cap : Nat
  room : 0 < cap

inductive SeamAct where
  | move (n : Nat)
  | pass
  | cut
  deriving DecidableEq, Repr

inductive ConduitAct (β : Type u) where
  | put (bs : List β)
  | close
  | seam (i : Nat) (a : SeamAct)
  | take (n : Nat)

/-- The chain, with all that has gone in and come out. -/
structure Conduit (β : Type u) where
  sent : List β
  stages : List (Stage β)
  received : List β

variable {β : Type u}

/-- Nothing has happened to the stage. -/
def Stage.Fresh (s : Stage β) : Prop := s.items = [] ∧ s.closed = false ∧ s.broken = false

/-! ## 1. The steps -/

/-- What happens between a stage `d` and the stage `s` behind it. -/
def seam (d s : Stage β) : SeamAct → Option (Stage β × Stage β)
  | .move n =>
      if d.closed = false ∧ d.broken = false ∧ 0 < n ∧ n ≤ s.items.length ∧
          d.items.length + n ≤ d.cap then
        some ({ d with items := d.items ++ s.items.take n }, { s with items := s.items.drop n })
      else none
  | .pass =>
      if d.closed = false ∧ s.closed = true ∧ s.items = [] then some ({ d with closed := true }, s)
      else none
  | .cut => some ({ d with closed := true }, { s with items := [], closed := true, broken := true })

/-- The same at seam `i` of a chain, counted from the sink. -/
def seamAt : List (Stage β) → Nat → SeamAct → Option (List (Stage β))
  | d :: s :: rest, 0, a => (seam d s a).map fun p => p.1 :: p.2 :: rest
  | d :: s :: rest, i + 1, a => (seamAt (s :: rest) i a).map (d :: ·)
  | _, _, _ => none

/-- A change of the last stage. -/
def atSource (f : Stage β → Option (Stage β)) : List (Stage β) → Option (List (Stage β))
  | [] => none
  | [s] => (f s).map ([·])
  | d :: s :: rest => (atSource f (s :: rest)).map (d :: ·)

def Stage.put (bs : List β) (s : Stage β) : Option (Stage β) :=
  if s.closed = false ∧ s.broken = false then some { s with items := s.items ++ bs } else none

def Stage.close (s : Stage β) : Option (Stage β) :=
  if s.closed = false then some { s with closed := true } else none

/-- The sink takes the first `n` items. -/
def Conduit.take (c : Conduit β) (n : Nat) : Option (Conduit β) :=
  match c.stages with
  | [] => none
  | d :: rest =>
      if 0 < n ∧ n ≤ d.items.length then
        some { c with
          stages := { d with items := d.items.drop n } :: rest
          received := c.received ++ d.items.take n }
      else none

def Conduit.step (c : Conduit β) : ConduitAct β → Option (Conduit β)
  | .put bs => (atSource (Stage.put bs) c.stages).map fun st =>
      { c with sent := c.sent ++ bs, stages := st }
  | .close => (atSource Stage.close c.stages).map fun st => { c with stages := st }
  | .seam i a => (seamAt c.stages i a).map fun st => { c with stages := st }
  | .take n => c.take n

/-- **The conduit**: any chain of fresh stages. -/
def conduit : Machine (Conduit β) (ConduitAct β) where
  start c := c.sent = [] ∧ c.received = [] ∧ ∀ s ∈ c.stages, s.Fresh
  step := Conduit.step

/-! ## 2. What is delivered -/

/-- What a chain still delivers, the oldest item first. -/
def reaching : List (Stage β) → List β
  | [] => []
  | s :: rest => s.items ++ if s.broken then [] else reaching rest

/-- Nothing is lost. -/
def Unbroken (st : List (Stage β)) : Prop := ∀ s ∈ st, s.broken = false

/-- A stage is closed when the one behind it has nothing more to give, or because it broke. -/
def Ordered : List (Stage β) → Prop
  | d :: s :: rest =>
      (d.closed = true → d.broken = true ∨ (s.closed = true ∧ s.items = [])) ∧ Ordered (s :: rest)
  | _ => True

/-- The sink has seen the end of the stream. -/
def ended : List (Stage β) → Prop
  | [] => False
  | d :: _ => d.closed = true ∧ d.items = []

/-- The source has said that nothing more comes. -/
def sourceClosed : List (Stage β) → Prop
  | [] => False
  | [s] => s.closed = true
  | _ :: s :: rest => sourceClosed (s :: rest)

section

variable {d s d' s' : Stage β} {rest st st' : List (Stage β)} {i : Nat} {a : SeamAct}

theorem unbroken_cons : Unbroken (d :: rest) ↔ d.broken = false ∧ Unbroken rest := by
  simp [Unbroken]

theorem reaching_cons (h : d.broken = false) : reaching (d :: rest) = d.items ++ reaching rest := by
  simp [reaching, h]

/-- Nothing is in the nearer stage at seam `i`. -/
def Hungry (st : List (Stage β)) (i : Nat) : Prop := ∀ d, st[i]? = some d → d.items = []

/-- **What a seam does**, with its guards. -/
theorem seam_cases (h : seam d s a = some (d', s')) :
    (∃ n, a = .move n ∧ d.closed = false ∧ d.broken = false ∧ 0 < n ∧ n ≤ s.items.length ∧
        d' = { d with items := d.items ++ s.items.take n } ∧
        s' = { s with items := s.items.drop n }) ∨
      (a = .pass ∧ d.closed = false ∧ s.closed = true ∧ s.items = [] ∧
        d' = { d with closed := true } ∧ s' = s) ∨
      (a = .cut ∧ d' = { d with closed := true } ∧
        s' = { s with items := [], closed := true, broken := true }) := by
  cases a with
  | move n =>
      rw [seam] at h
      split at h
      · rename_i hg
        cases h
        exact Or.inl ⟨n, rfl, hg.1, hg.2.1, hg.2.2.1, hg.2.2.2.1, rfl, rfl⟩
      · cases h
  | pass =>
      rw [seam] at h
      split at h
      · rename_i hg
        cases h
        exact Or.inr (Or.inl ⟨rfl, hg.1, hg.2.1, hg.2.2, rfl, rfl⟩)
      · cases h
  | cut =>
      cases h
      exact Or.inr (Or.inr ⟨rfl, rfl, rfl⟩)

theorem seam_reaching (rest : List (Stage β)) (h : seam d s a = some (d', s')) :
    reaching (d' :: s' :: rest) <+: reaching (d :: s :: rest) ∧
      (Unbroken (d' :: s' :: rest) → reaching (d' :: s' :: rest) = reaching (d :: s :: rest)) := by
  rcases seam_cases h with ⟨n, -, -, hb, -, -, rfl, rfl⟩ | ⟨-, -, -, -, rfl, rfl⟩ | ⟨-, rfl, rfl⟩
  · have he : s.items.take n ++ s.items.drop n = s.items := List.take_append_drop n s.items
    have hr : reaching ({ d with items := d.items ++ s.items.take n } ::
        { s with items := s.items.drop n } :: rest) = reaching (d :: s :: rest) := by
      simp only [reaching, hb, Bool.false_eq_true, if_false, List.append_assoc]
      rw [← List.append_assoc (s.items.take n), he]
    exact ⟨hr ▸ List.prefix_refl _, fun _ => hr⟩
  · exact ⟨List.prefix_refl _, fun _ => rfl⟩
  · refine ⟨?_, fun hi => ?_⟩
    · simp only [reaching, if_true, List.append_nil, ite_self]
      exact List.prefix_append _ _
    · simp [Unbroken] at hi

theorem seam_unbroken (h : seam d s a = some (d', s')) (hi : Unbroken (d' :: s' :: rest)) :
    Unbroken (d :: s :: rest) := by
  simp only [unbroken_cons] at hi ⊢
  rcases seam_cases h with ⟨n, -, -, hb, -, -, rfl, rfl⟩ | ⟨-, -, -, -, rfl, rfl⟩ | ⟨-, rfl, rfl⟩
  · exact hi
  · exact hi
  · exact absurd hi.2.1 (by simp)

theorem seam_ordered (h : seam d s a = some (d', s')) (ho : Ordered (d :: s :: rest)) :
    Ordered (d' :: s' :: rest) := by
  rcases seam_cases h with
    ⟨n, -, hc, -, -, -, rfl, rfl⟩ | ⟨-, -, hs, he, rfl, rfl⟩ | ⟨-, rfl, rfl⟩
  · refine ⟨fun hc' => ?_, ?_⟩
    · have hf : d.closed = true := hc'
      rw [hc] at hf
      cases hf
    · cases rest with
      | nil => trivial
      | cons t rest => exact ⟨fun ht => by simpa using ho.2.1 ht, ho.2.2⟩
  · exact ⟨fun _ => Or.inr ⟨hs, he⟩, ho.2⟩
  · refine ⟨fun _ => Or.inr ⟨rfl, rfl⟩, ?_⟩
    cases rest with
    | nil => trivial
    | cons t rest => exact ⟨fun _ => Or.inl rfl, ho.2.2⟩

/-- A stage that has come to its end stays so. -/
theorem seam_ended (h : seam d s a = some (d', s')) (he : d.closed = true ∧ d.items = []) :
    d'.closed = true ∧ d'.items = [] := by
  rcases seam_cases h with ⟨n, -, hc, -, -, -, rfl, rfl⟩ | ⟨-, -, -, -, rfl, rfl⟩ | ⟨-, rfl, rfl⟩
  · rw [he.1] at hc
    cases hc
  · exact ⟨rfl, he.2⟩
  · exact ⟨rfl, he.2⟩

/-- A seam of a chain, with what stands before and behind it. -/
theorem seamAt_cases (h : seamAt st i a = some st') :
    ∃ front d s d' s' rest, st = front ++ d :: s :: rest ∧ front.length = i ∧
      seam d s a = some (d', s') ∧ st' = front ++ d' :: s' :: rest := by
  induction st, i, a using seamAt.induct generalizing st' with
  | case1 d s rest a =>
      obtain ⟨p, hp, rfl⟩ := Option.map_eq_some_iff.mp h
      exact ⟨[], d, s, p.1, p.2, rest, rfl, rfl, hp, rfl⟩
  | case2 e d rest i a ih =>
      obtain ⟨st1, h1, rfl⟩ := Option.map_eq_some_iff.mp h
      obtain ⟨front, d1, s1, d', s', rest', he, hl, hs, rfl⟩ := ih h1
      refine ⟨e :: front, d1, s1, d', s', rest', ?_, ?_, hs, ?_⟩
      · rw [he, List.cons_append]
      · rw [List.length_cons, hl]
      · rw [List.cons_append]
  | case3 => simp [seamAt] at h

/-- And the other way. -/
theorem seamAt_append (front : List (Stage β)) (h : seam d s a = some (d', s')) :
    seamAt (front ++ d :: s :: rest) front.length a = some (front ++ d' :: s' :: rest) := by
  induction front with
  | nil => simp [seamAt, h]
  | cons e front ih =>
      cases front with
      | nil => simpa [seamAt] using ih
      | cons e' front => simpa [seamAt] using ih

/-- A step at a seam of a piece of the chain. -/
theorem seamAt_within (front back : List (Stage β)) (h : seamAt st i a = some st') :
    seamAt (front ++ (st ++ back)) (front.length + i) a = some (front ++ (st' ++ back)) := by
  obtain ⟨fr, d, s, d', s', rest, rfl, rfl, hs, rfl⟩ := seamAt_cases h
  have hw : seamAt (front ++ fr ++ d :: s :: (rest ++ back)) (front ++ fr).length a =
      some (front ++ fr ++ d' :: s' :: (rest ++ back)) := seamAt_append _ hs
  simpa using hw

/-- A seam of a chain is on one side of a stage or on the other. -/
theorem seamAt_split (front : List (Stage β)) {back : List (Stage β)}
    (h : seamAt (front ++ d :: back) i a = some st) (he : Hungry (front ++ d :: back) i) :
    (∃ st', seamAt (front ++ [d]) i a = some st' ∧ Hungry (front ++ [d]) i) ∨
      ∃ j st', seamAt (d :: back) j a = some st' ∧ Hungry (d :: back) j := by
  induction front generalizing i st with
  | nil => exact Or.inr ⟨i, st, h, he⟩
  | cons e front ih =>
      cases front with
      | nil =>
          cases i with
          | zero =>
              obtain ⟨p, hp, -⟩ := Option.map_eq_some_iff.mp h
              exact Or.inl ⟨_, by rw [List.singleton_append, seamAt, hp]; rfl, he⟩
          | succ i =>
              obtain ⟨st', hst, -⟩ := Option.map_eq_some_iff.mp h
              exact Or.inr ⟨i, st', hst, he⟩
      | cons e' front =>
          cases i with
          | zero =>
              obtain ⟨p, hp, -⟩ := Option.map_eq_some_iff.mp h
              exact Or.inl ⟨_, by rw [List.cons_append, List.cons_append, seamAt, hp]; rfl, he⟩
          | succ i =>
              obtain ⟨st', hst, -⟩ := Option.map_eq_some_iff.mp h
              rcases ih hst he with ⟨st'', h', he'⟩ | h'
              · exact Or.inl ⟨e :: st'', by rw [List.cons_append] at h' ⊢; simp [seamAt, h'], he'⟩
              · exact Or.inr h'

theorem reaching_front {x x' : List (Stage β)} (front : List (Stage β))
    (h : reaching x' <+: reaching x) : reaching (front ++ x') <+: reaching (front ++ x) := by
  induction front with
  | nil => exact h
  | cons e front ih =>
      cases hb : e.broken with
      | true => simp [reaching, hb]
      | false =>
          rw [List.cons_append, List.cons_append, reaching_cons hb, reaching_cons hb]
          exact (List.prefix_append_right_inj _).mpr ih

theorem reaching_front_eq {x x' : List (Stage β)} (front : List (Stage β))
    (h : reaching x' = reaching x) : reaching (front ++ x') = reaching (front ++ x) := by
  induction front with
  | nil => exact h
  | cons e front ih => simp only [List.cons_append, reaching, ih]

theorem unbroken_append {x y : List (Stage β)} : Unbroken (x ++ y) ↔ Unbroken x ∧ Unbroken y := by
  simp only [Unbroken, List.mem_append]
  exact ⟨fun h => ⟨fun s hs => h s (Or.inl hs), fun s hs => h s (Or.inr hs)⟩,
    fun h s hs => hs.elim (h.1 s) (h.2 s)⟩

theorem ordered_front {x x' : List (Stage β)} (front : List (Stage β))
    (hd : d.closed = true ∧ d.items = [] → d'.closed = true ∧ d'.items = [])
    (ho : Ordered (d :: x) → Ordered (d' :: x')) (h : Ordered (front ++ d :: x)) :
    Ordered (front ++ d' :: x') := by
  induction front with
  | nil => exact ho h
  | cons e front ih =>
      cases front with
      | nil => exact ⟨fun he => (h.1 he).imp_right hd, ih h.2⟩
      | cons e' front => exact ⟨h.1, ih h.2⟩

theorem seamAt_reaching (h : seamAt st i a = some st') :
    reaching st' <+: reaching st ∧ (Unbroken st' → reaching st' = reaching st ∧ Unbroken st) := by
  obtain ⟨front, d, s, d', s', rest, rfl, -, hs, rfl⟩ := seamAt_cases h
  have hr := seam_reaching rest hs
  refine ⟨reaching_front front hr.1, fun hi => ?_⟩
  obtain ⟨hf, hx⟩ := unbroken_append.mp hi
  exact ⟨reaching_front_eq front (hr.2 hx), unbroken_append.mpr ⟨hf, seam_unbroken hs hx⟩⟩

theorem seamAt_ordered (h : seamAt st i a = some st') (ho : Ordered st) : Ordered st' := by
  obtain ⟨front, d, s, d', s', rest, rfl, -, hs, rfl⟩ := seamAt_cases h
  exact ordered_front front (seam_ended hs) (seam_ordered hs) ho

/-- The change of the last stage. -/
theorem atSource_cases {f : Stage β → Option (Stage β)} (h : atSource f st = some st') :
    ∃ front s s', st = front ++ [s] ∧ f s = some s' ∧ st' = front ++ [s'] := by
  induction st generalizing st' with
  | nil => cases h
  | cons d rest ih =>
      cases rest with
      | nil =>
          obtain ⟨s', hs, rfl⟩ := Option.map_eq_some_iff.mp h
          exact ⟨[], d, s', rfl, hs, rfl⟩
      | cons s rest =>
          obtain ⟨st1, h1, rfl⟩ := Option.map_eq_some_iff.mp h
          obtain ⟨front, s1, s', he, hs, rfl⟩ := ih h1
          exact ⟨d :: front, s1, s', by rw [he, List.cons_append], hs, by rw [List.cons_append]⟩

theorem put_cases {bs : List β} (h : s.put bs = some s') :
    s.closed = false ∧ s.broken = false ∧ s' = { s with items := s.items ++ bs } := by
  unfold Stage.put at h
  split at h
  · rename_i hg
    cases h
    exact ⟨hg.1, hg.2, rfl⟩
  · cases h

theorem close_cases (h : s.close = some s') :
    s.closed = false ∧ s' = { s with closed := true } := by
  unfold Stage.close at h
  split at h
  · rename_i hg
    cases h
    exact ⟨hg, rfl⟩
  · cases h

theorem take_cases {c c' : Conduit β} {n : Nat} (h : c.take n = some c') :
    ∃ d rest, c.stages = d :: rest ∧ 0 < n ∧ n ≤ d.items.length ∧
      c' = { c with
        stages := { d with items := d.items.drop n } :: rest
        received := c.received ++ d.items.take n } := by
  unfold Conduit.take at h
  split at h
  · cases h
  · rename_i d rest hc
    split at h
    · rename_i hg
      cases h
      exact ⟨d, rest, hc, hg.1, hg.2, rfl⟩
    · cases h

/-- What is put in reaches the sink behind all else, or not at all. -/
theorem reaching_put (front : List (Stage β)) (hb : s.broken = false) (bs : List β) :
    (Unbroken (front ++ [s]) ∧
        reaching (front ++ [{ s with items := s.items ++ bs }]) = reaching (front ++ [s]) ++ bs) ∨
      (¬ Unbroken (front ++ [s]) ∧
        reaching (front ++ [{ s with items := s.items ++ bs }]) = reaching (front ++ [s])) := by
  induction front with
  | nil => exact Or.inl ⟨by simp [Unbroken, hb], by simp [reaching, hb]⟩
  | cons e front ih =>
      simp only [List.cons_append, unbroken_cons]
      cases he : e.broken with
      | true => exact Or.inr ⟨by simp, by simp [reaching, he]⟩
      | false =>
          rw [reaching_cons he, reaching_cons he, List.append_assoc]
          rcases ih with ⟨hi, hr⟩ | ⟨hi, hr⟩
          · exact Or.inl ⟨⟨rfl, hi⟩, by rw [hr]⟩
          · exact Or.inr ⟨fun h => hi h.2, by rw [hr]⟩

end

/-! ## 3. The invariant -/

/-- **The invariant of a conduit.** -/
structure Carries (c : Conduit β) : Prop where
  ordered : Ordered c.stages
  order : c.received ++ reaching c.stages <+: c.sent
  all : Unbroken c.stages → c.received ++ reaching c.stages = c.sent

theorem reaching_fresh {st : List (Stage β)} (h : ∀ s ∈ st, s.Fresh) : reaching st = [] := by
  induction st with
  | nil => rfl
  | cons s rest ih =>
      have hs := h s List.mem_cons_self
      rw [reaching_cons hs.2.2, hs.1, ih fun t ht => h t (List.mem_cons_of_mem _ ht)]
      rfl

theorem ordered_fresh {st : List (Stage β)} (h : ∀ s ∈ st, s.Fresh) : Ordered st := by
  induction st with
  | nil => trivial
  | cons s rest ih =>
      cases rest with
      | nil => trivial
      | cons t rest =>
          have hs := (h s List.mem_cons_self).2.1
          exact ⟨fun hc => absurd (hs ▸ hc) (by simp), ih fun u hu => h u (List.mem_cons_of_mem _ hu)⟩

theorem carries_start {c : Conduit β} (h : (conduit (β := β)).start c) : Carries c where
  ordered := ordered_fresh h.2.2
  order := by rw [h.1, h.2.1, reaching_fresh h.2.2]; exact List.prefix_refl _
  all _ := by rw [h.1, h.2.1, reaching_fresh h.2.2]; rfl

theorem carries_step {c c' : Conduit β} {a : ConduitAct β} (hI : Carries c)
    (h : c.step a = some c') : Carries c' := by
  cases a with
  | put bs =>
      obtain ⟨st, hs, rfl⟩ := Option.map_eq_some_iff.mp h
      obtain ⟨front, s, s', he, hf, rfl⟩ := atSource_cases hs
      obtain ⟨hc, hb, rfl⟩ := put_cases hf
      have hord := he ▸ hI.ordered
      refine ⟨ordered_front front (fun hd => absurd (hc ▸ hd.1) (by simp)) (fun _ => trivial) hord,
        ?_, fun hi => ?_⟩
      · show c.received ++ reaching _ <+: c.sent ++ bs
        rcases reaching_put front hb bs with ⟨hi, hr⟩ | ⟨-, hr⟩
        · have hall := hI.all (he ▸ hi)
          rw [hr, ← List.append_assoc, ← he, hall]
        · rw [hr, ← he]
          exact hI.order.trans (List.prefix_append _ _)
      · show c.received ++ reaching _ = c.sent ++ bs
        have hi' : Unbroken (front ++ [s]) :=
          unbroken_append.mpr ⟨(unbroken_append.mp hi).1, by simp [Unbroken, hb]⟩
        rcases reaching_put front hb bs with ⟨-, hr⟩ | ⟨hn, -⟩
        · rw [hr, ← List.append_assoc, ← he, hI.all (he ▸ hi')]
        · exact absurd hi' hn
  | close =>
      obtain ⟨st, hs, rfl⟩ := Option.map_eq_some_iff.mp h
      obtain ⟨front, s, s', he, hf, rfl⟩ := atSource_cases hs
      obtain ⟨hc, rfl⟩ := close_cases hf
      have hr : reaching (front ++ [{ s with closed := true }]) = reaching c.stages := by
        rw [he]
        exact reaching_front_eq front rfl
      have hord := he ▸ hI.ordered
      have hord' : Ordered (front ++ [{ s with closed := true }]) :=
        ordered_front front (d := s) (fun hd => ⟨rfl, hd.2⟩) (fun _ => trivial) hord
      refine ⟨hord', hr ▸ hI.order, fun hi => ?_⟩
      have hi' : Unbroken (front ++ [s]) :=
        unbroken_append.mpr ⟨(unbroken_append.mp hi).1,
          by simpa [Unbroken] using (unbroken_append.mp hi).2⟩
      show c.received ++ reaching _ = c.sent
      rw [hr, hI.all (he ▸ hi')]
  | seam i a =>
      obtain ⟨st, hs, rfl⟩ := Option.map_eq_some_iff.mp h
      have hr := seamAt_reaching hs
      refine ⟨seamAt_ordered hs hI.ordered, ?_, fun hi => ?_⟩
      · exact ((List.prefix_append_right_inj c.received).mpr hr.1).trans hI.order
      · obtain ⟨he, hi'⟩ := hr.2 hi
        show c.received ++ reaching st = c.sent
        rw [he, hI.all hi']
  | take n =>
      obtain ⟨d, rest, he, -, -, rfl⟩ := take_cases h
      have hord := he ▸ hI.ordered
      have hr : c.received ++ reaching c.stages = c.received ++ d.items.take n ++
          reaching ({ d with items := d.items.drop n } :: rest) := by
        rw [he, List.append_assoc]
        simp only [reaching]
        rw [← List.append_assoc (d.items.take n), List.take_append_drop]
      have hord' : Ordered ({ d with items := d.items.drop n } :: rest) := by
        cases rest with
        | nil => trivial
        | cons t rest => exact hord
      refine ⟨hord', hr ▸ hI.order, fun hi => ?_⟩
      have hd : Unbroken ({ d with items := d.items.drop n } :: rest) := hi
      have hi' : Unbroken (d :: rest) := by simpa only [unbroken_cons] using hd
      show c.received ++ d.items.take n ++ reaching _ = c.sent
      rw [← hr, hI.all (he ▸ hi')]

/-- The invariant of all runs. -/
theorem carries_reachable {c : Conduit β} (h : (conduit (β := β)).Reachable c) : Carries c := by
  obtain ⟨tr, r⟩ := h
  exact r.invariant (fun _ h => carries_start h) fun _ _ _ hI h => carries_step hI h

theorem unbroken_ended {st : List (Stage β)} (ho : Ordered st) (hi : Unbroken st) (he : ended st) :
    reaching st = [] ∧ sourceClosed st := by
  induction st with
  | nil => exact he.elim
  | cons d rest ih =>
      obtain ⟨hb, hi'⟩ := unbroken_cons.mp hi
      rw [reaching_cons hb, he.2]
      cases rest with
      | nil => exact ⟨rfl, he.1⟩
      | cons s rest =>
          have hs : s.closed = true ∧ s.items = [] := (ho.1 he.1).resolve_left (by simp [hb])
          exact ih ho.2 hi' hs

/-- **The end of the stream is the end of all that was sent**, where nothing is lost. -/
theorem Carries.ended {c : Conduit β} (hI : Carries c) (hi : Unbroken c.stages)
    (he : ended c.stages) : c.received = c.sent ∧ sourceClosed c.stages := by
  obtain ⟨hr, hs⟩ := unbroken_ended hI.ordered hi he
  have ha := hI.all hi
  rw [hr, List.append_nil] at ha
  exact ⟨ha, hs⟩

theorem Carries.received {c : Conduit β} (hI : Carries c) : c.received <+: c.sent :=
  (List.prefix_append _ _).trans hI.order

/-! ## 4. Progress -/

/-- The items in a chain. -/
def held : List (Stage β) → Nat
  | [] => 0
  | s :: rest => s.items.length + held rest

/-- The work left: an item counts at each stage it has yet to leave, and each stage is closed
    once. -/
def load : List (Stage β) → Nat
  | [] => 0
  | s :: rest => held (s :: rest) + (if s.closed then 0 else 1) + load rest

/-- Nothing is left to do: all is delivered, and the end too where the source has given it. -/
def Settled (st : List (Stage β)) : Prop := held st = 0 ∧ (sourceClosed st → ended st)

section

variable {d s d' s' : Stage β} {rest st st' : List (Stage β)} {i : Nat} {a : SeamAct}

theorem held_eq_zero (h : held st = 0) : reaching st = [] := by
  induction st with
  | nil => rfl
  | cons s rest ih =>
      rw [held] at h
      have hs : s.items = [] := List.eq_nil_of_length_eq_zero (by omega)
      rw [reaching, hs, ih (by omega)]
      simp

theorem load_front {x x' : List (Stage β)} (front : List (Stage β)) (hh : held x' ≤ held x)
    (hl : load x' < load x) :
    held (front ++ x') ≤ held (front ++ x) ∧ load (front ++ x') < load (front ++ x) := by
  induction front with
  | nil => exact ⟨hh, hl⟩
  | cons e front ih =>
      simp only [List.cons_append, held, load]
      omega

/-- **A step at a seam is work done.** -/
theorem load_seamAt (h : seamAt st i a = some st') (ha : a ≠ .cut) : load st' < load st := by
  obtain ⟨front, d, s, d', s', rest, rfl, -, hs, rfl⟩ := seamAt_cases h
  rcases seam_cases hs with
    ⟨n, -, -, -, hn, hle, rfl, rfl⟩ | ⟨-, hc, -, -, rfl, rfl⟩ | ⟨rfl, -, -⟩
  · refine (load_front front ?_ ?_).2
    · simp only [held, List.length_append, List.length_take, List.length_drop]
      omega
    · simp only [held, load, List.length_append, List.length_take, List.length_drop]
      omega
  · refine (load_front front ?_ ?_).2
    · exact Nat.le_refl _
    · simp only [held, load, hc, if_true, Bool.false_eq_true, if_false]
      omega
  · exact absurd rfl ha

theorem load_take (d : Stage β) (rest : List (Stage β)) {n : Nat} (h0 : 0 < n) (hn : n ≤ d.items.length) :
    load ({ d with items := d.items.drop n } :: rest) < load (d :: rest) := by
  simp only [held, load, List.length_drop]
  omega

/-- **Progress**: where nothing is lost and something is left to do, the sink can take, or some
    seam can do a step into an empty stage. -/
theorem exists_enabled (ho : Ordered st) (hi : Unbroken st) (hs : ¬ Settled st) :
    (∃ d rest, st = d :: rest ∧ d.items ≠ []) ∨
      ∃ i a st', a ≠ .cut ∧ seamAt st i a = some st' ∧ Hungry st i := by
  induction st with
  | nil => exact absurd ⟨rfl, fun h => h.elim⟩ hs
  | cons d rest ih =>
      obtain ⟨hb, hi'⟩ := unbroken_cons.mp hi
      by_cases hd : d.items = []
      · have hempty : Hungry (d :: rest) 0 := fun e he => by
          cases he
          exact hd
        cases rest with
        | nil => exact absurd ⟨by simp [held, hd], fun hc => ⟨hc, hd⟩⟩ hs
        | cons s rest =>
            by_cases hset : Settled (s :: rest)
            · -- all behind `d` is done: what is left is the end of the stream
              have hh : held (d :: s :: rest) = 0 := by
                have := hset.1
                simp only [held, hd, List.length_nil] at this ⊢
                omega
              have hsc : sourceClosed (s :: rest) := by
                by_contra hn
                exact hs ⟨hh, fun h => absurd h hn⟩
              have hc : d.closed = false := by
                by_contra hc
                exact hs ⟨hh, fun _ => ⟨by simpa using hc, hd⟩⟩
              have he : s.closed = true ∧ s.items = [] := hset.2 hsc
              refine Or.inr ⟨0, .pass, { d with closed := true } :: s :: rest, by simp, ?_, hempty⟩
              simp [seamAt, seam, hc, he]
            · refine Or.inr ?_
              rcases ih ho.2 hi' hset with ⟨s1, rest1, he, hne⟩ | ⟨i, a, st', ha, h, hi⟩
              · obtain ⟨rfl, rfl⟩ := List.cons.inj he
                have hc : d.closed = false := by
                  by_contra hc
                  have hc' : d.closed = true := by simpa using hc
                  exact hne ((ho.1 hc').resolve_left (by simp [hb])).2
                have hlen : 1 ≤ s.items.length := List.length_pos_iff.mpr hne
                have hroom := d.room
                have hg : seam d s (.move 1) = some
                    ({ d with items := d.items ++ s.items.take 1 },
                      { s with items := s.items.drop 1 }) := by
                  rw [seam, if_pos ⟨hc, hb, Nat.one_pos, hlen, by rw [hd]; exact (Nat.zero_add 1).symm ▸ hroom⟩]
                exact ⟨0, .move 1, _, by simp, by rw [seamAt, hg]; rfl, hempty⟩
              · exact ⟨i + 1, a, d :: st', ha, by rw [seamAt, h]; rfl, hi⟩
      · exact Or.inl ⟨d, rest, rfl, hd⟩

end

end Concurrent
