/-
  File:      Penetrate/Concurrent/RwLock.lean
  Subject:   A WRITE-PREFERRING FIFO READER/WRITER LOCK. Names nothing of a particular program.

  A request is granted at once when nobody waits and the holders admit it; otherwise it queues
  behind every earlier request, so a reader queues behind a waiting writer. A release grants the
  longest prefix of the queue the remaining holders admit. That two holders are always compatible
  and that the head of the queue is always refused are fields of the lock.

  What one task sees of the lock is `held` and `waiting`; `Idle` and `Asked` are the only two
  situations a task with one request at a time is ever in, and each operation of the task or of
  another one moves between them by a lemma of its own (`Idle.request`, `Asked.release_other`,
  ...). `BlockedBySelf` is the self-deadlock: a task waits behind a request that conflicts with a
  guard the task holds; no operation of the other tasks ends it (`BlockedBySelf.release`).
-/
import Mathlib.Data.List.Basic
import Mathlib.Tactic.Common

namespace Concurrent

/-- The two guards of the lock. -/
inductive Mode where
  | read
  | write
  deriving DecidableEq, Repr

/-- Two guards that may be held at the same time. -/
def Mode.compatible : Mode → Mode → Bool
  | .read, .read => true
  | _, _ => false

@[simp] theorem Mode.compatible_write (m : Mode) : m.compatible .write = false := by
  cases m <;> rfl

@[simp] theorem Mode.write_compatible (m : Mode) : Mode.write.compatible m = false := by
  cases m <;> rfl

theorem Mode.compatible_comm (m n : Mode) : m.compatible n = n.compatible m := by
  cases m <;> cases n <;> rfl

section Lists

variable {τ : Type*}

/-- The holders `hs` admit one more guard `m`. -/
def admits (hs : List (τ × Mode)) (m : Mode) : Bool := hs.all fun h => h.2.compatible m

/-- The longest prefix of the queue the holders admit, moved to the holders. -/
def promote : List (τ × Mode) → List (τ × Mode) → List (τ × Mode) × List (τ × Mode)
  | hs, [] => (hs, [])
  | hs, x :: q => if admits hs x.2 then promote (x :: hs) q else (hs, x :: q)

/-- `promote` moves a prefix of the queue. -/
theorem promote_prefix (hs q : List (τ × Mode)) :
    ∃ g rest, q = g ++ rest ∧ promote hs q = (g.reverse ++ hs, rest) := by
  induction q generalizing hs with
  | nil => exact ⟨[], [], rfl, rfl⟩
  | cons x q ih =>
      by_cases hx : admits hs x.2 = true
      · obtain ⟨g, rest, hq, hp⟩ := ih (x :: hs)
        exact ⟨x :: g, rest, by rw [hq]; rfl, by simp [promote, hx, hp]⟩
      · exact ⟨[], x :: q, rfl, by simp [promote, hx]⟩

theorem promote_exclusive {hs : List (τ × Mode)} (q : List (τ × Mode))
    (h : hs.Pairwise fun a b => a.2.compatible b.2 = true) :
    (promote hs q).1.Pairwise fun a b => a.2.compatible b.2 = true := by
  induction q generalizing hs with
  | nil => exact h
  | cons x q ih =>
      by_cases hx : admits hs x.2 = true
      · simp only [promote, hx, if_true]
        refine ih (List.pairwise_cons.mpr ⟨fun y hy => ?_, h⟩)
        rw [Mode.compatible_comm]
        exact List.all_eq_true.mp hx y hy
      · simpa [promote, hx] using h

theorem promote_settled (hs q : List (τ × Mode)) :
    ∀ x ∈ (promote hs q).2.head?, admits (promote hs q).1 x.2 = false := by
  induction q generalizing hs with
  | nil => simp [promote]
  | cons x q ih =>
      by_cases hx : admits hs x.2 = true
      · simpa [promote, hx] using ih (x :: hs)
      · simp [promote, hx]

end Lists

/-- The lock: who holds a guard (newest first), who waits (oldest first). -/
structure RwLock (τ : Type*) where
  holders : List (τ × Mode)
  queue : List (τ × Mode)
  exclusive : holders.Pairwise fun a b => a.2.compatible b.2 = true
  settled : ∀ x ∈ queue.head?, admits holders x.2 = false

namespace RwLock

variable {τ : Type*}

/-- The lock nobody holds. -/
def free : RwLock τ := ⟨[], [], .nil, by simp⟩

/-- `t` asks for a guard: granted at once, or queued behind everybody who waits. -/
def request (l : RwLock τ) (t : τ) (m : Mode) : RwLock τ :=
  if h : l.queue = [] ∧ admits l.holders m = true then
    ⟨(t, m) :: l.holders, [],
      List.pairwise_cons.mpr ⟨fun x hx => by
        rw [Mode.compatible_comm]; exact List.all_eq_true.mp h.2 x hx, l.exclusive⟩,
      by simp⟩
  else
    ⟨l.holders, l.queue ++ [(t, m)], l.exclusive, fun x hx => by
      cases hq : l.queue with
      | nil =>
          have : x = (t, m) := by simpa [hq] using hx.symm
          subst this
          simpa [hq] using h
      | cons y q =>
          have : x = y := by simpa [hq] using hx.symm
          exact l.settled x (by simp [hq, this])⟩

/-- Some request for the write guard is queued. -/
def writerWaits (l : RwLock τ) : Bool := l.queue.any fun x => x.2 = .write

theorem request_granted {l : RwLock τ} {t : τ} {m : Mode} (hq : l.queue = [])
    (ha : admits l.holders m = true) :
    (l.request t m).holders = (t, m) :: l.holders ∧ (l.request t m).queue = [] := by
  simp [request, hq, ha]

theorem request_queued {l : RwLock τ} {t : τ} {m : Mode}
    (h : ¬ (l.queue = [] ∧ admits l.holders m = true)) :
    (l.request t m).holders = l.holders ∧ (l.request t m).queue = l.queue ++ [(t, m)] := by
  simp [request, h]

/-- **A writer holds the lock alone.** -/
theorem holders_of_writer {l : RwLock τ} {t : τ} (h : (t, Mode.write) ∈ l.holders) :
    l.holders = [(t, .write)] := by
  obtain ⟨p, q, hpq⟩ := List.append_of_mem h
  have he := l.exclusive
  rw [hpq, List.pairwise_append, List.pairwise_cons] at he
  obtain ⟨-, ⟨hq, -⟩, hp⟩ := he
  have hp' : p = [] := List.eq_nil_iff_forall_not_mem.mpr fun x hx => by
    simpa using hp x hx _ List.mem_cons_self
  have hq' : q = [] := List.eq_nil_iff_forall_not_mem.mpr fun x hx => by
    simpa using hq x hx
  rw [hpq, hp', hq']
  rfl

variable [DecidableEq τ]

/-- `t` drops one of its guards `m`. -/
def release (l : RwLock τ) (t : τ) (m : Mode) : RwLock τ :=
  ⟨(promote (l.holders.erase (t, m)) l.queue).1, (promote (l.holders.erase (t, m)) l.queue).2,
    promote_exclusive _ (l.exclusive.sublist List.erase_sublist), promote_settled _ _⟩

/-- The guards `t` holds. -/
def held (l : RwLock τ) (t : τ) : List Mode := (l.holders.filter fun x => x.1 = t).map (·.2)

/-- The requests of `t` that are not granted yet. -/
def waiting (l : RwLock τ) (t : τ) : List Mode := (l.queue.filter fun x => x.1 = t).map (·.2)

/-! ## 1. What one operation does -/

theorem release_prefix (l : RwLock τ) (t : τ) (m : Mode) :
    ∃ g, l.queue = g ++ (l.release t m).queue ∧
      (l.release t m).holders = g.reverse ++ l.holders.erase (t, m) := by
  obtain ⟨g, rest, hq, hp⟩ := promote_prefix (l.holders.erase (t, m)) l.queue
  refine ⟨g, ?_, ?_⟩
  · simp only [release, hp]
    exact hq
  · simp only [release, hp]

theorem mem_held {l : RwLock τ} {t : τ} {m : Mode} : m ∈ l.held t ↔ (t, m) ∈ l.holders := by
  simp [held]

theorem mem_waiting {l : RwLock τ} {t : τ} {m : Mode} : m ∈ l.waiting t ↔ (t, m) ∈ l.queue := by
  simp [waiting]

/-- A reader excludes every writer. -/
theorem read_of_reader {l : RwLock τ} {t : τ} (h : Mode.read ∈ l.held t) {x : τ × Mode}
    (hx : x ∈ l.holders) : x.2 = .read := by
  obtain ⟨u, m⟩ := x
  cases m with
  | read => rfl
  | write =>
      have h' := mem_held.mp h
      rw [holders_of_writer hx] at h'
      simp at h'

/-- A reader admits every other reader. -/
theorem admits_read_of_reader {l : RwLock τ} {t : τ} (h : Mode.read ∈ l.held t) :
    admits l.holders .read = true :=
  List.all_eq_true.mpr fun y hy => by rw [read_of_reader h hy]; rfl

/-- While a reader holds the lock, the head of the queue is a writer. -/
theorem head_of_reader {l : RwLock τ} {t : τ} (h : Mode.read ∈ l.held t) {x : τ × Mode}
    (hx : l.queue.head? = some x) : x.2 = .write := by
  have hs := l.settled x hx
  cases hm : x.2 with
  | write => rfl
  | read =>
      rw [hm, admits_read_of_reader h] at hs
      cases hs

/-- **While a reader holds the lock, somebody waits only when a writer does.** -/
theorem writerWaits_of_reader {l : RwLock τ} {t : τ} (h : Mode.read ∈ l.held t) :
    l.writerWaits = true ↔ l.queue ≠ [] := by
  constructor
  · intro hw hq
    simp [writerWaits, hq] at hw
  · intro hq
    obtain ⟨x, q, hxq⟩ := List.exists_cons_of_ne_nil hq
    have hx : x.2 = .write := head_of_reader h (by rw [hxq]; rfl)
    simp [writerWaits, hxq, hx]

/-! ## 2. The lock as one task sees it -/

/-- `t` holds exactly the guards `h` and waits for nothing. -/
def Idle (l : RwLock τ) (t : τ) (h : List Mode) : Prop := l.held t = h ∧ l.waiting t = []

/-- `t`, holding `h`, has asked for `m`: the request waits or has been granted. -/
def Asked (l : RwLock τ) (t : τ) (h : List Mode) (m : Mode) : Prop :=
  l.held t = h ∧ l.waiting t = [m] ∨ l.held t = m :: h ∧ l.waiting t = []

theorem idle_free (t : τ) : (free : RwLock τ).Idle t [] := ⟨rfl, rfl⟩

theorem Asked.granted {l : RwLock τ} {t : τ} {h : List Mode} {m : Mode} (ha : l.Asked t h m)
    (hw : l.waiting t = []) : l.Idle t (m :: h) := by
  rcases ha with ⟨_, h2⟩ | ⟨h1, h2⟩
  · rw [hw] at h2
    cases h2
  · exact ⟨h1, h2⟩

theorem Idle.request {l : RwLock τ} {t : τ} {h : List Mode} (hi : l.Idle t h) (m : Mode) :
    (l.request t m).Asked t h m := by
  obtain ⟨h1, h2⟩ := hi
  by_cases hg : l.queue = [] ∧ admits l.holders m = true
  · obtain ⟨e1, e2⟩ := request_granted (t := t) hg.1 hg.2
    exact Or.inr ⟨by simpa [held, e1] using h1, by simp [waiting, e2]⟩
  · obtain ⟨e1, e2⟩ := request_queued (t := t) hg
    exact Or.inl ⟨by simpa [held, e1] using h1, by simpa [waiting, e2] using h2⟩

theorem held_request_other {l : RwLock τ} {t u : τ} (m : Mode) (hu : u ≠ t) :
    (l.request t m).held u = l.held u ∧ (l.request t m).waiting u = l.waiting u := by
  by_cases hg : l.queue = [] ∧ admits l.holders m = true
  · obtain ⟨e1, e2⟩ := request_granted (t := t) hg.1 hg.2
    exact ⟨by simp [held, e1, Ne.symm hu], by simp [waiting, e2, hg.1]⟩
  · obtain ⟨e1, e2⟩ := request_queued (t := t) hg
    exact ⟨by simp [held, e1], by simp [waiting, e2, Ne.symm hu]⟩

theorem Idle.request_other {l : RwLock τ} {t u : τ} {h : List Mode} (hi : l.Idle u h) (m : Mode)
    (hu : u ≠ t) : (l.request t m).Idle u h := by
  obtain ⟨e1, e2⟩ := held_request_other (l := l) m hu
  exact ⟨e1.trans hi.1, e2.trans hi.2⟩

theorem Asked.request_other {l : RwLock τ} {t u : τ} {h : List Mode} {n : Mode}
    (ha : l.Asked u h n) (m : Mode) (hu : u ≠ t) : (l.request t m).Asked u h n := by
  obtain ⟨e1, e2⟩ := held_request_other (l := l) m hu
  unfold Asked
  rw [e1, e2]
  exact ha

theorem filter_erase_other {t u : τ} (m : Mode) (hu : u ≠ t) (hs : List (τ × Mode)) :
    ((hs.erase (t, m)).filter fun x => x.1 = u) = hs.filter fun x => x.1 = u := by
  rw [← List.erase_filter, List.erase_of_not_mem]
  simp [Ne.symm hu]

/-- A release hands the task `u` a prefix of its own requests. -/
theorem release_other {l : RwLock τ} {t u : τ} (m : Mode) (hu : u ≠ t) :
    ∃ g, l.waiting u = g ++ (l.release t m).waiting u ∧
      (l.release t m).held u = g.reverse ++ l.held u := by
  obtain ⟨g, hq, hh⟩ := release_prefix l t m
  refine ⟨(g.filter fun x => x.1 = u).map (·.2), ?_, ?_⟩
  · conv_lhs => rw [waiting, hq]
    simp [waiting]
  · simp [held, hh, filter_erase_other m hu, List.map_reverse]

theorem Idle.release_other {l : RwLock τ} {t u : τ} {h : List Mode} (hi : l.Idle u h) (m : Mode)
    (hu : u ≠ t) : (l.release t m).Idle u h := by
  obtain ⟨g, hw, hh⟩ := RwLock.release_other (l := l) m hu
  rw [hi.2] at hw
  obtain ⟨rfl, hw'⟩ := List.append_eq_nil_iff.mp hw.symm
  exact ⟨by simpa [hi.1] using hh, hw'⟩

theorem Asked.release_other {l : RwLock τ} {t u : τ} {h : List Mode} {n : Mode}
    (ha : l.Asked u h n) (m : Mode) (hu : u ≠ t) : (l.release t m).Asked u h n := by
  rcases ha with ⟨h1, h2⟩ | ⟨h1, h2⟩
  · obtain ⟨g, hw, hh⟩ := RwLock.release_other (l := l) m hu
    rw [h2] at hw
    cases g with
    | nil => exact Or.inl ⟨by simpa [h1] using hh, by simpa using hw.symm⟩
    | cons x g =>
        simp only [List.cons_append, List.cons.injEq] at hw
        obtain ⟨rfl, hw⟩ := hw
        obtain ⟨rfl, hw'⟩ := List.append_eq_nil_iff.mp hw.symm
        exact Or.inr ⟨by simpa [h1] using hh, hw'⟩
  · exact Or.inr ((show l.Idle u (n :: h) from ⟨h1, h2⟩).release_other m hu)

/-- Dropping the newest guard. -/
theorem Idle.release {l : RwLock τ} {t : τ} {m : Mode} {h : List Mode} (hi : l.Idle t (m :: h)) :
    (l.release t m).Idle t h := by
  obtain ⟨g, hq, hh⟩ := release_prefix l t m
  have hg : (g.filter fun x => x.1 = t) = [] ∧
      ((l.release t m).queue.filter fun x => x.1 = t) = [] := by
    have h2 := hi.2
    rw [waiting, hq] at h2
    simpa using h2
  refine ⟨?_, by simp [waiting, hg.2]⟩
  have he : ((l.holders.erase (t, m)).filter fun x => x.1 = t).map (·.2) = h := by
    have h1 := hi.1
    rw [held] at h1
    exact held_erase _ h1
  simp only [held, hh, List.filter_append, List.filter_reverse, hg.1]
  simpa using he
where
  held_erase : ∀ (hs : List (τ × Mode)), (hs.filter fun x => x.1 = t).map (·.2) = m :: h →
      ((hs.erase (t, m)).filter fun x => x.1 = t).map (·.2) = h
    | [], e => by simp at e
    | (u, n) :: hs, e => by
        by_cases hu : u = t
        · subst hu
          simp only [List.filter_cons, decide_true, if_true, List.map_cons, List.cons.injEq] at e
          obtain ⟨rfl, e⟩ := e
          simpa using e
        · have hne : (u, n) ≠ (t, m) := fun e => hu (congrArg Prod.fst e)
          rw [List.erase_cons_tail (by simpa using hne)]
          simp only [List.filter_cons, hu, decide_false, Bool.false_eq_true, if_false] at e ⊢
          exact held_erase hs e

/-- Whatever situation `t` is in, it is in it in `l'` too. -/
def Undisturbed (l l' : RwLock τ) (t : τ) : Prop :=
  (∀ h, l.Idle t h → l'.Idle t h) ∧ ∀ h m, l.Asked t h m → l'.Asked t h m

theorem Undisturbed.refl (l : RwLock τ) (t : τ) : l.Undisturbed l t := ⟨fun _ => id, fun _ _ => id⟩

theorem undisturbed_request (l : RwLock τ) {t u : τ} (m : Mode) (hu : u ≠ t) :
    l.Undisturbed (l.request t m) u :=
  ⟨fun _ hi => hi.request_other m hu, fun _ _ ha => ha.request_other m hu⟩

theorem undisturbed_release (l : RwLock τ) {t u : τ} (m : Mode) (hu : u ≠ t) :
    l.Undisturbed (l.release t m) u :=
  ⟨fun _ hi => hi.release_other m hu, fun _ _ ha => ha.release_other m hu⟩

/-- The queue up to and including the first request of `t`. -/
def upTo (t : τ) : List (τ × Mode) → List (τ × Mode)
  | [] => []
  | x :: q => if x.1 = t then [x] else x :: upTo t q

/-- **`t` waits behind a request that conflicts with a guard `t` itself holds**: the request of `t`
    can be granted only after that one, and that one only after `t` drops its guard. -/
def BlockedBySelf (l : RwLock τ) (t : τ) : Prop :=
  l.waiting t ≠ [] ∧ ∃ x ∈ upTo t l.queue, ∃ h ∈ l.held t, h.compatible x.2 = false

instance (l : RwLock τ) (t : τ) : Decidable (l.BlockedBySelf t) :=
  inferInstanceAs (Decidable (_ ∧ ∃ x ∈ upTo t l.queue, ∃ h ∈ l.held t, _))

theorem upTo_append {t : τ} {q : List (τ × Mode)} (h : ∃ x ∈ q, x.1 = t) (r : List (τ × Mode)) :
    upTo t (q ++ r) = upTo t q := by
  induction q with
  | nil => simp at h
  | cons x q ih =>
      by_cases hx : x.1 = t
      · simp [upTo, hx]
      · have h' : ∃ y ∈ q, y.1 = t := by
          obtain ⟨y, hy, e⟩ := h
          rcases List.mem_cons.mp hy with rfl | hy
          · exact absurd e hx
          · exact ⟨y, hy, e⟩
        simp [upTo, hx, ih h']

theorem upTo_of_not_mem {t : τ} {q : List (τ × Mode)} (h : ∀ x ∈ q, x.1 ≠ t)
    (m : Mode) : upTo t (q ++ [(t, m)]) = q ++ [(t, m)] := by
  induction q with
  | nil => simp [upTo]
  | cons x q ih =>
      have hx := h x List.mem_cons_self
      simp [upTo, hx, ih fun y hy => h y (List.mem_cons_of_mem _ hy)]

theorem not_blockedBySelf_of_idle {l : RwLock τ} {t : τ} {h : List Mode} (hi : l.Idle t h) :
    ¬ l.BlockedBySelf t := fun hb => hb.1 hi.2

theorem not_blockedBySelf_of_held {l : RwLock τ} {t : τ} (h : l.held t = []) :
    ¬ l.BlockedBySelf t := by
  rintro ⟨_, _, _, m, hm, _⟩
  rw [h] at hm
  cases hm

/-- A task that asks while it holds nothing is not in its own way. -/
theorem not_blockedBySelf_of_asked {l : RwLock τ} {t : τ} {m : Mode} (ha : l.Asked t [] m) :
    ¬ l.BlockedBySelf t := by
  rcases ha with ⟨h1, _⟩ | ha
  · exact not_blockedBySelf_of_held h1
  · exact not_blockedBySelf_of_idle ha

/-- **A second read request blocks its task for ever precisely when a writer waits.** -/
theorem blockedBySelf_request_read {l : RwLock τ} {t : τ} (hi : l.Idle t [.read]) :
    (l.request t .read).BlockedBySelf t ↔ l.writerWaits = true := by
  have hr : Mode.read ∈ l.held t := by rw [hi.1]; exact List.mem_cons_self
  have ha : admits l.holders Mode.read = true := admits_read_of_reader hr
  by_cases hq : l.queue = []
  · obtain ⟨_, e2⟩ := request_granted (t := t) hq ha
    constructor
    · intro hb
      exact absurd (by simp [waiting, e2]) hb.1
    · intro hw
      exact absurd hq ((writerWaits_of_reader hr).mp hw)
  · obtain ⟨e1, e2⟩ := request_queued (t := t) (m := .read) fun h => hq h.1
    refine ⟨fun _ => (writerWaits_of_reader hr).mpr hq, fun hw => ⟨?_, ?_⟩⟩
    · simp [waiting, e2]
    · have hnm : ∀ x ∈ l.queue, x.1 ≠ t := fun x hx hxt => by
        have hm : x.2 ∈ l.waiting t := mem_waiting.mpr (by rw [← hxt]; exact hx)
        rw [hi.2] at hm
        cases hm
      obtain ⟨x, hx, hm⟩ := List.any_eq_true.mp hw
      refine ⟨x, ?_, .read, by simpa [held, e1] using hr, ?_⟩
      · rw [e2, upTo_of_not_mem hnm]
        exact List.mem_append_left _ hx
      · rw [of_decide_eq_true hm]
        rfl

/-- A reader that asks for a second read guard and is not in its own way has been granted it. -/
theorem Asked.granted_of_not_blocked {l : RwLock τ} {t : τ} (ha : l.Asked t [.read] .read)
    (hb : ¬ l.BlockedBySelf t) : l.Idle t [.read, .read] := by
  rcases ha with ⟨h1, h2⟩ | h
  · refine absurd ?_ hb
    have hr : Mode.read ∈ l.held t := by rw [h1]; exact List.mem_cons_self
    have hq : l.queue ≠ [] := by
      intro hq
      simp [waiting, hq] at h2
    obtain ⟨x, q, hxq⟩ := List.exists_cons_of_ne_nil hq
    refine ⟨by simp [h2], x, ?_, .read, hr, ?_⟩
    · rw [hxq, upTo]
      split <;> exact List.mem_cons_self
    · rw [head_of_reader hr (by rw [hxq]; rfl)]
      rfl
  · exact h

/-- No request ends a self-deadlock. -/
theorem BlockedBySelf.request {l : RwLock τ} {t : τ} (hb : l.BlockedBySelf t) (u : τ) (m : Mode) :
    (l.request u m).BlockedBySelf t := by
  obtain ⟨hw, x, hx, h, hh, hc⟩ := hb
  have hq : l.queue ≠ [] := by
    rintro hq
    simp [waiting, hq] at hw
  obtain ⟨e1, e2⟩ := request_queued (t := u) (m := m) fun h => hq h.1
  have hex : ∃ y ∈ l.queue, y.1 = t := by
    obtain ⟨n, r, hn⟩ := List.exists_cons_of_ne_nil hw
    exact ⟨(t, n), mem_waiting.mp (by rw [hn]; exact List.mem_cons_self), rfl⟩
  refine ⟨?_, x, by rw [e2, upTo_append hex]; exact hx, h, by simpa [held, e1] using hh, hc⟩
  simp only [waiting, e2, List.filter_append, List.map_append, ne_eq, List.append_eq_nil_iff,
    not_and]
  exact fun e => absurd e hw

/-- `promote` stops before a request that conflicts with a holder. -/
theorem promote_upTo {t : τ} {x : τ × Mode} {h : Mode} : ∀ {hs q : List (τ × Mode)},
    (t, h) ∈ hs → x ∈ upTo t q → h.compatible x.2 = false →
      x ∈ upTo t (promote hs q).2 ∧
        (q.filter fun y => y.1 = t) = (promote hs q).2.filter fun y => y.1 = t
  | _, [], _, hx, _ => by simp [upTo] at hx
  | hs, y :: q, hh, hx, hc => by
      by_cases hy : admits hs y.2 = true
      · have hxy : x ≠ y := by
          rintro rfl
          have := List.all_eq_true.mp hy _ hh
          rw [hc] at this
          cases this
        have hyt : y.1 ≠ t := by
          intro e
          simp only [upTo, e, if_true, List.mem_singleton] at hx
          exact hxy hx
        have hx' : x ∈ upTo t q := by
          simp only [upTo, hyt, if_false, List.mem_cons] at hx
          exact hx.resolve_left hxy
        obtain ⟨h1, h2⟩ := promote_upTo (List.mem_cons_of_mem y hh) hx' hc
        simp only [promote, hy, if_true]
        exact ⟨h1, by simpa [List.filter_cons, hyt] using h2⟩
      · simp only [promote, hy]
        exact ⟨hx, rfl⟩

/-- **No release by another task ends a self-deadlock.** -/
theorem BlockedBySelf.release {l : RwLock τ} {t u : τ} (hb : l.BlockedBySelf t) (hu : u ≠ t)
    (m : Mode) : (l.release u m).BlockedBySelf t := by
  obtain ⟨hw, x, hx, h, hh, hc⟩ := hb
  have hh' : (t, h) ∈ l.holders.erase (u, m) := by
    refine (List.mem_erase_of_ne fun e => hu ?_).mpr (mem_held.mp hh)
    exact (congrArg Prod.fst e).symm
  obtain ⟨h1, h2⟩ := promote_upTo hh' hx hc
  obtain ⟨g, _, hg⟩ := release_prefix l u m
  refine ⟨?_, x, h1, h, ?_, hc⟩
  · have : (l.release u m).waiting t = l.waiting t := by
      simp only [waiting, RwLock.release, ← h2]
    rwa [this]
  · rw [mem_held, hg]
    exact List.mem_append_right _ hh'

end RwLock

end Concurrent
