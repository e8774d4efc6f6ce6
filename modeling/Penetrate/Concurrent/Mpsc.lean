/-
  File:      Penetrate/Concurrent/Mpsc.lean
  Subject:   A BOUNDED FIFO CHANNEL. Names nothing of a particular program.

  `Mpsc α n` holds at most `n` items; the bound is a field, so a channel beyond its capacity
  cannot be written down. A sender waits while the channel is full, a receiver while it is empty.
  `leads_full` drives a machine until a channel of it is full; `leadsBy_full` counts what that takes.
  `Numbered` says of a line of items that they stand in it in the order they came.
-/
import Mathlib.Data.List.Basic
import Mathlib.Tactic.Common
import Penetrate.Concurrent.Machine

namespace Concurrent

/-- A bounded channel, oldest item first. -/
@[ext] structure Mpsc (α : Type*) (cap : Nat) where
  items : List α
  bound : items.length ≤ cap

namespace Mpsc

variable {α : Type*} {cap : Nat}

def empty : Mpsc α cap := ⟨[], Nat.zero_le _⟩

/-- No permit is left: a sender waits. -/
def full (q : Mpsc α cap) : Bool := decide (cap ≤ q.items.length)

/-- The channel after a send; `none` while it is full. -/
def send (q : Mpsc α cap) (a : α) : Option (Mpsc α cap) :=
  if h : q.items.length < cap then some ⟨q.items ++ [a], by rw [List.length_append]; exact h⟩ else none

/-- The oldest item and the channel without it; `none` while it is empty. -/
def recv (q : Mpsc α cap) : Option (α × Mpsc α cap) :=
  match h : q.items with
  | [] => none
  | a :: as => some (a, ⟨as, by have := q.bound; rw [h] at this; exact Nat.le_of_succ_le this⟩)

@[simp] theorem items_empty : (empty : Mpsc α cap).items = [] := rfl

theorem send_eq_some {q q' : Mpsc α cap} {a : α} (h : q.send a = some q') :
    q'.items = q.items ++ [a] ∧ q.full = false := by
  unfold send at h
  split at h
  · rename_i hlt
    cases h
    exact ⟨rfl, by simpa [full] using hlt⟩
  · cases h

theorem send_eq_none {q : Mpsc α cap} {a : α} : q.send a = none ↔ q.full = true := by
  simp [send, full]

theorem recv_eq_some {q q' : Mpsc α cap} {a : α} (h : q.recv = some (a, q')) :
    q.items = a :: q'.items := by
  unfold recv at h
  split at h
  · cases h
  · rename_i e
    cases h
    exact e

theorem recv_eq_none {q : Mpsc α cap} : q.recv = none ↔ q.items = [] := by
  unfold recv
  split <;> simp_all

theorem full_iff {q : Mpsc α cap} : q.full = true ↔ q.items.length = cap := by
  have := q.bound
  simp only [full, decide_eq_true_eq]
  omega

/-- What is sent into an empty channel comes out of it, and leaves it empty. -/
theorem send_empty (h : 0 < cap) (a : α) :
    ∃ q, (empty : Mpsc α cap).send a = some q ∧ q.recv = some (a, empty) :=
  ⟨⟨[a], h⟩, by simp [send, empty, h], rfl⟩

/-- **Filling a channel**: where each further send is a way the machine can go, of one weight, it can
    go until the channel is full. -/
theorem leadsBy_full {σ β A : Type*} [AddMonoid A] {M : Machine σ β} {w : β → A} {k : A}
    {st : Mpsc α cap → σ} {a : Mpsc α cap → α}
    (h : ∀ q q', q.send (a q) = some q' → M.LeadsBy w (st q) k (st q')) (q : Mpsc α cap) :
    ∃ q', q'.full = true ∧ M.LeadsBy w (st q) ((cap - q.items.length) • k) (st q') := by
  cases hq : q.send (a q) with
  | none =>
      have hfull := send_eq_none.mp hq
      refine ⟨q, hfull, ?_⟩
      rw [full_iff.mp hfull, Nat.sub_self, zero_nsmul]
      exact .refl _
  | some q1 =>
      have hlen : q1.items.length = q.items.length + 1 := by simp [(send_eq_some hq).1]
      have hb := q1.bound
      obtain ⟨q', hf, hl⟩ := leadsBy_full h q1
      refine ⟨q', hf, ?_⟩
      have hn : cap - q.items.length = (cap - q1.items.length) + 1 := by omega
      rw [hn, succ_nsmul']
      exact (h q q1 hq).trans hl
termination_by cap - q.items.length

theorem leads_full {σ β : Type*} {M : Machine σ β} {st : Mpsc α cap → σ} {a : Mpsc α cap → α}
    (h : ∀ q q', q.send (a q) = some q' → M.Leads (st q) (st q')) (q : Mpsc α cap) :
    ∃ q', q'.full = true ∧ M.Leads (st q) (st q') := by
  obtain ⟨q', hf, hl⟩ := leadsBy_full (fun q q' hq => (h q q' hq).leadsBy_zero) q
  exact ⟨q', hf, hl.leads⟩

end Mpsc

/-- Items numbered as they come, the oldest first: the numbers rise, and `next` is free. -/
def Numbered (line : List Nat) (next : Nat) : Prop :=
  line.Pairwise (· < ·) ∧ ∀ i ∈ line, i < next

namespace Numbered

variable {line line' : List Nat} {next : Nat}

theorem nil : Numbered [] next := ⟨.nil, by simp⟩

theorem push (h : Numbered line next) : Numbered (line ++ [next]) (next + 1) := by
  refine ⟨List.pairwise_append.mpr ⟨h.1, List.pairwise_singleton _ _, fun i hi j hj => ?_⟩,
    fun i hi => ?_⟩
  · rw [List.mem_singleton.mp hj]
    exact h.2 i hi
  · rcases List.mem_append.mp hi with hi | hi
    · have := h.2 i hi
      omega
    · have := List.mem_singleton.mp hi
      omega

/-- Items may leave anywhere. -/
theorem sublist (h : Numbered line next) (hs : line'.Sublist line) : Numbered line' next :=
  ⟨h.1.sublist hs, fun i hi => h.2 i (hs.subset hi)⟩

/-- A number may be passed over. -/
theorem skip (h : Numbered line next) : Numbered line (next + 1) :=
  ⟨h.1, fun i hi => Nat.lt_succ_of_lt (h.2 i hi)⟩

end Numbered

/-- Pairs that rise on both sides are one to one. -/
theorem rising_once {pairs : List (Nat × Nat)}
    (h : pairs.Pairwise fun p q => p.1 < q.1 ∧ p.2 < q.2) {p q : Nat × Nat} (hp : p ∈ pairs)
    (hq : q ∈ pairs) : p = q ∨ (p.1 ≠ q.1 ∧ p.2 ≠ q.2) := by
  induction h with
  | nil => cases hp
  | cons hlt _ ih =>
      rcases List.mem_cons.mp hp with rfl | hp' <;> rcases List.mem_cons.mp hq with rfl | hq'
      · exact Or.inl rfl
      · have := hlt q hq'
        exact Or.inr ⟨by omega, by omega⟩
      · have := hlt p hp'
        exact Or.inr ⟨by omega, by omega⟩
      · exact ih hp' hq'

end Concurrent
