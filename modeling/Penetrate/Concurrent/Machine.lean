/-
  File:      Penetrate/Concurrent/Machine.lean
  Subject:   LABELLED MACHINES AND THEIR RUNS. Names nothing of a particular program.

  * `Machine` -- start states and a partial step function; an action that is not enabled in a
    state has no successor there;
  * `Machine.Run` -- a run with its trace: every step taken, with the state it was taken in;
  * `Run.inv` -- the invariant rule, for runs whose steps all meet a condition; `Run.guarded` --
    what the invariant says of the steps; `Run.once` -- the rule for what happens at most once;
  * `Run.throughout_iff` -- the exact rule: a property that a step keeps precisely when the step
    meets a condition holds in every state of a run precisely when every step meets it;
  * `Machine.exec`, `trace` -- a schedule executed; `run_trace` turns it into a run, `exec_inv` is
    its invariant rule;
  * `Completes` -- steps that come to an end, and only where a property holds; its rule, with a
    measure; `Concludes` -- the same where the steps have no common bound; its rule, with a
    well-founded relation;
  * `Run.simulates` -- a finer machine, each step of which is a schedule of this one;
  * `LeadsBy` -- a schedule with what its actions weigh together;
  * `history` -- what the steps of a run give, in the order they were taken; `Run.pipe`, the rule
    for what goes in and comes out; `Outstanding` -- a window on what goes in and has yet to come
    out; `Run.held_le` -- what is held within stays in the window;
  * `project` -- the steps an inner machine takes in a run of an outer one.
-/
import Mathlib.Algebra.BigOperators.Group.List.Basic
import Mathlib.Algebra.Group.Hom.Defs
import Mathlib.Data.List.Infix
import Mathlib.Tactic.Common

namespace Concurrent

universe u v

/-- A labelled machine. `step s a = none` says that the action `a` is not enabled in `s`. -/
structure Machine (σ : Type u) (α : Type v) where
  start : σ → Prop
  step : σ → α → Option σ

namespace Machine

variable {σ : Type u} {α : Type v} (M : Machine σ α)

/-! ## 1. Runs -/

/-- A run: the steps taken, the latest first, each with the state it was taken in. -/
inductive Run : List (σ × α) → σ → Prop where
  | start {s : σ} (h : M.start s) : Run [] s
  | step {tr : List (σ × α)} {s s' : σ} {a : α} (r : Run tr s) (h : M.step s a = some s') :
      Run ((s, a) :: tr) s'

/-- The states some run ends in. -/
def Reachable (s : σ) : Prop := ∃ tr, M.Run tr s

/-- `P` holds in every state a run visits. -/
def Throughout (P : σ → Prop) (tr : List (σ × α)) (s : σ) : Prop := P s ∧ ∀ p ∈ tr, P p.1

/-- Every step of a trace meets `ok` in the state it was taken in. -/
def Guarded (ok : σ → α → Prop) (tr : List (σ × α)) : Prop := ∀ p ∈ tr, ok p.1 p.2

variable {M}

theorem throughout_cons {P : σ → Prop} {tr : List (σ × α)} {s s' : σ} {a : α} :
    Throughout P ((s, a) :: tr) s' ↔ P s' ∧ Throughout P tr s := by
  simp [Throughout]

theorem Throughout.mono {P Q : σ → Prop} {tr : List (σ × α)} {s : σ} (h : Throughout P tr s)
    (hPQ : ∀ s, P s → Q s) : Throughout Q tr s := ⟨hPQ s h.1, fun p hp => hPQ p.1 (h.2 p hp)⟩

theorem guarded_cons {ok : σ → α → Prop} {tr : List (σ × α)} {s : σ} {a : α} :
    Guarded ok ((s, a) :: tr) ↔ ok s a ∧ Guarded ok tr := by
  simp [Guarded]

/-- **The invariant rule**, for runs whose steps all meet `ok`. -/
theorem Run.inv {I : σ → Prop} {ok : σ → α → Prop} (h0 : ∀ s, M.start s → I s)
    (hs : ∀ s a s', I s → ok s a → M.step s a = some s' → I s') {tr : List (σ × α)} {s : σ}
    (r : M.Run tr s) (hok : Guarded ok tr) : I s := by
  induction r with
  | start h => exact h0 _ h
  | step r h ih =>
      obtain ⟨hs', hok'⟩ := guarded_cons.mp hok
      exact hs _ _ _ (ih hok') hs' h

/-- The invariant rule for all runs. -/
theorem Run.invariant {I : σ → Prop} (h0 : ∀ s, M.start s → I s)
    (hs : ∀ s a s', I s → M.step s a = some s' → I s') {tr : List (σ × α)} {s : σ}
    (r : M.Run tr s) : I s := by
  have hok : Guarded (fun _ _ => True) tr := fun _ _ => trivial
  exact r.inv h0 (fun s a s' hI _ h => hs s a s' hI h) hok

/-- What an invariant says of every step taken from it holds of every step of a run. -/
theorem Run.guarded {I : σ → Prop} {ok : σ → α → Prop} (h0 : ∀ s, M.start s → I s)
    (hs : ∀ s a s', I s → M.step s a = some s' → I s')
    (hok : ∀ s a s', I s → M.step s a = some s' → ok s a) {tr : List (σ × α)} {s : σ}
    (r : M.Run tr s) : Guarded ok tr := by
  induction r with
  | start h => simp [Guarded]
  | step r h ih => exact guarded_cons.mpr ⟨hok _ _ _ (r.invariant h0 hs) h, ih⟩

/-- An invariant holds in every state a run visits. -/
theorem Run.throughout {I : σ → Prop} (h0 : ∀ s, M.start s → I s)
    (hs : ∀ s a s', I s → M.step s a = some s' → I s') {tr : List (σ × α)} {s : σ}
    (r : M.Run tr s) : Throughout I tr s := by
  induction r with
  | start h => exact ⟨h0 _ h, by simp⟩
  | step r h ih => exact throughout_cons.mpr ⟨hs _ _ _ ih.1 h, ih⟩

/-- Every step of a run was enabled where it was taken. -/
theorem Run.enabled {tr : List (σ × α)} {s : σ} (r : M.Run tr s) {p : σ × α} (hp : p ∈ tr) :
    ∃ s', M.step p.1 p.2 = some s' := by
  induction r with
  | start _ => cases hp
  | step _ h ih =>
      rcases List.mem_cons.mp hp with rfl | hp
      · exact ⟨_, h⟩
      · exact ih hp

/-- **The rule for what happens once.** Where a step of kind `K` leads to `D`, which no step leaves
    and where there is no step of kind `K`, a run has at most one. -/
theorem Run.once {K : σ → α → Prop} {D : σ → Prop}
    (hK : ∀ s a s', K s a → M.step s a = some s' → D s')
    (hD : ∀ s a s', D s → M.step s a = some s' → D s')
    (hno : ∀ s a s', D s → M.step s a = some s' → ¬ K s a) {tr : List (σ × α)} {s : σ}
    (r : M.Run tr s) {p q : σ × α} (hp : p ∈ tr) (hq : q ∈ tr) (kp : K p.1 p.2) (kq : K q.1 q.2) :
    p = q := by
  have hdone {tr : List (σ × α)} {s : σ} (r : M.Run tr s) {p : σ × α} (hp : p ∈ tr)
      (kp : K p.1 p.2) : D s := by
    induction r with
    | start _ => cases hp
    | step _ h ih =>
        rcases List.mem_cons.mp hp with rfl | hp
        · exact hK _ _ _ kp h
        · exact hD _ _ _ (ih hp) h
  induction r with
  | start _ => cases hp
  | step r h ih =>
      rcases List.mem_cons.mp hp with rfl | hp <;> rcases List.mem_cons.mp hq with rfl | hq
      · rfl
      · exact absurd kp (hno _ _ _ (hdone r hq kq) h)
      · exact absurd kq (hno _ _ _ (hdone r hp kp) h)
      · exact ih hp hq

/-- Every state of a run is the end of a run. -/
theorem Run.prefix_run {tr : List (σ × α)} {s : σ} (r : M.Run tr s) {p : σ × α} (hp : p ∈ tr) :
    M.Reachable p.1 := by
  induction r with
  | start _ => cases hp
  | step r _ ih =>
      rcases List.mem_cons.mp hp with rfl | hp
      · exact ⟨_, r⟩
      · exact ih hp

/-- **The exact rule.** Where an invariant `I` holds on all runs, `P` holds at the start, and
    from a state with `P` a step keeps `P` precisely when it meets `ok`, a run has `P` in all its
    states precisely when all its steps meet `ok`. -/
theorem Run.throughout_iff {I P : σ → Prop} {ok : σ → α → Prop}
    (h0 : ∀ s, M.start s → I s ∧ P s) (hI : ∀ s a s', I s → M.step s a = some s' → I s')
    (hP : ∀ s a s', I s → P s → M.step s a = some s' → (P s' ↔ ok s a)) {tr : List (σ × α)}
    {s : σ} (r : M.Run tr s) : Throughout P tr s ↔ Guarded ok tr := by
  induction r with
  | start h => exact ⟨fun _ => by simp [Guarded], fun _ => ⟨(h0 _ h).2, by simp⟩⟩
  | @step tr s s' a r h ih =>
      have hIs : I s := r.invariant (fun s h => (h0 s h).1) hI
      rw [throughout_cons, guarded_cons, ← ih]
      constructor
      · rintro ⟨hs', ht⟩
        exact ⟨(hP s a s' hIs ht.1 h).mp hs', ht⟩
      · rintro ⟨hok, ht⟩
        exact ⟨(hP s a s' hIs ht.1 h).mpr hok, ht⟩

/-! ## 2. Schedules -/

variable (M)

/-- The schedule `as` executed from `s`; `none` as soon as an action is not enabled. -/
def exec : σ → List α → Option σ
  | s, [] => some s
  | s, a :: as => (M.step s a).bind fun s' => exec s' as

/-- The steps it takes, the latest first. -/
def trace : σ → List α → List (σ × α)
  | _, [] => []
  | s, a :: as => match M.step s a with
    | none => []
    | some s' => trace s' as ++ [(s, a)]

/-- Some schedule leads from `s` to `s'`. -/
def Leads (s s' : σ) : Prop := ∃ as, M.exec s as = some s'

variable {M}

theorem exec_append {s : σ} {as bs : List α} :
    M.exec s (as ++ bs) = (M.exec s as).bind fun s' => M.exec s' bs := by
  induction as generalizing s with
  | nil => rfl
  | cons a as ih =>
      cases h : M.step s a with
      | none => simp [exec, h]
      | some s' => simp [exec, h, ih]

theorem Leads.refl (s : σ) : M.Leads s s := ⟨[], rfl⟩

theorem Leads.trans {s t w : σ} (h : M.Leads s t) (h' : M.Leads t w) : M.Leads s w := by
  obtain ⟨as, ha⟩ := h
  obtain ⟨bs, hb⟩ := h'
  exact ⟨as ++ bs, by simp [exec_append, ha, hb]⟩

theorem Leads.of_step {s s' : σ} {a : α} (h : M.step s a = some s') : M.Leads s s' :=
  ⟨[a], by simp [exec, h]⟩

/-- **A schedule executed from the end of a run extends the run**, by the steps it takes. -/
theorem run_trace {tr : List (σ × α)} {s s' : σ} {as : List α} (r : M.Run tr s)
    (h : M.exec s as = some s') : M.Run (M.trace s as ++ tr) s' := by
  induction as generalizing s tr with
  | nil =>
      cases h
      exact r
  | cons a as ih =>
      cases ha : M.step s a with
      | none => simp [exec, ha] at h
      | some t =>
          have h' : M.exec t as = some s' := by simpa [exec, ha] using h
          have r' := ih (.step r ha) h'
          simpa [trace, ha] using r'

theorem trace_acts {s s' : σ} {as : List α} (h : M.exec s as = some s') :
    (M.trace s as).map Prod.snd = as.reverse := by
  induction as generalizing s with
  | nil => rfl
  | cons a as ih =>
      cases ha : M.step s a with
      | none => simp [exec, ha] at h
      | some t =>
          have h' : M.exec t as = some s' := by simpa [exec, ha] using h
          simp [trace, ha, ih h']

theorem act_mem {s s' : σ} {as : List α} (h : M.exec s as = some s') {p : σ × α}
    (hp : p ∈ M.trace s as) : p.2 ∈ as := by
  have hm : p.2 ∈ (M.trace s as).map Prod.snd := List.mem_map_of_mem hp
  rwa [trace_acts h, List.mem_reverse] at hm

theorem run_exec_acts {tr : List (σ × α)} {s s' : σ} {as : List α} (r : M.Run tr s)
    (h : M.exec s as = some s') : ∃ tr', M.Run (tr' ++ tr) s' ∧ tr'.map Prod.snd = as.reverse :=
  ⟨_, run_trace r h, trace_acts h⟩

theorem run_exec {tr : List (σ × α)} {s s' : σ} {as : List α} (r : M.Run tr s)
    (h : M.exec s as = some s') : ∃ tr', M.Run (tr' ++ tr) s' := by
  obtain ⟨tr', r', _⟩ := run_exec_acts r h
  exact ⟨tr', r'⟩

/-- Some schedule leads from `s` to `s'`, and its actions weigh `k` together. -/
def LeadsBy {A : Type*} [AddMonoid A] (w : α → A) (s : σ) (k : A) (s' : σ) : Prop :=
  ∃ as, M.exec s as = some s' ∧ (as.map w).sum = k

section

variable {A : Type*} [AddMonoid A] {w : α → A} {s t u : σ} {k l : A}

theorem LeadsBy.refl (s : σ) : M.LeadsBy w s 0 s := ⟨[], rfl, rfl⟩

theorem LeadsBy.trans (h : M.LeadsBy w s k t) (h' : M.LeadsBy w t l u) :
    M.LeadsBy w s (k + l) u := by
  obtain ⟨as, ha, rfl⟩ := h
  obtain ⟨bs, hb, rfl⟩ := h'
  refine ⟨as ++ bs, by simp [exec_append, ha, hb], ?_⟩
  rw [List.map_append, List.sum_append]

theorem LeadsBy.of_step {a : α} (h : M.step s a = some t) : M.LeadsBy w s (w a) t :=
  ⟨[a], by simp [exec, h], by simp⟩

end

theorem LeadsBy.leads {A : Type*} [AddMonoid A] {w : α → A} {k : A} {s t : σ}
    (h : M.LeadsBy w s k t) : M.Leads s t := by
  obtain ⟨as, ha, _⟩ := h
  exact ⟨as, ha⟩

theorem Leads.leadsBy_zero {s t : σ} (h : M.Leads s t) : M.LeadsBy (fun _ => (0 : Nat)) s 0 t := by
  obtain ⟨as, ha⟩ := h
  exact ⟨as, ha, by simp⟩

/-- A schedule of weight `k` extends a run by steps of that weight. -/
theorem run_leadsBy {A : Type*} [AddCommMonoid A] {w : α → A} {k : A} {tr : List (σ × α)} {s s' : σ}
    (r : M.Run tr s) (h : M.LeadsBy w s k s') :
    ∃ tr', M.Run (tr' ++ tr) s' ∧ ((tr'.map Prod.snd).map w).sum = k := by
  obtain ⟨as, ha, rfl⟩ := h
  obtain ⟨tr', r', hacts⟩ := run_exec_acts r ha
  refine ⟨tr', r', ?_⟩
  rw [hacts, List.map_reverse, List.sum_reverse]

theorem Reachable.leads {s s' : σ} (h : M.Reachable s) (h' : M.Leads s s') : M.Reachable s' := by
  obtain ⟨tr, r⟩ := h
  obtain ⟨as, ha⟩ := h'
  obtain ⟨tr', r'⟩ := run_exec r ha
  exact ⟨_, r'⟩

theorem Reachable.start {s : σ} (h : M.start s) : M.Reachable s := ⟨[], .start h⟩

/-- A property that every step meeting `ok` keeps holds at the end of a schedule of such steps. -/
theorem exec_inv {I : σ → Prop} {ok : α → Prop}
    (hs : ∀ s a s', I s → ok a → M.step s a = some s' → I s') {s s' : σ} {as : List α}
    (h : M.exec s as = some s') (hok : ∀ a ∈ as, ok a) (h0 : I s) : I s' := by
  induction as generalizing s with
  | nil =>
      cases h
      exact h0
  | cons a as ih =>
      cases ha : M.step s a with
      | none => simp [exec, ha] at h
      | some t =>
          have h' : M.exec t as = some s' := by simpa [exec, ha] using h
          have ht : I t := hs s a t h0 (hok a List.mem_cons_self) ha
          exact ih h' (fun b hb => hok b (List.mem_cons_of_mem _ hb)) ht

/-- Where every action is enabled, and keeps `I`, every schedule is executed to its end. -/
theorem exec_total {I : σ → Prop} (hs : ∀ s a, I s → ∃ s', M.step s a = some s' ∧ I s')
    (as : List α) {s : σ} (h0 : I s) : ∃ s', M.exec s as = some s' ∧ I s' := by
  induction as generalizing s with
  | nil => exact ⟨s, rfl, h0⟩
  | cons a as ih =>
      obtain ⟨t, ha, ht⟩ := hs s a h0
      obtain ⟨s', has, hs'⟩ := ih ht
      exact ⟨s', by rw [exec, ha]; exact has, hs'⟩

/-- A property that every step keeps holds wherever a state with it leads. -/
theorem Leads.inv {I : σ → Prop} (hs : ∀ s a s', I s → M.step s a = some s' → I s') {s s' : σ}
    (h : M.Leads s s') (h0 : I s) : I s' := by
  obtain ⟨as, ha⟩ := h
  have hok : ∀ a ∈ as, True := fun _ _ => trivial
  exact exec_inv (fun s a s' hI _ h => hs s a s' hI h) ha hok h0

/-- **The rule for a finer machine.** Where each of its steps is some steps of `N`, or none, along
    `f`, and keeps `I`, what it reaches is reachable in `N`. -/
theorem Run.simulates {τ : Type*} {β : Type*} {N : Machine τ β} {f : σ → τ} {I : σ → Prop}
    (h0 : ∀ s, M.start s → N.start (f s) ∧ I s)
    (hs : ∀ s a s', I s → M.step s a = some s' → N.Leads (f s) (f s') ∧ I s') {tr : List (σ × α)}
    {s : σ} (r : M.Run tr s) : N.Reachable (f s) ∧ I s := by
  induction r with
  | start h =>
      obtain ⟨hf, hI⟩ := h0 _ h
      exact ⟨.start hf, hI⟩
  | step _ h ih =>
      obtain ⟨hl, hI⟩ := hs _ _ _ ih.2 h
      exact ⟨ih.1.leads hl, hI⟩

/-- Where every step meeting `ok` makes `μ` smaller, a schedule of such steps is no longer than
    that. -/
theorem exec_bounded {I : σ → Prop} {ok : α → Prop} {μ : σ → Nat}
    (hs : ∀ s a s', I s → ok a → M.step s a = some s' → I s' ∧ μ s' < μ s) {s s' : σ} {as : List α}
    (h : M.exec s as = some s') (hok : ∀ a ∈ as, ok a) (h0 : I s) : as.length + μ s' ≤ μ s := by
  induction as generalizing s with
  | nil =>
      cases h
      simp
  | cons a as ih =>
      cases ha : M.step s a with
      | none => simp [exec, ha] at h
      | some t =>
          have h' : M.exec t as = some s' := by simpa [exec, ha] using h
          obtain ⟨ht, hlt⟩ := hs s a t h0 (hok a List.mem_cons_self) ha
          have hle := ih h' (fun b hb => hok b (List.mem_cons_of_mem _ hb)) ht
          rw [List.length_cons]
          omega

/-- From `s` the steps meeting `ok` come to an end, whatever their order, and they do so only where
    `Q` holds. -/
structure Completes (M : Machine σ α) (ok : α → Prop) (Q : σ → Prop) (s : σ) : Prop where
  bounded : ∃ n, ∀ as s', M.exec s as = some s' → (∀ a ∈ as, ok a) → as.length ≤ n
  proceeds : ∀ as s', M.exec s as = some s' → (∀ a ∈ as, ok a) →
    Q s' ∨ ∃ a t, ok a ∧ M.step s' a = some t

/-- What completes goes on completing. -/
theorem Completes.step {ok : α → Prop} {Q : σ → Prop} {s t : σ} {a : α} (h : M.Completes ok Q s)
    (ha : ok a) (hs : M.step s a = some t) : M.Completes ok Q t := by
  have hexec {as : List α} {s' : σ} (has : M.exec t as = some s') :
      M.exec s (a :: as) = some s' := by
    rw [exec, hs]
    exact has
  refine ⟨?_, fun as s' has hok => h.proceeds _ s' (hexec has) (List.forall_mem_cons.mpr ⟨ha, hok⟩)⟩
  obtain ⟨n, hn⟩ := h.bounded
  refine ⟨n, fun as s' has hok => ?_⟩
  have hle := hn _ s' (hexec has) (List.forall_mem_cons.mpr ⟨ha, hok⟩)
  rw [List.length_cons] at hle
  omega

theorem Completes.mono {ok : α → Prop} {P Q : σ → Prop} {s : σ} (h : M.Completes ok P s)
    (hPQ : ∀ s, P s → Q s) : M.Completes ok Q s where
  bounded := h.bounded
  proceeds as s' has hok := (h.proceeds as s' has hok).imp_left (hPQ s')

/-- Where no such step can be taken it has come to its end. -/
theorem Completes.stuck {ok : α → Prop} {Q : σ → Prop} {s : σ} (h : M.Completes ok Q s)
    (hs : ∀ a t, ok a → M.step s a ≠ some t) : Q s := by
  rcases h.proceeds [] s rfl (by simp) with hQ | ⟨a, t, ha, ht⟩
  · exact hQ
  · exact absurd ht (hs a t ha)

/-- **The rule for what completes**: a measure that every step makes smaller, and no stuck state but
    where `Q` holds. -/
theorem Completes.of_measure {I : σ → Prop} {ok : α → Prop} {Q : σ → Prop} (μ : σ → Nat)
    (hs : ∀ s a s', I s → ok a → M.step s a = some s' → I s' ∧ μ s' < μ s)
    (hQ : ∀ s, I s → Q s ∨ ∃ a t, ok a ∧ M.step s a = some t) {s : σ} (h0 : I s) :
    M.Completes ok Q s where
  bounded := ⟨μ s, fun as s' h hok => by
    have hle := exec_bounded hs h hok h0
    omega⟩
  proceeds as s' h hok := by
    have hI : I s' := exec_inv (fun s a s' hI ha h => (hs s a s' hI ha h).1) h hok h0
    exact hQ s' hI

/-- The same without a bound: no schedule of such steps goes on for ever, and they come to an end
    only where `Q` holds. -/
inductive Concludes (M : Machine σ α) (ok : α → Prop) (Q : σ → Prop) : σ → Prop where
  | intro {s : σ} (next : ∀ a t, ok a → M.step s a = some t → Concludes M ok Q t)
      (proceeds : Q s ∨ ∃ a t, ok a ∧ M.step s a = some t) : Concludes M ok Q s

/-- **The rule for what concludes**: along `f` every step goes down in a well-founded relation, and
    no state is stuck but where `Q` holds. -/
theorem Concludes.of_wf {τ : Type*} {r : τ → τ → Prop} (wf : WellFounded r) {I : σ → Prop}
    {ok : α → Prop} {Q : σ → Prop} (f : σ → τ)
    (hs : ∀ s a s', I s → ok a → M.step s a = some s' → I s' ∧ r (f s') (f s))
    (hQ : ∀ s, I s → Q s ∨ ∃ a t, ok a ∧ M.step s a = some t) {s : σ} (h0 : I s) :
    M.Concludes ok Q s := by
  induction h : f s using wf.induction generalizing s with
  | h x ih =>
      subst h
      refine .intro (fun a t ha ht => ?_) (hQ s h0)
      obtain ⟨hI, hr⟩ := hs s a t h0 ha ht
      exact ih (f t) hr hI rfl

/-! ## 3. What a run gives -/

/-- What the steps of a trace give, the oldest first. -/
def history {β : Type*} (ev : σ → α → Option β) (tr : List (σ × α)) : List β :=
  tr.reverse.filterMap fun p => ev p.1 p.2

section

variable {β : Type*} {ev : σ → α → Option β} {tr : List (σ × α)} {s : σ} {a : α}

@[simp] theorem history_nil : history ev [] = [] := rfl

@[simp] theorem history_cons : history ev ((s, a) :: tr) = history ev tr ++ (ev s a).toList := by
  unfold history
  rw [List.reverse_cons, List.filterMap_append]
  cases h : ev s a <;> simp [h]

theorem history_append (tr' tr : List (σ × α)) :
    history ev (tr' ++ tr) = history ev tr ++ history ev tr' := by
  unfold history
  rw [List.reverse_append, List.filterMap_append]

theorem mem_history {b : β} : b ∈ history ev tr ↔ ∃ p ∈ tr, ev p.1 p.2 = some b := by
  simp [history]

theorem history_map {γ : Type*} (f : β → γ) (tr : List (σ × α)) :
    history (fun s a => (ev s a).map f) tr = (history ev tr).map f := by
  unfold history
  rw [List.map_filterMap]

/-- **The rule for a lossy pipe.** Where each step takes its output from the front of what is
    within, and adds its input at the end, what has come out, followed by what is within, is a
    subsequence of what has gone in. -/
theorem Run.pipe {ins outs : σ → α → Option β} {within : σ → List β} {I : σ → Prop}
    (h0 : ∀ s, M.start s → I s ∧ within s = []) (hI : ∀ s a s', I s → M.step s a = some s' → I s')
    (hs : ∀ s a s', I s → M.step s a = some s' →
      ((outs s a).toList ++ within s').Sublist (within s ++ (ins s a).toList))
    (r : M.Run tr s) : (history outs tr ++ within s).Sublist (history ins tr) := by
  induction r with
  | start h => simp [(h0 _ h).2]
  | @step tr s s' a r h ih =>
      have hIs : I s := r.invariant (fun s h => (h0 s h).1) hI
      rw [history_cons, history_cons, List.append_assoc]
      refine ((hs s a s' hIs h).append_left _).trans ?_
      rw [← List.append_assoc]
      exact ih.append_right _

/-- What the steps give is no more than what their actions weigh. -/
theorem length_history_le {A : Type*} [AddMonoid A] {w : α → A} (f : A →+ Nat)
    (h : ∀ s a, (ev s a).toList.length ≤ f (w a)) (tr : List (σ × α)) :
    (history ev tr).length ≤ f ((tr.map Prod.snd).map w).sum := by
  induction tr with
  | nil => exact Nat.zero_le _
  | cons p tr ih =>
      have hp := h p.1 p.2
      rw [history_cons, List.length_append, List.map_cons, List.map_cons, List.sum_cons, map_add]
      omega

theorem length_history_of_suffix {tr' : List (σ × α)} (h : tr' <:+ tr) :
    (history ev tr').length ≤ (history ev tr).length := by
  obtain ⟨t, rfl⟩ := h
  rw [history_append, List.length_append]
  omega

/-- At no time of the run more than `n` of what has gone in have yet to come out. -/
def Outstanding {γ : Type*} (ins : σ → α → Option β) (outs : σ → α → Option γ) (n : Nat)
    (tr : List (σ × α)) : Prop :=
  ∀ tr', tr' <:+ tr → (history ins tr').length ≤ (history outs tr').length + n

theorem Outstanding.mono {γ : Type*} {ins : σ → α → Option β} {outs : σ → α → Option γ} {m n : Nat}
    (h : Outstanding ins outs m tr) (hmn : m ≤ n) : Outstanding ins outs n tr :=
  fun t ht => Nat.le_trans (h t ht) (Nat.add_le_add_left hmn _)

theorem outstanding_tails {γ : Type*} {ins : σ → α → Option β} {outs : σ → α → Option γ} {n : Nat} :
    Outstanding ins outs n tr ↔
      ∀ t ∈ tr.tails, (history ins t).length ≤ (history outs t).length + n := by
  simp only [Outstanding, List.mem_tails]

/-- A run that takes in `n` and `k` more keeps the window once `k` have come out. -/
theorem Outstanding.of_total {γ : Type*} {ins : σ → α → Option β} {outs : σ → α → Option γ}
    {n k : Nat} {tr' : List (σ × α)} (hs : tr' <:+ tr) (hall : (history ins tr).length ≤ n + k)
    (hin : (history ins tr').length ≤ n) (hout : k ≤ (history outs tr').length) :
    Outstanding ins outs n tr := by
  intro t ht
  rcases List.suffix_or_suffix_of_suffix ht hs with h | h
  · have : (history ins t).length ≤ (history ins tr').length := length_history_of_suffix h
    omega
  · have : (history outs tr').length ≤ (history outs t).length := length_history_of_suffix h
    have : (history ins t).length ≤ (history ins tr).length := length_history_of_suffix ht
    omega

/-- **The rule for a window.** Where each step gives out no more than it takes from what is held, and
    holds no more than it takes in, what is held stays within the window. -/
theorem Run.held_le {γ : Type*} {ins : σ → α → Option β} {outs : σ → α → Option γ} {n : Nat}
    {held : σ → Nat} (h0 : ∀ s, M.start s → held s = 0)
    (hs : ∀ s a s', M.step s a = some s' →
      (outs s a).toList.length + held s' ≤ held s + (ins s a).toList.length)
    (r : M.Run tr s) (hw : Outstanding ins outs n tr) : Throughout (fun s => held s ≤ n) tr s := by
  have balance {tr : List (σ × α)} {s : σ} (r : M.Run tr s) :
      (history outs tr).length + held s ≤ (history ins tr).length := by
    induction r with
    | start h => simp [h0 _ h]
    | step r h ih =>
        have := hs _ _ _ h
        rw [history_cons, history_cons, List.length_append, List.length_append]
        omega
  induction r with
  | start h =>
      refine ⟨?_, by simp⟩
      show held _ ≤ n
      rw [h0 _ h]
      exact Nat.zero_le n
  | step r h ih =>
      refine throughout_cons.mpr ⟨?_, ih fun tr' ht => hw tr' (ht.trans (List.suffix_cons _ _))⟩
      have hb := balance (r.step h)
      have hn := hw _ List.suffix_rfl
      show held _ ≤ n
      omega

/-- What holds of all that the steps of a trace give. -/
theorem forall_history {P : β → Prop} (h : Guarded (fun s a => ∀ b, ev s a = some b → P b) tr) :
    ∀ b ∈ history ev tr, P b := by
  intro b hb
  obtain ⟨p, hp, he⟩ := mem_history.mp hb
  exact h p hp b he

end

/-! ## 4. A machine inside another -/

section

variable {τ : Type*} {β : Type*}

/-- The steps of an inner machine in a trace of the outer one. -/
def project (f : σ → τ) (g : σ → α → Option β) (tr : List (σ × α)) : List (τ × β) :=
  tr.filterMap fun p => (g p.1 p.2).map fun b => (f p.1, b)

/-- **The rule for an inner machine.** Where each step of the outer machine is one of the inner
    machine, or leaves its state alone, a run of the outer one contains a run of the inner one. -/
theorem Run.project {N : Machine τ β} {f : σ → τ} {g : σ → α → Option β}
    (h0 : ∀ s, M.start s → N.start (f s))
    (hstep : ∀ s a s' b, M.step s a = some s' → g s a = some b → N.step (f s) b = some (f s'))
    (hstay : ∀ s a s', M.step s a = some s' → g s a = none → f s' = f s) {tr : List (σ × α)}
    {s : σ} (r : M.Run tr s) : N.Run (Machine.project f g tr) (f s) := by
  induction r with
  | start h => exact .start (h0 _ h)
  | @step tr s s' a r h ih =>
      unfold Machine.project at ih ⊢
      rw [List.filterMap_cons]
      cases hg : g s a with
      | none =>
          rw [hstay s a s' h hg]
          exact ih
      | some b => exact .step ih (hstep s a s' b h hg)

theorem history_project {γ : Type*} (ev : τ → β → Option γ) (f : σ → τ) (g : σ → α → Option β)
    (tr : List (σ × α)) :
    history ev (project f g tr) = history (fun s a => (g s a).bind (ev (f s))) tr := by
  unfold history project
  rw [← List.filterMap_reverse, List.filterMap_filterMap]
  congr 1
  funext p
  cases h : g p.1 p.2 <;> simp [h]

end

end Machine

end Concurrent
