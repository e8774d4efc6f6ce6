/-
  File:      Penetrate/Concurrent/Dialogue.lean
  Subject:   TWO PROGRAMS THAT TALK OVER A STREAM EACH WAY. Names nothing of a particular program.

  A program writes items, reads a fixed number of them, waits for something the other one has no
  part in, and returns. Writes and reads go in pieces of any size, a program may lose its connection
  at any time, and one that has returned may go on to speak and to hear. What a program makes of its
  input does not depend on the pieces the input comes in; so, whatever the schedule, two programs
  have one transcript.

  * `Talk`, `Dialogue` -- a program, and two of them with their streams; `dialogue` -- the machine;
  * `Talk.output`, `result`, `rest`, `waits` -- what a program makes of an input; `output_mono` --
    more input, more output; `bind_spec` -- one program behind another;
  * `Transcript` -- the least streams that each program writes as it reads the other's;
  * `Dialogue.Inv`, `dialogue_inv` -- **every run stays within the transcript**, lost connections
    or not; `returns`, `hears` -- whoever returns, returns what the transcript says, and hears
    what the other one says behind it;
  * `dialogue_completes` -- **without a loss both return** once every wait has ended;
    `dialogue_returns_or_waits` -- by themselves they return, or one waits.
-/
import Mathlib.Data.List.Infix
import Mathlib.Logic.Function.Basic
import Mathlib.Tactic.Common
import Penetrate.Concurrent.Machine

namespace Concurrent

universe u v w

/-! ## 1. Programs -/

/-- A program over one stream it reads and one it writes. -/
inductive Talk (β : Type u) (ω : Type w) (ρ : Type v) where
  | done (r : ρ)
  | write (bs : List β) (t : Talk β ω ρ)
  | read (n : Nat) (k : List β → Talk β ω ρ)
  /-- it waits for `x`, which is not the other program's to give -/
  | wait (x : ω) (t : Talk β ω ρ)

namespace Talk

variable {β : Type u} {ω : Type w} {ρ : Type v}

/-- What it writes when it can read `inp`. -/
def output : Talk β ω ρ → List β → List β
  | .done _, _ => []
  | .write bs t, inp => bs ++ t.output inp
  | .read n k, inp => if n ≤ inp.length then (k (inp.take n)).output (inp.drop n) else []
  | .wait _ t, inp => t.output inp

/-- What it returns then. -/
def result : Talk β ω ρ → List β → Option ρ
  | .done r, _ => some r
  | .write _ t, inp => t.result inp
  | .read n k, inp => if n ≤ inp.length then (k (inp.take n)).result (inp.drop n) else none
  | .wait _ t, inp => t.result inp

/-- What it leaves of the input. -/
def rest : Talk β ω ρ → List β → List β
  | .done _, inp => inp
  | .write _ t, inp => t.rest inp
  | .read n k, inp => if n ≤ inp.length then (k (inp.take n)).rest (inp.drop n) else inp
  | .wait _ t, inp => t.rest inp

/-- The steps it takes for it, each of a piece of one item. -/
def cost : Talk β ω ρ → List β → Nat
  | .done _, _ => 0
  | .write bs t, inp => bs.length + 1 + t.cost inp
  | .read n k, inp =>
      if n ≤ inp.length then n + 1 + (k (inp.take n)).cost (inp.drop n) else n + 1
  | .wait _ t, inp => t.cost inp + 1

/-- What it waits for then, in order. -/
def waits : Talk β ω ρ → List β → List ω
  | .done _, _ => []
  | .write _ t, inp => t.waits inp
  | .read n k, inp => if n ≤ inp.length then (k (inp.take n)).waits (inp.drop n) else []
  | .wait x t, inp => x :: t.waits inp

/-- The program once it has read `c`, of the `n` items it wants. -/
def after (n : Nat) (k : List β → Talk β ω ρ) (c : List β) : Talk β ω ρ :=
  .read (n - c.length) fun x => k (c ++ x)

/-- All that a read asks for is there. -/
theorem output_read {n : Nat} {k : List β → Talk β ω ρ} {c : List β} (hc : c.length = n)
    (x : List β) : (read n k).output (c ++ x) = (k c).output x := by
  subst hc
  rw [output, if_pos (by simp), List.take_left, List.drop_left]

theorem result_read {n : Nat} {k : List β → Talk β ω ρ} {c : List β} (hc : c.length = n)
    (x : List β) : (read n k).result (c ++ x) = (k c).result x := by
  subst hc
  rw [result, if_pos (by simp), List.take_left, List.drop_left]

theorem rest_read {n : Nat} {k : List β → Talk β ω ρ} {c : List β} (hc : c.length = n)
    (x : List β) : (read n k).rest (c ++ x) = (k c).rest x := by
  subst hc
  rw [rest, if_pos (by simp), List.take_left, List.drop_left]

theorem waits_read {n : Nat} {k : List β → Talk β ω ρ} {c : List β} (hc : c.length = n)
    (x : List β) : (read n k).waits (c ++ x) = (k c).waits x := by
  subst hc
  rw [waits, if_pos (by simp), List.take_left, List.drop_left]

theorem output_after {n : Nat} {k : List β → Talk β ω ρ} {c : List β} (hc : c.length ≤ n)
    (x : List β) : (after n k c).output x = (read n k).output (c ++ x) := by
  have hlen : n - c.length ≤ x.length ↔ n ≤ (c ++ x).length := by
    rw [List.length_append]
    omega
  simp only [after, output, hlen, List.take_append, List.drop_append, List.take_of_length_le hc,
    List.drop_of_length_le hc, List.nil_append]

theorem result_after {n : Nat} {k : List β → Talk β ω ρ} {c : List β} (hc : c.length ≤ n)
    (x : List β) : (after n k c).result x = (read n k).result (c ++ x) := by
  have hlen : n - c.length ≤ x.length ↔ n ≤ (c ++ x).length := by
    rw [List.length_append]
    omega
  simp only [after, result, hlen, List.take_append, List.drop_append, List.take_of_length_le hc,
    List.drop_of_length_le hc, List.nil_append]

theorem waits_after {n : Nat} {k : List β → Talk β ω ρ} {c : List β} (hc : c.length ≤ n)
    (x : List β) : (after n k c).waits x = (read n k).waits (c ++ x) := by
  have hlen : n - c.length ≤ x.length ↔ n ≤ (c ++ x).length := by
    rw [List.length_append]
    omega
  simp only [after, waits, hlen, List.take_append, List.drop_append, List.take_of_length_le hc,
    List.drop_of_length_le hc, List.nil_append]

theorem rest_after {n : Nat} {k : List β → Talk β ω ρ} {c : List β} (hc : c.length ≤ n)
    {x : List β} (hx : n ≤ (c ++ x).length) :
    (after n k c).rest x = (read n k).rest (c ++ x) := by
  have hlen : n - c.length ≤ x.length := by
    rw [List.length_append] at hx
    omega
  simp only [after, rest, if_pos hlen, if_pos hx, List.take_append, List.drop_append,
    List.take_of_length_le hc, List.drop_of_length_le hc, List.nil_append]

theorem cost_after {n : Nat} {k : List β → Talk β ω ρ} {c : List β} (hc : c.length ≤ n) (x : List β) :
    (after n k c).cost x + c.length = (read n k).cost (c ++ x) := by
  have hlen : n - c.length ≤ x.length ↔ n ≤ (c ++ x).length := by
    rw [List.length_append]
    omega
  simp only [after, cost, hlen, List.take_append, List.drop_append, List.take_of_length_le hc,
    List.drop_of_length_le hc, List.nil_append]
  split <;> omega

/-- **More input, more output.** -/
theorem output_mono (t : Talk β ω ρ) {inp inp' : List β} (h : inp <+: inp') :
    t.output inp <+: t.output inp' := by
  induction t generalizing inp inp' with
  | done r => exact List.prefix_rfl
  | write bs t ih => exact (List.prefix_append_right_inj bs).mpr (ih h)
  | read n k ih =>
      by_cases hn : n ≤ inp.length
      · obtain ⟨x, rfl⟩ := h
        have hn' : n ≤ (inp ++ x).length := by
          rw [List.length_append]
          omega
        rw [output, output, if_pos hn, if_pos hn', List.take_append_of_le_length hn,
          List.drop_append_of_le_length hn]
        exact ih _ (List.prefix_append _ x)
      · rw [output, if_neg hn]
        exact List.nil_prefix
  | wait x t ih => exact ih h

/-- Once it has returned, more input changes nothing, and is left. -/
theorem returned_append (t : Talk β ω ρ) {inp : List β} {r : ρ} (h : t.result inp = some r)
    (x : List β) : t.result (inp ++ x) = some r ∧ t.output (inp ++ x) = t.output inp ∧
      t.rest (inp ++ x) = t.rest inp ++ x := by
  induction t generalizing inp with
  | done r' => exact ⟨h, rfl, rfl⟩
  | write bs t ih =>
      obtain ⟨h1, h2, h3⟩ := ih h
      exact ⟨h1, congrArg (bs ++ ·) h2, h3⟩
  | read n k ih =>
      rw [result] at h
      split at h
      · rename_i hn
        have hn' : n ≤ (inp ++ x).length := by
          rw [List.length_append]
          omega
        rw [result, output, output, rest, rest, if_pos hn', if_pos hn', if_pos hn', if_pos hn,
          if_pos hn, List.take_append_of_le_length hn, List.drop_append_of_le_length hn]
        exact ih _ h
      · cases h
  | wait y t ih => exact ih h

/-- A program, and one that goes on with what it returns. -/
def bind {σ : Type*} : Talk β ω ρ → (ρ → Talk β ω σ) → Talk β ω σ
  | .done r, f => f r
  | .write bs t, f => .write bs (t.bind f)
  | .read n k, f => .read n fun c => (k c).bind f
  | .wait x t, f => .wait x (t.bind f)

/-- The second reads what the first has left, and writes behind it. -/
theorem bind_spec {σ : Type*} (t : Talk β ω ρ) (f : ρ → Talk β ω σ) {inp : List β} {r : ρ}
    (h : t.result inp = some r) :
    (t.bind f).output inp = t.output inp ++ (f r).output (t.rest inp) ∧
      (t.bind f).result inp = (f r).result (t.rest inp) ∧
      (t.bind f).rest inp = (f r).rest (t.rest inp) ∧
      (t.bind f).waits inp = t.waits inp ++ (f r).waits (t.rest inp) := by
  induction t generalizing inp with
  | done r' =>
      cases h
      exact ⟨rfl, rfl, rfl, rfl⟩
  | write bs t ih =>
      obtain ⟨h1, h2⟩ := ih h
      refine ⟨?_, h2⟩
      show bs ++ (t.bind f).output inp = _
      rw [h1, ← List.append_assoc]
      rfl
  | read n k ih =>
      rw [result] at h
      split at h
      · rename_i hn
        rw [bind, output, output, result, rest, rest, waits, waits, if_pos hn, if_pos hn, if_pos hn,
          if_pos hn, if_pos hn, if_pos hn, if_pos hn]
        exact ih _ h
      · cases h
  | wait x t ih =>
      obtain ⟨h1, h2, h3, h4⟩ := ih h
      exact ⟨h1, h2, h3, congrArg (x :: ·) h4⟩

/-- `t` is what is left of `p` once it has read `i` and written `o`. -/
def Goes (p : Talk β ω ρ) (i o : List β) (t : Talk β ω ρ) : Prop :=
  ∀ x, p.output (i ++ x) = o ++ t.output x ∧ p.result (i ++ x) = t.result x ∧
    ((t.result x).isSome = true → p.rest (i ++ x) = t.rest x) ∧ t.waits x <:+ p.waits (i ++ x)

variable {p t : Talk β ω ρ} {i o bs : List β} {k : List β → Talk β ω ρ}

theorem Goes.refl (p : Talk β ω ρ) : Goes p [] [] p :=
  fun _ => ⟨rfl, rfl, fun _ => rfl, List.suffix_rfl⟩

theorem Goes.write (h : Goes p i o (.write bs t)) (n : Nat) :
    Goes p i (o ++ bs.take n) (.write (bs.drop n) t) := by
  intro x
  obtain ⟨h1, h2⟩ := h x
  refine ⟨?_, h2⟩
  rw [h1]
  simp only [output, List.append_assoc]
  rw [← List.append_assoc (bs.take n), List.take_append_drop]

theorem Goes.read {n : Nat} (h : Goes p i o (.read n k)) {c : List β} (hc : c.length ≤ n) :
    Goes p (i ++ c) o (after n k c) := by
  intro x
  obtain ⟨h1, h2, h3, h4⟩ := h (c ++ x)
  rw [List.append_assoc, output_after hc, result_after hc, waits_after hc]
  refine ⟨h1, h2, fun hs => ?_, h4⟩
  rw [h3 hs, rest_after hc]
  -- it has returned, so its input was long enough
  by_contra hn
  rw [result, if_neg hn] at hs
  cases hs

theorem Goes.taken (h : Goes p i o (.read 0 k)) : Goes p i o (k []) := by
  intro x
  exact h x

/-- What it waits for has come. -/
theorem Goes.granted {x : ω} (h : Goes p i o (.wait x t)) : Goes p i o t := by
  intro y
  obtain ⟨h1, h2, h3, h4⟩ := h y
  exact ⟨h1, h2, h3, (List.suffix_cons x _).trans h4⟩

/-- It has returned. -/
theorem Goes.done {r : ρ} (h : Goes p i o (.done r)) :
    p.result i = some r ∧ p.output i = o ∧ p.rest i = [] := by
  obtain ⟨h1, h2, h3, -⟩ := h []
  rw [List.append_nil] at h1 h2 h3
  exact ⟨h2, h1.trans (List.append_nil o), h3 rfl⟩

/-- What it has written comes of what it has read. -/
theorem Goes.within (h : Goes p i o t) : o <+: p.output i := by
  obtain ⟨h1, -⟩ := h []
  rw [List.append_nil] at h1
  exact ⟨t.output [], h1.symm⟩

end Talk

/-! ## 2. The machine -/

inductive Side where
  | left
  | right
  deriving DecidableEq, Repr

def Side.other : Side → Side
  | .left => .right
  | .right => .left

@[simp] theorem Side.other_other (d : Side) : d.other.other = d := by cases d <;> rfl

theorem Side.other_ne (d : Side) : d.other ≠ d := by cases d <;> simp [Side.other]

/-- Two programs. What one writes, and says once it has returned, is the stream of the other. -/
structure Dialogue (β : Type u) (ω : Type w) (ρ : Side → Type v) where
  /-- what is left of the program; `none` once it has lost its connection -/
  talk : ∀ d, Option (Talk β ω (ρ d))
  written : Side → List β
  said : Side → List β
  read : Side → List β
  heard : Side → List β

inductive DialogueAct (β : Type u) where
  | write (d : Side) (n : Nat)
  | read (d : Side) (n : Nat)
  /-- a write or a read is complete -/
  | next (d : Side)
  /-- what it waits for is there -/
  | grant (d : Side)
  | lose (d : Side)
  | say (d : Side) (bs : List β)
  | hear (d : Side) (n : Nat)

section

variable {β : Type u} {ω : Type w} {ρ : Side → Type v} (goesOn : ∀ d, ρ d → Bool)

/-- What has come in for `d`, and has not been read. -/
def Dialogue.unread (s : Dialogue β ω ρ) (d : Side) : List β :=
  (s.written d.other ++ s.said d.other).drop (s.read d ++ s.heard d).length

def Dialogue.setTalk (s : Dialogue β ω ρ) (d : Side) (t : Option (Talk β ω (ρ d))) : Dialogue β ω ρ :=
  { s with talk := Function.update s.talk d t }

def Dialogue.step (s : Dialogue β ω ρ) : DialogueAct β → Option (Dialogue β ω ρ)
  | .write d n => match s.talk d with
    | some (.write bs t) =>
        if 0 < n ∧ n ≤ bs.length then
          some { s.setTalk d (some (.write (bs.drop n) t)) with
            written := Function.update s.written d (s.written d ++ bs.take n) }
        else none
    | _ => none
  | .read d n => match s.talk d with
    | some (.read m k) =>
        if 0 < n ∧ n ≤ m ∧ n ≤ (s.unread d).length then
          some { s.setTalk d (some (.after m k ((s.unread d).take n))) with
            read := Function.update s.read d (s.read d ++ (s.unread d).take n) }
        else none
    | _ => none
  | .next d => match s.talk d with
    | some (.write [] t) => some (s.setTalk d (some t))
    | some (.read 0 k) => some (s.setTalk d (some (k [])))
    | _ => none
  | .grant d => match s.talk d with
    | some (.wait _ t) => some (s.setTalk d (some t))
    | _ => none
  | .lose d => match s.talk d with
    | some (.write _ _) => some (s.setTalk d none)
    | some (.read _ _) => some (s.setTalk d none)
    | some (.wait _ _) => some (s.setTalk d none)
    | _ => none
  | .say d bs => match s.talk d with
    | some (.done r) =>
        if goesOn d r then some { s with said := Function.update s.said d (s.said d ++ bs) } else none
    | _ => none
  | .hear d n => match s.talk d with
    | some (.done r) =>
        if goesOn d r ∧ 0 < n ∧ n ≤ (s.unread d).length then
          some { s with heard := Function.update s.heard d (s.heard d ++ (s.unread d).take n) }
        else none
    | _ => none

/-- The two programs before their first step. -/
def Dialogue.start (p : ∀ d, Talk β ω (ρ d)) : Dialogue β ω ρ where
  talk d := some (p d)
  written _ := []
  said _ := []
  read _ := []
  heard _ := []

/-- **The dialogue** of two programs; whoever has returned with a result that `goesOn` says and
    hears what it likes. -/
def dialogue (p : ∀ d, Talk β ω (ρ d)) : Machine (Dialogue β ω ρ) (DialogueAct β) where
  start s := s = .start p
  step := Dialogue.step goesOn

/-! ## 3. The rules -/

inductive DialogueStep (s : Dialogue β ω ρ) : DialogueAct β → Dialogue β ω ρ → Prop where
  | write (d : Side) (n : Nat) (bs : List β) (t : Talk β ω (ρ d))
      (ht : s.talk d = some (.write bs t)) (h0 : 0 < n) (hn : n ≤ bs.length) :
      DialogueStep s (.write d n)
        { s.setTalk d (some (.write (bs.drop n) t)) with
          written := Function.update s.written d (s.written d ++ bs.take n) }
  | read (d : Side) (n m : Nat) (k : List β → Talk β ω (ρ d)) (ht : s.talk d = some (.read m k))
      (h0 : 0 < n) (hm : n ≤ m) (hn : n ≤ (s.unread d).length) :
      DialogueStep s (.read d n)
        { s.setTalk d (some (.after m k ((s.unread d).take n))) with
          read := Function.update s.read d (s.read d ++ (s.unread d).take n) }
  | written (d : Side) (t : Talk β ω (ρ d)) (ht : s.talk d = some (.write [] t)) :
      DialogueStep s (.next d) (s.setTalk d (some t))
  | taken (d : Side) (k : List β → Talk β ω (ρ d)) (ht : s.talk d = some (.read 0 k)) :
      DialogueStep s (.next d) (s.setTalk d (some (k [])))
  | granted (d : Side) (x : ω) (t : Talk β ω (ρ d)) (ht : s.talk d = some (.wait x t)) :
      DialogueStep s (.grant d) (s.setTalk d (some t))
  | lose (d : Side) (t : Talk β ω (ρ d)) (ht : s.talk d = some t) (hd : ∀ r, t ≠ .done r) :
      DialogueStep s (.lose d) (s.setTalk d none)
  | say (d : Side) (bs : List β) (r : ρ d) (ht : s.talk d = some (.done r))
      (hg : goesOn d r = true) :
      DialogueStep s (.say d bs) { s with said := Function.update s.said d (s.said d ++ bs) }
  | hear (d : Side) (n : Nat) (r : ρ d) (ht : s.talk d = some (.done r)) (hg : goesOn d r = true)
      (h0 : 0 < n) (hn : n ≤ (s.unread d).length) :
      DialogueStep s (.hear d n)
        { s with heard := Function.update s.heard d (s.heard d ++ (s.unread d).take n) }

variable {goesOn}

theorem dialogue_cases {s s' : Dialogue β ω ρ} {a : DialogueAct β}
    (h : Dialogue.step goesOn s a = some s') : DialogueStep goesOn s a s' := by
  unfold Dialogue.step at h
  split at h
  · rename_i d n
    split at h
    · rename_i bs t ht
      split at h
      · rename_i hc
        cases h
        exact .write d n bs t ht hc.1 hc.2
      · cases h
    · cases h
  · rename_i d n
    split at h
    · rename_i m k ht
      split at h
      · rename_i hc
        cases h
        exact .read d n m k ht hc.1 hc.2.1 hc.2.2
      · cases h
    · cases h
  · rename_i d
    split at h
    · rename_i t ht
      cases h
      exact .written d t ht
    · rename_i k ht
      cases h
      exact .taken d k ht
    · cases h
  · rename_i d
    split at h
    · rename_i x t ht
      cases h
      exact .granted d x t ht
    · cases h
  · rename_i d
    split at h
    · rename_i bs t ht
      cases h
      exact .lose d _ ht (by simp)
    · rename_i n k ht
      cases h
      exact .lose d _ ht (by simp)
    · rename_i x t ht
      cases h
      exact .lose d _ ht (by simp)
    · cases h
  · rename_i d bs
    split at h
    · rename_i r ht
      split at h
      · rename_i hg
        cases h
        exact .say d bs r ht hg
      · cases h
    · cases h
  · rename_i d n
    split at h
    · rename_i r ht
      split at h
      · rename_i hc
        cases h
        exact .hear d n r ht hc.1 hc.2.1 hc.2.2
      · cases h
    · cases h

/-! ## 4. What every run keeps -/

/-- What is left of a program follows from what it has read and written; each reads what the other
    has written or said, and speaks only once it has returned. -/
structure Dialogue.Inv (p : ∀ d, Talk β ω (ρ d)) (s : Dialogue β ω ρ) : Prop where
  stream : ∀ d, s.read d ++ s.heard d <+: s.written d.other ++ s.said d.other
  talk : ∀ d t, s.talk d = some t → (p d).Goes (s.read d) (s.written d) t
  output : ∀ d, s.written d <+: (p d).output (s.read d)
  free : ∀ d, (∀ r, s.talk d ≠ some (.done r)) → s.said d = [] ∧ s.heard d = []

variable {p : ∀ d, Talk β ω (ρ d)} {s s' : Dialogue β ω ρ}

@[simp] theorem setTalk_self (d : Side) (t : Option (Talk β ω (ρ d))) :
    (s.setTalk d t).talk d = t := Function.update_self ..

@[simp] theorem setTalk_other (d : Side) (t : Option (Talk β ω (ρ d))) :
    (s.setTalk d t).talk d.other = s.talk d.other := Function.update_of_ne d.other_ne ..

/-- Every side is `d` or the other one. -/
theorem Side.forall_iff {P : Side → Prop} (d : Side) : (∀ e, P e) ↔ P d ∧ P d.other := by
  constructor
  · exact fun h => ⟨h d, h d.other⟩
  · rintro ⟨h, h'⟩ e
    cases d <;> cases e <;> assumption

/-- What has not been read comes behind what has been. -/
theorem Dialogue.Inv.split (hI : s.Inv p) (d : Side) :
    s.written d.other ++ s.said d.other = s.read d ++ s.heard d ++ s.unread d :=
  List.prefix_iff_eq_append.mp (hI.stream d) |>.symm

/-- The stream goes on with the first items of what has not been read. -/
theorem Dialogue.Inv.take (hI : s.Inv p) (d : Side) (n : Nat) :
    s.read d ++ s.heard d ++ (s.unread d).take n <+: s.written d.other ++ s.said d.other := by
  rw [hI.split d]
  exact (List.prefix_append_right_inj _).mpr (List.take_prefix n _)

/-- A step of `d` that moves its program on. -/
theorem Dialogue.Inv.moves (hI : s.Inv p) {d : Side} {t : Option (Talk β ω (ρ d))}
    {w r : List β} (hfree : s.said d = [] ∧ s.heard d = [])
    (hstream : r <+: s.written d.other ++ s.said d.other) (hw : s.written d <+: w)
    (htalk : ∀ t', t = some t' → (p d).Goes r w t') (hout : w <+: (p d).output r) :
    Dialogue.Inv p { s.setTalk d t with
      written := Function.update s.written d w, read := Function.update s.read d r } := by
  have hself : ∀ (f : Side → List β) (x : List β), Function.update f d x d = x :=
    fun f x => Function.update_self ..
  have hother : ∀ (f : Side → List β) (x : List β), Function.update f d x d.other = f d.other :=
    fun f x => Function.update_of_ne d.other_ne ..
  refine ⟨(Side.forall_iff d).mpr ⟨?_, ?_⟩, (Side.forall_iff d).mpr ⟨?_, ?_⟩,
    (Side.forall_iff d).mpr ⟨?_, ?_⟩, (Side.forall_iff d).mpr ⟨?_, ?_⟩⟩
  · show Function.update s.read d r d ++ s.heard d <+:
      Function.update s.written d w d.other ++ s.said d.other
    rw [hself, hother, hfree.2, List.append_nil]
    exact hstream
  · show Function.update s.read d r d.other ++ s.heard d.other <+:
      Function.update s.written d w d.other.other ++ s.said d.other.other
    have h := hI.stream d.other
    rw [Side.other_other, hfree.1, List.append_nil] at h
    rw [Side.other_other, hself, hother, hfree.1, List.append_nil]
    exact h.trans hw
  · intro t' ht'
    show (p d).Goes (Function.update s.read d r d) (Function.update s.written d w d) t'
    rw [hself, hself]
    refine htalk t' ?_
    have h : (s.setTalk d t).talk d = some t' := ht'
    rwa [setTalk_self] at h
  · intro t' ht'
    show (p d.other).Goes (Function.update s.read d r d.other)
      (Function.update s.written d w d.other) t'
    rw [hother, hother]
    refine hI.talk d.other t' ?_
    have h : (s.setTalk d t).talk d.other = some t' := ht'
    rwa [setTalk_other] at h
  · show Function.update s.written d w d <+: (p d).output (Function.update s.read d r d)
    rw [hself, hself]
    exact hout
  · show Function.update s.written d w d.other <+:
      (p d.other).output (Function.update s.read d r d.other)
    rw [hother, hother]
    exact hI.output d.other
  · exact fun _ => hfree
  · intro h
    refine hI.free d.other fun r hr => h r ?_
    show (s.setTalk d t).talk d.other = some (.done r)
    rw [setTalk_other]
    exact hr

/-- One that reads and writes nothing. -/
theorem Dialogue.Inv.turns (hI : s.Inv p) {d : Side} {t : Option (Talk β ω (ρ d))}
    (hd : ∀ r, s.talk d ≠ some (.done r))
    (htalk : ∀ t', t = some t' → (p d).Goes (s.read d) (s.written d) t') : (s.setTalk d t).Inv p := by
  have hfree := hI.free d hd
  have hstream := hI.stream d
  rw [hfree.2, List.append_nil] at hstream
  have h := hI.moves hfree hstream List.prefix_rfl htalk (hI.output d)
  rw [Function.update_eq_self, Function.update_eq_self] at h
  exact h

/-- **One step keeps the invariant.** -/
theorem dialogue_step (hI : s.Inv p) {a : DialogueAct β} (h : DialogueStep goesOn s a s') :
    s'.Inv p := by
  have hself : ∀ (f : Side → List β) (d : Side), Function.update f d (f d) = f :=
    fun f d => Function.update_eq_self d f
  cases h with
  | write d n bs t ht h0 hn =>
      have hg := (hI.talk d _ ht).write n
      have hfree := hI.free d fun r hr => by rw [ht] at hr; cases hr
      have hstream := hI.stream d
      rw [hfree.2, List.append_nil] at hstream
      have h := hI.moves (t := some (.write (bs.drop n) t)) hfree hstream
        (List.prefix_append (s.written d) (bs.take n)) (fun t' ht' => by cases ht'; exact hg)
        hg.within
      rw [hself] at h
      exact h
  | read d n m k ht h0 hm hn =>
      have hlen : ((s.unread d).take n).length ≤ m := by
        rw [List.length_take]
        omega
      have hg := (hI.talk d _ ht).read hlen
      have hfree := hI.free d fun r hr => by rw [ht] at hr; cases hr
      have hstream := hI.take d n
      rw [hfree.2, List.append_nil] at hstream
      have h := hI.moves (t := some (.after m k ((s.unread d).take n))) hfree hstream
        List.prefix_rfl (fun t' ht' => by cases ht'; exact hg) hg.within
      rw [hself] at h
      exact h
  | written d t ht =>
      have hg := hI.talk d (.write [] t) ht
      refine hI.turns (fun r hr => ?_) fun t' ht' => ?_
      · rw [ht] at hr
        cases hr
      · cases ht'
        exact hg
  | taken d k ht =>
      have hg := (hI.talk d _ ht).taken
      refine hI.turns (fun r hr => ?_) fun t' ht' => ?_
      · rw [ht] at hr
        cases hr
      · cases ht'
        exact hg
  | granted d x t ht =>
      have hg := (hI.talk d _ ht).granted
      refine hI.turns (fun r hr => ?_) fun t' ht' => ?_
      · rw [ht] at hr
        cases hr
      · cases ht'
        exact hg
  | lose d t ht hd =>
      refine hI.turns (fun r hr => ?_) fun t' ht' => by cases ht'
      rw [ht] at hr
      exact hd r (Option.some.inj hr)
  | say d bs r ht hg =>
      refine ⟨(Side.forall_iff d).mpr ⟨?_, ?_⟩, hI.talk, hI.output, fun e he => ?_⟩
      · show s.read d ++ s.heard d <+: s.written d.other ++
          Function.update s.said d (s.said d ++ bs) d.other
        rw [Function.update_of_ne d.other_ne]
        exact hI.stream d
      · show s.read d.other ++ s.heard d.other <+: s.written d.other.other ++
          Function.update s.said d (s.said d ++ bs) d.other.other
        rw [Side.other_other, Function.update_self, ← List.append_assoc]
        have h := hI.stream d.other
        rw [Side.other_other] at h
        exact h.trans (List.prefix_append _ bs)
      · have hne : e ≠ d := by
          rintro rfl
          exact he r ht
        show Function.update s.said d (s.said d ++ bs) e = [] ∧ s.heard e = []
        rw [Function.update_of_ne hne]
        exact hI.free e he
  | hear d n r ht hg h0 hn =>
      refine ⟨(Side.forall_iff d).mpr ⟨?_, ?_⟩, hI.talk, hI.output, fun e he => ?_⟩
      · show s.read d ++ Function.update s.heard d (s.heard d ++ (s.unread d).take n) d <+: _
        rw [Function.update_self, ← List.append_assoc]
        exact hI.take d n
      · show s.read d.other ++ Function.update s.heard d _ d.other <+: _
        rw [Function.update_of_ne d.other_ne]
        exact hI.stream d.other
      · have hne : e ≠ d := by
          rintro rfl
          exact he r ht
        show s.said e = [] ∧ Function.update s.heard d (s.heard d ++ (s.unread d).take n) e = []
        rw [Function.update_of_ne hne]
        exact hI.free e he

theorem dialogue_inv {tr : List (Dialogue β ω ρ × DialogueAct β)}
    (r : (dialogue goesOn p).Run tr s) : s.Inv p := by
  refine r.invariant (I := Dialogue.Inv p) (fun s h => ?_)
    fun s a s' hI h => dialogue_step hI (dialogue_cases h)
  cases h
  refine ⟨fun d => List.prefix_rfl, fun d t ht => ?_, fun d => List.nil_prefix,
    fun d _ => ⟨rfl, rfl⟩⟩
  cases ht
  exact .refl (p d)

/-! ## 5. The transcript -/

/-- What each program has written at most after `n` rounds, in which each reads what the other one
    had written before. -/
def rounds (p : ∀ d, Talk β ω (ρ d)) : Nat → Side → List β
  | 0, _ => []
  | n + 1, d => (p d).output (rounds p n d.other)

/-- **The streams of two programs that both return**: each writes its own as it reads the other's,
    and they come about from nothing. -/
structure Transcript (p : ∀ d, Talk β ω (ρ d)) (S : Side → List β) (r : ∀ d, ρ d) : Prop where
  least : ∃ n, S = rounds p n
  written : ∀ d, (p d).output (S d.other) = S d
  returned : ∀ d, (p d).result (S d.other) = some (r d)

variable {S : Side → List β} {r : ∀ d, ρ d}

/-- A program that has returned has written all of its stream. -/
theorem Transcript.complete (hT : Transcript p S r) (hI : s.Inv p) {d : Side} {x : ρ d}
    (hr : s.talk d = some (.done x)) (hread : s.read d <+: S d.other) :
    x = r d ∧ s.written d = S d ∧ (p d).rest (S d.other) = (S d.other).drop (s.read d).length := by
  obtain ⟨h1, h2, h3⟩ := (hI.talk d _ hr).done
  obtain ⟨y, hy⟩ := hread
  obtain ⟨h1', h2', h3'⟩ := (p d).returned_append h1 y
  rw [hy] at h1' h2' h3'
  refine ⟨?_, ?_, ?_⟩
  · exact Option.some.inj (h1'.symm.trans (hT.returned d))
  · exact h2.symm.trans (h2'.symm.trans (hT.written d))
  · rw [h3', h3, ← hy, List.drop_left, List.nil_append]

theorem Transcript.within (hT : Transcript p S r) (hI : s.Inv p)
    (hW : ∀ d, s.read d <+: S d.other) (d : Side) : s.written d <+: S d := by
  rw [← hT.written d]
  exact (hI.output d).trans ((p d).output_mono (hW d))

/-- **No program reads beyond the transcript**, even where the other one goes on to speak. -/
theorem within_step (hT : Transcript p S r) (hI : s.Inv p) (hW : ∀ d, s.read d <+: S d.other)
    {a : DialogueAct β} (h : DialogueStep goesOn s a s') : ∀ d, s'.read d <+: S d.other := by
  cases h with
  | write | written | taken | granted | lose | say | hear => exact hW
  | read d n m k ht h0 hm hn =>
      refine (Side.forall_iff d).mpr ⟨?_, ?_⟩
      · show Function.update s.read d _ d <+: _
        rw [Function.update_self]
        have hfree := hI.free d fun r hr => by rw [ht] at hr; cases hr
        have htake := hI.take d n
        rw [hfree.2, List.append_nil] at htake
        by_cases hdone : ∃ x, s.talk d.other = some (.done x)
        · -- the other one has written all, and `d` returns before it has read more than that
          obtain ⟨x, hx⟩ := hdone
          obtain ⟨-, hw, -⟩ := hT.complete hI hx (hW d.other)
          obtain ⟨z, hz⟩ := hW d
          rw [hw, ← hz, List.append_assoc, List.prefix_append_right_inj] at htake
          rw [← hz, List.prefix_append_right_inj]
          refine List.prefix_of_prefix_length_le htake (List.prefix_append z _) ?_
          by_contra hlt
          have hlen : ((s.unread d).take n).length ≤ n := List.length_take_le ..
          have hres := (hI.talk d _ ht z).2.1
          rw [hz, hT.returned, Talk.result, if_neg (by omega)] at hres
          cases hres
        · have hfree' := hI.free d.other fun x hx => hdone ⟨x, hx⟩
          rw [hfree'.1, List.append_nil] at htake
          exact htake.trans (hT.within hI hW d.other)
      · show Function.update s.read d _ d.other <+: _
        rw [Function.update_of_ne d.other_ne]
        exact hW d.other

theorem dialogue_within (hT : Transcript p S r) {tr : List (Dialogue β ω ρ × DialogueAct β)}
    (run : (dialogue goesOn p).Run tr s) : ∀ d, s.read d <+: S d.other := by
  have h : s.Inv p ∧ ∀ d, s.read d <+: S d.other := by
    refine run.invariant (I := fun s => s.Inv p ∧ ∀ d, s.read d <+: S d.other) (fun s h => ?_)
      fun s a s' hI h => ?_
    · have run0 : (dialogue goesOn p).Run [] s := .start h
      cases h
      exact ⟨dialogue_inv run0, fun d => List.nil_prefix⟩
    · have hs := dialogue_cases h
      exact ⟨dialogue_step hI.1 hs, within_step hT hI.1 hI.2 hs⟩
  exact h.2

/-- **Whoever returns, returns what the transcript says**, whatever becomes of the other one. -/
theorem returns (hT : Transcript p S r) {tr : List (Dialogue β ω ρ × DialogueAct β)}
    (run : (dialogue goesOn p).Run tr s) {d : Side} {x : ρ d} (hx : s.talk d = some (.done x)) :
    x = r d :=
  (hT.complete (dialogue_inv run) hx (dialogue_within hT run d)).1

/-- **One that reads its whole stream hears what the other one says behind it**, no item of it
    taken for one of the transcript; and by then the other one has written all of it. -/
theorem hears (hT : Transcript p S r) {tr : List (Dialogue β ω ρ × DialogueAct β)}
    (run : (dialogue goesOn p).Run tr s) {d : Side} {x : ρ d} (hx : s.talk d = some (.done x))
    (hrest : (p d).rest (S d.other) = []) :
    s.written d.other = S d.other ∧ s.heard d <+: s.said d.other := by
  have hI := dialogue_inv run
  have hW := dialogue_within hT run
  obtain ⟨-, -, hr⟩ := hT.complete hI hx (hW d)
  have hread : s.read d = S d.other := by
    refine (hW d).eq_of_length_le ?_
    rw [hrest] at hr
    exact List.drop_eq_nil_iff.mp hr.symm
  have hle := hT.within hI hW d.other
  have hstream := hI.stream d
  rw [hread] at hstream
  -- all of the transcript has been read, so all of it has been written
  have hw : s.written d.other = S d.other := by
    by_cases hdone : ∃ x, s.talk d.other = some (.done x)
    · obtain ⟨x, hx⟩ := hdone
      exact (hT.complete hI hx (hW d.other)).2.1
    · have hfree' := hI.free d.other fun x hx => hdone ⟨x, hx⟩
      rw [hfree'.1, List.append_nil] at hstream
      exact hle.eq_of_length_le ((List.prefix_append _ _).trans hstream).length_le
  rw [hw, List.prefix_append_right_inj] at hstream
  exact ⟨hw, hstream⟩

/-! ## 6. Without a loss both return, or wait -/

/-- The steps of the programs themselves. -/
def Talks : DialogueAct β → Prop
  | .write _ _ => True
  | .read _ _ => True
  | .next _ => True
  | _ => False

/-- And the ends of their waits. -/
def Proceeds (a : DialogueAct β) : Prop := Talks a ∨ ∃ d, a = .grant d

def Dialogue.Waits (s : Dialogue β ω ρ) (d : Side) (x : ω) : Prop :=
  ∃ t, s.talk d = some (.wait x t)

/-- A program waits for nothing but what it waits for on its stream. -/
theorem waits_within (hI : s.Inv p) (hW : ∀ d, s.read d <+: S d.other) {d : Side} {x : ω}
    (h : s.Waits d x) : x ∈ (p d).waits (S d.other) := by
  obtain ⟨t, ht⟩ := h
  obtain ⟨y, hy⟩ := hW d
  obtain ⟨-, -, -, hsuff⟩ := hI.talk d _ ht y
  rw [hy] at hsuff
  exact hsuff.subset List.mem_cons_self

/-- Neither has lost its connection. -/
structure Connected (p : ∀ d, Talk β ω (ρ d)) (S : Side → List β) (s : Dialogue β ω ρ) : Prop where
  inv : s.Inv p
  within : ∀ d, s.read d <+: S d.other
  talks : ∀ d, ∃ t, s.talk d = some t

/-- The steps due of one program, all of its stream at hand. -/
def Dialogue.due (S : Side → List β) (s : Dialogue β ω ρ) (d : Side) : Nat :=
  ((s.talk d).map fun t => t.cost ((S d.other).drop (s.read d).length)).getD 0

/-- A step of one program is one due, and none of the other's. -/
theorem due_moves {s s' : Dialogue β ω ρ} {d : Side} {t t' : Talk β ω (ρ d)} (ht : s.talk d = some t)
    (ht' : s'.talk d = some t')
    (hd : t'.cost ((S d.other).drop (s'.read d).length) <
      t.cost ((S d.other).drop (s.read d).length))
    (ho : s'.talk d.other = s.talk d.other) (hr : s'.read d.other = s.read d.other) :
    s'.due S .left + s'.due S .right < s.due S .left + s.due S .right := by
  have hself : s'.due S d < s.due S d := by
    unfold Dialogue.due
    rw [ht, ht']
    exact hd
  have hother : s'.due S d.other = s.due S d.other := by
    unfold Dialogue.due
    rw [ho, hr]
  cases d with
  | left => exact Nat.add_lt_add_of_lt_of_le hself hother.le
  | right => exact Nat.add_lt_add_of_le_of_lt hother.le hself

theorem proceeds_step (hT : Transcript p S r) (hI : Connected p S s) {a : DialogueAct β}
    (ha : Proceeds a) (h : DialogueStep goesOn s a s') :
    Connected p S s' ∧ s'.due S .left + s'.due S .right < s.due S .left + s.due S .right := by
  have hinv := dialogue_step hI.inv h
  have hwithin := within_step hT hI.inv hI.within h
  have htalks {d : Side} {t : Talk β ω (ρ d)} (e : Side) :
      ∃ t', (s.setTalk d (some t)).talk e = some t' := by
    revert e
    refine (Side.forall_iff d).mpr ⟨⟨t, setTalk_self ..⟩, ?_⟩
    rw [setTalk_other]
    exact hI.talks d.other
  cases h with
  | lose | say | hear =>
      obtain ha | ⟨d, ha⟩ := ha
      · exact ha.elim
      · cases ha
  | write d n bs t ht h0 hn =>
      refine ⟨⟨hinv, hwithin, htalks⟩,
        due_moves ht (setTalk_self ..) ?_ (setTalk_other ..) rfl⟩
      simp only [Talk.cost, List.length_drop, Dialogue.setTalk]
      omega
  | read d n m k ht h0 hm hn =>
      refine ⟨⟨hinv, hwithin, htalks⟩, due_moves ht (setTalk_self ..) ?_ (setTalk_other ..)
        (Function.update_of_ne d.other_ne ..)⟩
      have hc : ((s.unread d).take n).length = n := by
        rw [List.length_take]
        omega
      -- the piece read is the next one of the transcript
      have hread : Function.update s.read d (s.read d ++ (s.unread d).take n) d =
          s.read d ++ (s.unread d).take n := Function.update_self ..
      obtain ⟨y, hy⟩ : s.read d ++ (s.unread d).take n <+: S d.other := by
        rw [← hread]
        exact hwithin d
      have hx : (S d.other).drop (s.read d).length = (s.unread d).take n ++ y := by
        rw [← hy, List.append_assoc, List.drop_left]
      have hx' : (S d.other).drop (s.read d ++ (s.unread d).take n).length = y := by
        rw [← hy, List.drop_left]
      have hcost := Talk.cost_after (k := k) (hc.trans_le hm) y
      show (Talk.after m k _).cost ((S d.other).drop (Function.update s.read d _ d).length) < _
      rw [hread, hx, hx', ← hcost]
      omega
  | written d t ht =>
      refine ⟨⟨hinv, hwithin, htalks⟩,
        due_moves ht (setTalk_self ..) ?_ (setTalk_other ..) rfl⟩
      simp only [Talk.cost, Dialogue.setTalk]
      omega
  | taken d k ht =>
      refine ⟨⟨hinv, hwithin, htalks⟩,
        due_moves ht (setTalk_self ..) ?_ (setTalk_other ..) rfl⟩
      simp only [Talk.cost, Dialogue.setTalk, Nat.zero_le, if_true, List.take_zero, List.drop_zero]
      omega
  | granted d x t ht =>
      refine ⟨⟨hinv, hwithin, htalks⟩,
        due_moves ht (setTalk_self ..) ?_ (setTalk_other ..) rfl⟩
      exact Nat.lt_succ_self _

/-- A program that cannot go on has returned, waits, or has read all there is and wants more. -/
theorem stuck_cases (hI : Connected p S s) (hn : ∀ a, Talks a → Dialogue.step goesOn s a = none)
    (d : Side) : (∃ x, s.talk d = some (.done x)) ∨ (∃ x, s.Waits d x) ∨
      ∃ n k, s.talk d = some (.read (n + 1) k) ∧
        s.read d = s.written d.other ++ s.said d.other := by
  obtain ⟨t, ht⟩ := hI.talks d
  cases t with
  | done x => exact .inl ⟨x, ht⟩
  | wait x t => exact .inr (.inl ⟨x, t, ht⟩)
  | write bs t =>
      cases bs with
      | nil =>
          have h := hn (.next d) trivial
          simp [Dialogue.step, ht] at h
      | cons b bs =>
          have h := hn (.write d 1) trivial
          simp [Dialogue.step, ht] at h
  | read n k =>
      cases n with
      | zero =>
          have h := hn (.next d) trivial
          simp [Dialogue.step, ht] at h
      | succ n =>
          have hnil : s.unread d = [] := by
            cases hu : s.unread d with
            | nil => rfl
            | cons b bs =>
                have h := hn (.read d 1) trivial
                simp [Dialogue.step, ht, hu] at h
          have hsplit := hI.inv.split d
          have hfree := hI.inv.free d fun x hx => by rw [ht] at hx; cases hx
          rw [hnil, hfree.2, List.append_nil, List.append_nil] at hsplit
          exact .inr (.inr ⟨n, k, ht, hsplit.symm⟩)

theorem rounds_within (hT : Transcript p S r) (n : Nat) : ∀ d, rounds p n d <+: S d := by
  induction n with
  | zero => exact fun d => List.nil_prefix
  | succ n ih =>
      intro d
      rw [← hT.written d]
      exact (p d).output_mono (ih d.other)

/-- **Where neither can go on or waits, all of the transcript has been written**: its least streams
    are within what each has made of the other's. -/
theorem stuck_written (hT : Transcript p S r) (hI : Connected p S s)
    (hn : ∀ a, Talks a → Dialogue.step goesOn s a = none) (hw : ∀ d x, ¬ s.Waits d x) (d : Side) :
    S d <+: s.written d := by
  have h : ∀ n d, rounds p n d <+: s.written d := by
    intro n
    induction n with
    | zero => exact fun d => List.nil_prefix
    | succ n ih =>
        intro d
        rcases stuck_cases hI hn d with ⟨x, hx⟩ | ⟨x, hx⟩ | ⟨m, k, ht, hread⟩
        · obtain ⟨-, hw, -⟩ := hT.complete hI.inv hx (hI.within d)
          rw [hw]
          exact rounds_within hT (n + 1) d
        · exact absurd hx (hw d x)
        · have hle : rounds p n d.other <+: s.read d := by
            rw [hread]
            exact (ih d.other).trans (List.prefix_append _ _)
          obtain ⟨hout, -⟩ := hI.inv.talk d _ ht []
          have hnil : (Talk.read (m + 1) k).output [] = [] := rfl
          rw [hnil, List.append_nil, List.append_nil] at hout
          rw [← hout]
          exact (p d).output_mono hle
  obtain ⟨n, hS⟩ := hT.least
  rw [hS]
  exact h n d

/-- **Where neither can go on, both have returned, or one waits.** -/
theorem stuck_returned (hT : Transcript p S r) (hI : Connected p S s)
    (hn : ∀ a, Talks a → Dialogue.step goesOn s a = none) :
    (∀ d, s.talk d = some (.done (r d))) ∨ ∃ d x, s.Waits d x := by
  by_cases hw : ∃ d x, s.Waits d x
  · exact .inr hw
  · have hw' : ∀ d x, ¬ s.Waits d x := fun d x h => hw ⟨d, x, h⟩
    refine .inl fun d => ?_
    rcases stuck_cases hI hn d with ⟨x, hx⟩ | ⟨x, hx⟩ | ⟨m, k, ht, hread⟩
    · obtain ⟨rfl, -⟩ := hT.complete hI.inv hx (hI.within d)
      exact hx
    · exact absurd hx (hw' d x)
    · -- it has read its whole stream, and still wants more than the transcript gives it
      have hle : S d.other <+: s.read d := by
        rw [hread]
        exact (stuck_written hT hI hn hw' d.other).trans (List.prefix_append _ _)
      have heq : s.read d = S d.other := (hI.within d).eq_of_length_le hle.length_le
      have hres := (hI.inv.talk d _ ht []).2.1
      rw [List.append_nil, heq, hT.returned] at hres
      cases hres

/-- **Two programs that keep their connection both return**, whatever the pieces and the order, if
    whatever they wait for is there in the end. -/
theorem dialogue_completes (hT : Transcript p S r) {tr : List (Dialogue β ω ρ × DialogueAct β)}
    (run : (dialogue goesOn p).Run tr s) (hc : ∀ d, ∃ t, s.talk d = some t) :
    (dialogue goesOn p).Completes Proceeds (fun s => ∀ d, s.talk d = some (.done (r d))) s := by
  refine Machine.Completes.of_measure (I := Connected p S)
    (fun s => s.due S .left + s.due S .right)
    (fun s a s' hI ha h => proceeds_step hT hI ha (dialogue_cases h)) (fun s hI => ?_)
    ⟨dialogue_inv run, dialogue_within hT run, hc⟩
  by_cases hm : ∃ a t, Proceeds a ∧ Dialogue.step goesOn s a = some t
  · exact .inr hm
  · have hn : ∀ a, Proceeds a → Dialogue.step goesOn s a = none := fun a ha =>
      Option.eq_none_iff_forall_ne_some.mpr fun t h => hm ⟨a, t, ha, h⟩
    rcases stuck_returned hT hI fun a ha => hn a (.inl ha) with h | ⟨d, x, t, ht⟩
    · exact .inl h
    · have h := hn (.grant d) (.inr ⟨d, rfl⟩)
      simp [Dialogue.step, ht] at h

/-- **By themselves they return or come to wait**, for what a program waits for on its stream. -/
theorem dialogue_returns_or_waits (hT : Transcript p S r)
    {tr : List (Dialogue β ω ρ × DialogueAct β)} (run : (dialogue goesOn p).Run tr s)
    (hc : ∀ d, ∃ t, s.talk d = some t) :
    (dialogue goesOn p).Completes Talks (fun s => (∀ d, s.talk d = some (.done (r d))) ∨
      ∃ d, ∃ x ∈ (p d).waits (S d.other), s.Waits d x) s := by
  refine Machine.Completes.of_measure (I := Connected p S)
    (fun s => s.due S .left + s.due S .right)
    (fun s a s' hI ha h => proceeds_step hT hI (.inl ha) (dialogue_cases h)) (fun s hI => ?_)
    ⟨dialogue_inv run, dialogue_within hT run, hc⟩
  by_cases hm : ∃ a t, Talks a ∧ Dialogue.step goesOn s a = some t
  · exact .inr hm
  · have hn : ∀ a, Talks a → Dialogue.step goesOn s a = none := fun a ha =>
      Option.eq_none_iff_forall_ne_some.mpr fun t h => hm ⟨a, t, ha, h⟩
    refine .inl ((stuck_returned hT hI hn).imp_right fun ⟨d, x, hw⟩ => ⟨d, x, ?_, hw⟩)
    exact waits_within hI.inv hI.within hw

end

end Concurrent
