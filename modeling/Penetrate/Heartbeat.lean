/-
  File:      Penetrate/Heartbeat.lean
  Subject:   THE HEARTBEAT OF A CONTROL CHANNEL, AGAINST A CLOCK
             (`client/control_channel.rs`, `server/control_channel.rs`).

  The server's loop sleeps for `heartbeat_interval` in every iteration and writes a command when it
  wakes, or a request comes first; the client's sleeps for `heartbeat_timeout` and gives up when it
  wakes. A tick is a millisecond, and what neither side has in its hands is bounded by `Delays`:
  how late a timer goes off, how long a write takes, and how long what is written is on its way.

  * `hearts` -- the two loops from the `Ack` on, with what is on its way;
  * `onTime` -- when the clock may go on; `time_goes_on` -- it is never stopped for good;
  * `heartbeat_keeps` -- **exactly when a client never gives up a server that lives**;
  * `heartbeat_detects` -- how soon it gives up one that does not, and that before the `Ack` it
    never does; `patient_default` -- what the defaults leave room for.
-/
import Mathlib.Data.List.Basic
import Mathlib.Tactic.Common
import Penetrate.Concurrent.Machine

namespace Penetrate.Heartbeat

open Concurrent Machine

/-! ## 1. The two loops and the clock -/

/-- `Duration::from_secs`, in milliseconds. -/
def from_secs (n : UInt64) : Nat := n.toNat * 1000

theorem from_secs_pos {n : UInt64} (h : n ≠ 0) : 0 < from_secs n := by
  have hn : n.toNat ≠ 0 := fun h0 => h (UInt64.toNat_inj.mp h0)
  unfold from_secs
  omega

/-- What is not in the program's hands, in milliseconds. -/
structure Delays where
  /-- by how much a timer is late at most -/
  slack : Nat
  /-- how long a write takes at most -/
  write : Nat
  /-- how long what is written is on its way at most, until it is read -/
  transit : Nat

/-- Where `ControlChannel::run` of the server is, and since when. -/
inductive ServerLoop where
  | select (since : Nat)
  | writing (since : Nat)
  /-- has left its loop, or its host is gone -/
  | gone (since : Nat)
  deriving DecidableEq, Repr

/-- Where `ControlChannel::run` of the client is. -/
inductive ClientLoop where
  | readAck
  | select (since : Nat)
  /-- "HeatBeat timed out" -/
  | timedOut
  | ended
  deriving DecidableEq, Repr

/-- It has not left its loop. -/
def ClientLoop.waits (c : ClientLoop) : Prop := c = .readAck ∨ ∃ a, c = .select a

structure Hearts where
  now : Nat
  server : ServerLoop
  /-- when each message on its way was written, the oldest first -/
  wire : List Nat
  client : ClientLoop
  deriving DecidableEq, Repr

inductive HeartAct where
  | tick
  /-- the server's `sleep` is over -/
  | heartbeat
  /-- `data_ch_req_rx.recv()` -/
  | request
  | written
  /-- the server is gone, and with it all on its way but the first `n` messages -/
  | gone (n : Nat)
  /-- `read_ack`, `read_control_cmd` -/
  | read
  /-- the client's `sleep` is over -/
  | timedOut
  /-- `shutdown_rx`, or the connection is closed -/
  | ended
  deriving DecidableEq, Repr

section

variable (heartbeat_interval heartbeat_timeout : UInt64) (D : Delays)

/-- Neither the server's timer nor its write is later than it can be. -/
def ServerLoop.onTime (now : Nat) : ServerLoop → Prop
  | .select w => heartbeat_interval ≠ 0 → now < w + from_secs heartbeat_interval + D.slack
  | .writing w => now < w + D.write
  | .gone _ => True

/-- Nor is the client's timer, nor a message that it waits for. -/
def ClientLoop.onTime (now : Nat) (wire : List Nat) : ClientLoop → Prop
  | .readAck => ∀ t ∈ wire, now < t + D.transit
  | .select a => (heartbeat_timeout ≠ 0 → now < a + from_secs heartbeat_timeout + D.slack) ∧
      ∀ t ∈ wire, now < t + D.transit
  | .timedOut => True
  | .ended => True

instance (now : Nat) : DecidablePred (ServerLoop.onTime heartbeat_interval D now)
  | .select _ => inferInstanceAs (Decidable (_ → _))
  | .writing _ => inferInstanceAs (Decidable (_ < _))
  | .gone _ => inferInstanceAs (Decidable True)

instance (now : Nat) (wire : List Nat) :
    DecidablePred (ClientLoop.onTime heartbeat_timeout D now wire)
  | .readAck => inferInstanceAs (Decidable (∀ t ∈ wire, _))
  | .select _ => inferInstanceAs (Decidable (_ ∧ _))
  | .timedOut => inferInstanceAs (Decidable True)
  | .ended => inferInstanceAs (Decidable True)

def step (s : Hearts) : HeartAct → Option Hearts
  | .tick =>
      if s.server.onTime heartbeat_interval D s.now ∧
          s.client.onTime heartbeat_timeout D s.now s.wire then
        some { s with now := s.now + 1 }
      else none
  | .heartbeat => match s.server with
    | .select w =>
        if heartbeat_interval ≠ 0 ∧ w + from_secs heartbeat_interval ≤ s.now then
          some { s with server := .writing s.now }
        else none
    | _ => none
  | .request => match s.server with
    | .select _ => some { s with server := .writing s.now }
    | _ => none
  | .written => match s.server with
    | .writing _ => some { s with server := .select s.now, wire := s.wire ++ [s.now] }
    | _ => none
  | .gone n => match s.server with
    | .gone _ => none
    | _ => some { s with server := .gone s.now, wire := s.wire.take n }
  | .read => match s.client, s.wire with
    | .readAck, _ :: wire => some { s with client := .select s.now, wire := wire }
    | .select _, _ :: wire => some { s with client := .select s.now, wire := wire }
    | _, _ => none
  | .timedOut => match s.client with
    | .select a =>
        if heartbeat_timeout ≠ 0 ∧ a + from_secs heartbeat_timeout ≤ s.now then
          some { s with client := .timedOut }
        else none
    | _ => none
  | .ended => match s.client with
    | .readAck => some { s with client := .ended }
    | .select _ => some { s with client := .ended }
    | _ => none

/-- The server writes its `Ack`, the client reads it. -/
def Hearts.start : Hearts := ⟨0, .writing 0, [], .readAck⟩

/-- **Both loops of a control channel**, from the `Ack` on. -/
def hearts : Machine Hearts HeartAct where
  start s := s = .start
  step := step heartbeat_interval heartbeat_timeout D

/-! ## 2. The rules -/

inductive HeartStep (s : Hearts) : HeartAct → Hearts → Prop where
  | tick (hs : s.server.onTime heartbeat_interval D s.now)
      (hc : s.client.onTime heartbeat_timeout D s.now s.wire) :
      HeartStep s .tick { s with now := s.now + 1 }
  | heartbeat (w : Nat) (hw : s.server = .select w) (hi : heartbeat_interval ≠ 0)
      (hd : w + from_secs heartbeat_interval ≤ s.now) :
      HeartStep s .heartbeat { s with server := .writing s.now }
  | request (w : Nat) (hw : s.server = .select w) :
      HeartStep s .request { s with server := .writing s.now }
  | written (w : Nat) (hw : s.server = .writing w) :
      HeartStep s .written { s with server := .select s.now, wire := s.wire ++ [s.now] }
  | gone (n : Nat) (hw : ∀ w, s.server ≠ .gone w) :
      HeartStep s (.gone n) { s with server := .gone s.now, wire := s.wire.take n }
  | read (t : Nat) (wire : List Nat) (hw : s.wire = t :: wire) (hc : s.client.waits) :
      HeartStep s .read { s with client := .select s.now, wire := wire }
  | timedOut (a : Nat) (hc : s.client = .select a) (ht : heartbeat_timeout ≠ 0)
      (hd : a + from_secs heartbeat_timeout ≤ s.now) :
      HeartStep s .timedOut { s with client := .timedOut }
  | ended (hc : s.client.waits) : HeartStep s .ended { s with client := .ended }

variable {heartbeat_interval heartbeat_timeout D}

theorem step_cases {s s' : Hearts} {a : HeartAct}
    (h : step heartbeat_interval heartbeat_timeout D s a = some s') :
    HeartStep heartbeat_interval heartbeat_timeout D s a s' := by
  unfold step at h
  split at h
  · split at h
    · rename_i hd
      cases h
      exact .tick hd.1 hd.2
    · cases h
  · split at h
    · rename_i w hw
      split at h
      · rename_i hd
        cases h
        exact .heartbeat w hw hd.1 hd.2
      · cases h
    · cases h
  · split at h
    · rename_i w hw
      cases h
      exact .request w hw
    · cases h
  · split at h
    · rename_i w hw
      cases h
      exact .written w hw
    · cases h
  · rename_i n
    split at h
    · cases h
    · rename_i hw
      cases h
      exact .gone n hw
  · split at h
    · rename_i t wire hc hw
      cases h
      exact .read t wire hw (.inl hc)
    · rename_i a t wire hc hw
      cases h
      exact .read t wire hw (.inr ⟨a, hc⟩)
    · cases h
  · split at h
    · rename_i a hc
      split at h
      · rename_i hd
        cases h
        exact .timedOut a hc hd.1 hd.2
      · cases h
    · cases h
  · split at h
    · rename_i hc
      cases h
      exact .ended (.inl hc)
    · rename_i a hc
      cases h
      exact .ended (.inr ⟨a, hc⟩)
    · cases h

/-! ## 3. What every run keeps -/

variable (heartbeat_interval heartbeat_timeout D) in
/-- No timer goes off too late, and no message comes too late. -/
structure Hearts.Inv (s : Hearts) : Prop where
  select : ∀ w, s.server = .select w → heartbeat_interval ≠ 0 →
    s.now ≤ w + from_secs heartbeat_interval + D.slack
  writing : ∀ w, s.server = .writing w → s.now ≤ w + D.write
  wire : s.client.waits → ∀ t ∈ s.wire, s.now ≤ t + D.transit
  timeout : ∀ a, s.client = .select a → heartbeat_timeout ≠ 0 →
    s.now ≤ a + from_secs heartbeat_timeout + D.slack
  began : ∀ w, s.server = .select w ∨ s.server = .writing w → w ≤ s.now
  past : ∀ t ∈ s.wire, t ≤ s.now
  armed : ∀ a, s.client = .select a → a ≤ s.now
  /-- what was written before the server was gone is read by then -/
  gone : ∀ w, s.server = .gone w → (∀ t ∈ s.wire, t ≤ w) ∧
    ∀ a, s.client = .select a → a ≤ w + D.transit

theorem onTime_wire {now : Nat} {wire : List Nat} {c : ClientLoop}
    (h : c.onTime heartbeat_timeout D now wire) (hc : c.waits) : ∀ t ∈ wire, now < t + D.transit := by
  rcases hc with rfl | ⟨a, rfl⟩
  · exact h
  · exact h.2

theorem onTime_timeout {now a : Nat} {wire : List Nat}
    (h : ClientLoop.onTime heartbeat_timeout D now wire (.select a)) (ht : heartbeat_timeout ≠ 0) :
    now < a + from_secs heartbeat_timeout + D.slack := h.1 ht

theorem inv_step {s s' : Hearts} {a : HeartAct}
    (hI : s.Inv heartbeat_interval heartbeat_timeout D)
    (h : HeartStep heartbeat_interval heartbeat_timeout D s a s') :
    s'.Inv heartbeat_interval heartbeat_timeout D := by
  obtain ⟨hselect, hwriting, hwire, htimeout, hbegan, hpast, harmed, hgone⟩ := hI
  cases h with
  | tick hs hc =>
      refine ⟨fun w hw hi => ?_, fun w hw => ?_, fun hw t ht => ?_, fun a ha ht => ?_,
        fun w h => Nat.le_trans (hbegan w h) (Nat.le_succ _), fun t ht => Nat.le_trans (hpast t ht) (Nat.le_succ _),
        fun a ha => Nat.le_trans (harmed a ha) (Nat.le_succ _), hgone⟩
      · have hs' : ServerLoop.onTime heartbeat_interval D s.now (.select w) := hw ▸ hs
        exact hs' hi
      · have hs' : ServerLoop.onTime heartbeat_interval D s.now (.writing w) := hw ▸ hs
        exact hs'
      · exact onTime_wire hc hw t ht
      · have hc' : ClientLoop.onTime heartbeat_timeout D s.now s.wire (.select a) := ha ▸ hc
        exact onTime_timeout hc' ht
  | heartbeat w hw hi hd =>
      exact ⟨nofun, fun _ h => by cases h; exact Nat.le_add_right _ _, hwire, htimeout,
        (fun _ h => by rcases h with h | h <;> cases h; exact Nat.le_refl _), hpast, harmed, nofun⟩
  | request w hw =>
      exact ⟨nofun, fun _ h => by cases h; exact Nat.le_add_right _ _, hwire, htimeout,
        (fun _ h => by rcases h with h | h <;> cases h; exact Nat.le_refl _), hpast, harmed, nofun⟩
  | written w hw =>
      refine ⟨fun _ h _ => ?_, nofun, fun h t ht => ?_, htimeout,
        (fun _ h => by rcases h with h | h <;> cases h; exact Nat.le_refl _), fun t ht => ?_, harmed,
        nofun⟩
      · cases h
        show s.now ≤ s.now + _ + _
        omega
      · rcases List.mem_append.mp ht with ht | ht
        · exact hwire h t ht
        · cases List.mem_singleton.mp ht
          exact Nat.le_add_right _ _
      · rcases List.mem_append.mp ht with ht | ht
        · exact hpast t ht
        · exact Nat.le_of_eq (List.mem_singleton.mp ht)
  | gone n hw =>
      have hsub : ∀ t ∈ s.wire.take n, t ∈ s.wire := fun t ht => List.mem_of_mem_take ht
      refine ⟨nofun, nofun, fun h t ht => hwire h t (hsub t ht), htimeout,
        (fun _ h => by rcases h with h | h <;> cases h), fun t ht => hpast t (hsub t ht), harmed, fun w h => ?_⟩
      cases h
      exact ⟨fun t ht => hpast t (hsub t ht), fun a ha => Nat.le_trans (harmed a ha) (Nat.le_add_right _ _)⟩
  | read t wire hw hc =>
      have hsub : ∀ t' ∈ wire, t' ∈ s.wire := fun t' ht' => hw ▸ List.mem_cons_of_mem t ht'
      have ht : t ∈ s.wire := hw ▸ List.mem_cons_self
      refine ⟨hselect, hwriting, fun _ t' ht' => hwire hc t' (hsub t' ht'), fun _ h _ => ?_,
        hbegan, fun t' ht' => hpast t' (hsub t' ht'), fun _ h => ?_, fun w h => ⟨fun t' ht' =>
          (hgone w h).1 t' (hsub t' ht'), fun _ h' => ?_⟩⟩
      · cases h
        show s.now ≤ s.now + _ + _
        omega
      · cases h
        exact Nat.le_refl _
      · cases h'
        have h1 := hwire hc t ht
        have h2 := (hgone w h).1 t ht
        show s.now ≤ _
        omega
  | timedOut a hc ht hd =>
      exact ⟨hselect, hwriting, (fun h => by rcases h with h | ⟨_, h⟩ <;> cases h), nofun, hbegan,
        hpast, nofun, fun w h => ⟨(hgone w h).1, nofun⟩⟩
  | ended hc =>
      exact ⟨hselect, hwriting, (fun h => by rcases h with h | ⟨_, h⟩ <;> cases h), nofun, hbegan,
        hpast, nofun, fun w h => ⟨(hgone w h).1, nofun⟩⟩

variable (heartbeat_interval heartbeat_timeout D) in
theorem inv_hearts {tr : List (Hearts × HeartAct)} {s : Hearts}
    (r : (hearts heartbeat_interval heartbeat_timeout D).Run tr s) :
    s.Inv heartbeat_interval heartbeat_timeout D := by
  refine r.invariant (I := Hearts.Inv heartbeat_interval heartbeat_timeout D) (fun s h => ?_)
    fun s a s' hI h => inv_step hI (step_cases h)
  cases h
  exact ⟨nofun, fun w h => by cases h; exact Nat.zero_le _, fun _ => nofun, nofun,
    (fun w h => by rcases h with h | h <;> cases h; exact Nat.zero_le _), nofun, nofun, nofun⟩

/-! ## 4. A server that lives -/

/-- The server has not gone. -/
def Hearts.alive (s : Hearts) : Prop := ∀ w, s.server ≠ .gone w

variable (heartbeat_interval D) in
/-- From one message written to the next, at most. -/
def pause : Nat := from_secs heartbeat_interval + D.slack + D.write

variable (heartbeat_interval D) in
/-- **What the client waits for is no more than a pause away** from when it began to wait. -/
structure Hearts.Fed (s : Hearts) : Prop where
  next : ∀ a, s.client = .select a → ∀ t, s.wire.head? = some t → t ≤ a + pause heartbeat_interval D
  select : ∀ a, s.client = .select a → s.wire = [] → ∀ w, s.server = .select w → w ≤ a
  writing : ∀ a, s.client = .select a → s.wire = [] → ∀ w, s.server = .writing w →
    w ≤ a + from_secs heartbeat_interval + D.slack

theorem fed_step (hi : heartbeat_interval ≠ 0) {s s' : Hearts} {a : HeartAct}
    (hI : s.Inv heartbeat_interval heartbeat_timeout D) (hF : s.Fed heartbeat_interval D)
    (h : HeartStep heartbeat_interval heartbeat_timeout D s a s') : s'.Fed heartbeat_interval D := by
  -- the server writes again before its timer is later than it can be
  have hbegins : ∀ a, s.client = .select a → s.wire = [] → ∀ w, s.server = .select w →
      s.now ≤ a + from_secs heartbeat_interval + D.slack := by
    intro a ha he w hw
    have h1 := hF.select a ha he w hw
    have h2 := hI.select w hw hi
    omega
  cases h with
  | tick hs hc => exact ⟨hF.next, hF.select, hF.writing⟩
  | heartbeat w hw hi hd =>
      exact ⟨hF.next, nofun, fun a ha he _ h => by cases h; exact hbegins a ha he w hw⟩
  | request w hw =>
      exact ⟨hF.next, nofun, fun a ha he _ h => by cases h; exact hbegins a ha he w hw⟩
  | written w hw =>
      refine ⟨fun a ha t ht => ?_, fun a ha he => ?_, nofun⟩
      · cases hl : s.wire with
        | nil =>
            have h1 := hF.writing a ha hl w hw
            have h2 := hI.writing w hw
            have ht' : t = s.now := by
              have h : (s.wire ++ [s.now]).head? = some t := ht
              rw [hl] at h
              exact (Option.some.inj h).symm
            unfold pause
            omega
        | cons t' ts =>
            refine hF.next a ha t ?_
            have h : (s.wire ++ [s.now]).head? = some t := ht
            rw [hl] at h ⊢
            exact h
      · exact absurd he (List.append_ne_nil_of_right_ne_nil _ (List.cons_ne_nil _ _))
  | gone n hw =>
      refine ⟨fun a ha t ht => hF.next a ha t ?_, nofun, nofun⟩
      have h : (s.wire.take n).head? = some t := ht
      cases n with
      | zero => simp at h
      | succ n => rwa [List.head?_take, if_neg (Nat.succ_ne_zero n)] at h
  | read t wire hw hc =>
      have hsub : ∀ t' ∈ wire, t' ∈ s.wire := fun t' ht' => hw ▸ List.mem_cons_of_mem t ht'
      refine ⟨fun a ha t' ht' => ?_, fun a ha _ w h => ?_, fun a ha _ w h => ?_⟩
      · cases ha
        exact Nat.le_trans (hI.past t' (hsub t' (List.mem_of_mem_head? ht'))) (Nat.le_add_right _ _)
      · cases ha
        exact hI.began w (.inl h)
      · cases ha
        have h1 := hI.began w (.inr h)
        omega
  | timedOut a hc ht hd => exact ⟨nofun, nofun, nofun⟩
  | ended hc => exact ⟨nofun, nofun, nofun⟩

variable (heartbeat_interval heartbeat_timeout D) in
/-- No timer of a client is set too short for its server. -/
def Patient : Prop :=
  heartbeat_timeout = 0 ∨ (heartbeat_interval ≠ 0 ∧
    pause heartbeat_interval D + D.transit < from_secs heartbeat_timeout)

/-- A client that is fed does not wake up. -/
theorem fed_sleeps {s : Hearts} (hI : s.Inv heartbeat_interval heartbeat_timeout D)
    (hF : s.Fed heartbeat_interval D) (hi : heartbeat_interval ≠ 0)
    (hp : pause heartbeat_interval D + D.transit < from_secs heartbeat_timeout) (hl : s.alive)
    {a : Nat} (ha : s.client = .select a) : s.now < a + from_secs heartbeat_timeout := by
  unfold pause at hp
  cases hw : s.wire with
  | cons t ts =>
      have h1 := hF.next a ha t (by rw [hw]; rfl)
      have h2 := hI.wire (.inr ⟨a, ha⟩) t (by rw [hw]; exact List.mem_cons_self)
      unfold pause at h1
      omega
  | nil =>
      cases hs : s.server with
      | select w =>
          have h1 := hF.select a ha hw w hs
          have h2 := hI.select w hs hi
          omega
      | writing w =>
          have h1 := hF.writing a ha hw w hs
          have h2 := hI.writing w hs
          omega
      | gone w => exact absurd hs (hl w)

theorem patient_keeps (hp : Patient heartbeat_interval heartbeat_timeout D)
    {tr : List (Hearts × HeartAct)} {s : Hearts}
    (r : (hearts heartbeat_interval heartbeat_timeout D).Run tr s) (hl : s.alive) :
    s.client ≠ .timedOut := by
  rcases hp with ht | ⟨hi, hp⟩
  · refine r.invariant (I := fun s => s.client ≠ .timedOut) (fun s h => ?_) fun s a s' hI h => ?_
    · cases h
      nofun
    · cases step_cases h with
      | timedOut a hc ht' hd => exact absurd ht ht'
      | read | ended => nofun
      | tick | heartbeat | request | written | gone => exact hI
  · have h : (s.Inv heartbeat_interval heartbeat_timeout D ∧ s.Fed heartbeat_interval D) ∧
        (s.alive → s.client ≠ .timedOut) := by
      refine r.invariant (I := fun s => (s.Inv heartbeat_interval heartbeat_timeout D ∧
        s.Fed heartbeat_interval D) ∧ (s.alive → s.client ≠ .timedOut)) (fun s h => ?_)
        fun s a s' hI h => ?_
      · refine ⟨⟨inv_hearts _ _ _ (.start h), ?_⟩, fun _ => ?_⟩
        · cases h
          exact ⟨nofun, nofun, nofun⟩
        · cases h
          nofun
      · obtain ⟨⟨hinv, hfed⟩, halive⟩ := hI
        have hs := step_cases h
        refine ⟨⟨inv_step hinv hs, fed_step hi hinv hfed hs⟩, fun hl => ?_⟩
        cases hs with
        | tick => exact halive hl
        | heartbeat w hw => exact halive fun w' h => by rw [hw] at h; cases h
        | request w hw => exact halive fun w' h => by rw [hw] at h; cases h
        | written w hw => exact halive fun w' h => by rw [hw] at h; cases h
        | gone n hw => exact absurd rfl (hl s.now)
        | read | ended => nofun
        | timedOut a hc ht hd =>
            have hlt := fed_sleeps hinv hfed hi hp hl hc
            exact absurd hd (Nat.not_le.mpr hlt)
    exact h.2 hl

/-! ## 5. A client that gives up too soon -/

/-- The clock goes on as long as nothing is due. -/
theorem ticks (s : Hearts) (n : Nat)
    (h : ∀ k < n, s.server.onTime heartbeat_interval D (s.now + k) ∧
      s.client.onTime heartbeat_timeout D (s.now + k) s.wire) :
    (hearts heartbeat_interval heartbeat_timeout D).Leads s { s with now := s.now + n } := by
  induction n with
  | zero => exact .refl s
  | succ n ih =>
      refine (ih fun k hk => h k (Nat.lt_succ_of_lt hk)).trans (.of_step (a := .tick) ?_)
      obtain ⟨h1, h2⟩ := h n (Nat.lt_succ_self n)
      show (if _ then _ else _) = _
      rw [if_pos ⟨h1, h2⟩]
      rfl

variable (heartbeat_interval heartbeat_timeout D) in
/-- It goes on as well while the server writes one command after another, none of which comes in. -/
theorem writes_on {a f : Nat} (n : Nat) {s : Hearts} (hs : ∃ w, s.server = .select w)
    (hc : s.client = .select a) (hw : ∀ t ∈ s.wire, f ≤ t) (hf : f ≤ s.now)
    (ht : s.now + n ≤ a + from_secs heartbeat_timeout) (htr : s.now + n ≤ f + D.transit) :
    ∃ s', (hearts heartbeat_interval heartbeat_timeout D).Leads s s' ∧ s'.now = s.now + n ∧
      s'.client = .select a ∧ ∃ w, s'.server = .select w := by
  induction n generalizing s with
  | zero => exact ⟨s, .refl s, rfl, hc, hs⟩
  | succ n ih =>
      obtain ⟨w, hs⟩ := hs
      let t : Hearts := { s with server := .select s.now, wire := s.wire ++ [s.now] }
      have hrequest : (hearts heartbeat_interval heartbeat_timeout D).Leads s
          { s with server := .writing s.now } := by
        refine .of_step (a := .request) ?_
        show step heartbeat_interval heartbeat_timeout D s .request = _
        rw [step, hs]
      have hwritten : (hearts heartbeat_interval heartbeat_timeout D).Leads
          { s with server := .writing s.now } t := .of_step (a := .written) rfl
      have hwire : ∀ t' ∈ t.wire, f ≤ t' := by
        intro t' ht'
        rcases List.mem_append.mp ht' with ht' | ht'
        · exact hw t' ht'
        · rw [List.mem_singleton.mp ht']
          exact hf
      have htick : (hearts heartbeat_interval heartbeat_timeout D).Leads t
          { t with now := s.now + 1 } := by
        refine ticks t 1 fun k hk => ?_
        cases Nat.lt_one_iff.mp hk
        refine ⟨fun hi => ?_, ?_⟩
        · have hpos := from_secs_pos hi
          show s.now + 0 < s.now + _ + _
          omega
        · show s.client.onTime heartbeat_timeout D _ _
          rw [hc]
          refine ⟨fun _ => ?_, fun t' ht' => ?_⟩
          · show s.now + 0 < _
            omega
          · have hle := hwire t' ht'
            show s.now + 0 < _
            omega
      obtain ⟨s', hl, hnow, hc', hs'⟩ := ih (s := { t with now := s.now + 1 }) ⟨_, rfl⟩ hc hwire
        (Nat.le_succ_of_le hf) (by show s.now + 1 + n ≤ _; omega) (by show s.now + 1 + n ≤ _; omega)
      refine ⟨s', ((hrequest.trans hwritten).trans htick).trans hl, ?_, hc', hs'⟩
      rw [hnow]
      show s.now + 1 + n = _
      omega

theorem gives_up (ht : heartbeat_timeout ≠ 0) {s : Hearts} {a : Nat} (hc : s.client = .select a)
    (hd : a + from_secs heartbeat_timeout ≤ s.now) :
    (hearts heartbeat_interval heartbeat_timeout D).Leads s { s with client := .timedOut } := by
  refine .of_step (a := .timedOut) ?_
  show step heartbeat_interval heartbeat_timeout D s .timedOut = _
  simp only [step, hc]
  rw [if_pos ⟨ht, hd⟩]

/-- **Where the timer is too short, some run of a living server ends with it.** -/
theorem impatient_gives_up (hp : ¬ Patient heartbeat_interval heartbeat_timeout D) :
    ∃ s, (hearts heartbeat_interval heartbeat_timeout D).Reachable s ∧ s.alive ∧
      s.client = .timedOut := by
  obtain ⟨ht, hle⟩ : heartbeat_timeout ≠ 0 ∧ (heartbeat_interval ≠ 0 →
      from_secs heartbeat_timeout ≤ pause heartbeat_interval D + D.transit) :=
    ⟨fun h => hp (.inl h), fun hi => Nat.not_lt.mp fun hlt => hp (.inr ⟨hi, hlt⟩)⟩
  let i := from_secs heartbeat_interval + D.slack
  let T := from_secs heartbeat_timeout
  let Reaches := (hearts heartbeat_interval heartbeat_timeout D).Leads .start
  suffices h : ∃ s, Reaches s ∧ s.now = T ∧ s.client = .select 0 ∧ s.alive by
    obtain ⟨s, hl, hnow, hc, halive⟩ := h
    refine ⟨{ s with client := .timedOut }, ?_, halive, rfl⟩
    exact Reachable.leads ⟨_, .start rfl⟩ (hl.trans (gives_up ht hc (Nat.le_of_eq ((Nat.zero_add T).trans hnow.symm))))
  have hack : Reaches ⟨0, .select 0, [], .select 0⟩ := ⟨[.written, .read], rfl⟩
  -- the client's timer lets the clock go on until `T`
  have hclient : ∀ now, now < T →
      ClientLoop.onTime heartbeat_timeout D now [] (.select 0) := by
    intro now hnow
    refine ⟨fun _ => ?_, nofun⟩
    show now < 0 + T + D.slack
    omega
  by_cases hi : heartbeat_interval ≠ 0 ∧ i < T
  · -- the server begins to write as late as it can
    obtain ⟨hi, hlt⟩ := hi
    have hT : T ≤ i + D.write + D.transit := hle hi
    have hwait : Reaches ⟨i, .select 0, [], .select 0⟩ := by
      have h := hack.trans (ticks _ i fun k hk => ⟨fun _ => ?_, hclient _ ?_⟩)
      · rwa [Nat.zero_add] at h
      · show 0 + k < 0 + from_secs heartbeat_interval + D.slack
        omega
      · show 0 + k < T
        omega
    have hwrites : Reaches ⟨i, .writing i, [], .select 0⟩ := by
      refine hwait.trans (.of_step (a := .heartbeat) ?_)
      have hd : heartbeat_interval ≠ 0 ∧ 0 + from_secs heartbeat_interval ≤ i :=
        ⟨hi, by omega⟩
      exact if_pos hd
    by_cases hw : T ≤ i + D.write
    · refine ⟨⟨T, .writing i, [], .select 0⟩, ?_, rfl, rfl, nofun⟩
      have h := hwrites.trans (ticks _ (T - i) fun k hk => ⟨?_, hclient _ ?_⟩)
      · rwa [Nat.add_sub_cancel' (by omega : i ≤ T)] at h
      · show i + k < i + D.write
        omega
      · show i + k < T
        omega
    · -- and then its write takes as long as it can
      have hwritten : Reaches ⟨i + D.write, .select (i + D.write), [i + D.write], .select 0⟩ := by
        refine (hwrites.trans (ticks _ D.write fun k hk => ⟨?_, hclient _ ?_⟩)).trans
          (.of_step (a := .written) rfl)
        · show i + k < i + D.write
          omega
        · show i + k < T
          omega
      obtain ⟨s, hl, hnow, hc, w, hs⟩ := writes_on heartbeat_interval heartbeat_timeout D (a := 0)
        (f := i + D.write) (s := ⟨i + D.write, .select (i + D.write), [i + D.write], .select 0⟩)
        (T - (i + D.write)) ⟨_, rfl⟩ rfl (fun t h => Nat.le_of_eq (List.mem_singleton.mp h).symm)
        (Nat.le_refl _) (by show i + D.write + _ ≤ 0 + T; omega)
        (by show i + D.write + _ ≤ i + D.write + D.transit; omega)
      refine ⟨s, hwritten.trans hl, ?_, hc, fun w' h => by rw [hs] at h; cases h⟩
      rw [hnow]
      show i + D.write + (T - (i + D.write)) = T
      omega
  · -- the client wakes before the server has to
    refine ⟨⟨T, .select 0, [], .select 0⟩, ?_, rfl, rfl, nofun⟩
    have h := hack.trans (ticks _ T fun k hk => ⟨fun h0 => ?_, hclient _ ?_⟩)
    · rwa [Nat.zero_add] at h
    · have hTi : T ≤ i := Nat.not_lt.mp fun hlt => hi ⟨h0, hlt⟩
      show 0 + k < 0 + from_secs heartbeat_interval + D.slack
      omega
    · show 0 + k < T
      omega

variable (heartbeat_interval heartbeat_timeout D) in
/-- **Exactly when a client never gives up a server that lives**: it has no timer, or the server
    sends heartbeats and the client's timer is longer than one interval with all that can come on
    top of it, in every run and whatever the requests. -/
theorem heartbeat_keeps :
    (∀ tr s, (hearts heartbeat_interval heartbeat_timeout D).Run tr s → s.alive →
      s.client ≠ .timedOut) ↔
    heartbeat_timeout = 0 ∨ (heartbeat_interval ≠ 0 ∧
      from_secs heartbeat_interval + D.slack + D.write + D.transit <
        from_secs heartbeat_timeout) := by
  constructor
  · intro h
    by_contra hp
    obtain ⟨s, ⟨tr, r⟩, hl, hc⟩ := impatient_gives_up hp
    exact h tr s r hl hc
  · exact fun hp tr s r hl => patient_keeps hp r hl

/-! ## 6. A server that is gone -/

/-- All that is on its way is read. -/
theorem reads_all {s : Hearts} {wire : List Nat} (hc : s.client.waits) (hw : s.wire = wire)
    (hne : wire ≠ []) : (hearts heartbeat_interval heartbeat_timeout D).Leads s
      { s with client := .select s.now, wire := [] } := by
  induction wire generalizing s with
  | nil => exact absurd rfl hne
  | cons t wire ih =>
      have hread : (hearts heartbeat_interval heartbeat_timeout D).Leads s
          { s with client := .select s.now, wire := wire } := by
        refine .of_step (a := .read) ?_
        show step heartbeat_interval heartbeat_timeout D s .read = _
        rcases hc with hc | ⟨a, hc⟩ <;> simp only [step, hc, hw]
      cases wire with
      | nil => exact hread
      | cons t' wire =>
          exact hread.trans (ih (s := { s with client := .select s.now, wire := t' :: wire })
            (.inr ⟨_, rfl⟩) rfl (List.cons_ne_nil t' wire))

variable (heartbeat_interval heartbeat_timeout D) in
/-- The server can do what is due of it. -/
theorem server_due (s : Hearts) : ∃ t,
    (hearts heartbeat_interval heartbeat_timeout D).Leads s t ∧ t.now = s.now ∧
      t.server.onTime heartbeat_interval D t.now := by
  have hwritten : ∀ u : Hearts, ∀ w, u.server = .writing w → u.now = s.now → ∃ t,
      (hearts heartbeat_interval heartbeat_timeout D).Leads u t ∧ t.now = s.now ∧
        t.server.onTime heartbeat_interval D t.now := by
    intro u w hu hnow
    refine ⟨{ u with server := .select u.now, wire := u.wire ++ [u.now] },
      .of_step (a := .written) ?_, hnow, fun hi => ?_⟩
    · show step heartbeat_interval heartbeat_timeout D u .written = _
      simp only [step, hu]
    · have hpos := from_secs_pos hi
      show u.now < u.now + _ + _
      omega
  cases hs : s.server with
  | select w =>
      obtain ⟨t, ht, h⟩ := hwritten { s with server := .writing s.now } s.now rfl rfl
      refine ⟨t, .trans (.of_step (a := .request) ?_) ht, h⟩
      show step heartbeat_interval heartbeat_timeout D s .request = _
      simp only [step, hs]
  | writing w => exact hwritten s w hs rfl
  | gone w =>
      refine ⟨s, .refl s, rfl, ?_⟩
      rw [hs]
      trivial

variable (heartbeat_interval heartbeat_timeout D) in
/-- And so can the client. -/
theorem client_due (s : Hearts) : ∃ t,
    (hearts heartbeat_interval heartbeat_timeout D).Leads s t ∧ t.now = s.now ∧
      t.server = s.server ∧ t.client.onTime heartbeat_timeout D t.now t.wire := by
  by_cases hc : s.client.waits
  · by_cases hw : s.wire = []
    · rcases hc with hc | ⟨a, hc⟩
      · refine ⟨s, .refl s, rfl, rfl, ?_⟩
        rw [hc, hw]
        exact nofun
      · by_cases hd : heartbeat_timeout ≠ 0 ∧ a + from_secs heartbeat_timeout ≤ s.now
        · exact ⟨_, gives_up hd.1 hc hd.2, rfl, rfl, trivial⟩
        · refine ⟨s, .refl s, rfl, rfl, ?_⟩
          rw [hc, hw]
          refine ⟨fun ht => ?_, nofun⟩
          have hlt : s.now < a + from_secs heartbeat_timeout := Nat.not_le.mp fun h => hd ⟨ht, h⟩
          omega
    · refine ⟨_, reads_all hc rfl hw, rfl, rfl, fun ht => ?_, nofun⟩
      have hpos := from_secs_pos ht
      show s.now < s.now + _ + _
      omega
  · refine ⟨s, .refl s, rfl, rfl, ?_⟩
    cases hs : s.client with
    | readAck => exact absurd (.inl hs) hc
    | select a => exact absurd (.inr ⟨a, hs⟩) hc
    | timedOut => trivial
    | ended => trivial

/-- **The clock is never stopped for good**: what is due can be done at once, and it goes on. -/
theorem time_goes_on (s : Hearts) : ∃ t t',
    (hearts heartbeat_interval heartbeat_timeout D).Leads s t ∧ t.now = s.now ∧
      step heartbeat_interval heartbeat_timeout D t .tick = some t' := by
  obtain ⟨u, hu, hnow, hserver⟩ := server_due heartbeat_interval heartbeat_timeout D s
  obtain ⟨t, ht, hnow', hsame, hclient⟩ := client_due heartbeat_interval heartbeat_timeout D u
  rw [← hsame, ← hnow'] at hserver
  exact ⟨t, { t with now := t.now + 1 }, hu.trans ht, hnow'.trans hnow, if_pos ⟨hserver, hclient⟩⟩

variable (heartbeat_interval heartbeat_timeout D) in
/-- **How soon a client gives up a server that is gone**: by one of its timeouts behind the last
    message that can have come in, a time that does come. The server that is gone before its `Ack`
    comes in it never gives up: no timer runs in the handshake. -/
theorem heartbeat_detects :
    (∀ tr s, (hearts heartbeat_interval heartbeat_timeout D).Run tr s → ∀ w a,
      s.server = .gone w → s.client = .select a → heartbeat_timeout ≠ 0 →
        s.now ≤ w + D.transit + from_secs heartbeat_timeout + D.slack) ∧
    (∀ tr s, (hearts heartbeat_interval heartbeat_timeout D).Run tr s → ∃ t t',
      (hearts heartbeat_interval heartbeat_timeout D).Leads s t ∧ t.now = s.now ∧
        step heartbeat_interval heartbeat_timeout D t .tick = some t') ∧
    ∀ n, ∃ tr, (hearts heartbeat_interval heartbeat_timeout D).Run tr ⟨n, .gone 0, [], .readAck⟩ := by
  refine ⟨fun tr s r w a hs hc ht => ?_, fun _ s _ => time_goes_on s, fun n => ?_⟩
  · have hI := inv_hearts _ _ _ r
    have h1 := hI.timeout a hc ht
    have h2 := (hI.gone w hs).2 a hc
    omega
  · have hgone : (hearts heartbeat_interval heartbeat_timeout D).Leads .start
        ⟨0, .gone 0, [], .readAck⟩ := ⟨[.gone 0], rfl⟩
    have h := hgone.trans (ticks _ n fun k hk => ⟨trivial, nofun⟩)
    rw [Nat.zero_add] at h
    exact Reachable.leads ⟨_, .start rfl⟩ h

end

/-! ## 7. The defaults -/

def default_heartbeat_interval : UInt64 := 30
def default_heartbeat_timeout : UInt64 := 40

/-- The defaults leave ten seconds for all that can come on top. -/
theorem patient_default {D : Delays} :
    Patient default_heartbeat_interval default_heartbeat_timeout D ↔
      D.slack + D.write + D.transit < 10000 := by
  have hi : from_secs default_heartbeat_interval = 30000 := rfl
  have ht : from_secs default_heartbeat_timeout = 40000 := rfl
  unfold Patient pause
  rw [hi, ht]
  constructor
  · rintro (h | ⟨-, h⟩)
    · exact absurd h (by decide)
    · omega
  · exact fun h => .inr ⟨by decide, by omega⟩

/-- A server that goes right behind its `Ack`. -/
theorem heartbeat_detects_default : ∃ tr s w a,
    (hearts default_heartbeat_interval default_heartbeat_timeout ⟨1, 2, 3⟩).Run tr s ∧
      s.server = .gone w ∧ s.client = .select a ∧ s.now ≤ w + 3 + 40000 + 1 := by
  obtain ⟨s, hs, hw, hc⟩ : ∃ s, (hearts default_heartbeat_interval default_heartbeat_timeout
      ⟨1, 2, 3⟩).exec .start [.tick, .written, .tick, .gone 1, .tick, .read, .tick, .tick] = some s ∧
      s.server = .gone 2 ∧ s.client = .select 3 := ⟨_, rfl, rfl, rfl⟩
  have r := run_trace (.start rfl) hs
  obtain ⟨hbound, -⟩ := heartbeat_detects default_heartbeat_interval default_heartbeat_timeout ⟨1, 2, 3⟩
  exact ⟨_, s, 2, 3, r, hw, hc, hbound _ s r 2 3 hw hc (by decide)⟩

end Penetrate.Heartbeat
