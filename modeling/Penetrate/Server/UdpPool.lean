/-
  File:      Penetrate/Server/UdpPool.lean
  Subject:   THE LOOP OF `run_udp_connection_pool` (`server/pool.rs`) and what one visitor can do to
             the others.

  * `runUdpConnectionPool` -- one step of the loop: what `select!` yields, then the end of the
    write into the data channel or of the `send_to`; `udpPool` is the machine, with the datagrams
    relayed so far;
  * `Round` -- one whole iteration of the loop with the outcome of its write; `rounds` runs a list
    of them, `rounds_relayed` says which datagrams get through;
  * `isolated_iff` -- the relayed datagrams of a visitor `b` are the same whether `send_to` for a
    visitor `a` succeeds or fails, precisely when nothing of `b` follows the first reply to `a`;
  * `visitors_isolated_iff` -- that, with the causes the loop ends for.
-/
import Mathlib.Data.List.TakeWhile
import Penetrate.Protocol
import Penetrate.Concurrent.Machine

namespace Penetrate.Server

open Concurrent Machine

/-! ## 1. The loop -/

/-- Why the loop was left. Every cause but `shutdown` is a `?`. -/
inductive PoolEnd where
  | shutdown
  | recvError
  | writeError
  | readError
  | sendToError
  deriving DecidableEq, Repr

inductive PoolPhase where
  | select
  /-- in `UdpTraffic::write_slice` into the data channel -/
  | writing (t : UdpTraffic)
  /-- in `l.send_to(&t.data, t.from)` -/
  | sending (t : UdpTraffic)
  | ended (why : PoolEnd)
  deriving DecidableEq, Repr

/-- What the loop is handed: the yield of `select!` or the outcome of the branch's second await.
    `none` is an error; `read none` is the data channel lost or a packet that does not decode. -/
inductive PoolEvent where
  | recvFrom (r : Option (SocketAddr × Bytes))
  | written (ok : Bool)
  | read (r : Option UdpTraffic)
  | sentTo (ok : Bool)
  | shutdown
  deriving DecidableEq, Repr

def runUdpConnectionPool (p : PoolPhase) (e : PoolEvent) : Option PoolPhase :=
  match e, p with
  | .recvFrom (some (from_, payload)), .select =>
      some (.writing ⟨from_, payload.take UDP_BUFFER_SIZE⟩)
  | .recvFrom none, .select => some (.ended .recvError)
  | .written true, .writing _ => some .select
  | .written false, .writing _ => some (.ended .writeError)
  | .read (some t), .select => some (.sending t)
  | .read none, .select => some (.ended .readError)
  | .sentTo true, .sending _ => some .select
  | .sentTo false, .sending _ => some (.ended .sendToError)
  | .shutdown, .select => some (.ended .shutdown)
  | _, _ => none

/-- A relayed datagram, with its direction. -/
inductive Relayed where
  | toClient (t : UdpTraffic)
  | toVisitor (t : UdpTraffic)
  deriving DecidableEq, Repr

/-- The visitor a relayed datagram comes from or goes to. -/
def Relayed.visitor : Relayed → SocketAddr
  | .toClient t => t.from_
  | .toVisitor t => t.from_

/-- The datagram a step completes. -/
def relays : PoolPhase → PoolEvent → Option Relayed
  | .writing t, .written true => some (.toClient t)
  | .sending t, .sentTo true => some (.toVisitor t)
  | _, _ => none

/-- The loop and the datagrams it has relayed, in order. -/
structure Pool where
  phase : PoolPhase
  relayed : List Relayed
  deriving DecidableEq, Repr

def Pool.initial : Pool := ⟨.select, []⟩

def Pool.step (s : Pool) (e : PoolEvent) : Option Pool :=
  (runUdpConnectionPool s.phase e).map fun p => ⟨p, s.relayed ++ (relays s.phase e).toList⟩

def udpPool : Machine Pool PoolEvent where
  start s := s = .initial
  step := Pool.step

/-- The loop was not left because a visitor's address could not be sent to. -/
def EndsForItself (s : Pool) : Prop := s.phase ≠ .ended .sendToError

/-- No `send_to` fails. -/
def SendToSucceeds (_ : Pool) (e : PoolEvent) : Prop := e ≠ .sentTo false

/-- One step leaves the loop for a visitor's address precisely when a `send_to` fails. -/
theorem endsForItself_step {s s' : Pool} {e : PoolEvent} (h : s.step e = some s') :
    EndsForItself s' ↔ SendToSucceeds s e := by
  obtain ⟨p, hp, rfl⟩ := Option.map_eq_some_iff.mp h
  unfold runUdpConnectionPool at hp
  unfold EndsForItself SendToSucceeds
  split at hp <;> cases hp <;> simp

/-- **On every run: the loop ends only for a cause of its own, precisely when no `send_to`
    fails.** -/
theorem endsForItself_iff {tr : List (Pool × PoolEvent)} {s : Pool} (r : udpPool.Run tr s) :
    Throughout EndsForItself tr s ↔ Guarded SendToSucceeds tr := by
  refine r.throughout_iff (I := fun _ => True) (fun s h => ?_) (fun _ _ _ _ _ => trivial)
    fun s a s' _ _ h => endsForItself_step h
  rw [show s = .initial from h]
  exact ⟨trivial, by simp [EndsForItself, Pool.initial]⟩

/-! ## 2. Whole iterations -/

/-- One iteration of the loop: a datagram of a visitor or a reply for one, with the outcome of the
    write or of the `send_to`; or one of the events that end the loop. -/
inductive Round where
  | inbound (from_ : SocketAddr) (payload : Bytes) (ok : Bool)
  | outbound (t : UdpTraffic) (ok : Bool)
  | recvError
  | readError
  | shutdown
  deriving DecidableEq, Repr

/-- The steps of one iteration. -/
def Round.events : Round → List PoolEvent
  | .inbound from_ payload ok => [.recvFrom (some (from_, payload)), .written ok]
  | .outbound t ok => [.read (some t), .sentTo ok]
  | .recvError => [.recvFrom none]
  | .readError => [.read none]
  | .shutdown => [.shutdown]

/-- The visitor an iteration serves. -/
def Round.visitor : Round → Option SocketAddr
  | .inbound from_ _ _ => some from_
  | .outbound t _ => some t.from_
  | _ => none

/-- The iteration leaves the loop. -/
def Round.stops : Round → Bool
  | .inbound _ _ ok => !ok
  | .outbound _ ok => !ok
  | _ => true

@[simp] theorem stops_inbound (a : SocketAddr) (payload : Bytes) (ok : Bool) :
    (Round.inbound a payload ok).stops = !ok := rfl
@[simp] theorem stops_outbound (t : UdpTraffic) (ok : Bool) : (Round.outbound t ok).stops = !ok := rfl
@[simp] theorem stops_recvError : Round.recvError.stops = true := rfl
@[simp] theorem stops_readError : Round.readError.stops = true := rfl
@[simp] theorem stops_shutdown : Round.shutdown.stops = true := rfl

/-- What an iteration relays where its write succeeds. -/
def Round.relay : Round → Option Relayed
  | .inbound from_ payload _ => some (.toClient ⟨from_, payload.take UDP_BUFFER_SIZE⟩)
  | .outbound t _ => some (.toVisitor t)
  | _ => none

/-- The loop over a list of iterations; once it has been left, the rest of the list is not seen. -/
def rounds : Pool → List Round → Pool
  | s, [] => s
  | s, r :: rs => match udpPool.exec s r.events with
    | some s' => rounds s' rs
    | none => s

/-- Why an iteration leaves the loop, where it does. -/
def Round.cause : Round → PoolEnd
  | .inbound _ _ _ => .writeError
  | .outbound _ _ => .sendToError
  | .recvError => .recvError
  | .readError => .readError
  | .shutdown => .shutdown

/-- **One iteration of the loop**: it leaves the loop, or relays its datagram and goes on. -/
theorem exec_events (log : List Relayed) (r : Round) : udpPool.exec ⟨.select, log⟩ r.events =
    some (if r.stops then ⟨.ended r.cause, log⟩ else ⟨.select, log ++ r.relay.toList⟩) := by
  cases r with
  | inbound from_ payload ok =>
      cases ok <;> simp [Round.events, Round.relay, Round.cause, exec, udpPool, Pool.step,
        runUdpConnectionPool, relays]
  | outbound t ok =>
      cases ok <;> simp [Round.events, Round.relay, Round.cause, exec, udpPool, Pool.step,
        runUdpConnectionPool, relays]
  | recvError | readError | shutdown =>
      simp [Round.events, Round.cause, exec, udpPool, Pool.step, runUdpConnectionPool, relays]

/-- Once the loop has been left, no further iteration relays anything. -/
theorem rounds_ended {why : PoolEnd} {log : List Relayed} (rs : List Round) :
    rounds ⟨.ended why, log⟩ rs = ⟨.ended why, log⟩ := by
  cases rs with
  | nil => rfl
  | cons r rs =>
      have h : udpPool.exec ⟨.ended why, log⟩ r.events = none := by
        cases r <;> simp [Round.events, exec, udpPool, Pool.step, runUdpConnectionPool]
      simp [rounds, h]

/-- **The iterations before the first one that leaves the loop are relayed, and nothing else.** -/
theorem rounds_relayed (log : List Relayed) (rs : List Round) :
    (rounds ⟨.select, log⟩ rs).relayed =
      log ++ (rs.takeWhile fun r => !r.stops).filterMap Round.relay := by
  induction rs generalizing log with
  | nil => simp [rounds]
  | cons r rs ih =>
      rw [rounds, exec_events, List.takeWhile_cons]
      cases hr : r.stops with
      | true => simp [rounds_ended]
      | false =>
          have h := ih (log ++ r.relay.toList)
          simp only [Bool.false_eq_true, if_false, Bool.not_false, if_true, h, List.append_assoc]
          cases hrel : r.relay <;> simp [hrel]

/-! ## 3. Two visitors -/

/-- The same iteration, with a `send_to` to `a` succeeding or failing. -/
def Round.withSendTo (a : SocketAddr) (ok : Bool) : Round → Round
  | .outbound t ok' => .outbound t (if t.from_ = a then ok else ok')
  | r => r

/-- The same iterations, with every `send_to` to `a` succeeding or failing. -/
def withSendTo (a : SocketAddr) (ok : Bool) (rs : List Round) : List Round :=
  rs.map (Round.withSendTo a ok)

theorem Round.withSendTo_outbound (a : SocketAddr) (ok ok' : Bool) (t : UdpTraffic) :
    (Round.outbound t ok').withSendTo a ok = .outbound t (if t.from_ = a then ok else ok') := rfl

/-- The datagrams relayed for `b`, in both directions, in order. -/
def relayedFor (b : SocketAddr) (rs : List Round) : List Relayed :=
  (rounds .initial rs).relayed.filter fun x => x.visitor = b

/-- **Nothing of `b` follows the first reply to `a`** among the iterations the loop makes while
    the sends to `a` succeed. -/
def SilentAfterReply (a b : SocketAddr) (rs : List Round) : Prop :=
  ∀ pre t post, (withSendTo a true rs).takeWhile (fun r => !r.stops) =
    pre ++ .outbound t true :: post → t.from_ = a → ∀ r ∈ post, r.visitor ≠ some b

/-- A reply to `a`. -/
def Round.repliesTo (a : SocketAddr) : Round → Bool
  | .outbound t _ => t.from_ = a
  | _ => false

@[simp] theorem repliesTo_outbound (a : SocketAddr) (t : UdpTraffic) (ok : Bool) :
    (Round.outbound t ok).repliesTo a = decide (t.from_ = a) := rfl
@[simp] theorem repliesTo_inbound (a from_ : SocketAddr) (payload : Bytes) (ok : Bool) :
    (Round.inbound from_ payload ok).repliesTo a = false := rfl

/-- Failing sends to `a` cut the iterations at the first reply to `a`. -/
theorem takeWhile_withSendTo (a : SocketAddr) (rs : List Round) :
    (withSendTo a false rs).takeWhile (fun r => !r.stops) =
      ((withSendTo a true rs).takeWhile fun r => !r.stops).takeWhile
        fun r => !r.repliesTo a := by
  induction rs with
  | nil => rfl
  | cons r rs ih =>
      unfold withSendTo at ih ⊢
      rw [List.map_cons, List.map_cons]
      cases r with
      | outbound t ok =>
          rw [Round.withSendTo_outbound, Round.withSendTo_outbound]
          by_cases ht : t.from_ = a
          · rw [if_pos ht, if_pos ht]
            simp [ht]
          · rw [if_neg ht, if_neg ht]
            cases ok with
            | true => simpa [ht] using ih
            | false => simp
      | inbound from_ payload ok =>
          cases ok with
          | true => simpa [Round.withSendTo] using ih
          | false => simp [Round.withSendTo]
      | recvError => simp [Round.withSendTo]
      | readError => simp [Round.withSendTo]
      | shutdown => simp [Round.withSendTo]

theorem relay_visitor {r : Round} {x : Relayed} (h : r.relay = some x) :
    r.visitor = some x.visitor := by
  cases r <;> simp_all [Round.relay, Round.visitor, Relayed.visitor] <;> subst h <;> rfl

/-- An iteration that goes on relays a datagram of its visitor. -/
theorem relay_isSome {r : Round} (h : r.stops = false) : ∃ x, r.relay = some x := by
  cases r <;> simp_all [Round.relay, Round.stops]

/-- No datagram of `b` is relayed precisely when no iteration serves `b`. -/
theorem filter_relay_eq_nil {b : SocketAddr} {rs : List Round} (h : ∀ r ∈ rs, r.stops = false) :
    ((rs.filterMap Round.relay).filter fun x => x.visitor = b) = [] ↔
      ∀ r ∈ rs, r.visitor ≠ some b := by
  simp only [List.filter_eq_nil_iff, List.mem_filterMap, decide_eq_true_eq]
  constructor
  · intro hx r hr hv
    obtain ⟨x, hrx⟩ := relay_isSome (h r hr)
    have hv' := relay_visitor hrx
    rw [hv] at hv'
    exact hx x ⟨r, hr, hrx⟩ (Option.some.inj hv').symm
  · intro hr x hx hv
    obtain ⟨r, hmem, hrx⟩ := hx
    exact hr r hmem (by rw [relay_visitor hrx, hv])

/-- The first reply to `a` splits the iterations. -/
theorem split_at_reply {a : SocketAddr} (rs : List Round) :
    (rs.dropWhile fun r => !r.repliesTo a) = [] ∨
      ∃ t ok post, (rs.dropWhile fun r => !r.repliesTo a) = .outbound t ok :: post ∧ t.from_ = a := by
  cases h : rs.dropWhile fun r => !r.repliesTo a with
  | nil => exact Or.inl rfl
  | cons r post =>
      refine Or.inr ?_
      have hr := List.head_dropWhile_not (fun r : Round => !r.repliesTo a) (l := rs)
        (by rw [h]; simp)
      simp only [h, List.head_cons, Bool.not_eq_false'] at hr
      cases r with
      | outbound t ok => exact ⟨t, ok, post, rfl, by simpa [Round.repliesTo] using hr⟩
      | inbound => simp [Round.repliesTo] at hr
      | recvError => simp [Round.repliesTo] at hr
      | readError => simp [Round.repliesTo] at hr
      | shutdown => simp [Round.repliesTo] at hr

/-- **Two visitors**: what is relayed for `b` does not depend on whether `send_to` for `a` succeeds,
    precisely when nothing of `b` follows the first reply to `a`. -/
theorem isolated_iff {a b : SocketAddr} (hab : a ≠ b) (rs : List Round) :
    relayedFor b (withSendTo a true rs) = relayedFor b (withSendTo a false rs) ↔
      SilentAfterReply a b rs := by
  unfold relayedFor SilentAfterReply
  rw [Pool.initial, rounds_relayed, rounds_relayed, takeWhile_withSendTo, List.nil_append,
    List.nil_append]
  have hlive : ∀ r ∈ (withSendTo a true rs).takeWhile (fun r => !r.stops), r.stops = false := by
    intro r hr
    simpa using List.mem_takeWhile_imp hr
  generalize (withSendTo a true rs).takeWhile (fun r => !r.stops) = live at hlive ⊢
  -- the relayed datagrams differ by what follows the first reply to `a`
  have hsplit : live = (live.takeWhile fun r => !r.repliesTo a) ++
      live.dropWhile fun r => !r.repliesTo a := (List.takeWhile_append_dropWhile ..).symm
  have hdrop : ∀ r ∈ live.dropWhile (fun r => !r.repliesTo a), r.stops = false := by
    intro r hr
    exact hlive r ((List.dropWhile_suffix _).subset hr)
  have heq : ((live.filterMap Round.relay).filter fun x => x.visitor = b) =
      (((live.takeWhile fun r => !r.repliesTo a).filterMap Round.relay).filter
        fun x => x.visitor = b) ↔
      ∀ r ∈ live.dropWhile (fun r => !r.repliesTo a), r.visitor ≠ some b := by
    rw [← filter_relay_eq_nil hdrop]
    have hmap : live.filterMap Round.relay =
        (live.takeWhile fun r => !r.repliesTo a).filterMap Round.relay ++
          (live.dropWhile fun r => !r.repliesTo a).filterMap Round.relay := by
      rw [← List.filterMap_append, ← hsplit]
    rw [hmap, List.filter_append]
    exact List.append_right_eq_self
  rw [heq]
  constructor
  · intro h pre t post hpre hta r hr
    have hmem : r ∈ live.dropWhile (fun r => !r.repliesTo a) := by
      rw [hpre, List.dropWhile_append]
      split
      · simp [Round.repliesTo, hta, hr]
      · exact List.mem_append_right _ (List.mem_cons_of_mem _ hr)
    exact h r hmem
  · intro h r hr
    rcases split_at_reply (a := a) live with he | ⟨t, ok, post, he, hta⟩
    · rw [he] at hr
      cases hr
    · have hok : ok = true := by
        have := hdrop (.outbound t ok) (by rw [he]; exact List.mem_cons_self)
        simpa [Round.stops] using this
      subst hok
      rw [he] at hr
      rcases List.mem_cons.mp hr with rfl | hr
      · simpa [Round.visitor, hta] using hab
      · exact h _ t post (by rw [← he]; exact hsplit) hta r hr

/-- **When the visitors are isolated from each other's delivery failures**: two visitors when
    nothing of the one follows the first reply to the other; the loop as a whole ends for a cause
    of its own precisely when no `send_to` fails. -/
theorem visitors_isolated_iff {a b : SocketAddr} (hab : a ≠ b) (rs : List Round)
    {tr : List (Pool × PoolEvent)} {s : Pool} (r : udpPool.Run tr s) :
    (relayedFor b (withSendTo a true rs) = relayedFor b (withSendTo a false rs) ↔
        SilentAfterReply a b rs) ∧
      (Throughout EndsForItself tr s ↔ Guarded SendToSucceeds tr) :=
  ⟨isolated_iff hab rs, endsForItself_iff r⟩

/-- A visitor with source port 0, which no reply can be sent to, and a healthy one. -/
def portZero : SocketAddr := .v4 0x0a000001#32 0
def healthy : SocketAddr := .v4 0x0a000002#32 2000

/-- A reply to `portZero`, then a datagram of `healthy`. -/
def replyToPortZero : List Round :=
  [.outbound ⟨portZero, [1]⟩ true, .inbound healthy [2] true]

/-- **One visitor that cannot be sent to silences the others**: the claim that they do not notice
    is false. -/
theorem portZero_silences_healthy :
    ¬ ∀ (a b : SocketAddr) (rs : List Round), a ≠ b →
      relayedFor b (withSendTo a true rs) = relayedFor b (withSendTo a false rs) := by
  intro h
  have hr := h portZero healthy replyToPortZero (by decide)
  have hne : relayedFor healthy (withSendTo portZero true replyToPortZero) ≠
      relayedFor healthy (withSendTo portZero false replyToPortZero) := by decide
  exact hne hr

/-- Before the reply there is nothing to notice; after it the condition fails, as it must; and a
    run whose one `send_to` fails ends for it. -/
theorem visitors_isolated_portZero :
    SilentAfterReply portZero healthy replyToPortZero.reverse ∧
      ¬ SilentAfterReply portZero healthy replyToPortZero ∧
      ∃ tr s, udpPool.Run tr s ∧ ¬ Throughout EndsForItself tr s := by
  have hne : portZero ≠ healthy := by decide
  have r : udpPool.Run [(⟨.sending ⟨portZero, [1]⟩, []⟩, .sentTo false),
      (.initial, .read (some ⟨portZero, [1]⟩))] ⟨.ended .sendToError, []⟩ :=
    .step (.step (.start rfl) rfl) rfl
  refine ⟨(visitors_isolated_iff hne _ r).1.mp (by decide), ?_, _, _, r, fun ht => ?_⟩
  · rw [← (visitors_isolated_iff hne _ r).1]
    decide
  · exact (visitors_isolated_iff hne [] r).2.mp ht _ List.mem_cons_self rfl

end Penetrate.Server
