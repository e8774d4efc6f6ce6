/-
  File:      Penetrate/Server/Shutdown.lean
  Subject:   WHETHER A STOPPED SERVER IS REALLY STOPPED.

  A handle that has not been dropped is in the table (`TableInv`), and the table goes with its
  last owner. `Server::run` returns without emptying it, so the handles live on for as long as one
  connection task does.

  * `Stopped` -- once the main task has returned, every handle ever created has been dropped;
  * `StopsClean` -- the condition on the shutdown, and on a registration after it;
  * `stopped_iff` -- a run is stopped for good precisely where its steps meet it.
-/
import Penetrate.Server.Schedules

namespace Penetrate.Server

open Concurrent Machine Collections

section

variable {digest : Bytes → Digest} {heartbeat_interval : UInt64}

/-! ## 1. What is kept -/

/-- Every handle has been dropped. -/
def State.allDropped (s : State) : Prop := ∀ x ∈ s.handles, x.state.handle = false

/-- A stopped server is really stopped: every handle ever created has been dropped. -/
def Stopped (s : State) : Prop := s.main = .stopped → s.allDropped

/-- **The shutdown finds no connection task alive, or no handle; and after it nothing is
    registered** in a table that somebody else still owns. -/
def StopsClean (s : State) : Action → Prop
  | .main .shutdown => (∀ c ∈ s.conns, c.phase = .ended) ∨ s.allDropped
  | .conn n .ack => s.main = .stopped → ∀ d cfg k, ¬ Registers s n d cfg k
  | _ => True

theorem allDropped_iff {s : State} :
    s.allDropped ↔ ∀ (h : Nat) (x : Handle), s.handles[h]? = some x → x.state.handle = false := by
  unfold State.allDropped
  constructor
  · intro hd h x hx
    exact hd x (List.mem_of_getElem? hx)
  · intro hd x hx
    obtain ⟨h, hh⟩ := List.getElem?_of_mem hx
    exact hd h x hh

/-- With the table gone, no handle is left. -/
theorem InTable.allDropped {s : State} (hI : InTable s)
    (hn : ∀ d k h, ¬ s.control_channels.Entry d k h) : s.allDropped := by
  rw [allDropped_iff]
  intro h x hx
  by_contra ha
  obtain ⟨d, k, he⟩ := hI h x hx (by simpa using ha)
  exact hn d k h he

/-! ## 2. One step -/

/-- Without a registration, no step brings a handle back. -/
theorem Step.allDropped {s s' : State} {a : Action} (hI : TableInv s)
    (hs : Step digest heartbeat_interval s a s') (hd : s.allDropped)
    (hn : ∀ n d cfg k, a = .conn n .ack → ¬ Registers s n d cfg k) : s'.allDropped := by
  rw [allDropped_iff] at hd ⊢
  intro h x' hx'
  by_contra ha
  rcases hs.alive hI hx' (by simpa using ha) with ⟨x, hx, hal⟩ | ⟨n, d, cfg, k, hact, hr⟩
  · rw [hd h x hx] at hal
    cases hal
  · exact hn n d cfg k hact hr

/-- The main task stops by the shutdown and by nothing else. -/
theorem Step.main_stopped {s s' : State} {a : Action} (hs : Step digest heartbeat_interval s a s') :
    s'.main = .stopped ↔ s.main = .stopped ∨ a = .main .shutdown := by
  cases hs with
  | main h =>
      cases h with
      | shutdown hm => simp
      | _ => simp [*]
  | conn c _ h =>
      have hm : s'.main = s.main := by cases h <;> simp [State.sent, State.setConn]
      simp [hm]
  | service k a x state _ _ _ => simp

theorem owned_stopped (s : State) : ({ s with main := .stopped } : State).owned = true ↔
    ∃ c ∈ s.conns, c.phase ≠ .ended := by
  simp [State.owned]

/-- **The shutdown drops every handle precisely when no connection task is alive, or no handle.** -/
theorem shutdown_iff {s s' : State} (hI : TableInv s)
    (hs : Step digest heartbeat_interval s (.main .shutdown) s') :
    s'.allDropped ↔ (∀ c ∈ s.conns, c.phase = .ended) ∨ s.allDropped := by
  have hI' := tableInv_step hI hs
  constructor
  · intro hd
    cases hs with
    | main h =>
        cases h with
        | shutdown _ =>
            by_cases ho : ({ s with main := .stopped } : State).owned = true
            · have he : ({ s with main := .stopped } : State).settle = { s with main := .stopped } := by
                unfold State.settle
                rw [if_pos ho]
              rw [he] at hd
              exact Or.inr hd
            · rw [owned_stopped] at ho
              push Not at ho
              exact Or.inl ho
  · intro h
    rcases h with hc | hd
    · refine hI'.inTable.allDropped fun d k h he => ?_
      cases hs with
      | main hm =>
          cases hm with
          | shutdown _ =>
              obtain ⟨c, hm, hne⟩ := (owned_stopped s).mp (entry_settle.mp he).1
              exact hne (hc c hm)
    · exact hs.allDropped hI hd fun _ _ _ _ e => by cases e

/-- **One step keeps a stopped server stopped precisely when it stops clean.** -/
theorem stopped_step {s s' : State} {a : Action} (hI : TableInv s) (hP : Stopped s)
    (hs : Step digest heartbeat_interval s a s') : Stopped s' ↔ StopsClean s a := by
  unfold Stopped
  rw [hs.main_stopped]
  by_cases hsd : a = .main .shutdown
  · subst hsd
    rw [forall_prop_of_true (Or.inr rfl)]
    exact shutdown_iff hI hs
  by_cases hm : s.main = .stopped
  · rw [forall_prop_of_true (Or.inl hm)]
    constructor
    · intro hd
      unfold StopsClean
      split
      · exact absurd rfl hsd
      · intro _ d cfg k hr
        obtain ⟨_, _, _, x, hx, _, ha⟩ := hs.registered hr
        rw [allDropped_iff.mp hd _ x hx] at ha
        cases ha
      · trivial
    · intro hok
      refine hs.allDropped hI (hP hm) fun n d cfg k e hr => ?_
      subst e
      exact hok hm d cfg k hr
  · refine iff_of_true (fun h => absurd h (not_or.mpr ⟨hm, hsd⟩)) ?_
    unfold StopsClean
    split
    · exact absurd rfl hsd
    · exact fun h => absurd h hm
    · trivial

/-! ## 3. Runs -/

/-- **Which runs stop for good**: precisely those in which the shutdown finds no connection task
    alive, or no handle, and nothing is registered in the table after it. -/
theorem stopped_iff (config : ServerConfig) {tr : List (State × Action)} {s : State}
    (r : (connections digest config).Run tr s) :
    Throughout Stopped tr s ↔ Guarded StopsClean tr := by
  refine r.throughout_iff (I := TableInv) (fun s h => ?_)
    (fun s a s' hI h => tableInv_step hI (step_cases h))
    fun s a s' hI hP h => stopped_step hI hP (step_cases h)
  rw [show s = initial digest config from h]
  exact ⟨tableInv_initial config, fun hm => by cases hm⟩

end

/-- A client is registered, a peer connects and says nothing, the server is stopped. -/
theorem reachable_survivor (digest : Bytes → Digest) :
    ∃ s, (connections digest (webServer .tcp)).Reachable s ∧ ¬ Stopped s := by
  obtain ⟨m, _, h⟩ := reachable_registered digest .tcp (Vector.replicate _ 0)
  let M := connections digest (webServer .tcp)
  let s1 := webRegistered digest .tcp m (.new .tcp 30) [⟨.ended, 0⟩, ⟨.readHello, 0⟩]
  have h1 : M.Leads (webRegistered digest .tcp m (.new .tcp 30) [⟨.ended, 0⟩]) s1 :=
    leads_accept ⟨rfl, rfl, rfl⟩ 0
  have h2 : M.step s1 (.main .shutdown) = some { s1 with main := .stopped } := rfl
  refine ⟨_, (h.leads h1).leads (.of_step h2), fun hs => ?_⟩
  have hd := hs rfl _ List.mem_cons_self
  cases hd

/-- **A stopped server is not really stopped**: a connection that says nothing keeps every handle
    alive. -/
theorem silent_connection_keeps_handles : ¬ ∃ digest : Bytes → Digest, ∀ config tr s,
    (connections digest config).Run tr s → Stopped s := by
  intro ⟨digest, h⟩
  obtain ⟨s, ⟨tr, r⟩, hs⟩ := reachable_survivor digest
  exact hs (h _ tr s r)

/-- The condition of `stopped_iff` fails on that run, as it must. -/
theorem stopped_iff_survivor : ∃ (digest : Bytes → Digest) (tr : List (State × Action)) (s : State),
    (connections digest (webServer .tcp)).Run tr s ∧ ¬ Guarded StopsClean tr := by
  obtain ⟨s, ⟨tr, r⟩, hs⟩ := reachable_survivor fun _ => Vector.replicate _ 0
  exact ⟨_, tr, s, r, fun hg => hs ((stopped_iff (webServer .tcp) r).mpr hg).1⟩

end Penetrate.Server
