/-
  File:      Penetrate/Server/Gate.lean
  Subject:   WHOM THE SERVER LETS IN: the handshakes of `connections` as their messages show them.

  What the server hears and says decides whom it registers and into whose queue a connection gets;
  locks, buffers and the tasks of the services do not. The gate leaves these out and lets every step
  happen at any time. It is the same for strings of every kind of letter: the bytes of the server,
  and the symbols of an attacker's view.

  * `Gate`, `Gate.step`, `gate` -- the machine; `GateStep`, `gate_cases` -- its rules;
  * `Heard` -- what connections are known to have said and to have been told; `Gate.Inv` -- **every
    registration and every data channel goes back to it**; `Gate.Inv.step`.
-/
import Penetrate.Protocol
import Penetrate.MultiMapRefines
import Penetrate.Concurrent.Machine

namespace Penetrate.Server

open Concurrent Machine

/-! ## 1. The machine -/

/-- A digest or a nonce, whose bytes are the letters `β`. -/
abbrev Block (β : Type*) := Vector β HASH_WIDTH_IN_BYTES

/-- What a handshake reads of the config of a service. -/
structure Secured (β : Type*) where
  name : List β
  token : Option (List β)
deriving DecidableEq

/-- Where a connection task is. -/
inductive GatePhase (β : Type*) where
  | readHello
  | sendHello (d : Block β)
  | lookup (d nonce : Block β)
  | readAuth (d : Block β) (cfg : Secured β) (session_key : Block β)
  | awaitTable (d : Block β) (cfg : Secured β) (session_key : Block β)
  | acking (d : Block β) (cfg : Secured β) (session_key : Block β)
  | awaitFind (nonce : Block β)
  | sending (h : Nat)
  | ended

/-- A `ControlChannelHandle`, with the connection it was created over. -/
structure Registered (β : Type*) where
  conn : Nat
  digest : Block β
  service : Secured β
  session_key : Block β
deriving DecidableEq

structure Gate (β : Type*) [DecidableEq β] where
  services : Block β → Option (Secured β)
  table : MultiMap (Block β) (Block β) Nat
  conns : List (GatePhase β)
  handles : List (Registered β)
  /-- connection `n` is in the queue of handle `h` -/
  queued : List (Nat × Nat)

inductive GateConnAct (β : Type*) where
  | controlHello (d : Block β)
  | dataHello (nonce : Block β)
  | challenge (nonce : Block β)
  | lookup
  | auth (x : Block β)
  | takeTable
  | ack
  | find
  | send
  /-- the task returns without more -/
  | leave

inductive GateAct (β : Type*) where
  | accept
  | conn (n : Nat) (a : GateConnAct β)
  | addService (cfg : Secured β)
  | delService (name : List β)
  | removeEntry (name : List β)
  /-- the last owner of the table is gone -/
  | dropTable

section

variable {β : Type*} [DecidableEq β]

def Gate.setPhase (g : Gate β) (n : Nat) (p : GatePhase β) : Gate β :=
  { g with conns := g.conns.set n p }

/-- `ControlChannelHandle::new`, and `wg.insert`, whose result nobody looks at. -/
def Gate.register (g : Gate β) (x : Registered β) : Gate β :=
  match g.table.insert x.digest x.session_key g.handles.length with
  | .ok m => { g with table := m, handles := g.handles ++ [x] }
  | .error _ => { g with handles := g.handles ++ [x] }

variable (digest : List β → Block β)

omit [DecidableEq β] in
/-- The key for a nonce, of whoever has the token. -/
def Secured.session_key (cfg : Secured β) (nonce : Block β) : Option (Block β) :=
  cfg.token.map fun t => digest (t ++ nonce.toList)

/-- `handle_connection`, connection task `n`, where it is `p`. -/
def Gate.handle_connection (g : Gate β) (n : Nat) (p : GatePhase β) (a : GateConnAct β) :
    Option (Gate β) :=
  match a, p with
  | .controlHello d, .readHello => some (g.setPhase n (.sendHello d))
  | .dataHello nonce, .readHello => some (g.setPhase n (.awaitFind nonce))
  | .challenge nonce, .sendHello d => some (g.setPhase n (.lookup d nonce))
  | .lookup, .lookup d nonce => match g.services d with
    | none => some (g.setPhase n .ended)
    | some cfg => match cfg.token with
      | none => some (g.setPhase n .ended)
      | some t => some (g.setPhase n (.readAuth d cfg (digest (t ++ nonce.toList))))
  | .auth x, .readAuth d cfg session_key =>
      if session_key = x then some (g.setPhase n (.awaitTable d cfg session_key))
      else some (g.setPhase n .ended)
  | .takeTable, .awaitTable d cfg session_key =>
      some { g.setPhase n (.acking d cfg session_key) with table := (g.table.remove1 d).2 }
  | .ack, .acking d cfg session_key =>
      some ((g.register ⟨n, d, cfg, session_key⟩).setPhase n .ended)
  | .find, .awaitFind nonce => match g.table.get2 nonce with
    | none => some (g.setPhase n .ended)
    | some h => some (g.setPhase n (.sending h))
  | .send, .sending h => some { g.setPhase n .ended with queued := (n, h) :: g.queued }
  | .leave, _ => some (g.setPhase n .ended)
  | _, _ => none

def Gate.step (g : Gate β) : GateAct β → Option (Gate β)
  | .accept => some { g with conns := g.conns ++ [.readHello] }
  | .conn n a => match g.conns[n]? with
    | none => none
    | some p => g.handle_connection digest n p a
  | .addService cfg =>
      some { g with services := Function.update g.services (digest cfg.name) (some cfg) }
  | .delService name => some { g with services := Function.update g.services (digest name) none }
  | .removeEntry name => some { g with table := (g.table.remove1 (digest name)).2 }
  | .dropTable => some { g with table := .new }

/-- The gate before the first connection. -/
def Gate.initial (services : Block β → Option (Secured β)) : Gate β where
  services := services
  table := .new
  conns := []
  handles := []
  queued := []

/-- **The gate**, with the services it starts with. -/
def gate (services : Block β → Option (Secured β)) : Machine (Gate β) (GateAct β) where
  start g := g = .initial services
  step := Gate.step digest

/-! ## 2. The rules -/

inductive GateConnStep (g : Gate β) (n : Nat) (p : GatePhase β) : GateConnAct β → Gate β → Prop where
  | ends (a : GateConnAct β) : GateConnStep g n p a (g.setPhase n .ended)
  | controlHello (d : Block β) (hp : p = .readHello) :
      GateConnStep g n p (.controlHello d) (g.setPhase n (.sendHello d))
  | dataHello (nonce : Block β) (hp : p = .readHello) :
      GateConnStep g n p (.dataHello nonce) (g.setPhase n (.awaitFind nonce))
  | challenge (d nonce : Block β) (hp : p = .sendHello d) :
      GateConnStep g n p (.challenge nonce) (g.setPhase n (.lookup d nonce))
  | lookup (d nonce : Block β) (cfg : Secured β) (t : List β) (hp : p = .lookup d nonce)
      (hs : g.services d = some cfg) (ht : cfg.token = some t) :
      GateConnStep g n p .lookup
        (g.setPhase n (.readAuth d cfg (digest (t ++ nonce.toList))))
  | auth (d : Block β) (cfg : Secured β) (k : Block β) (hp : p = .readAuth d cfg k) :
      GateConnStep g n p (.auth k) (g.setPhase n (.awaitTable d cfg k))
  | takeTable (d : Block β) (cfg : Secured β) (k : Block β) (hp : p = .awaitTable d cfg k) :
      GateConnStep g n p .takeTable
        { g.setPhase n (.acking d cfg k) with table := (g.table.remove1 d).2 }
  | ack (d : Block β) (cfg : Secured β) (k : Block β) (hp : p = .acking d cfg k) :
      GateConnStep g n p .ack ((g.register ⟨n, d, cfg, k⟩).setPhase n .ended)
  | find (k : Block β) (h : Nat) (hp : p = .awaitFind k) (hg : g.table.get2 k = some h) :
      GateConnStep g n p .find (g.setPhase n (.sending h))
  | send (h : Nat) (hp : p = .sending h) :
      GateConnStep g n p .send { g.setPhase n .ended with queued := (n, h) :: g.queued }

inductive GateStep (g : Gate β) : GateAct β → Gate β → Prop where
  | accept : GateStep g .accept { g with conns := g.conns ++ [.readHello] }
  | conn {n : Nat} {a : GateConnAct β} {g' : Gate β} (p : GatePhase β) (hn : g.conns[n]? = some p)
      (h : GateConnStep digest g n p a g') : GateStep g (.conn n a) g'
  | addService (cfg : Secured β) : GateStep g (.addService cfg)
      { g with services := Function.update g.services (digest cfg.name) (some cfg) }
  | delService (name : List β) : GateStep g (.delService name)
      { g with services := Function.update g.services (digest name) none }
  | removeEntry (name : List β) : GateStep g (.removeEntry name)
      { g with table := (g.table.remove1 (digest name)).2 }
  | dropTable : GateStep g .dropTable { g with table := .new }

variable {digest}

theorem gate_conn_cases {g g' : Gate β} {n : Nat} {p : GatePhase β} {a : GateConnAct β}
    (h : g.handle_connection digest n p a = some g') : GateConnStep digest g n p a g' := by
  unfold Gate.handle_connection at h
  split at h
  · cases h
    exact .controlHello _ rfl
  · cases h
    exact .dataHello _ rfl
  · cases h
    exact .challenge _ _ rfl
  · rename_i d nonce
    split at h
    · cases h
      exact .ends _
    · rename_i cfg hs
      split at h
      · cases h
        exact .ends _
      · rename_i t ht
        cases h
        exact .lookup d nonce cfg t rfl hs ht
  · rename_i x d cfg k
    split at h
    · rename_i hx
      cases h
      subst hx
      exact .auth d cfg k rfl
    · cases h
      exact .ends _
  · cases h
    exact .takeTable _ _ _ rfl
  · cases h
    exact .ack _ _ _ rfl
  · rename_i nonce
    split at h
    · cases h
      exact .ends _
    · rename_i i hg
      cases h
      exact .find nonce i rfl hg
  · cases h
    exact .send _ rfl
  · cases h
    exact .ends _
  · cases h

theorem gate_cases {g g' : Gate β} {a : GateAct β} (h : g.step digest a = some g') :
    GateStep digest g a g' := by
  unfold Gate.step at h
  split at h
  · cases h
    exact .accept
  · split at h
    · cases h
    · rename_i p hn
      exact .conn p hn (gate_conn_cases h)
  · cases h
    exact .addService _
  · cases h
    exact .delService _
  · cases h
    exact .removeEntry _
  · cases h
    exact .dropTable

/-- A registration adds the handle to the handles, and to the table where both its keys are free. -/
theorem gate_register (g : Gate β) (x : Registered β) :
    (g.register x).handles = g.handles ++ [x] ∧ (g.register x).conns = g.conns ∧
      (g.register x).services = g.services ∧ (g.register x).queued = g.queued ∧
      ∀ d k h, (g.register x).table.Entry d k h → g.table.Entry d k h ∨
        (d, k, h) = (x.digest, x.session_key, g.handles.length) := by
  unfold Gate.register
  rcases g.table.insert_cases x.digest x.session_key g.handles.length with ⟨he, _⟩ | ⟨m, hm, _, hE⟩
  · rw [he]
    exact ⟨rfl, rfl, rfl, rfl, fun d k h => Or.inl⟩
  · rw [hm]
    exact ⟨rfl, rfl, rfl, rfl, fun d k h he => ((hE d k h).mp he).symm⟩

theorem GateConnStep.services {g g' : Gate β} {n : Nat} {p : GatePhase β} {a : GateConnAct β}
    (hs : GateConnStep digest g n p a g') : g'.services = g.services := by
  cases hs with
  | ack d cfg k _ => exact (gate_register g ⟨n, d, cfg, k⟩).2.2.1
  | _ => rfl

theorem GateConnStep.conns {g g' : Gate β} {n : Nat} {p : GatePhase β} {a : GateConnAct β}
    (hs : GateConnStep digest g n p a g') : g'.conns.length = g.conns.length := by
  cases hs with
  | ack d cfg k _ =>
      have hc := (gate_register g ⟨n, d, cfg, k⟩).2.1
      show ((g.register _).conns.set n _).length = _
      rw [List.length_set, hc]
  | _ => exact List.length_set

/-- Only a connection that is accepted is new. -/
theorem GateStep.conns {g g' : Gate β} {a : GateAct β} (hs : GateStep digest g a g') :
    (a = .accept ∧ g'.conns.length = g.conns.length + 1) ∨
      (a ≠ .accept ∧ g'.conns.length = g.conns.length) := by
  cases hs with
  | accept => exact Or.inl ⟨rfl, List.length_append⟩
  | conn _ _ h => exact Or.inr ⟨by simp, h.conns⟩
  | _ => exact Or.inr ⟨by simp, rfl⟩

/-- What holds of the services holds of them after a step, where it holds of the one added. -/
theorem GateStep.services {g g' : Gate β} {a : GateAct β} (hs : GateStep digest g a g')
    {Q : Block β → Secured β → Prop} (hQ : ∀ d x, g.services d = some x → Q d x)
    (ha : ∀ cfg, a = .addService cfg → Q (digest cfg.name) cfg) (d : Block β) (x : Secured β)
    (hx : g'.services d = some x) : Q d x := by
  cases hs with
  | accept | removeEntry _ | dropTable => exact hQ d x hx
  | conn p _ h =>
      rw [h.services] at hx
      exact hQ d x hx
  | addService cfg =>
      have hx' : Function.update g.services (digest cfg.name) (some cfg) d = some x := hx
      rw [Function.update_apply] at hx'
      split at hx'
      · rename_i e
        cases hx'
        rw [e]
        exact ha x rfl
      · exact hQ d x hx'
  | delService name =>
      have hx' : Function.update g.services (digest name) none d = some x := hx
      rw [Function.update_apply] at hx'
      split at hx'
      · cases hx'
      · exact hQ d x hx'

/-! ## 3. What a registration goes back to -/

/-- What connections are known to have said and to have been told. -/
structure Heard (β : Type*) where
  /-- connection `n` asked for service `d` -/
  asked : Nat → Block β → Prop
  /-- and was sent this nonce -/
  told : Nat → Block β → Prop
  /-- service `d` had this config -/
  served : Block β → Secured β → Prop
  /-- connection `n` answered -/
  answered : Nat → Block β → Prop
  /-- connection `n` presented this key for a data channel -/
  presented : Nat → Block β → Prop

/-- `k` is the key of connection `n` for a service with this config. -/
def Heard.Key (digest : List β → Block β) (H : Heard β) (n : Nat) (cfg : Secured β) (k : Block β) :
    Prop :=
  ∃ t nonce, cfg.token = some t ∧ H.told n nonce ∧ k = digest (t ++ nonce.toList)

/-- Handle `h` has the key a connection presented. -/
def Gate.Led (H : Heard β) (g : Gate β) (n h : Nat) : Prop :=
  ∃ x, g.handles[h]? = some x ∧ H.presented n x.session_key

/-- What is known of connection `n` by its phase. -/
def Gate.Knows (digest : List β → Block β) (H : Heard β) (g : Gate β) (n : Nat) : GatePhase β → Prop
  | .sendHello d => H.asked n d
  | .lookup d nonce => H.asked n d ∧ H.told n nonce
  | .readAuth d cfg k => H.asked n d ∧ H.served d cfg ∧ H.Key digest n cfg k
  | .awaitTable d cfg k => H.asked n d ∧ H.served d cfg ∧ H.Key digest n cfg k ∧ H.answered n k
  | .acking d cfg k => H.asked n d ∧ H.served d cfg ∧ H.Key digest n cfg k ∧ H.answered n k
  | .awaitFind k => H.presented n k
  | .sending h => g.Led H n h
  | _ => True

/-- **Every registration, and every data channel, goes back to what was heard.** -/
structure Gate.Inv (digest : List β → Block β) (H : Heard β) (g : Gate β) : Prop where
  phase : ∀ n p, g.conns[n]? = some p → g.Knows digest H n p
  handle : ∀ x ∈ g.handles, H.asked x.conn x.digest ∧ H.served x.digest x.service ∧
    H.Key digest x.conn x.service x.session_key ∧ H.answered x.conn x.session_key
  entry : ∀ d k h, g.table.Entry d k h → ∃ x, g.handles[h]? = some x ∧ x.session_key = k
  queued : ∀ q ∈ g.queued, g.Led H q.1 q.2

/-- What an action makes known. -/
structure Heard.Hears (H : Heard β) (g : Gate β) (a : GateAct β) : Prop where
  asked : ∀ n d, a = .conn n (.controlHello d) → H.asked n d
  told : ∀ n nonce, a = .conn n (.challenge nonce) → H.told n nonce
  served : ∀ n d nonce cfg, a = .conn n .lookup → g.conns[n]? = some (.lookup d nonce) →
    g.services d = some cfg → H.served d cfg
  answered : ∀ n x, a = .conn n (.auth x) → H.answered n x
  presented : ∀ n k, a = .conn n (.dataHello k) → H.presented n k

/-- More is known. -/
structure Heard.Le (H H' : Heard β) : Prop where
  asked : ∀ n d, H.asked n d → H'.asked n d
  told : ∀ n nonce, H.told n nonce → H'.told n nonce
  served : ∀ d cfg, H.served d cfg → H'.served d cfg
  answered : ∀ n x, H.answered n x → H'.answered n x
  presented : ∀ n k, H.presented n k → H'.presented n k

variable {H H' : Heard β} {g g' : Gate β}

omit [DecidableEq β] in
theorem Heard.Key.mono {n : Nat} {cfg : Secured β} {k : Block β} (h : H.Key digest n cfg k)
    (hle : H.Le H') : H'.Key digest n cfg k := by
  obtain ⟨t, nonce, ht, hn, hk⟩ := h
  exact ⟨t, nonce, ht, hle.told n nonce hn, hk⟩

theorem Gate.Led.mono {n h : Nat} (hl : g.Led H n h) (hle : H.Le H') : g.Led H' n h := by
  obtain ⟨x, hx, hp⟩ := hl
  exact ⟨x, hx, hle.presented n _ hp⟩

/-- What is known stays known. -/
theorem Gate.Inv.mono (hI : g.Inv digest H) (hle : H.Le H') : g.Inv digest H' where
  phase n p hn := by
    have hk := hI.phase n p hn
    cases p with
    | readHello => trivial
    | sendHello d => exact hle.asked n d hk
    | lookup d nonce => exact ⟨hle.asked n d hk.1, hle.told n nonce hk.2⟩
    | readAuth d cfg k => exact ⟨hle.asked n d hk.1, hle.served d cfg hk.2.1, hk.2.2.mono hle⟩
    | awaitTable d cfg k | acking d cfg k =>
        obtain ⟨ha, hs, hkey, hx⟩ := hk
        exact ⟨hle.asked n d ha, hle.served d cfg hs, hkey.mono hle, hle.answered n k hx⟩
    | awaitFind k => exact hle.presented n k hk
    | sending h => exact Gate.Led.mono hk hle
    | ended => trivial
  handle x hx := by
    obtain ⟨ha, hs, hkey, hans⟩ := hI.handle x hx
    exact ⟨hle.asked _ _ ha, hle.served _ _ hs, hkey.mono hle, hle.answered _ _ hans⟩
  entry := hI.entry
  queued q hq := (hI.queued q hq).mono hle

/-- The handles of `g` are handles of `g'`. -/
def Gate.Keeps (g g' : Gate β) : Prop :=
  ∀ (h : Nat) (x : Registered β), g.handles[h]? = some x → g'.handles[h]? = some x

theorem Gate.Led.keeps {n h : Nat} (hl : g.Led H n h) (hk : g.Keeps g') : g'.Led H n h := by
  obtain ⟨x, hx, hp⟩ := hl
  exact ⟨x, hk h x hx, hp⟩

theorem Gate.Knows.keeps {n : Nat} {p : GatePhase β} (h : g.Knows digest H n p) (hk : g.Keeps g') :
    g'.Knows digest H n p := by
  cases p with
  | sending i => exact Gate.Led.keeps h hk
  | _ => exact h

/-- A step of connection task `n` alone. -/
theorem Gate.Inv.setConn (hI : g.Inv digest H) {n : Nat} {p p' : GatePhase β}
    (hn : g.conns[n]? = some p) (hk : g.Keeps g') (hc : g'.conns = g.conns.set n p')
    (hp : g'.Knows digest H n p') (m : Nat) (q : GatePhase β) (hm : g'.conns[m]? = some q) :
    g'.Knows digest H m q := by
  have hl := (List.getElem?_eq_some_iff.mp hn).1
  rw [hc] at hm
  by_cases e : n = m
  · subst e
    rw [List.getElem?_set_self hl] at hm
    cases hm
    exact hp
  · rw [List.getElem?_set_ne e] at hm
    exact (hI.phase m q hm).keeps hk

/-- Connection task `n` goes on, and neither table nor handles change. -/
theorem Gate.Inv.setPhase (hI : g.Inv digest H) {n : Nat} {p p' : GatePhase β}
    (hn : g.conns[n]? = some p) (hp : g.Knows digest H n p') : (g.setPhase n p').Inv digest H where
  phase := hI.setConn hn (fun _ _ h => h) rfl hp
  handle := hI.handle
  entry := hI.entry
  queued := hI.queued

/-- Entries are removed, and nothing is added. -/
theorem Gate.Inv.setTable (hI : g.Inv digest H) {table : MultiMap (Block β) (Block β) Nat}
    (he : ∀ d k h, table.Entry d k h → g.table.Entry d k h) : { g with table := table }.Inv digest H where
  phase := hI.phase
  handle := hI.handle
  entry d k h hd := hI.entry d k h (he d k h hd)
  queued := hI.queued

/-- **A registration.** -/
theorem Gate.Inv.register (hI : g.Inv digest H) {n : Nat} {p : GatePhase β} {x : Registered β}
    (hn : g.conns[n]? = some p) (hx : H.asked x.conn x.digest ∧ H.served x.digest x.service ∧
      H.Key digest x.conn x.service x.session_key ∧ H.answered x.conn x.session_key) :
    ((g.register x).setPhase n .ended).Inv digest H := by
  obtain ⟨hh, hc, _, hq, hE⟩ := gate_register g x
  have hkeep : g.Keeps ((g.register x).setPhase n .ended) := by
    intro h y hy
    show (g.register x).handles[h]? = some y
    rw [hh, List.getElem?_append_left (List.getElem?_eq_some_iff.mp hy).1]
    exact hy
  constructor
  · exact hI.setConn hn hkeep (congrArg (fun l => List.set l n GatePhase.ended) hc) trivial
  · intro y hy
    have hy' : y ∈ g.handles ++ [x] := by
      rw [← hh]
      exact hy
    rcases List.mem_append.mp hy' with hy' | hy'
    · exact hI.handle y hy'
    · rw [List.mem_singleton.mp hy']
      exact hx
  · intro d k h he
    rcases hE d k h he with he | e
    · obtain ⟨y, hy, hk⟩ := hI.entry d k h he
      exact ⟨y, hkeep h y hy, hk⟩
    · cases e
      refine ⟨x, ?_, rfl⟩
      show (g.register x).handles[g.handles.length]? = some x
      rw [hh]
      simp
  · intro q hq'
    have hq'' : q ∈ g.queued := by
      rw [← hq]
      exact hq'
    exact (hI.queued q hq'').keeps hkeep

theorem Gate.Inv.conn_step (hI : g.Inv digest H) {n : Nat} {p : GatePhase β} {a : GateConnAct β}
    (hn : g.conns[n]? = some p) (hH : H.Hears g (.conn n a)) (hs : GateConnStep digest g n p a g') :
    g'.Inv digest H := by
  have hk := hI.phase n p hn
  cases hs with
  | ends _ => exact hI.setPhase hn trivial
  | controlHello d _ => exact hI.setPhase hn (hH.asked n d rfl)
  | dataHello k _ => exact hI.setPhase hn (hH.presented n k rfl)
  | challenge d nonce hp =>
      subst hp
      exact hI.setPhase hn ⟨hk, hH.told n nonce rfl⟩
  | lookup d nonce cfg t hp hs ht =>
      subst hp
      have hserved : H.served d cfg := hH.served n d nonce cfg rfl hn hs
      exact hI.setPhase hn ⟨hk.1, hserved, t, nonce, ht, hk.2, rfl⟩
  | auth d cfg k hp =>
      subst hp
      exact hI.setPhase hn ⟨hk.1, hk.2.1, hk.2.2, hH.answered n k rfl⟩
  | takeTable d cfg k hp =>
      subst hp
      have hnext : (g.setPhase n (.acking d cfg k)).Inv digest H := hI.setPhase hn hk
      exact hnext.setTable fun _ _ _ he => (MultiMap.entry_remove1.mp he).2
  | ack d cfg k hp =>
      subst hp
      exact hI.register hn hk
  | find k h hp hg =>
      subst hp
      obtain ⟨d, he⟩ := MultiMap.get2_eq_some.mp hg
      obtain ⟨x, hx, hxk⟩ := hI.entry d k h he
      have hled : g.Led H n h := ⟨x, hx, by rw [hxk]; exact hk⟩
      exact hI.setPhase hn hled
  | send h hp =>
      subst hp
      have hnext : (g.setPhase n .ended).Inv digest H := hI.setPhase hn trivial
      refine ⟨hnext.phase, hnext.handle, hnext.entry, fun q hq => ?_⟩
      rcases List.mem_cons.mp hq with rfl | hq
      · exact hk
      · exact hnext.queued q hq

/-- **The rule**: what is heard at every step accounts for every registration. -/
theorem Gate.Inv.step {a : GateAct β} (hI : g.Inv digest H) (hH : H.Hears g a)
    (hs : GateStep digest g a g') : g'.Inv digest H := by
  cases hs with
  | accept =>
      refine ⟨fun n p hn => ?_, hI.handle, hI.entry, hI.queued⟩
      rcases Nat.lt_or_ge n g.conns.length with hl | hl
      · rw [List.getElem?_append_left hl] at hn
        exact hI.phase n p hn
      · rw [List.getElem?_append_right hl] at hn
        rw [List.mem_singleton.mp (List.mem_of_getElem? hn)]
        trivial
  | conn p hn h => exact hI.conn_step hn hH h
  | addService _ => exact ⟨hI.phase, hI.handle, hI.entry, hI.queued⟩
  | delService _ => exact ⟨hI.phase, hI.handle, hI.entry, hI.queued⟩
  | removeEntry _ => exact hI.setTable fun _ _ _ he => (MultiMap.entry_remove1.mp he).2
  | dropTable => exact hI.setTable fun d k h he => absurd he (MultiMap.not_entry_new d k h)

theorem Gate.inv_initial (services : Block β → Option (Secured β)) :
    (Gate.initial services).Inv digest H where
  phase n p hn := by cases hn
  handle x hx := by cases hx
  entry d k h he := absurd he (MultiMap.not_entry_new d k h)
  queued q hq := by cases hq

end

end Penetrate.Server
