/-
  File:      Penetrate/Tunnel/Delivers.lean
  Subject:   THE TUNNEL DELIVERS. Once a visitor has its data channel, the steps of the two copies
             and of the two programs that read come to an end, in whatever order they are taken,
             and they stop only where all that was sent has arrived.

  * `Serves` -- those steps; the tasks of the service and of the other visitors are not among
    them, so nothing here waits for these;
  * `Working` -- both copies are in order;
  * `left`, `work_step` -- the work left, less with every step;
  * `progress` -- where something is left, some step can be taken.
-/
import Penetrate.Tunnel.Carries

namespace Penetrate.Tunnel

open Concurrent Machine Server Wire

/-! ## 1. The work left -/

/-- What the client has yet to do before it copies. -/
def ClientEnd.phase : ClientEnd → Nat
  | .readCmd => 2
  | .connecting => 1
  | _ => 0

/-- The work left between a visitor and the local service. -/
def left (P : Setup) (x : Visitor) (c : Channel) : Nat :=
  c.client.phase + load (conduitOf P x c .toService).stages +
    load (conduitOf P x c .toVisitor).stages

variable {P : Setup}

/-- A step at a seam that loses nothing. -/
def Works (st st' : List (Stage UInt8)) : Prop := ∃ i a, a ≠ .cut ∧ seamAt st i a = some st'

theorem Works.load {st st' : List (Stage UInt8)} (front back : List (Stage UInt8))
    (h : Works st st') : load (front ++ (st' ++ back)) < load (front ++ (st ++ back)) := by
  obtain ⟨i, a, ha, h⟩ := h
  exact load_seamAt (seamAt_within front back h) ha

/-- One direction of a copy works, the other stands. -/
theorem copy_works {c r : Copy} {d : Dir} {a : CopyAct} (h : CopyStep P c d a r) :
    Works (c.stages P d) (r.stages P d) ∧ (∀ e, e ≠ d → r.stages P e = c.stages P e) ∧
      ∀ e, r.t e = .failed → c.t e = .failed := by
  have hrun {src dst : Pipe} {t : Transfer} {a : CopyAct} {q : Pipe × Transfer × Pipe}
      (ht : TransferStep P.window P.copy.capacity src dst t a q) : q.2.1 ≠ .failed := by
    cases ht <;> simp
  cases h with
  | toService ht =>
      obtain ⟨i, b, hb, hs⟩ := transfer_moves ht
      refine ⟨⟨i, b, hb, by simpa [Copy.stages] using hs⟩, ?_, ?_⟩
      · intro e he
        cases e with
        | toService => exact absurd rfl he
        | toVisitor => simp [Copy.stages]
      · intro e he
        cases e with
        | toService => exact absurd (by simpa using he) (hrun ht)
        | toVisitor => simpa using he
  | toVisitor ht =>
      obtain ⟨i, b, hb, hs⟩ := transfer_moves ht
      refine ⟨⟨i, b, hb, by simpa [Copy.stages] using hs⟩, ?_, ?_⟩
      · intro e he
        cases e with
        | toService => simp [Copy.stages]
        | toVisitor => exact absurd rfl he
      · intro e he
        cases e with
        | toService => simpa using he
        | toVisitor => exact absurd (by simpa using he) (hrun ht)

theorem toService_eq (x : Visitor) (c : Channel) :
    (conduitOf P x c .toService).stages =
      [(c.local_ .toService).stage P, (c.client.transfers .toService).stage P] ++
        ((serverCopy x c).stages P .toService ++ []) := by
  rw [List.append_nil]
  rfl

theorem toVisitor_eq (x : Visitor) (c : Channel) :
    (conduitOf P x c .toVisitor).stages =
      [] ++ ((serverCopy x c).stages P .toVisitor ++
        [(c.client.transfers .toVisitor).stage P, (c.local_ .toVisitor).stage P]) := rfl

theorem toService_client (x : Visitor) (c : Channel) :
    (conduitOf P x c .toService).stages = [] ++ ((clientCopy c).stages P .toService ++
      [(serverTransfers x c .toService).stage P, (x.conn .toService).stage P]) := rfl

theorem toVisitor_client (x : Visitor) (c : Channel) :
    (conduitOf P x c .toVisitor).stages =
      [(x.conn .toVisitor).stage P, (serverTransfers x c .toVisitor).stage P] ++
        ((clientCopy c).stages P .toVisitor ++ []) := by
  rw [List.append_nil]
  rfl

theorem left_server {x x' : Visitor} {c c' : Channel} {d : Dir} (hl : c'.local_ = c.local_)
    (hc : c'.client = c.client)
    (h : Works ((serverCopy x c).stages P d) ((serverCopy x' c').stages P d))
    (h' : ∀ e, e ≠ d → (serverCopy x' c').stages P e = (serverCopy x c).stages P e) :
    left P x' c' < left P x c := by
  unfold left
  rw [toService_eq, toVisitor_eq, toService_eq, toVisitor_eq, hl, hc]
  cases d with
  | toService =>
      rw [h' .toVisitor (by simp)]
      have := h.load [(c.local_ .toService).stage P, (c.client.transfers .toService).stage P] []
      omega
  | toVisitor =>
      rw [h' .toService (by simp)]
      have := h.load [] [(c.client.transfers .toVisitor).stage P, (c.local_ .toVisitor).stage P]
      omega

theorem left_client {x : Visitor} {c c' : Channel} {d : Dir} (hs : c'.server = c.server)
    (hp : c'.client.phase = c.client.phase)
    (h : Works ((clientCopy c).stages P d) ((clientCopy c').stages P d))
    (h' : ∀ e, e ≠ d → (clientCopy c').stages P e = (clientCopy c).stages P e) :
    left P x c' < left P x c := by
  have ht : serverTransfers x c' = serverTransfers x c := by simp only [serverTransfers, hs]
  unfold left
  rw [toService_client, toVisitor_client, toService_client, toVisitor_client, ht, hp]
  cases d with
  | toService =>
      rw [h' .toVisitor (by simp)]
      have := h.load [] [(serverTransfers x c .toService).stage P, (x.conn .toService).stage P]
      omega
  | toVisitor =>
      rw [h' .toService (by simp)]
      have := h.load [(x.conn .toVisitor).stage P, (serverTransfers x c .toVisitor).stage P] []
      omega

/-- A phase of the client that leaves the bytes where they are. -/
theorem left_phase {x : Visitor} {c c' : Channel} (hs : c'.server = c.server)
    (hcopy : clientCopy c' = clientCopy c) (hp : c'.client.phase < c.client.phase) :
    left P x c' < left P x c := by
  have ht : serverTransfers x c' = serverTransfers x c := by simp only [serverTransfers, hs]
  unfold left
  rw [toService_client, toVisitor_client, toService_client, toVisitor_client, ht, hcopy]
  omega

/-! ## 2. Every step is work done -/

/-- The steps of the two copies between `v` and `ch`, and of the two programs that read. -/
def Serves (v ch : Nat) : Act → Prop
  | .visitor w (.recv _) => w = v
  | .localService c (.recv _) => c = ch
  | .server c _ _ => c = ch
  | .client c .readCmd => c = ch
  | .client c .connected => c = ch
  | .client c (.copy _ _) => c = ch
  | _ => False

/-- Visitor `v` has its data channel, and both copies are in order. -/
structure Working (P : Setup) (v ch : Nat) (s : State) : Prop where
  inv : Inv s
  carries : ∀ d, Carries (conduitOf P (s.visitors v) (s.channels ch) d)
  paired : (v, ch) ∈ s.service.forwarding
  unbroken : ∀ d, ¬ s.Broken v ch d

/-- So is the step of one of the two programs that read. -/
theorem left_visitor {x : Visitor} {c : Channel} {n : Nat} {r : Bytes × Pipe}
    (h : (x.conn .toVisitor).read n = some r) :
    left P { x with
      conn := Function.update x.conn .toVisitor r.2, received := x.received ++ r.1 } c <
      left P x c := by
  obtain ⟨hn, hle, hr⟩ := read_eq_some.mp h
  have hl := load_take ((x.conn .toVisitor).stage P)
    [(serverTransfers x c .toVisitor).stage P, (c.payload .toVisitor).stage P,
      (c.client.transfers .toVisitor).stage P, (c.local_ .toVisitor).stage P] hn hle
  have hvisitor : load (conduitOf P { x with
      conn := Function.update x.conn .toVisitor r.2, received := x.received ++ r.1 } c
      .toVisitor).stages < load (conduitOf P x c .toVisitor).stages := by
    rw [hr]
    simpa [conduitOf, Copy.stages, serverTransfers, Pipe.stage] using hl
  have hback : (conduitOf P { x with
      conn := Function.update x.conn .toVisitor r.2, received := x.received ++ r.1 } c
      .toService).stages = (conduitOf P x c .toService).stages := by
    simp [conduitOf, Copy.stages, serverTransfers]
  unfold left
  rw [hback]
  exact Nat.add_lt_add_left hvisitor _

theorem left_local {x : Visitor} {c : Channel} {n : Nat} {r : Bytes × Pipe}
    (h : (c.local_ .toService).read n = some r) :
    left P x { c with
      local_ := Function.update c.local_ .toService r.2, received := c.received ++ r.1 } <
      left P x c := by
  obtain ⟨hn, hle, hr⟩ := read_eq_some.mp h
  have hl := load_take ((c.local_ .toService).stage P)
    [(c.client.transfers .toService).stage P, (c.payload .toService).stage P,
      (serverTransfers x c .toService).stage P, (x.conn .toService).stage P] hn hle
  have hlocal : load (conduitOf P x { c with
      local_ := Function.update c.local_ .toService r.2, received := c.received ++ r.1 }
      .toService).stages < load (conduitOf P x c .toService).stages := by
    rw [hr]
    simpa [conduitOf, Copy.stages, serverTransfers, Channel.payload, Pipe.stage] using hl
  have hback : (conduitOf P x { c with
      local_ := Function.update c.local_ .toService r.2, received := c.received ++ r.1 }
      .toVisitor).stages = (conduitOf P x c .toVisitor).stages := by
    simp [conduitOf, Copy.stages, serverTransfers, Channel.payload]
  unfold left
  rw [hback]
  exact Nat.add_lt_add_right (Nat.add_lt_add_left hlocal _) _

/-- **Every step is work done**, and breaks nothing. -/
theorem work_step {s s' : State} {a : Act} {v ch : Nat} (ht : P.service_type = .tcp)
    (hw : Working P v ch s) (ha : Serves v ch a) (h : Step P s a s') :
    (∀ d, ¬ s'.Broken v ch d) ∧
      left P (s'.visitors v) (s'.channels ch) < left P (s.visitors v) (s.channels ch) := by
  obtain ⟨t, hs⟩ := (hw.inv.forwarding v ch).mp hw.paired
  have hserver (d : Dir) : t d ≠ .failed := fun he =>
    hw.unbroken d (Or.inl (by simpa [serverTransfers, hs] using he))
  have hclient (d : Dir) : (s.channels ch).client.transfers d ≠ .failed := fun he =>
    hw.unbroken d (Or.inr he)
  cases h with
  | service | deliver | spawnCopy | writeFails | refuse | discard | serverFails => exact ha.elim
  | @visitor w a x hv h =>
      cases a with
      | send | close => exact ha.elim
      | recv n =>
          obtain rfl : w = v := ha
          obtain ⟨r, hr, rfl⟩ := Option.map_eq_some_iff.mp h
          rw [setVisitor_self, setVisitor_channels]
          refine ⟨fun d hb => hw.unbroken d ?_, left_visitor hr⟩
          rw [State.Broken, setVisitor_self, setVisitor_channels] at hb
          exact hb
  | @localService c' a c t' hc h =>
      cases a with
      | send | close => exact ha.elim
      | recv n =>
          obtain rfl : c' = ch := ha
          obtain ⟨r, hr, rfl⟩ := Option.map_eq_some_iff.mp h
          rw [setChannel_self, setChannel_visitors]
          refine ⟨fun d hb => hw.unbroken d ?_, left_local hr⟩
          rw [State.Broken, setChannel_self, setChannel_visitors] at hb
          exact hb
  | @server c' w t' d a r hs' h =>
      obtain rfl : c' = ch := ha
      obtain ⟨rfl, rfl⟩ := ServerEnd.forward.inj (hs.symm.trans hs')
      have hcopy := payload_copy (f := fun c r => CopyStep P c d a r) (hw.inv.ok c') hs
        (fun _ _ _ _ h hlen => copy_strip h hlen) (copy_cases h)
      obtain ⟨hworks, hstand, hrun⟩ := copy_works hcopy
      rw [setChannel_self, setChannel_visitors, setVisitor_self]
      refine ⟨fun e hb => ?_, left_server ?_ ?_ hworks hstand⟩
      · rw [State.Broken, setChannel_self, setChannel_visitors, setVisitor_self] at hb
        rcases hb with hb | hb
        · exact hw.unbroken e (Or.inl (hrun e hb))
        · exact hw.unbroken e (Or.inr hb)
      · rfl
      · rfl
  | @client c' a c hlt h =>
      obtain rfl : c' = ch := by cases a <;> first | exact ha | exact ha.elim
      have hkeep := server_act h
      rw [setChannel_self, setChannel_visitors]
      have hbroken (hc : ∀ e, c.client.transfers e ≠ .failed) :
          ∀ e, ¬ (s.setChannel c' c).Broken v c' e := by
        intro e hb
        rw [State.Broken, setChannel_self, setChannel_visitors] at hb
        rcases hb with hb | hb
        · exact hw.unbroken e (Or.inl (by simpa only [serverTransfers, hkeep] using hb))
        · exact hc e hb
      unfold run_data_channel at h
      split at h
      · rename_i hcl
        obtain ⟨rest, hrest⟩ := (hw.inv.ok c').forward v t hs (Or.inl hcl)
        rw [readDataCmd_eq ht hrest.symm] at h
        cases h
        refine ⟨hbroken fun e he => by simp [Channel.commanded, ClientEnd.transfers,
          Transfers.fresh] at he, ?_⟩
        refine left_phase ?_ (commanded_copy hcl hrest.symm) ?_
        · rfl
        · rw [hcl]
          exact Nat.lt_succ_self _
      · rename_i hcl
        cases h
        refine ⟨hbroken fun e he => by simp [ClientEnd.transfers, Transfers.fresh] at he, ?_⟩
        refine left_phase ?_ ?_ ?_
        · rfl
        · simp [clientCopy, Channel.payload, hcl, ClientEnd.transfers]
        · rw [hcl]
          exact Nat.lt_succ_self _
      · rename_i d a t' hcl
        obtain ⟨r, hr, rfl⟩ := Option.map_eq_some_iff.mp h
        have hcopy : clientCopy (s.channels c') =
            ⟨(s.channels c').link, t', (s.channels c').local_⟩ := by
          simp [clientCopy, Channel.payload, hcl, ClientEnd.transfers]
        obtain ⟨hworks, hstand, hrun⟩ := copy_works (copy_cases hr)
        rw [← hcopy] at hworks hstand hrun
        refine ⟨hbroken fun e he => hw.unbroken e (Or.inr (hrun e he)), ?_⟩
        refine left_client ?_ ?_ hworks hstand
        · rfl
        · rw [hcl]
          rfl
      · exact ha.elim
      · cases h

theorem working_step {s s' : State} {a : Act} {v ch : Nat} (ht : P.service_type = .tcp)
    (hw : Working P v ch s) (ha : Serves v ch a) (h : Step P s a s') : Working P v ch s' := by
  have hkeep : s'.service = s.service := by
    cases h with
    | service | deliver | spawnCopy | writeFails => exact ha.elim
    | _ => rfl
  have hI' := inv_step hw.inv h
  have hp' : (v, ch) ∈ s'.service.forwarding := by
    rw [hkeep]
    exact hw.paired
  refine ⟨hI', fun d => ?_, hp', (work_step ht hw ha h).1⟩
  have hl := conduit_step hw.inv h v d
  rw [State.conduit, State.conduit, channel_eq hw.inv.account hw.paired,
    channel_eq hI'.account hp'] at hl
  exact hl.inv (I := Carries) (fun _ _ _ hI h => carries_step hI h) (hw.carries d)

/-! ## 3. Progress -/

/-- All that was sent between `v` and `ch` has arrived, and the end of it too. -/
structure Delivered (v ch : Nat) (s : State) : Prop where
  toService : (s.channels ch).received = (s.visitors v).sent
  toVisitor : (s.visitors v).received = (s.channels ch).sent
  endToService : ((s.visitors v).conn .toService).fin = true →
    (s.channels ch).local_ .toService = ⟨[], true⟩
  endToVisitor : ((s.channels ch).local_ .toVisitor).fin = true →
    (s.visitors v).conn .toVisitor = ⟨[], true⟩

theorem copy_enabled {c : Copy} {d : Dir} {i : Nat} {b : SeamAct} {st : List (Stage UInt8)}
    (ht : c.t d ≠ .failed) (hb : b ≠ .cut) (h : seamAt (c.stages P d) i b = some st)
    (he : Hungry (c.stages P d) i) : ∃ a r, copy_bidirectional P c d a = some r := by
  cases d with
  | toService =>
      obtain ⟨a, r, hr⟩ := transfer_enabled ht hb h he
      exact ⟨a, _, by rw [copy_bidirectional, hr]; rfl⟩
  | toVisitor =>
      obtain ⟨a, r, hr⟩ := transfer_enabled ht hb h he
      exact ⟨a, _, by rw [copy_bidirectional, hr]; rfl⟩

/-- A seam of the conduit is one of the server's copy or one of the client's. -/
theorem seam_sides {x : Visitor} {c : Channel} {d : Dir} {i : Nat} {b : SeamAct}
    {st : List (Stage UInt8)} (h : seamAt (conduitOf P x c d).stages i b = some st)
    (he : Hungry (conduitOf P x c d).stages i) :
    (∃ j st', seamAt ((serverCopy x c).stages P d) j b = some st' ∧
        Hungry ((serverCopy x c).stages P d) j) ∨
      ∃ j st', seamAt ((clientCopy c).stages P d) j b = some st' ∧
        Hungry ((clientCopy c).stages P d) j := by
  cases d with
  | toService =>
      rcases seamAt_split [(c.local_ .toService).stage P,
        (c.client.transfers .toService).stage P] h he with ⟨st', h⟩ | h
      · exact Or.inr ⟨i, st', h⟩
      · exact Or.inl h
  | toVisitor =>
      rcases seamAt_split [(x.conn .toVisitor).stage P,
        (serverTransfers x c .toVisitor).stage P] h he with ⟨st', h⟩ | h
      · exact Or.inl ⟨i, st', h⟩
      · exact Or.inr h

/-- The sink of a direction reads what has come. -/
theorem sink_enabled {s : State} {v ch : Nat} {t' : Transfers} (hw : Working P v ch s)
    (hc : (s.channels ch).client = .forward t') {d : Dir} {e : Stage UInt8}
    {rest : List (Stage UInt8)}
    (he : (conduitOf P (s.visitors v) (s.channels ch) d).stages = e :: rest) (hne : e.items ≠ []) :
    ∃ a s', Serves v ch a ∧ step P s a = some s' := by
  have hlen : 1 ≤ e.items.length := List.length_pos_iff.mpr hne
  cases d with
  | toService =>
      obtain ⟨rfl, -⟩ := List.cons.inj he
      have hread := read_eq_some.mpr ⟨Nat.one_pos, hlen, rfl⟩
      obtain ⟨s', hs'⟩ : ∃ s', step P s (.localService ch (.recv 1)) = some s' := by
        simp only [step, hc, Channel.act, hread, Option.map_some]
        exact ⟨_, rfl⟩
      exact ⟨.localService ch (.recv 1), s', rfl, hs'⟩
  | toVisitor =>
      obtain ⟨rfl, -⟩ := List.cons.inj he
      have hread := read_eq_some.mpr ⟨Nat.one_pos, hlen, rfl⟩
      have hv : v < s.service.visitors :=
        hw.inv.account.visitors.2 v (List.mem_append_left _ (List.mem_map_of_mem hw.paired))
      obtain ⟨s', hs'⟩ : ∃ s', step P s (.visitor v (.recv 1)) = some s' := by
        simp only [step, if_pos hv, Visitor.act, hread, Option.map_some]
        exact ⟨_, rfl⟩
      exact ⟨.visitor v (.recv 1), s', rfl, hs'⟩

/-- The two copies and the two programs, where something is left to do. -/
theorem direction_enabled {s : State} {v ch : Nat} {t t' : Transfers} (hw : Working P v ch s)
    (hs : (s.channels ch).server = .forward v t) (hc : (s.channels ch).client = .forward t')
    {d : Dir} (hn : ¬ Settled (conduitOf P (s.visitors v) (s.channels ch) d).stages) :
    ∃ a s', Serves v ch a ∧ step P s a = some s' := by
  have hserver (e : Dir) : serverTransfers (s.visitors v) (s.channels ch) e ≠ .failed :=
    fun he => hw.unbroken e (Or.inl he)
  have hclient (e : Dir) : (s.channels ch).client.transfers e ≠ .failed :=
    fun he => hw.unbroken e (Or.inr he)
  have hpay : (s.channels ch).payload = (s.channels ch).link := by simp [Channel.payload, hc]
  rcases exists_enabled (hw.carries d).ordered (unbroken_conduit (hserver d) (hclient d)) hn with
    ⟨e, rest, he, hne⟩ | ⟨i, b, st, hb, h, he⟩
  · exact sink_enabled hw hc he hne
  · rcases seam_sides h he with ⟨j, st', h, he⟩ | ⟨j, st', h, he⟩
    · have hcopy : serverCopy (s.visitors v) (s.channels ch) =
          ⟨(s.visitors v).conn, t, (s.channels ch).link⟩ := by
        simp [serverCopy, serverTransfers, hs, hpay]
      obtain ⟨a, r, hr⟩ := copy_enabled (hserver d) hb h he
      rw [hcopy] at hr
      obtain ⟨s', hs'⟩ : ∃ s', step P s (.server ch d a) = some s' := by
        simp only [step, State.serverCopy, hs, hr, Option.map_some]
        exact ⟨_, rfl⟩
      exact ⟨.server ch d a, s', rfl, hs'⟩
    · have hcopy : clientCopy (s.channels ch) =
          ⟨(s.channels ch).link, t', (s.channels ch).local_⟩ := by
        simp [clientCopy, hpay, hc, ClientEnd.transfers]
      obtain ⟨a, r, hr⟩ := copy_enabled (hclient d) hb h he
      rw [hcopy] at hr
      obtain ⟨s', hs'⟩ : ∃ s', step P s (.client ch (.copy d a)) = some s' := by
        simp only [step, if_pos (opened_of_server hw.inv hs), run_data_channel, hc, hr,
          Option.map_some]
        exact ⟨_, rfl⟩
      exact ⟨.client ch (.copy d a), s', rfl, hs'⟩

/-- What has settled is delivered. -/
theorem delivered_of_settled {s : State} {v ch : Nat} (hw : Working P v ch s)
    (h : ∀ d, Settled (conduitOf P (s.visitors v) (s.channels ch) d).stages) :
    Delivered v ch s := by
  have hall (d : Dir) : (conduitOf P (s.visitors v) (s.channels ch) d).received =
      (conduitOf P (s.visitors v) (s.channels ch) d).sent := by
    have hb := not_or.mp (hw.unbroken d)
    have ha := (hw.carries d).all (unbroken_conduit hb.1 hb.2)
    rwa [held_eq_zero (h d).1, List.append_nil] at ha
  refine ⟨hall .toService, hall .toVisitor, fun hf => ?_, fun hf => ?_⟩
  · have he : ((s.channels ch).local_ .toService).fin = true ∧
        ((s.channels ch).local_ .toService).buf = [] := (h .toService).2 hf
    cases hp : (s.channels ch).local_ .toService
    simp_all
  · have he : ((s.visitors v).conn .toVisitor).fin = true ∧
        ((s.visitors v).conn .toVisitor).buf = [] := (h .toVisitor).2 hf
    cases hp : (s.visitors v).conn .toVisitor
    simp_all

/-- **Progress.** -/
theorem progress {s : State} {v ch : Nat} (ht : P.service_type = .tcp) (hw : Working P v ch s) :
    Delivered v ch s ∨ ∃ a s', Serves v ch a ∧ step P s a = some s' := by
  obtain ⟨t, hs⟩ := (hw.inv.forwarding v ch).mp hw.paired
  have hlt := opened_of_server hw.inv hs
  have hbroken (d : Dir) : (s.channels ch).client.transfers d ≠ .failed :=
    fun he => hw.unbroken d (Or.inr he)
  cases hc : (s.channels ch).client with
  | readCmd =>
      obtain ⟨rest, hrest⟩ := (hw.inv.ok ch).forward v t hs (Or.inl hc)
      obtain ⟨s', hs'⟩ : ∃ s', step P s (.client ch .readCmd) = some s' := by
        simp only [step, if_pos hlt, run_data_channel, hc, readDataCmd_eq ht hrest.symm,
          Option.map_some]
        exact ⟨_, rfl⟩
      exact Or.inr ⟨.client ch .readCmd, s', rfl, hs'⟩
  | noCmd => exact absurd (by rw [hc]; rfl) (hbroken .toService)
  | connecting =>
      obtain ⟨s', hs'⟩ : ∃ s', step P s (.client ch .connected) = some s' := by
        simp only [step, if_pos hlt, run_data_channel, hc, Option.map_some]
        exact ⟨_, rfl⟩
      exact Or.inr ⟨.client ch .connected, s', rfl, hs'⟩
  | noLocal => exact absurd (by rw [hc]; rfl) (hbroken .toService)
  | forward t' =>
      by_cases h1 : Settled (conduitOf P (s.visitors v) (s.channels ch) .toService).stages
      · by_cases h2 : Settled (conduitOf P (s.visitors v) (s.channels ch) .toVisitor).stages
        · exact Or.inl (delivered_of_settled hw fun d => by cases d <;> assumption)
        · exact Or.inr (direction_enabled hw hs hc h2)
      · exact Or.inr (direction_enabled hw hs hc h1)

/-- **The tunnel delivers**: from any state of a run in which `v` has its data channel and neither
    copy has failed, the steps between the two parties come to an end in whatever order they are
    taken, and where none is left each party has received all the other has sent, and the end of
    it. Nothing else in the service is waited for. -/
theorem tunnel_delivers {s : State} {v ch : Nat} (h : (tunnel P).Reachable s)
    (ht : P.service_type = .tcp) (hp : (v, ch) ∈ s.service.forwarding)
    (hb : ∀ d, ¬ s.Broken v ch d) :
    (tunnel P).Completes (Serves v ch) (Delivered v ch) s := by
  have hI := inv_reachable h
  have hcarries (d : Dir) : Carries (conduitOf P (s.visitors v) (s.channels ch) d) := by
    have hc := carries_tunnel h v d
    rwa [State.conduit, channel_eq hI.account hp] at hc
  refine Completes.of_measure (I := Working P v ch)
    (fun s => left P (s.visitors v) (s.channels ch)) ?_ ?_ ⟨hI, hcarries, hp, hb⟩
  · intro s a s' hw ha hs
    have hstep := step_cases hs
    exact ⟨working_step ht hw ha hstep, (work_step ht hw ha hstep).2⟩
  · exact fun s hw => progress ht hw

theorem tunnel_delivers_meeting : ∃ s, (tunnel plain).Reachable s ∧
    (s.visitors 0).sent = [71, 69, 84] ∧ (s.channels 0).received = [] ∧
    (tunnel plain).Completes (Serves 0 0) (Delivered 0 0) s := by
  obtain ⟨s, hr, h⟩ := reachable_exec meeting
    (fun s => (s.service.forwarding, (s.visitors 0).sent, (s.channels 0).received,
      fun d => (serverTransfers (s.visitors 0) (s.channels 0) d,
        (s.channels 0).client.transfers d))) rfl
  simp only [Prod.mk.injEq] at h
  obtain ⟨hf, hs, hc, ht⟩ := h
  refine ⟨s, hr, hs, hc, tunnel_delivers hr rfl (by rw [hf]; exact List.mem_cons_self) fun d hb => ?_⟩
  have hd := congrFun ht d
  simp only [Prod.mk.injEq] at hd
  rcases hb with hb | hb
  · rw [hd.1] at hb
    cases hb
  · rw [hd.2] at hb
    cases hb

end Penetrate.Tunnel
