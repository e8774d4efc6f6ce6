/-
  File:      Penetrate/Tunnel/Carries.lean
  Subject:   WHAT THE TUNNEL CARRIES.

  Each visitor, with its data channel and the connection behind that, is a conduit of five stages
  for either direction: the visitor's pipe, the server's copy, the link, the client's copy and the
  pipe of the local service. The command in front of the link is none of its bytes.

  * `conduitOf`, `State.conduit` -- the view of one visitor; `payload` is the link without the
    command;
  * `client_moves`, `leads_of_server`, `leads_of_spawn`, `conduit_step` -- **each step of the tunnel
    is a step of each visitor's conduit, or none**;
  * `tunnel_transparent`, `tunnel_ends_exactly` -- what arrives.
-/
import Penetrate.Tunnel.Steps

namespace Penetrate.Tunnel

open Concurrent Machine Server Wire

variable {P : Setup}

/-! ## 1. The view of one visitor -/

/-- What a data channel holds of the two parties' bytes. -/
def Channel.payload (c : Channel) : Stream :=
  match c.client with
  | .readCmd => c.link.strip
  | .noCmd => c.link.strip
  | _ => c.link

/-- The copy on the server. A visitor that is turned away gets no more bytes. -/
def serverTransfers (x : Visitor) (c : Channel) : Transfers :=
  match c.server with
  | .forward _ t => t
  | _ => fun d => if x.refused = true ∧ d = .toVisitor then .failed else .running [] false

/-- A visitor and its data channel, seen as a conduit for either direction. -/
def conduitOf (P : Setup) (x : Visitor) (c : Channel) : Dir → Conduit UInt8
  | .toService =>
      { sent := x.sent
        stages := [(c.local_ .toService).stage P, (c.client.transfers .toService).stage P] ++
          Copy.stages P ⟨x.conn, serverTransfers x c, c.payload⟩ .toService
        received := c.received }
  | .toVisitor =>
      { sent := c.sent
        stages := Copy.stages P ⟨x.conn, serverTransfers x c, c.payload⟩ .toVisitor ++
          [(c.client.transfers .toVisitor).stage P, (c.local_ .toVisitor).stage P]
        received := x.received }

namespace State

/-- The data channel a visitor has been given. -/
def channelOf (s : State) (v : Nat) : Option Nat :=
  (s.service.forwarding.find? fun p => p.1 == v).map Prod.snd

/-- A visitor that waits is as one whose data channel nothing has happened to. -/
def channel (s : State) (v : Nat) : Channel :=
  match s.channelOf v with
  | some ch => s.channels ch
  | none => .fresh

def conduit (P : Setup) (s : State) (v : Nat) : Dir → Conduit UInt8 :=
  conduitOf P (s.visitors v) (s.channel v)

end State

theorem forwarding_once {s : Service} (hI : AccountInv s) {p q : Nat × Nat}
    (hp : p ∈ s.forwarding) (hq : q ∈ s.forwarding) : p = q ∨ (p.1 ≠ q.1 ∧ p.2 ≠ q.2) :=
  rising_once hI.pairs (List.mem_append_left _ hp) (List.mem_append_left _ hq)

theorem channelOf_eq {s : State} (hI : AccountInv s.service) {v ch : Nat} :
    s.channelOf v = some ch ↔ (v, ch) ∈ s.service.forwarding := by
  unfold State.channelOf
  constructor
  · intro h
    obtain ⟨p, hp, rfl⟩ := Option.map_eq_some_iff.mp h
    have hv : p.1 = v := by simpa using List.find?_some hp
    exact hv ▸ List.mem_of_find?_eq_some hp
  · intro h
    cases hf : s.service.forwarding.find? fun p => p.1 == v with
    | none =>
        have hn := List.find?_eq_none.mp hf _ h
        simp at hn
    | some p =>
        have hv : p.1 = v := by simpa using List.find?_some hf
        rcases forwarding_once hI (List.mem_of_find?_eq_some hf) h with rfl | ⟨hne, -⟩
        · rfl
        · exact absurd hv hne

theorem channel_eq {s : State} (hI : AccountInv s.service) {v ch : Nat}
    (h : (v, ch) ∈ s.service.forwarding) : s.channel v = s.channels ch := by
  rw [State.channel, (channelOf_eq hI).mpr h]

theorem channel_waiting {s : State} {v : Nat} (h : v ∉ s.service.forwarding.map Prod.fst) :
    s.channel v = .fresh := by
  have hn : s.channelOf v = none := by
    unfold State.channelOf
    rw [Option.map_eq_none_iff, List.find?_eq_none]
    intro p hp he
    exact h (List.mem_map.mpr ⟨p, hp, by simpa using he⟩)
  rw [State.channel, hn]

/-! ## 2. Each step of the tunnel is a step of the conduit -/

/-- What leaves the parties' bytes alone and moves the stages at one seam at most. -/
theorem leads_of_moves {k k' : Conduit UInt8} (hs : k'.sent = k.sent)
    (hr : k'.received = k.received) (h : Moves k.stages k'.stages) : conduit.Leads k k' := by
  obtain ⟨sent, stages, received⟩ := k
  obtain ⟨sent', stages', received'⟩ := k'
  simp only at hs hr h
  subst hs hr
  rcases h with rfl | ⟨i, a, h⟩
  · exact .refl _
  · exact .of_step (a := .seam i a) (by show Option.map _ _ = _; rw [h]; rfl)

/-- The client's end of a data channel, as a copy. -/
def clientCopy (c : Channel) : Copy := ⟨c.payload, c.client.transfers, c.local_⟩

theorem abortTransfer_running (held : Bytes) (dst : Pipe) :
    (abortTransfer (.running held false) dst).1 = .failed := by simp [abortTransfer]

theorem abortTransfer_failed (dst : Pipe) : (abortTransfer .failed dst).1 = .failed := by
  simp [abortTransfer]

theorem clientFails_copy (c : Channel) : clientCopy c.clientFails = (clientCopy c).abort := by
  cases hc : c.client with
  | readCmd =>
      ext e
      · simp [clientCopy, Channel.payload, Channel.clientFails, hc, Copy.abort, strip_update,
          strip_toVisitor]
      · cases e <;> simp [clientCopy, Channel.clientFails, hc, Copy.abort, ClientEnd.transfers,
          Transfers.fresh, abortTransfer_running]
      · simp [clientCopy, Channel.clientFails, hc, Copy.abort]
  | noCmd =>
      ext e
      · simp [clientCopy, Channel.payload, Channel.clientFails, hc, Copy.abort, strip_update,
          strip_toVisitor]
      · cases e <;> simp [clientCopy, Channel.clientFails, hc, Copy.abort, ClientEnd.transfers,
          abortTransfer_failed]
      · simp [clientCopy, Channel.clientFails, hc, Copy.abort]
  | connecting =>
      ext e
      · simp [clientCopy, Channel.payload, Channel.clientFails, hc, Copy.abort]
      · cases e <;> simp [clientCopy, Channel.clientFails, hc, Copy.abort, ClientEnd.transfers,
          Transfers.fresh, abortTransfer_running]
      · simp [clientCopy, Channel.clientFails, hc, Copy.abort]
  | noLocal =>
      ext e
      · simp [clientCopy, Channel.payload, Channel.clientFails, hc, Copy.abort]
      · cases e <;> simp [clientCopy, Channel.clientFails, hc, Copy.abort, ClientEnd.transfers,
          abortTransfer_failed]
      · simp [clientCopy, Channel.clientFails, hc, Copy.abort]
  | forward t =>
      ext e
      · simp [clientCopy, Channel.payload, Channel.clientFails, hc, Copy.abort]
      · cases e <;> simp [clientCopy, Channel.payload, Channel.clientFails, hc, Copy.abort,
          ClientEnd.transfers]
      · simp [clientCopy, Channel.clientFails, hc, Copy.abort, ClientEnd.transfers]

theorem commanded_copy {c : Channel} {rest : Bytes} (hcl : c.client = .readCmd)
    (hb : (c.link .toService).buf = cmd ++ rest) : clientCopy (c.commanded rest) = clientCopy c := by
  ext e
  · cases e <;> simp [clientCopy, Channel.payload, Channel.commanded, hcl, Stream.strip, hb]
  · simp [clientCopy, Channel.commanded, hcl, ClientEnd.transfers]
  · rfl

/-- **The client's end** moves at its own seams only. -/
theorem client_moves {c c' : Channel} {a : ChannelAct}
    (h : run_data_channel P c a = some c') (e : Dir) :
    Moves ((clientCopy c).stages P e) ((clientCopy c').stages P e) := by
  have hfails (c : Channel) :
      Moves ((clientCopy c).stages P e) ((clientCopy c.clientFails).stages P e) := by
    rw [clientFails_copy]
    exact abort_moves _ e
  unfold run_data_channel at h
  split at h
  · rename_i hcl
    rcases readDataCmd_cases h with ⟨-, rfl⟩ | ⟨rest, hb, hc'⟩
    · exact hfails c
    · have hcopy := commanded_copy hcl hb
      rcases hc' with rfl | rfl
      · exact Or.inl (by rw [hcopy])
      · rw [← hcopy]
        exact hfails _
  · rename_i hcl
    cases h
    refine Or.inl ?_
    simp [clientCopy, Channel.payload, hcl, ClientEnd.transfers]
  · rename_i d a t hcl
    obtain ⟨r, hr, rfl⟩ := Option.map_eq_some_iff.mp h
    have hcopy : clientCopy c = ⟨c.link, t, c.local_⟩ := by
      simp [clientCopy, Channel.payload, hcl, ClientEnd.transfers]
    rw [hcopy]
    exact copy_moves (copy_cases hr) e
  · cases h
    exact hfails c
  · cases h

/-- The server's end of it, as a copy. -/
def serverCopy (x : Visitor) (c : Channel) : Copy := ⟨x.conn, serverTransfers x c, c.payload⟩


/-- What the spawned task does with the link it does with what is behind the command. -/
theorem payload_copy {x : Visitor} {c : Channel} {v : Nat} {t : Transfers} {r : Copy} (hok : c.Ok)
    (hs : c.server = .forward v t) {f : Copy → Copy → Prop}
    (hf : ∀ near far t r, f ⟨near, t, far⟩ r → cmd.length ≤ (far .toService).buf.length →
      f ⟨near, t, far.strip⟩ ⟨r.near, r.t, r.far.strip⟩)
    (h : f ⟨x.conn, t, c.link⟩ r) :
    f (serverCopy x c) (serverCopy { x with conn := r.near }
      { c with link := r.far, server := .forward v r.t }) := by
  have hc : serverCopy x c = ⟨x.conn, t, c.payload⟩ := by
    simp [serverCopy, serverTransfers, hs]
  have hlen (hn : c.client = .readCmd ∨ c.client = .noCmd) :
      cmd.length ≤ (c.link .toService).buf.length := (hok.forward v t hs hn).length_le
  rw [hc]
  simp only [serverCopy, serverTransfers, Channel.payload]
  cases hcl : c.client with
  | readCmd => exact hf _ _ _ _ h (hlen (Or.inl hcl))
  | noCmd => exact hf _ _ _ _ h (hlen (Or.inr hcl))
  | connecting => exact h
  | noLocal => exact h
  | forward _ => exact h

/-- Steps at the seams of the server's copy, or of the client's, are steps of the conduit. -/
theorem leads_of_server {x x' : Visitor} {c c' : Channel} (hs : x'.sent = x.sent)
    (hr : x'.received = x.received) (hs' : c'.sent = c.sent) (hr' : c'.received = c.received)
    (hl : c'.local_ = c.local_) (hc : c'.client = c.client)
    (h : ∀ e, Moves ((serverCopy x c).stages P e) ((serverCopy x' c').stages P e)) (d : Dir) :
    conduit.Leads (conduitOf P x c d) (conduitOf P x' c' d) := by
  cases d with
  | toService =>
      refine leads_of_moves hs hr' ?_
      show Moves (_ :: _ :: _) (_ :: _ :: _)
      rw [hl, hc]
      simpa [serverCopy] using (h .toService).within [_, _] []
  | toVisitor =>
      refine leads_of_moves hs' hr ?_
      show Moves (_ ++ _) (_ ++ _)
      rw [hl, hc]
      exact (h .toVisitor).within [] [_, _]

theorem leads_of_client {x : Visitor} {c c' : Channel} (hs : c'.sent = c.sent)
    (hr : c'.received = c.received) (hc : c'.server = c.server)
    (h : ∀ e, Moves ((clientCopy c).stages P e) ((clientCopy c').stages P e)) (d : Dir) :
    conduit.Leads (conduitOf P x c d) (conduitOf P x c' d) := by
  have ht : serverTransfers x c' = serverTransfers x c := by simp only [serverTransfers, hc]
  cases d with
  | toService =>
      refine leads_of_moves rfl hr ?_
      have hm := (h .toService).within []
        [(serverTransfers x c .toService).stage P, (x.conn .toService).stage P]
      simpa [conduitOf, Copy.stages, clientCopy, ht] using hm
  | toVisitor =>
      refine leads_of_moves hs rfl ?_
      have hm := (h .toVisitor).within
        [(x.conn .toVisitor).stage P, (serverTransfers x c .toVisitor).stage P] []
      simpa [conduitOf, Copy.stages, clientCopy, ht] using hm

/-- The visitor's program is the source of one conduit and the sink of the other. -/
theorem leads_of_visitor {x x' : Visitor} {a : EndAct} (c : Channel) (h : x.act P a = some x')
    (d : Dir) : conduit.Leads (conduitOf P x c d) (conduitOf P x' c d) := by
  rcases visitor_cases h with ⟨bs, p, -, hp, rfl⟩ | ⟨p, -, hp, rfl⟩ | ⟨n, bs, p, -, hp, rfl⟩
  · obtain ⟨hf, -, -, rfl⟩ := (write_eq_some P).mp hp
    cases d with
    | toService =>
        refine .of_step (a := .put bs) ?_
        simp [conduit, Conduit.step, conduitOf, Copy.stages, atSource, Stage.put, Pipe.stage, hf,
          serverTransfers]
    | toVisitor =>
        refine leads_of_moves rfl rfl (Or.inl ?_)
        simp [conduitOf, Copy.stages, serverTransfers]
  · obtain ⟨hf, rfl⟩ := close_eq_some.mp hp
    cases d with
    | toService =>
        refine .of_step (a := .close) ?_
        simp [conduit, Conduit.step, conduitOf, Copy.stages, atSource, Stage.close, Pipe.stage, hf,
          serverTransfers]
    | toVisitor =>
        refine leads_of_moves rfl rfl (Or.inl ?_)
        simp [conduitOf, Copy.stages, serverTransfers]
  · obtain ⟨hn, hle, he⟩ := read_eq_some.mp hp
    cases he
    cases d with
    | toService =>
        refine leads_of_moves rfl rfl (Or.inl ?_)
        simp [conduitOf, Copy.stages, serverTransfers]
    | toVisitor =>
        refine .of_step (a := .take n) ?_
        simp [conduit, Conduit.step, Conduit.take, conduitOf, Copy.stages, Pipe.stage, hn, hle,
          serverTransfers]

theorem leads_of_local {c c' : Channel} {a : EndAct} (x : Visitor) (h : c.act P a = some c')
    (d : Dir) : conduit.Leads (conduitOf P x c d) (conduitOf P x c' d) := by
  rcases local_cases h with ⟨bs, p, -, hp, rfl⟩ | ⟨p, -, hp, rfl⟩ | ⟨n, bs, p, -, hp, rfl⟩
  · obtain ⟨hf, -, -, rfl⟩ := (write_eq_some P).mp hp
    cases d with
    | toService =>
        refine leads_of_moves rfl rfl (Or.inl ?_)
        simp [conduitOf, Copy.stages, serverTransfers, Channel.payload]
    | toVisitor =>
        refine .of_step (a := .put bs) ?_
        simp [conduit, Conduit.step, conduitOf, Copy.stages, atSource, Stage.put, Pipe.stage, hf,
          serverTransfers, Channel.payload]
  · obtain ⟨hf, rfl⟩ := close_eq_some.mp hp
    cases d with
    | toService =>
        refine leads_of_moves rfl rfl (Or.inl ?_)
        simp [conduitOf, Copy.stages, serverTransfers, Channel.payload]
    | toVisitor =>
        refine .of_step (a := .close) ?_
        simp [conduit, Conduit.step, conduitOf, Copy.stages, atSource, Stage.close, Pipe.stage, hf,
          serverTransfers, Channel.payload]
  · obtain ⟨hn, hle, he⟩ := read_eq_some.mp hp
    cases he
    cases d with
    | toService =>
        refine .of_step (a := .take n) ?_
        simp [conduit, Conduit.step, Conduit.take, conduitOf, Copy.stages, Pipe.stage, hn, hle,
          serverTransfers, Channel.payload]
    | toVisitor =>
        refine leads_of_moves rfl rfl (Or.inl ?_)
        simp [conduitOf, Copy.stages, serverTransfers, Channel.payload]

/-- What happens to a data channel concerns the visitor it was given to. -/
theorem conduit_setChannel (s : State) (ch : Nat) (c : Channel) (v : Nat) (d : Dir) :
    (s.setChannel ch c).conduit P v d =
      if s.channelOf v = some ch then conduitOf P (s.visitors v) c d else s.conduit P v d := by
  have hof : (s.setChannel ch c).channelOf v = s.channelOf v := rfl
  unfold State.conduit State.channel
  rw [hof, setChannel_visitors]
  cases h : s.channelOf v with
  | none => simp
  | some ch' =>
      by_cases he : ch' = ch
      · subst he
        simp
      · simp [he, setChannel_other s c he]

theorem conduit_setVisitor (s : State) (w : Nat) (x : Visitor) (v : Nat) (d : Dir) :
    (s.setVisitor w x).conduit P v d =
      if v = w then conduitOf P x (s.channel w) d else s.conduit P v d := by
  have hch : (s.setVisitor w x).channel v = s.channel v := rfl
  unfold State.conduit
  rw [hch]
  by_cases h : v = w
  · subst h
    simp
  · simp [h, setVisitor_other s x h]

/-- A data channel with the server's pool, or dropped, is no visitor's. -/
theorem channelOf_ne {s : State} (hI : Inv s) {v ch : Nat} (hs : ∀ t, (s.channels ch).server ≠ .forward v t) :
    s.channelOf v ≠ some ch := by
  intro h
  obtain ⟨t, ht⟩ := (hI.forwarding v ch).mp ((channelOf_eq hI.account).mp h)
  exact hs t ht

theorem conduit_keep {s : State} (hI : Inv s) {ch : Nat} (c : Channel) (v : Nat) (d : Dir)
    (hs : ∀ t, (s.channels ch).server ≠ .forward v t) :
    (s.setChannel ch c).conduit P v d = s.conduit P v d := by
  rw [conduit_setChannel, if_neg (channelOf_ne hI hs)]

theorem conduit_service {s : State} {svc : Service} (h : svc.forwarding = s.service.forwarding)
    (v : Nat) (d : Dir) : State.conduit P { s with service := svc } v d = s.conduit P v d := by
  unfold State.conduit State.channel State.channelOf
  simp only [h]

theorem spawned_clientFails (v : Nat) :
    Channel.fresh.clientFails.spawned v = (Channel.fresh.spawned v).clientFails := by
  simp only [Channel.spawned, Channel.clientFails, Channel.fresh, Copy.abort]
  congr 1
  funext e
  cases e <;> simp

/-- **A pair is made**: the data channel takes the place of the one nothing has happened to. -/
theorem leads_of_spawn {x : Visitor} {c : Channel} {v : Nat} (hx : x.refused = false)
    (hc : c = .fresh ∨ c = Channel.fresh.clientFails) (d : Dir) :
    conduit.Leads (conduitOf P x .fresh d) (conduitOf P x (c.spawned v) d) := by
  have hfresh : conduitOf P x .fresh d = conduitOf P x (Channel.fresh.spawned v) d := by
    have ht : serverTransfers x .fresh = serverTransfers x (Channel.fresh.spawned v) := by
      simp only [Channel.spawned, serverTransfers, Channel.fresh, hx, Bool.false_eq_true,
        false_and, if_false]
      rfl
    have hp : Channel.payload .fresh = Channel.payload (Channel.fresh.spawned v) := by
      funext e
      cases e <;> simp [Channel.payload, Channel.fresh, Stream.fresh, Channel.spawned]
    cases d <;> simp only [conduitOf, ht, hp] <;> rfl
  rcases hc with rfl | rfl
  · rw [hfresh]
    exact .refl _
  · have hm (e : Dir) : Moves ((clientCopy (Channel.fresh.spawned v)).stages P e)
        ((clientCopy (Channel.fresh.spawned v).clientFails).stages P e) := by
      rw [clientFails_copy]
      exact abort_moves _ e
    rw [hfresh, spawned_clientFails]
    refine leads_of_client ?_ ?_ ?_ hm d <;> rfl

/-- A visitor that is turned away gets no more. -/
theorem leads_of_refuse (x : Visitor) (d : Dir) :
    conduit.Leads (conduitOf P x .fresh d) (conduitOf P
      { x with
        conn := Function.update x.conn .toVisitor { x.conn .toVisitor with fin := true }
        refused := true } .fresh d) := by
  cases d with
  | toService =>
      refine leads_of_moves rfl rfl (Or.inl ?_)
      simp [conduitOf, Copy.stages, serverTransfers, Channel.fresh]
  | toVisitor =>
      refine leads_of_moves rfl rfl (Or.inr ⟨0, .cut, ?_⟩)
      cases hr : x.refused <;>
        simp [conduitOf, Copy.stages, serverTransfers, Channel.fresh, seamAt, seam, Pipe.stage,
          Transfer.stage, hr]

theorem leads_of_copy {s : State} (hI : Inv s) {ch w : Nat} {t : Transfers} {r : Copy}
    (hs : (s.channels ch).server = .forward w t) {f : Copy → Copy → Prop}
    (hstrip : ∀ near far t r, f ⟨near, t, far⟩ r → cmd.length ≤ (far .toService).buf.length →
      f ⟨near, t, far.strip⟩ ⟨r.near, r.t, r.far.strip⟩)
    (hmoves : ∀ c r, f c r → ∀ e, Moves (c.stages P e) (r.stages P e))
    (h : f ⟨(s.visitors w).conn, t, (s.channels ch).link⟩ r) (v : Nat) (d : Dir) :
    conduit.Leads (s.conduit P v d)
      (((s.setVisitor w { s.visitors w with conn := r.near }).setChannel ch
        { s.channels ch with link := r.far, server := .forward w r.t }).conduit P v d) := by
  have hmine := (hI.forwarding w ch).mpr ⟨t, hs⟩
  have hof : ∀ u, (s.setVisitor w { s.visitors w with conn := r.near }).channelOf u =
      s.channelOf u := fun _ => rfl
  rw [conduit_setChannel, hof]
  by_cases hvw : v = w
  · subst hvw
    rw [if_pos ((channelOf_eq hI.account).mpr hmine), setVisitor_self, State.conduit,
      channel_eq hI.account hmine]
    have hcopy := payload_copy (hI.ok ch) hs hstrip h
    refine leads_of_server ?_ ?_ ?_ ?_ ?_ ?_ (hmoves _ _ hcopy) d <;> rfl
  · have hne : s.channelOf v ≠ some ch := by
      refine channelOf_ne hI fun t' ht' => ?_
      rw [hs] at ht'
      exact hvw (ServerEnd.forward.inj ht').1.symm
    rw [if_neg hne, conduit_setVisitor, if_neg hvw]
    exact .refl _

/-- The visitor the pool has in hand is not forwarding yet. -/
theorem pool_waits {s : Service} {l : Listener} {visitors : Mpsc Nat CHAN_SIZE} {v ch : Nat}
    (hI : AccountInv s) (hp : s.pool = .tcp l visitors (.writing v ch)) :
    v ∉ s.forwarding.map Prod.fst := by
  intro h
  have hline := hI.visitors.1
  rw [Service.visitorLine, hp, List.pairwise_append] at hline
  have hv : v ∈ PoolTask.visitorLine (.tcp l visitors (.writing v ch)) := by
    simp [PoolTask.visitorLine, TcpPool.visitor]
  exact absurd (hline.2.2 v h v hv) (Nat.lt_irrefl _)

/-- The client copies, and has no bytes of its own. -/
theorem act_bytes {c c' : Channel} {a : ChannelAct} (h : run_data_channel P c a = some c') :
    c'.sent = c.sent ∧ c'.received = c.received := by
  unfold run_data_channel at h
  split at h
  · rcases readDataCmd_cases h with ⟨-, rfl⟩ | ⟨rest, -, rfl | rfl⟩ <;> exact ⟨rfl, rfl⟩
  · cases h
    exact ⟨rfl, rfl⟩
  · obtain ⟨r, -, rfl⟩ := Option.map_eq_some_iff.mp h
    exact ⟨rfl, rfl⟩
  · cases h
    exact ⟨rfl, rfl⟩
  · cases h

/-- **Each step of the tunnel is a step of each visitor's conduit, or none.** -/
theorem conduit_step {s s' : State} {a : Act} (hI : Inv s) (h : Step P s a s') (v : Nat) (d : Dir) :
    conduit.Leads (s.conduit P v d) (s'.conduit P v d) := by
  cases h with
  | service h hf hw hs hd =>
      rcases forwarding_step hI.account.tcp (service_cases h) with he | ⟨_, _, _, _, ha, -⟩
      · rw [conduit_service he]
        exact .refl _
      · exact absurd ha hf
  | @deliver svc h =>
      have he : svc.forwarding = s.service.forwarding := by
        rcases forwarding_step hI.account.tcp (service_cases h) with he | ⟨_, _, _, _, ha, -⟩
        · exact he
        · cases ha
      have hI' := inv_service hI h (by simp) (by simp)
      rw [conduit_keep hI', conduit_service he]
      · exact .refl _
      · intro t
        show (s.channels s.service.opened).server ≠ _
        rw [hI.unopened _ (Nat.le_refl _)]
        simp [Channel.fresh]
  | @spawnCopy svc l visitors w ch h hp =>
      obtain ⟨hne, hmem, -, -⟩ := writing_channel hI.account hp
      have hpool := hI.queued hne ch hmem
      have hI' := inv_spawnCopy hI h hp
      have hforw : (s.spawnCopy svc w ch).service.forwarding = s.service.forwarding ++ [(w, ch)] := by
        rw [written_service hp h]
        rfl
      have hline : w ∈ s.service.pool.visitorLine := by
        simp [hp, PoolTask.visitorLine, TcpPool.visitor]
      by_cases hvw : v = w
      · subst hvw
        have hwait := channel_waiting (s := s) (pool_waits hI.account hp)
        have hmine : (v, ch) ∈ (s.spawnCopy svc v ch).service.forwarding := by simp [hforw]
        have hx : (s.visitors v).refused = false := by
          by_contra hr
          obtain ⟨-, -, hl⟩ := hI.refused v (by simpa using hr)
          exact (hl.resolve_right (by simp [hne])) hline
        unfold State.conduit
        rw [hwait, channel_eq hI'.account hmine]
        show conduit.Leads _ (conduitOf P (s.visitors v) _ d)
        rw [State.spawnCopy, setChannel_self]
        exact leads_of_spawn hx ((hI.ok ch).pool hpool) d
      · have hof : (s.spawnCopy svc w ch).channelOf v = s.channelOf v := by
          unfold State.channelOf
          rw [hforw, List.find?_append]
          simp [Ne.symm hvw]
        have hne' : s.channelOf v ≠ some ch := channelOf_ne hI fun t => by rw [hpool]; simp
        have hsame : (s.spawnCopy svc w ch).channel v = s.channel v := by
          unfold State.channel
          rw [hof]
          cases hc : s.channelOf v with
          | none => rfl
          | some ch' =>
              have he : ch' ≠ ch := fun he => hne' (he ▸ hc)
              simp only [State.spawnCopy]
              rw [setChannel_other _ _ he]
        unfold State.conduit
        rw [hsame]
        exact .refl _
  | @writeFails svc l visitors w ch k h hp hk =>
      obtain ⟨-, hfw, -⟩ := writeFails_service hp h
      obtain ⟨hne, hmem, -, -⟩ := writing_channel hI.account hp
      have hI' := inv_service hI h (by simp) (by simp)
      rw [conduit_keep hI', conduit_service hfw]
      · exact .refl _
      · intro t
        show (s.channels ch).server ≠ _
        rw [hI.queued hne ch hmem]
        simp
  | @refuse w hv hn hl =>
      rw [conduit_setVisitor]
      split
      · rename_i he
        subst he
        unfold State.conduit
        rw [channel_waiting hn]
        exact leads_of_refuse _ d
      · exact .refl _
  | @discard ch hs hlt hl =>
      rw [conduit_keep hI _ v d fun t => by rw [hs]; simp]
      exact .refl _
  | @visitor w a x hv h =>
      rw [conduit_setVisitor]
      split
      · rename_i he
        subst he
        exact leads_of_visitor _ h d
      · exact .refl _
  | @localService ch a c t hc h =>
      rw [conduit_setChannel]
      split
      · rename_i he
        rw [State.conduit, State.channel, he]
        exact leads_of_local _ h d
      · exact .refl _
  | @server ch w t e a r hs h =>
      refine leads_of_copy hI hs (f := fun c r => CopyStep P c e a r) ?_ ?_ (copy_cases h) v d
      · exact fun _ _ _ _ h hlen => copy_strip h hlen
      · exact fun _ _ h => copy_moves h
  | @serverFails ch w t r hs h =>
      refine leads_of_copy hI hs (f := fun c r => r = c.abort) ?_ ?_ h v d
      · rintro near far t r rfl -
        exact (abort_strip near far t).symm
      · rintro c r rfl e
        exact abort_moves c e
  | @client ch a c hlt h =>
      rw [conduit_setChannel]
      split
      · rename_i he
        rw [State.conduit, State.channel, he]
        exact leads_of_client (act_bytes h).1 (act_bytes h).2 (server_act h) (client_moves h) d
      · exact .refl _

/-! ## 3. What arrives -/

theorem carries_tunnel {s : State} (h : (tunnel P).Reachable s) (v : Nat) (d : Dir) :
    Carries (s.conduit P v d) := by
  obtain ⟨tr, r⟩ := h
  refine carries_reachable (r.simulates (M := tunnel P) (I := Inv) (f := fun s => s.conduit P v d)
    ?_ ?_).1
  · rintro s rfl
    refine ⟨⟨?_, ?_, ?_⟩, inv_start P⟩
    · cases d <;> rfl
    · cases d <;> rfl
    · cases d <;> exact fun st hst => by
        simp [State.conduit, State.channel, State.channelOf, Service.new, conduitOf, Copy.stages,
          serverTransfers, Channel.fresh, Visitor.fresh, ClientEnd.transfers, Channel.payload] at hst
        rcases hst with rfl | rfl | rfl | rfl | rfl <;> exact ⟨rfl, rfl, rfl⟩
  · intro s a s' hI h
    have hstep := step_cases h
    exact ⟨conduit_step hI hstep v d, inv_step hI hstep⟩

/-- What the tunnel promises of the bytes, in one state. -/
structure Transparent (s : State) : Prop where
  toService : ∀ v ch, (v, ch) ∈ s.service.forwarding →
    (s.channels ch).received <+: (s.visitors v).sent
  toVisitor : ∀ v ch, (v, ch) ∈ s.service.forwarding →
    (s.visitors v).received <+: (s.channels ch).sent
  /-- a visitor has one connection to the local service, and shares it with nobody -/
  one_to_one : ∀ p ∈ s.service.forwarding, ∀ q ∈ s.service.forwarding,
    p = q ∨ (p.1 ≠ q.1 ∧ p.2 ≠ q.2)
  waiting : ∀ v, v ∉ s.service.forwarding.map Prod.fst → (s.visitors v).received = []
  unused : ∀ ch, ch ∉ s.service.forwarding.map Prod.snd →
    (s.channels ch).sent = [] ∧ (s.channels ch).received = []

/-- **The tunnel is transparent**, whatever fails and in whatever order its tasks run: behind each
    data channel the local service reads what one visitor has sent, from the first byte on and
    nothing else, and that visitor reads what the local service has answered there. No byte of the
    handshake or of the command is among them. -/
theorem tunnel_transparent {s : State} (h : (tunnel P).Reachable s) : Transparent s := by
  have hI := inv_reachable h
  refine ⟨fun v ch hp => ?_, fun v ch hp => ?_, fun p hp q hq => forwarding_once hI.account hp hq,
    fun v hv => ?_, fun ch hch => ?_⟩
  · have hc := (carries_tunnel h v .toService).received
    rw [State.conduit, channel_eq hI.account hp] at hc
    exact hc
  · have hc := (carries_tunnel h v .toVisitor).received
    rw [State.conduit, channel_eq hI.account hp] at hc
    exact hc
  · have hc := (carries_tunnel h v .toVisitor).received
    rw [State.conduit, channel_waiting hv] at hc
    exact List.prefix_nil.mp hc
  · cases hs : (s.channels ch).server with
    | pool => exact ⟨((hI.ok ch).waiting hs).2.1, ((hI.ok ch).waiting hs).2.2.1⟩
    | dropped => exact ⟨((hI.ok ch).dropped hs).2.1, ((hI.ok ch).dropped hs).2.2.1⟩
    | forward v t =>
        have hmem := (hI.forwarding v ch).mpr ⟨t, hs⟩
        exact absurd (List.mem_map_of_mem hmem) hch

/-! ### One request and its answer -/

def plain : Setup where
  heartbeat_interval := 30
  session_key := Vector.replicate 32 0
  digest _ := Vector.replicate 32 0
  service_type := .tcp
  window := 4096
  window_pos := by decide
  copy := copyBuffer 4096

/-- Visitor `0` sends its request before it has a data channel, and gets one. -/
def meeting : List Act :=
  [.service (.listener .bound), .service (.listener .accept), .service (.listener .enqueue),
    .service (.control .request), .service (.control (.written true)), .service (.client .command),
    .service (.client .deliver), .visitor 0 (.send [71, 69, 84]), .service (.pool .recvVisitor),
    .service (.pool .recvDataChannel), .service (.pool (.written true))]

/-- The local service reads two of its bytes, answers, and closes. -/
def answer : List Act :=
  [.client 0 .readCmd, .client 0 .connected, .server 0 .toService (.read 3),
    .server 0 .toService (.write 3), .client 0 (.copy .toService (.read 2)),
    .client 0 (.copy .toService (.write 2)), .localService 0 (.recv 2),
    .localService 0 (.send [79, 75]), .localService 0 .close, .client 0 (.copy .toVisitor (.read 2)),
    .client 0 (.copy .toVisitor (.write 2)), .client 0 (.copy .toVisitor .eof),
    .client 0 (.copy .toVisitor .shutdown), .server 0 .toVisitor (.read 2),
    .server 0 .toVisitor (.write 2), .server 0 .toVisitor .eof, .server 0 .toVisitor .shutdown,
    .visitor 0 (.recv 2)]

/-- What the schedule `as` leads to is a state of a run. -/
theorem reachable_exec (as : List Act) {α : Type} (f : State → α) {x : α}
    (h : ((tunnel plain).exec ⟨.new .tcp plain.heartbeat_interval, fun _ => .fresh,
      fun _ => .fresh⟩ as).map f = some x) : ∃ s, (tunnel plain).Reachable s ∧ f s = x := by
  obtain ⟨s, hs, rfl⟩ := Option.map_eq_some_iff.mp h
  exact ⟨s, (Reachable.start rfl).leads ⟨as, hs⟩, rfl⟩

theorem tunnel_transparent_answer : ∃ s, (tunnel plain).Reachable s ∧
    s.service.forwarding = [(0, 0)] ∧ (s.channels 0).received = [71, 69] ∧
    (s.visitors 0).received = [79, 75] ∧ Transparent s := by
  obtain ⟨s, hr, h⟩ := reachable_exec (meeting ++ answer)
    (fun s => (s.service.forwarding, (s.channels 0).received, (s.visitors 0).received)) rfl
  simp only [Prod.mk.injEq] at h
  exact ⟨s, hr, h.1, h.2.1, h.2.2, tunnel_transparent hr⟩

/-- One of the two copies between `v` and `ch` has failed, in direction `d`. -/
def State.Broken (s : State) (v ch : Nat) (d : Dir) : Prop :=
  serverTransfers (s.visitors v) (s.channels ch) d = .failed ∨
    (s.channels ch).client.transfers d = .failed

theorem unbroken_conduit {x : Visitor} {c : Channel} {d : Dir}
    (hs : serverTransfers x c d ≠ .failed) (hc : c.client.transfers d ≠ .failed) :
    Unbroken (conduitOf P x c d).stages := by
  have hstage {t : Transfer} (h : t ≠ .failed) : (t.stage P).broken = false := by
    cases t with
    | running held read_done => rfl
    | failed => exact absurd rfl h
  cases d <;> simp [conduitOf, Copy.stages, Unbroken, hstage hs, hstage hc, Pipe.stage]

/-- What the end of the stream says in one state. -/
structure EndsExactly (s : State) (v ch : Nat) : Prop where
  toService : (s.channels ch).local_ .toService = ⟨[], true⟩ → s.Broken v ch .toService ∨
    ((s.channels ch).received = (s.visitors v).sent ∧ ((s.visitors v).conn .toService).fin = true)
  toVisitor : (s.visitors v).conn .toVisitor = ⟨[], true⟩ → s.Broken v ch .toVisitor ∨
    ((s.visitors v).received = (s.channels ch).sent ∧
      ((s.channels ch).local_ .toVisitor).fin = true)

/-- **The end of the stream is the end of all that was sent**, in either direction, or one of the
    two copies has failed. Each direction ends on its own. -/
theorem tunnel_ends_exactly {s : State} (h : (tunnel P).Reachable s) {v ch : Nat}
    (hp : (v, ch) ∈ s.service.forwarding) : EndsExactly s v ch := by
  have hI := inv_reachable h
  have hend (d : Dir) (hb : ¬ s.Broken v ch d)
      (he : ended (conduitOf P (s.visitors v) (s.channels ch) d).stages) :
      (conduitOf P (s.visitors v) (s.channels ch) d).received =
          (conduitOf P (s.visitors v) (s.channels ch) d).sent ∧
        sourceClosed (conduitOf P (s.visitors v) (s.channels ch) d).stages := by
    have hc := carries_tunnel h v d
    rw [State.conduit, channel_eq hI.account hp] at hc
    have hb' := not_or.mp hb
    exact hc.ended (unbroken_conduit hb'.1 hb'.2) he
  constructor
  · intro he
    by_cases hb : s.Broken v ch .toService
    · exact Or.inl hb
    · have hfin : ((s.channels ch).local_ .toService).fin = true := by rw [he]
      have hbuf : ((s.channels ch).local_ .toService).buf = [] := by rw [he]
      exact Or.inr (hend .toService hb ⟨hfin, hbuf⟩)
  · intro he
    by_cases hb : s.Broken v ch .toVisitor
    · exact Or.inl hb
    · have hfin : ((s.visitors v).conn .toVisitor).fin = true := by rw [he]
      have hbuf : ((s.visitors v).conn .toVisitor).buf = [] := by rw [he]
      exact Or.inr (hend .toVisitor hb ⟨hfin, hbuf⟩)

theorem tunnel_ends_exactly_answer : ∃ s, (tunnel plain).Reachable s ∧
    (s.visitors 0).conn .toVisitor = ⟨[], true⟩ ∧ (s.visitors 0).received = [79, 75] ∧
    EndsExactly s 0 0 := by
  obtain ⟨s, hr, h⟩ := reachable_exec (meeting ++ answer)
    (fun s => (s.service.forwarding, (s.visitors 0).conn .toVisitor, (s.visitors 0).received))
    rfl
  simp only [Prod.mk.injEq] at h
  exact ⟨s, hr, h.2.1, h.2.2, tunnel_ends_exactly hr (by rw [h.1]; exact List.mem_cons_self)⟩

end Penetrate.Tunnel
