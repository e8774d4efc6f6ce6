/-
  File:      Penetrate/Tunnel/Steps.lean
  Subject:   THE RULES OF THE TUNNEL, AND ITS INVARIANT.

  * `Frame`, `service_frame`, `forwarding_step` -- what a step of the service leaves alone;
  * `Channel.Ok` -- what a data channel can be: nothing has happened to it but that its client gave
    up, until it is with a visitor; then the command stands in front until it is read;
  * `Step`, `step_cases` -- the rules;
  * `Inv`, `inv_step`, `inv_reachable` -- **the invariant**: the server's end of each data channel
    agrees with the pairs of the service, what is queued is untouched, and who was turned away
    gets no data channel.
-/
import Penetrate.Tunnel.Copy

namespace Penetrate.Tunnel

open Concurrent Machine Server Wire

/-! ## 1. What a step of the service leaves alone -/

/-- The data channels that are with the pool, or on the way to it. -/
def queued (s : Service) : List Nat := s.pool.channel ++ s.data_ch.items

/-- What a step of the service never does: it wakes no pool, numbers nothing anew, and lets nobody
    into the lines but the visitor and the data channel that come. -/
structure Frame (s s' : Service) : Prop where
  ended : s'.pool.ended = false → s.pool.ended = false
  visitors : s.visitors ≤ s'.visitors
  line : ∀ v ∈ s'.pool.visitorLine, v ∈ s.pool.visitorLine ∨ s.visitors ≤ v
  opened : s.opened ≤ s'.opened
  queued : ∀ ch ∈ queued s', ch ∈ queued s ∨ (ch = s.opened ∧ s.opened < s'.opened)

theorem frame_listener {s s' : Service} {a : ListenerAct} {l : Listener}
    {visitors : Mpsc Nat CHAN_SIZE} {p : TcpPool} (hp : s.pool = .tcp l visitors p)
    (h : ListenerStep s l visitors p a s') : Frame s s' := by
  have hq (l' : Listener) (q : Mpsc Nat CHAN_SIZE) :
      ∀ ch ∈ PoolTask.channel (.tcp l' q p) ++ s.data_ch.items,
        ch ∈ queued s ∨ (ch = s.opened ∧ s.opened < s.opened) :=
    fun ch hch => Or.inl (by rw [queued, hp]; exact hch)
  have he {l' : Listener} {q : Mpsc Nat CHAN_SIZE} :
      PoolTask.ended (.tcp l' q p) = false → s.pool.ended = false :=
    fun he => by rw [hp, ← he]; exact PoolTask.ended_congr
  cases h with
  | bound hl =>
      refine ⟨he, Nat.le_refl _, fun v hv => Or.inl ?_, Nat.le_refl _, hq _ _⟩
      simpa [hp, hl, PoolTask.visitorLine, Listener.visitor] using hv
  | acceptClosed hl hc =>
      refine ⟨he, Nat.le_succ _, fun v hv => Or.inl ?_, Nat.le_refl _, hq _ _⟩
      simpa [hp, hl, PoolTask.visitorLine, Listener.visitor] using hv
  | accept hl hc =>
      refine ⟨he, Nat.le_succ _, fun v hv => ?_, Nat.le_refl _, hq _ _⟩
      have hv' : v ∈ p.visitor ∨ v ∈ visitors.items ∨ v = s.visitors := by
        simpa [PoolTask.visitorLine, Listener.visitor] using hv
      rcases hv' with h | h | rfl
      · exact Or.inl (by simp [hp, PoolTask.visitorLine, h])
      · exact Or.inl (by simp [hp, PoolTask.visitorLine, h])
      · exact Or.inr (Nat.le_refl _)
  | enqueueClosed v hl he' =>
      refine ⟨he, Nat.le_refl _, fun v hv => Or.inl ?_, Nat.le_refl _, hq _ _⟩
      simp only [PoolTask.visitorLine, Listener.visitor, List.append_nil, List.mem_append] at hv
      rw [hp]
      simp only [PoolTask.visitorLine, List.mem_append]
      exact hv.imp_right Or.inl
  | enqueue v q hl hne hs =>
      refine ⟨he, Nat.le_refl _, fun w hw => Or.inl ?_, Nat.le_refl _, hq _ _⟩
      simpa [hp, hl, PoolTask.visitorLine, Listener.visitor, (Mpsc.send_eq_some hs).1] using hw
  | shutdown hl hh =>
      refine ⟨he, Nat.le_refl _, fun v hv => Or.inl ?_, Nat.le_refl _, hq _ _⟩
      rcases hl with rfl | rfl <;>
        simpa [hp, PoolTask.visitorLine, Listener.visitor] using hv

theorem frame_of_pool {s s' : Service} {l : Listener} {visitors q : Mpsc Nat CHAN_SIZE}
    {p p' : TcpPool} (hp : s.pool = .tcp l visitors p) (he : p ≠ .ended)
    (hp' : s'.pool = .tcp l q p') (hv : s'.visitors = s.visitors) (ho : s'.opened = s.opened)
    (hline : p'.visitor ++ q.items ⊆ p.visitor ++ visitors.items)
    (hqueue : p'.channel ++ s'.data_ch.items ⊆ p.channel ++ s.data_ch.items) : Frame s s' where
  ended _ := by
    rw [hp]
    cases p <;> first | rfl | exact absurd rfl he
  visitors := hv.ge
  line v hv' := by
    rw [hp', PoolTask.visitorLine, ← List.append_assoc] at hv'
    rw [hp, PoolTask.visitorLine, ← List.append_assoc]
    exact Or.inl (List.mem_append.mpr ((List.mem_append.mp hv').imp_left fun h => hline h))
  opened := ho.ge
  queued ch hch := by
    rw [queued, hp'] at hch
    rw [queued, hp]
    exact Or.inl (hqueue hch)

theorem frame_pool {s s' : Service} {a : PoolAct} {l : Listener}
    {visitors : Mpsc Nat CHAN_SIZE} {p : TcpPool} (hp : s.pool = .tcp l visitors p)
    (h : TcpPoolStep s l visitors p a s') : Frame s s' := by
  cases h with
  | recvVisitor v q he hq =>
      refine frame_of_pool hp (by simp [he]) rfl rfl rfl ?_ ?_
      · simp [he, TcpPool.visitor, Mpsc.recv_eq_some hq]
      · simp [he, TcpPool.channel]
  | visitorsClosed he hq hl =>
      refine frame_of_pool hp (by simp [he]) rfl rfl rfl ?_ ?_
      · simp [he, TcpPool.visitor]
      · simp [he, TcpPool.channel]
  | recvDataChannel v ch q he hq =>
      refine frame_of_pool hp (by simp [he]) rfl rfl rfl ?_ ?_
      · simp [he, TcpPool.visitor]
      · simp [he, TcpPool.channel, Mpsc.recv_eq_some hq]
  | dataChannelsClosed v he hq hh =>
      refine frame_of_pool hp (by simp [he]) rfl rfl rfl ?_ ?_
      · simp [he, TcpPool.visitor]
      · simp [he, TcpPool.channel]
  | written v ch he =>
      refine frame_of_pool hp (by simp [he]) rfl rfl rfl ?_ ?_
      · simp [he, TcpPool.visitor]
      · simp [he, TcpPool.channel]
  | brokenClosed v ch he hc =>
      refine frame_of_pool hp (by simp [he]) rfl rfl rfl ?_ ?_
      · simp [he, TcpPool.visitor]
      · simp [he, TcpPool.channel]
  | broken v ch he hc =>
      refine frame_of_pool hp (by simp [he]) rfl rfl rfl ?_ ?_
      · simp [he, TcpPool.visitor]
      · simp [he, TcpPool.channel]

theorem frame_client {s s' : Service} {a : ClientAct} (h : ClientStep s a s') : Frame s s' := by
  have hq {q : Mpsc Nat (CHAN_SIZE * 2)} (hs : s.data_ch.send s.opened = some q) :
      ∀ ch ∈ s.pool.channel ++ q.items,
        ch ∈ queued s ∨ (ch = s.opened ∧ s.opened < s.opened + 1) := by
    intro ch hch
    rw [(Mpsc.send_eq_some hs).1, ← List.append_assoc] at hch
    rcases List.mem_append.mp hch with h | h
    · exact Or.inl h
    · exact Or.inr ⟨List.mem_singleton.mp h, Nat.lt_succ_self _⟩
  cases h with
  | command hc => exact ⟨id, Nat.le_refl _, fun _ => Or.inl, Nat.le_refl _, fun _ => Or.inl⟩
  | attemptFails ha => exact ⟨id, Nat.le_refl _, fun _ => Or.inl, Nat.le_refl _, fun _ => Or.inl⟩
  | deliver q ha hh hp hs => exact ⟨id, Nat.le_refl _, fun _ => Or.inl, Nat.le_succ _, hq hs⟩
  | deliverLost ha hh hp =>
      exact ⟨id, Nat.le_refl _, fun _ => Or.inl, Nat.le_succ _, fun _ => Or.inl⟩
  | stray q hh hp hs => exact ⟨id, Nat.le_refl _, fun _ => Or.inl, Nat.le_succ _, hq hs⟩
  | strayLost hh hp => exact ⟨id, Nat.le_refl _, fun _ => Or.inl, Nat.le_succ _, fun _ => Or.inl⟩

theorem service_frame {s s' : Service} {a : ServiceAct} (ht : s.pool.serviceType = .tcp)
    (h : ServiceStep s a s') : Frame s s' := by
  cases h with
  | control h =>
      cases h <;> exact ⟨id, Nat.le_refl _, fun _ => Or.inl, Nat.le_refl _, fun _ => Or.inl⟩
  | listener hp h => exact frame_listener hp h
  | tcpPool hp h => exact frame_pool hp h
  | udpPool hp h =>
      rw [hp] at ht
      cases ht
  | client h => exact frame_client h
  | drop => exact ⟨id, Nat.le_refl _, fun _ => Or.inl, Nat.le_refl _, fun _ => Or.inl⟩

/-- Only the pool makes a pair, and only with the command written. -/
theorem forwarding_step {s s' : Service} {a : ServiceAct} (ht : s.pool.serviceType = .tcp)
    (h : ServiceStep s a s') :
    s'.forwarding = s.forwarding ∨
      ∃ l visitors v ch, a = .pool (.written true) ∧ s.pool = .tcp l visitors (.writing v ch) ∧
        s'.forwarding = s.forwarding ++ [(v, ch)] := by
  cases h with
  | control h => cases h <;> exact Or.inl rfl
  | listener hp h => cases h <;> exact Or.inl rfl
  | tcpPool hp h =>
      cases h with
      | written v ch he => exact Or.inr ⟨_, _, v, ch, rfl, he ▸ hp, rfl⟩
      | _ => exact Or.inl rfl
  | udpPool hp h =>
      rw [hp] at ht
      cases ht
  | client h => cases h <;> exact Or.inl rfl
  | drop => exact Or.inl rfl

/-! ## 2. Data channels -/

variable {P : Setup}

/-- **What a data channel can be**, by what the server has made of it. -/
structure Channel.Ok (c : Channel) : Prop where
  pool : c.server = .pool → c = .fresh ∨ c = Channel.fresh.clientFails
  forward : ∀ v t, c.server = .forward v t → c.client = .readCmd ∨ c.client = .noCmd →
    cmd <+: (c.link .toService).buf
  dropped : c.server = .dropped →
    (c.link .toService).buf.length < cmd.length ∧ c.sent = [] ∧ c.received = [] ∧
      (c.client = .readCmd ∨ c.client = .noCmd)

/-- **The invariant of the tunnel.** -/
structure Inv (s : State) : Prop where
  account : AccountInv s.service
  ok : ∀ ch, (s.channels ch).Ok
  forwarding : ∀ v ch, (v, ch) ∈ s.service.forwarding ↔ ∃ t, (s.channels ch).server = .forward v t
  queued : s.service.pool.ended = false → ∀ ch ∈ queued s.service, (s.channels ch).server = .pool
  unopened : ∀ ch, s.service.opened ≤ ch → s.channels ch = .fresh
  refused : ∀ v, (s.visitors v).refused = true →
    v < s.service.visitors ∧ v ∉ s.service.forwarding.map Prod.fst ∧
      (v ∉ s.service.pool.visitorLine ∨ s.service.pool.ended = true)

theorem cmd_length : cmd.length = 4 := fixed_dataCmd _

/-- What the client's failure leaves alone. -/
@[simp] theorem clientFails_server (c : Channel) : c.clientFails.server = c.server := rfl
@[simp] theorem clientFails_sent (c : Channel) : c.clientFails.sent = c.sent := rfl
@[simp] theorem clientFails_received (c : Channel) : c.clientFails.received = c.received := rfl
@[simp] theorem clientFails_link (c : Channel) :
    c.clientFails.link .toService = c.link .toService := by
  simp [Channel.clientFails, Copy.abort]

theorem clientFails_noCmd (c : Channel) :
    (c.clientFails.client = .readCmd ∨ c.clientFails.client = .noCmd) ↔
      (c.client = .readCmd ∨ c.client = .noCmd) := by
  cases hc : c.client <;> simp [Channel.clientFails, hc]

theorem fresh_clientFails_twice :
    Channel.fresh.clientFails.clientFails = Channel.fresh.clientFails := by
  simp only [Channel.clientFails, Channel.fresh, Copy.abort, ClientEnd.transfers, Transfers.fresh]
  congr 1 <;> funext e <;> cases e <;> simp [abortTransfer]

theorem ok_fresh : Channel.fresh.Ok where
  pool _ := Or.inl rfl
  forward _ _ h := by cases h
  dropped h := by cases h

theorem ok_clientFails {c : Channel} (h : c.Ok) : c.clientFails.Ok where
  pool hs := by
    rcases h.pool hs with rfl | rfl
    · exact Or.inr rfl
    · exact Or.inr fresh_clientFails_twice
  forward v t hs hc := by
    rw [clientFails_link]
    exact h.forward v t hs ((clientFails_noCmd c).mp hc)
  dropped hs := by
    obtain ⟨hb, hsent, hrec, hc⟩ := h.dropped hs
    exact ⟨by rwa [clientFails_link], hsent, hrec, (clientFails_noCmd c).mpr hc⟩

/-- Nobody has written into a data channel that waits. -/
theorem Channel.Ok.waiting {c : Channel} (h : c.Ok) (hs : c.server = .pool) :
    (c.link .toService).buf = [] ∧ c.sent = [] ∧ c.received = [] ∧
      (c.client = .readCmd ∨ c.client = .noCmd) := by
  rcases h.pool hs with rfl | rfl
  · exact ⟨rfl, rfl, rfl, Or.inl rfl⟩
  · exact ⟨by rw [clientFails_link]; rfl, rfl, rfl, Or.inr rfl⟩

theorem ok_dropped {c : Channel} {p : Pipe} (h : c.Ok) (hs : c.server = .pool)
    (hp : p.buf.length < cmd.length) :
    Channel.Ok { c with link := Function.update c.link .toService p, server := .dropped } where
  pool he := by cases he
  forward _ _ he := by cases he
  dropped _ := ⟨by simpa using hp, (h.waiting hs).2⟩

/-- A data channel that has carried a command is with a visitor. -/
theorem Channel.Ok.taken {c : Channel} (h : c.Ok) (hlen : cmd.length ≤ (c.link .toService).buf.length) :
    ∃ v t, c.server = .forward v t := by
  cases hs : c.server with
  | forward v t => exact ⟨v, t, rfl⟩
  | pool =>
      rw [(h.waiting hs).1, cmd_length] at hlen
      exact absurd hlen (by simp)
  | dropped => exact absurd (h.dropped hs).1 (Nat.not_lt.mpr hlen)

/-- So is one whose client has gone on from there. -/
theorem Channel.Ok.commanded {c : Channel} (h : c.Ok) (hc : c.client ≠ .readCmd)
    (hn : c.client ≠ .noCmd) : ∃ v t, c.server = .forward v t := by
  cases hs : c.server with
  | forward v t => exact ⟨v, t, rfl⟩
  | pool =>
      rcases h.pool hs with rfl | rfl
      · exact absurd rfl hc
      · exact absurd rfl hn
  | dropped => exact absurd (h.dropped hs).2.2.2 (by simp [hc, hn])

theorem ok_forward {c : Channel} (h : ∃ v t, c.server = .forward v t)
    (hc : c.client = .readCmd ∨ c.client = .noCmd → cmd <+: (c.link .toService).buf) : c.Ok := by
  obtain ⟨v, t, hs⟩ := h
  exact ⟨(fun he => absurd (hs ▸ he) (by simp)), fun _ _ _ => hc,
    fun he => absurd (hs ▸ he) (by simp)⟩

/-- The channel with its command read. -/
def Channel.commanded (c : Channel) (rest : Bytes) : Channel :=
  { c with
    link := Function.update c.link .toService { c.link .toService with buf := rest }
    client := .connecting }

/-- **What `read_data_cmd` can come to.** -/
theorem readDataCmd_cases {c c' : Channel} (h : c.readDataCmd P = some c') :
    (¬ ((c.link .toService).buf.length < 4 ∧ (c.link .toService).fin = false) ∧
        c' = c.clientFails) ∨
      ∃ rest, (c.link .toService).buf = cmd ++ rest ∧
        (c' = c.commanded rest ∨ c' = (c.commanded rest).clientFails) := by
  unfold Channel.readDataCmd at h
  split at h
  · cases h
  · rename_i hn
    split at h
    · cases h
      exact Or.inl ⟨hn, rfl⟩
    · rename_i rest hr
      rw [read_data_cmd, packetLength_new] at hr
      have hb := (readPacket_eq_ok fixed_dataCmd).mp hr
      refine Or.inr ⟨rest, hb.symm, ?_⟩
      simp only at h
      split at h
      · cases h
        exact Or.inr rfl
      · cases h
        exact Or.inl rfl
    · cases h

theorem readDataCmd_eq {c : Channel} {rest : Bytes} (ht : P.service_type = .tcp)
    (h : (c.link .toService).buf = cmd ++ rest) : c.readDataCmd P = some (c.commanded rest) := by
  have hlen : ¬ ((c.link .toService).buf.length < 4 ∧ (c.link .toService).fin = false) := by
    rw [h, List.length_append, cmd_length]
    omega
  have hr : read_data_cmd (PacketLength.new P.digest) (c.link .toService).buf =
      .ok (.startForwardTcp, rest) := by
    rw [read_data_cmd, packetLength_new]
    exact (readPacket_eq_ok fixed_dataCmd).mpr h.symm
  rw [Channel.readDataCmd, if_neg hlen, hr]
  simp [ht, Channel.commanded]

theorem ok_act {c c' : Channel} {a : ChannelAct} (h : run_data_channel P c a = some c')
    (hc : c.Ok) : c'.Ok := by
  unfold run_data_channel at h
  split at h
  · rename_i hcl
    rcases readDataCmd_cases h with ⟨-, rfl⟩ | ⟨rest, hb, hc'⟩
    · exact ok_clientFails hc
    · have hs := hc.taken (by rw [hb, List.length_append]; omega)
      have hok : (c.commanded rest).Ok := ok_forward hs fun he => by simp [Channel.commanded] at he
      rcases hc' with rfl | rfl
      · exact hok
      · exact ok_clientFails hok
  · rename_i hcl
    cases h
    exact ok_forward (hc.commanded (by simp [hcl]) (by simp [hcl])) fun he => by simp at he
  · rename_i d a t hcl
    obtain ⟨r, -, rfl⟩ := Option.map_eq_some_iff.mp h
    exact ok_forward (hc.commanded (by simp [hcl]) (by simp [hcl])) fun he => by simp at he
  · cases h
    exact ok_clientFails hc
  · cases h

theorem server_act {c c' : Channel} {a : ChannelAct} (h : run_data_channel P c a = some c') :
    c'.server = c.server := by
  unfold run_data_channel at h
  split at h
  · rcases readDataCmd_cases h with ⟨-, rfl⟩ | ⟨rest, -, rfl | rfl⟩ <;> rfl
  · cases h
    rfl
  · obtain ⟨r, -, rfl⟩ := Option.map_eq_some_iff.mp h
    rfl
  · cases h
    rfl
  · cases h

/-- What the local service does touches its own stream and its own bytes. -/
theorem local_cases {c c' : Channel} {a : EndAct} (h : c.act P a = some c') :
    (∃ bs p, a = .send bs ∧ (c.local_ .toVisitor).write P bs = some p ∧
        c' = { c with local_ := Function.update c.local_ .toVisitor p, sent := c.sent ++ bs }) ∨
      (∃ p, a = .close ∧ (c.local_ .toVisitor).close = some p ∧
        c' = { c with local_ := Function.update c.local_ .toVisitor p }) ∨
      ∃ n bs p, a = .recv n ∧ (c.local_ .toService).read n = some (bs, p) ∧
        c' = { c with
          local_ := Function.update c.local_ .toService p, received := c.received ++ bs } := by
  cases a with
  | send bs =>
      obtain ⟨p, hp, rfl⟩ := Option.map_eq_some_iff.mp h
      exact Or.inl ⟨bs, p, rfl, hp, rfl⟩
  | close =>
      obtain ⟨p, hp, rfl⟩ := Option.map_eq_some_iff.mp h
      exact Or.inr (Or.inl ⟨p, rfl, hp, rfl⟩)
  | recv n =>
      obtain ⟨⟨bs, p⟩, hp, rfl⟩ := Option.map_eq_some_iff.mp h
      exact Or.inr (Or.inr ⟨n, bs, p, rfl, hp, rfl⟩)

theorem visitor_cases {x x' : Visitor} {a : EndAct} (h : x.act P a = some x') :
    (∃ bs p, a = .send bs ∧ (x.conn .toService).write P bs = some p ∧
        x' = { x with conn := Function.update x.conn .toService p, sent := x.sent ++ bs }) ∨
      (∃ p, a = .close ∧ (x.conn .toService).close = some p ∧
        x' = { x with conn := Function.update x.conn .toService p }) ∨
      ∃ n bs p, a = .recv n ∧ (x.conn .toVisitor).read n = some (bs, p) ∧
        x' = { x with
          conn := Function.update x.conn .toVisitor p, received := x.received ++ bs } := by
  cases a with
  | send bs =>
      obtain ⟨p, hp, rfl⟩ := Option.map_eq_some_iff.mp h
      exact Or.inl ⟨bs, p, rfl, hp, rfl⟩
  | close =>
      obtain ⟨p, hp, rfl⟩ := Option.map_eq_some_iff.mp h
      exact Or.inr (Or.inl ⟨p, rfl, hp, rfl⟩)
  | recv n =>
      obtain ⟨⟨bs, p⟩, hp, rfl⟩ := Option.map_eq_some_iff.mp h
      exact Or.inr (Or.inr ⟨n, bs, p, rfl, hp, rfl⟩)

/-! ## 3. What a step does -/

/-- **The rules of the tunnel.** -/
inductive Step (P : Setup) (s : State) : Act → State → Prop where
  /-- a task of the service goes on, and no pair is made -/
  | service {a : ServiceAct} {svc : Service} (h : s.service.step a = some svc)
      (hf : a ≠ .pool (.written true)) (hw : a ≠ .pool (.written false)) (hs : a ≠ .client .stray)
      (hd : a ≠ .client .deliver) : Step P s (.service a) { s with service := svc }
  | deliver {svc : Service} (h : s.service.step (.client .deliver) = some svc) :
      Step P s (.service (.client .deliver))
        ({ s with service := svc }.setChannel s.service.opened .fresh)
  | spawnCopy {svc : Service} {l : Listener} {visitors : Mpsc Nat CHAN_SIZE} {v ch : Nat}
      (h : s.service.step (.pool (.written true)) = some svc)
      (hp : s.service.pool = .tcp l visitors (.writing v ch)) :
      Step P s (.service (.pool (.written true))) (s.spawnCopy svc v ch)
  | writeFails {svc : Service} {l : Listener} {visitors : Mpsc Nat CHAN_SIZE} {v ch k : Nat}
      (h : s.service.step (.pool (.written false)) = some svc)
      (hp : s.service.pool = .tcp l visitors (.writing v ch)) (hk : k < cmd.length) :
      Step P s (.writeFails k)
        ({ s with service := svc }.setChannel ch
          { s.channels ch with
            link := Function.update (s.channels ch).link .toService
              ⟨((s.channels ch).link .toService).buf ++ cmd.take k, true⟩
            server := .dropped })
  | refuse {v : Nat} (hv : v < s.service.visitors)
      (hn : v ∉ s.service.forwarding.map Prod.fst)
      (hl : v ∉ s.service.pool.visitorLine ∨ s.service.pool.ended = true) :
      Step P s (.refuse v)
        (s.setVisitor v
          { s.visitors v with
            conn := Function.update (s.visitors v).conn .toVisitor
              { (s.visitors v).conn .toVisitor with fin := true }
            refused := true })
  | discard {ch : Nat} (hs : (s.channels ch).server = .pool) (hlt : ch < s.service.opened)
      (hl : ch ∉ s.service.channelLine ∨ s.service.pool.ended = true) :
      Step P s (.discard ch)
        (s.setChannel ch
          { s.channels ch with
            link := Function.update (s.channels ch).link .toService
              { (s.channels ch).link .toService with fin := true }
            server := .dropped })
  | visitor {v : Nat} {a : EndAct} {x : Visitor} (hv : v < s.service.visitors)
      (h : (s.visitors v).act P a = some x) : Step P s (.visitor v a) (s.setVisitor v x)
  | localService {ch : Nat} {a : EndAct} {c : Channel} {t : Transfers}
      (hc : (s.channels ch).client = .forward t) (h : (s.channels ch).act P a = some c) :
      Step P s (.localService ch a) (s.setChannel ch c)
  | server {ch v : Nat} {t : Transfers} {d : Dir} {a : CopyAct} {r : Copy}
      (hs : (s.channels ch).server = .forward v t)
      (h : copy_bidirectional P ⟨(s.visitors v).conn, t, (s.channels ch).link⟩ d a = some r) :
      Step P s (.server ch d a)
        ((s.setVisitor v { s.visitors v with conn := r.near }).setChannel ch
          { s.channels ch with link := r.far, server := .forward v r.t })
  | serverFails {ch v : Nat} {t : Transfers} {r : Copy}
      (hs : (s.channels ch).server = .forward v t)
      (h : r = Copy.abort ⟨(s.visitors v).conn, t, (s.channels ch).link⟩) :
      Step P s (.serverFails ch)
        ((s.setVisitor v { s.visitors v with conn := r.near }).setChannel ch
          { s.channels ch with link := r.far, server := .forward v r.t })
  | client {ch : Nat} {a : ChannelAct} {c : Channel} (hlt : ch < s.service.opened)
      (h : run_data_channel P (s.channels ch) a = some c) :
      Step P s (.client ch a) (s.setChannel ch c)

theorem deliver_eq {s s' : State} {svc : Service} (h : s.deliver P svc = some s') :
    s' = { s with service := svc }.setChannel s.service.opened .fresh := by
  unfold State.deliver at h
  simp only at h
  split at h
  · rename_i v nonce rest hr
    obtain ⟨-, hb⟩ := read_hello_eq_ok.mp hr
    have hrest : rest = [] := by
      have hlen := congrArg List.length hb
      rw [List.length_append, show (serialize Hello.codec _).length = 37 from fixed_hello _,
        show (serialize Hello.codec _).length = 37 from fixed_hello _] at hlen
      exact List.eq_nil_of_length_eq_zero (by omega)
    cases h
    subst hrest
    congr 1
    have hfresh : Function.update Stream.fresh .toVisitor ⟨[], false⟩ = Stream.fresh :=
      Function.update_eq_self _ _
    rw [hfresh]
    rfl
  · cases h

theorem serviceStep_cases {s s' : State} {a : ServiceAct} (h : s.serviceStep P a = some s') :
    Step P s (.service a) s' := by
  obtain ⟨svc, hs, h⟩ := Option.bind_eq_some_iff.mp h
  split at h
  · cases h
  · rw [deliver_eq h]
    exact .deliver hs
  · rename_i hp
    cases h
    exact .spawnCopy hs (by assumption)
  · cases h
  · rename_i hstray hdel hwritten _ _
    cases h
    exact .service hs (fun he => hwritten true he) (fun he => hwritten false he)
      (fun he => hstray he) fun he => hdel he

theorem step_cases {s s' : State} {a : Act} (h : step P s a = some s') : Step P s a s' := by
  cases a with
  | service a => exact serviceStep_cases h
  | writeFails k =>
      obtain ⟨svc, hs, h⟩ := Option.bind_eq_some_iff.mp h
      split at h
      · rename_i hp
        simp only at h
        split at h
        · rename_i hk
          cases h
          exact .writeFails hs hp hk
        · cases h
      · cases h
  | refuse v =>
      have h' : s.refuse v = some s' := h
      unfold State.refuse at h'
      simp only at h'
      split at h'
      · rename_i hg
        cases h'
        exact .refuse hg.1 hg.2.1 hg.2.2
      · cases h'
  | discard ch =>
      have h' : s.discard ch = some s' := h
      unfold State.discard at h'
      simp only at h'
      split at h'
      · rename_i hs
        split at h'
        · rename_i hg
          cases h'
          exact .discard hs hg.1 hg.2
        · cases h'
      · cases h'
  | visitor v a =>
      rw [step] at h
      split at h
      · rename_i hv
        obtain ⟨x, hx, rfl⟩ := Option.map_eq_some_iff.mp h
        exact .visitor hv hx
      · cases h
  | localService ch a =>
      rw [step] at h
      split at h
      · rename_i t hc
        obtain ⟨c, hx, rfl⟩ := Option.map_eq_some_iff.mp h
        exact .localService hc hx
      · cases h
  | server ch d a =>
      have h' : s.serverCopy ch (fun c => copy_bidirectional P c d a) = some s' := h
      unfold State.serverCopy at h'
      split at h'
      · rename_i v t hs
        obtain ⟨r, hr, rfl⟩ := Option.map_eq_some_iff.mp h'
        exact .server hs hr
      · cases h'
  | serverFails ch =>
      have h' : s.serverCopy ch (fun c => some c.abort) = some s' := h
      unfold State.serverCopy at h'
      split at h'
      · rename_i v t hs
        cases h'
        exact .serverFails hs rfl
      · cases h'
  | client ch a =>
      rw [step] at h
      split at h
      · rename_i hlt
        obtain ⟨c, hc, rfl⟩ := Option.map_eq_some_iff.mp h
        exact .client hlt hc
      · cases h

/-! ## 4. The invariant holds -/

@[simp] theorem setChannel_service (s : State) (ch : Nat) (c : Channel) :
    (s.setChannel ch c).service = s.service := rfl
@[simp] theorem setChannel_visitors (s : State) (ch : Nat) (c : Channel) :
    (s.setChannel ch c).visitors = s.visitors := rfl
@[simp] theorem setChannel_self (s : State) (ch : Nat) (c : Channel) :
    (s.setChannel ch c).channels ch = c := by simp [State.setChannel]
theorem setChannel_other (s : State) {ch ch' : Nat} (c : Channel) (h : ch' ≠ ch) :
    (s.setChannel ch c).channels ch' = s.channels ch' := by simp [State.setChannel, h]

@[simp] theorem setVisitor_service (s : State) (v : Nat) (x : Visitor) :
    (s.setVisitor v x).service = s.service := rfl
@[simp] theorem setVisitor_channels (s : State) (v : Nat) (x : Visitor) :
    (s.setVisitor v x).channels = s.channels := rfl
@[simp] theorem setVisitor_self (s : State) (v : Nat) (x : Visitor) :
    (s.setVisitor v x).visitors v = x := by simp [State.setVisitor]
theorem setVisitor_other (s : State) {v v' : Nat} (x : Visitor) (h : v' ≠ v) :
    (s.setVisitor v x).visitors v' = s.visitors v' := by simp [State.setVisitor, h]

/-- Nobody has lost more than the new state says: the rule for one visitor. -/
theorem inv_setVisitor {s : State} {v : Nat} {x : Visitor} (hI : Inv s)
    (hr : x.refused = true → v < s.service.visitors ∧ v ∉ s.service.forwarding.map Prod.fst ∧
      (v ∉ s.service.pool.visitorLine ∨ s.service.pool.ended = true)) : Inv (s.setVisitor v x) where
  account := hI.account
  ok := hI.ok
  forwarding := hI.forwarding
  queued := hI.queued
  unopened := hI.unopened
  refused w hw := by
    by_cases hwv : w = v
    · subst hwv
      rw [setVisitor_self] at hw
      exact hr hw
    · rw [setVisitor_other s x hwv] at hw
      exact hI.refused w hw

/-- The rule for one data channel that stays with whom it is. -/
theorem inv_setChannel {s : State} {ch : Nat} {c : Channel} (hI : Inv s) (hlt : ch < s.service.opened)
    (hok : c.Ok) (hs : ∀ v, (∃ t, c.server = .forward v t) ↔
      ∃ t, (s.channels ch).server = .forward v t)
    (hq : s.service.pool.ended = false → ch ∈ queued s.service → c.server = .pool) :
    Inv (s.setChannel ch c) where
  account := hI.account
  ok ch' := by
    by_cases he : ch' = ch
    · subst he
      rw [setChannel_self]
      exact hok
    · rw [setChannel_other s c he]
      exact hI.ok ch'
  forwarding v ch' := by
    by_cases he : ch' = ch
    · subst he
      rw [setChannel_self, hs v]
      exact hI.forwarding v ch'
    · rw [setChannel_other s c he]
      exact hI.forwarding v ch'
  queued hne ch' hch := by
    by_cases he : ch' = ch
    · subst he
      rw [setChannel_self]
      exact hq hne hch
    · rw [setChannel_other s c he]
      exact hI.queued hne ch' hch
  unopened ch' hle := by
    have he : ch' ≠ ch := fun he => absurd hlt (Nat.not_lt.mpr (he ▸ hle))
    rw [setChannel_other s c he]
    exact hI.unopened ch' hle
  refused := hI.refused

/-- A step of a task of the service that makes no pair. -/
theorem inv_service {s : State} {svc : Service} {a : ServiceAct} (hI : Inv s)
    (h : s.service.step a = some svc) (hs : a ≠ .client .stray) (hf : a ≠ .pool (.written true)) :
    Inv { s with service := svc } := by
  have hstep := service_cases h
  have hframe := service_frame hI.account.tcp hstep
  have hforw : svc.forwarding = s.service.forwarding := by
    rcases forwarding_step hI.account.tcp hstep with h | ⟨l, q, v, ch, ha, -⟩
    · exact h
    · exact absurd ha hf
  refine ⟨accountInv_step hI.account hs hstep, hI.ok, ?_, ?_, ?_, ?_⟩
  · intro v ch
    rw [show (State.mk svc s.visitors s.channels).service.forwarding = _ from hforw]
    exact hI.forwarding v ch
  · intro he ch hch
    rcases hframe.queued ch hch with h | ⟨rfl, -⟩
    · exact hI.queued (hframe.ended he) ch h
    · show (s.channels s.service.opened).server = .pool
      rw [hI.unopened _ (Nat.le_refl _)]
      rfl
  · intro ch hle
    exact hI.unopened ch (Nat.le_trans hframe.opened hle)
  · intro v hv
    obtain ⟨hlt, hn, hl⟩ := hI.refused v hv
    refine ⟨Nat.lt_of_lt_of_le hlt hframe.visitors, ?_, ?_⟩
    · show v ∉ svc.forwarding.map Prod.fst
      rwa [hforw]
    · show v ∉ svc.pool.visitorLine ∨ svc.pool.ended = true
      cases he : svc.pool.ended with
      | true => exact Or.inr rfl
      | false =>
          refine Or.inl fun hmem => ?_
          rcases hframe.line v hmem with h | h
          · rcases hl with hl | hl
            · exact hl h
            · rw [hframe.ended he] at hl
              cases hl
          · exact absurd hlt (Nat.not_lt.mpr h)

theorem mem_channelLine {s : Service} {ch : Nat} (h : ch ∈ queued s) : ch ∈ s.channelLine :=
  List.mem_append_right _ h

/-- The data channel the pool writes to is in nobody else's hands. -/
theorem writing_channel {s : Service} {l : Listener} {visitors : Mpsc Nat CHAN_SIZE} {v ch : Nat}
    (hI : AccountInv s) (hp : s.pool = .tcp l visitors (.writing v ch)) :
    s.pool.ended = false ∧ ch ∈ queued s ∧ ch < s.opened ∧ ch ∉ s.data_ch.items := by
  have hq : queued s = ch :: s.data_ch.items := by
    rw [queued, hp]
    rfl
  have hmem : ch ∈ queued s := by
    rw [hq]
    exact List.mem_cons_self
  refine ⟨by rw [hp]; rfl, hmem, hI.channels.2 ch (mem_channelLine hmem), fun hin => ?_⟩
  have hline : s.channelLine = s.forwarding.map Prod.snd ++ ch :: s.data_ch.items := by
    rw [← hq]
    rfl
  have hpw := hI.channels.1
  rw [hline, List.pairwise_append] at hpw
  exact absurd ((List.pairwise_cons.mp hpw.2.1).1 ch hin) (Nat.lt_irrefl _)

theorem written_service {s svc : Service} {l : Listener} {visitors : Mpsc Nat CHAN_SIZE}
    {v ch : Nat} (hp : s.pool = .tcp l visitors (.writing v ch))
    (h : s.step (.pool (.written true)) = some svc) :
    svc = { s with pool := .tcp l visitors .recvVisitor, forwarding := s.forwarding ++ [(v, ch)] } := by
  have h' : runPool s (.written true) = some svc := h
  rw [runPool, hp] at h'
  cases h'
  rfl

theorem writeFails_service {s svc : Service} {l : Listener} {visitors : Mpsc Nat CHAN_SIZE}
    {v ch : Nat} (hp : s.pool = .tcp l visitors (.writing v ch))
    (h : s.step (.pool (.written false)) = some svc) :
    svc.opened = s.opened ∧ svc.forwarding = s.forwarding ∧ queued svc = s.data_ch.items := by
  have h' : runPool s (.written false) = some svc := h
  rw [runPool, hp] at h'
  rcases tcpPool_cases h' with _ | _ | _ | _ | _ | ⟨_, _, _, _⟩ | ⟨_, _, _, _⟩ <;>
    exact ⟨rfl, rfl, rfl⟩

theorem inv_spawnCopy {s : State} {svc : Service} {l : Listener} {visitors : Mpsc Nat CHAN_SIZE}
    {v ch : Nat} (hI : Inv s) (h : s.service.step (.pool (.written true)) = some svc)
    (hp : s.service.pool = .tcp l visitors (.writing v ch)) : Inv (s.spawnCopy svc v ch) := by
  have hstep := service_cases h
  have hframe := service_frame hI.account.tcp hstep
  have haccount := accountInv_step hI.account (by simp) hstep
  obtain ⟨hne, hmem, hlt, hnot⟩ := writing_channel hI.account hp
  have hpool := hI.queued hne ch hmem
  obtain rfl := written_service hp h
  refine ⟨haccount, fun ch' => ?_, fun w ch' => ?_, fun _ ch' hch' => ?_, fun ch' hle => ?_, ?_⟩
  · by_cases he : ch' = ch
    · subst he
      rw [State.spawnCopy, setChannel_self]
      refine ok_forward ⟨v, _, rfl⟩ fun _ => ?_
      simp [Channel.spawned, ((hI.ok ch').waiting hpool).1]
    · rw [State.spawnCopy, setChannel_other _ _ he]
      exact hI.ok ch'
  · have hold := hI.forwarding w ch'
    show (w, ch') ∈ s.service.forwarding ++ [(v, ch)] ↔ _
    rw [List.mem_append, List.mem_singleton, State.spawnCopy]
    by_cases he : ch' = ch
    · subst he
      rw [setChannel_self, hold, hpool]
      simp only [reduceCtorEq, exists_false, false_or, Prod.mk.injEq, and_true]
      exact ⟨fun hw => ⟨.fresh, by rw [hw]; rfl⟩, fun ⟨t, ht⟩ => (ServerEnd.forward.inj ht).1.symm⟩
    · rw [setChannel_other _ _ he, hold]
      simp [he]
  · have hch : ch' ∈ s.service.data_ch.items := hch'
    have he : ch' ≠ ch := fun he => hnot (he ▸ hch)
    rw [State.spawnCopy, setChannel_other _ _ he]
    exact hI.queued hne ch' (List.mem_append_right _ hch)
  · have hle' : s.service.opened ≤ ch' := hle
    rw [State.spawnCopy, setChannel_other _ _ (by omega)]
    exact hI.unopened ch' hle'
  · intro w hw
    obtain ⟨hlt, hn, hl⟩ := hI.refused w hw
    have hl' : w ∉ s.service.pool.visitorLine := hl.resolve_right (by simp [hne])
    have hwv : w ≠ v := by
      rintro rfl
      exact hl' (by simp [hp, PoolTask.visitorLine, TcpPool.visitor])
    refine ⟨hlt, ?_, Or.inl fun hin => ?_⟩
    · show w ∉ (s.service.forwarding ++ [(v, ch)]).map Prod.fst
      simp only [List.map_append, List.map_cons, List.map_nil, List.mem_append, List.mem_singleton]
      exact fun h => h.elim hn hwv
    · rcases hframe.line w hin with h | h
      · exact hl' h
      · exact absurd hlt (Nat.not_lt.mpr h)

theorem opened_of_server {s : State} (hI : Inv s) {ch v : Nat} {t : Transfers}
    (hs : (s.channels ch).server = .forward v t) : ch < s.service.opened := by
  by_contra hle
  rw [hI.unopened ch (Nat.not_lt.mp hle)] at hs
  cases hs

theorem inv_copy {s : State} {ch v : Nat} {t : Transfers} {r : Copy} (hI : Inv s)
    (hs : (s.channels ch).server = .forward v t)
    (hr : ((s.channels ch).link .toService).buf <+: (r.far .toService).buf) :
    Inv ((s.setVisitor v { s.visitors v with conn := r.near }).setChannel ch
      { s.channels ch with link := r.far, server := .forward v r.t }) := by
  have hlt := opened_of_server hI hs
  refine inv_setChannel (inv_setVisitor hI fun h => hI.refused v h) hlt (ok_forward ⟨v, _, rfl⟩ ?_)
    ?_ ?_
  · exact fun hc => ((hI.ok ch).forward v t hs hc).trans hr
  · intro w
    rw [setVisitor_channels, hs]
    constructor
    · rintro ⟨t', h⟩
      exact ⟨t, by rw [(ServerEnd.forward.inj h).1]⟩
    · rintro ⟨t', h⟩
      exact ⟨r.t, by rw [(ServerEnd.forward.inj h).1]⟩
  · intro he hin
    exact absurd (hs ▸ hI.queued he ch hin) (by simp)

theorem inv_start (P : Setup) : Inv ⟨.new .tcp P.heartbeat_interval, fun _ => .fresh, fun _ => .fresh⟩ where
  account := accountInv_new _
  ok _ := ok_fresh
  forwarding v ch := by simp [Service.new, Channel.fresh]
  queued _ ch h := rfl
  unopened _ _ := rfl
  refused v h := by cases h

theorem inv_step {s s' : State} {a : Act} (hI : Inv s) (h : Step P s a s') : Inv s' := by
  cases h with
  | service h hf hw hs hd => exact inv_service hI h hs hf
  | @deliver svc h =>
      have hI' := inv_service hI h (by simp) (by simp)
      have heq : { s with service := svc }.setChannel s.service.opened .fresh =
          { s with service := svc } := by
        unfold State.setChannel
        congr 1
        exact Function.update_eq_self_iff.mpr (hI.unopened _ (Nat.le_refl _)).symm
      rw [heq]
      exact hI'
  | spawnCopy h hp => exact inv_spawnCopy hI h hp
  | @writeFails svc l visitors v ch k h hp hk =>
      have hI' := inv_service hI h (by simp) (by simp)
      obtain ⟨hne, hmem, hlt, hnot⟩ := writing_channel hI.account hp
      have hpool := hI.queued hne ch hmem
      obtain ⟨hop, hfw, hq⟩ := writeFails_service hp h
      refine inv_setChannel hI' (by rw [hop]; exact hlt) (ok_dropped (hI.ok ch) hpool ?_) ?_ ?_
      · simp only [((hI.ok ch).waiting hpool).1, List.nil_append, List.length_take]
        omega
      · intro w
        show (∃ t, ServerEnd.dropped = _) ↔ ∃ t, (s.channels ch).server = _
        simp [hpool]
      · intro _ h
        exact absurd (hq ▸ h) hnot
  | refuse hv hn hl => exact inv_setVisitor hI fun _ => ⟨hv, hn, hl⟩
  | @discard ch hs hlt hl =>
      refine inv_setChannel hI hlt (ok_dropped (hI.ok ch) hs ?_) ?_ ?_
      · simp [((hI.ok ch).waiting hs).1, cmd_length]
      · intro w
        simp [hs]
      · intro he hin
        rcases hl with hl | hl
        · exact absurd (mem_channelLine hin) hl
        · exact absurd (he.symm.trans hl) (by simp)
  | @visitor v a x hv h =>
      refine inv_setVisitor hI fun hr => hI.refused v ?_
      rcases visitor_cases h with ⟨_, _, -, -, rfl⟩ | ⟨_, -, -, rfl⟩ | ⟨_, _, _, -, -, rfl⟩ <;>
        exact hr
  | @localService ch a c t hc h =>
      have hok := hI.ok ch
      have hforward := hok.commanded (by simp [hc]) (by simp [hc])
      have hkeep : c.server = (s.channels ch).server ∧ c.client = (s.channels ch).client := by
        rcases local_cases h with ⟨_, _, -, -, rfl⟩ | ⟨_, -, -, rfl⟩ | ⟨_, _, _, -, -, rfl⟩ <;>
          exact ⟨rfl, rfl⟩
      have hlt : ch < s.service.opened := by
        by_contra hle
        rw [hI.unopened ch (Nat.not_lt.mp hle)] at hc
        cases hc
      refine inv_setChannel hI hlt (ok_forward ?_ ?_) ?_ ?_
      · rw [hkeep.1]
        exact hforward
      · rw [hkeep.2, hc]
        simp
      · intro v
        rw [hkeep.1]
      · intro he hin
        rw [hkeep.1]
        exact hI.queued he ch hin
  | @server ch v t d a r hs h =>
      exact inv_copy hI hs (copy_ahead (copy_cases h))
  | @serverFails ch v t r hs h =>
      subst h
      refine inv_copy hI hs ?_
      simp only [Copy.abort, Function.update_self]
      unfold abortTransfer
      split <;> exact List.prefix_refl _
  | @client ch a c hlt h =>
      refine inv_setChannel hI hlt (ok_act h (hI.ok ch)) (fun v => by rw [server_act h]) ?_
      intro he hin
      rw [server_act h]
      exact hI.queued he ch hin

theorem inv_reachable {s : State} (h : (tunnel P).Reachable s) : Inv s := by
  obtain ⟨tr, r⟩ := h
  exact r.invariant (M := tunnel P) (I := Inv) (fun _ h => h ▸ inv_start P)
    fun _ _ _ hI h => inv_step hI (step_cases h)

end Penetrate.Tunnel
