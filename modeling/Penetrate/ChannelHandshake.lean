/-
  File:      Penetrate/ChannelHandshake.lean
  Subject:   THE HANDSHAKE OF A DATA CHANNEL, BYTE BY BYTE, and the payload behind it
             (`client/traffic.rs`, `client/data_channel.rs`, `server/connection.rs`,
             `server/data_channel.rs`, `server/pool.rs`).

  The client opens the connection, presents its session key and waits for a command; the server
  reads the key in `handle_connection`, waits for its guard, looks the session up and waits for a
  place in the queue of its handle. There the connection lies until the pool takes it out: a TCP
  pool for a visitor, a UDP pool only the first one. The pool writes the command and forwards. The
  look-up is a parameter; a connection refused as stale, or dropped with its queue, is one the
  server loses while it waits.

  * `run_data_channel`, `do_data_channel_handshake` -- the two ends;
  * `channel_agrees` -- **both forward, or the client refuses** a service of the other kind, and
    what one side forwards reaches the other behind the handshake; both come to it, or the
    connection waits on the server.
-/
import Penetrate.Handshake

namespace Penetrate.Handshake

open Concurrent Machine Wire Server

/-! ## 1. The two programs -/

/-- How `run_data_channel` goes on. -/
inductive DataEnd where
  | forwarding (service_type : ServiceType)
  /-- "Expect TCP traffic. Please check the configuration.", and the same for UDP -/
  | unexpected (cmd : DataChannelCmd)
  | failed (e : ReadError)
  deriving DecidableEq

/-- What becomes of a connection on the server. -/
inductive ConnEnd where
  | forwarding (service_type : ServiceType)
  /-- "Data channel has incorrect nonce" -/
  | incorrectNonce
  /-- it is no data channel -/
  | control (e : ServerEnd)
  deriving DecidableEq

/-- The command of a pool. -/
def startForward : ServiceType → DataChannelCmd
  | .tcp => .startForwardTcp
  | .udp => .startForwardUdp

section

variable (digest : Bytes → Digest) (services : ServiceDigest → Option ServerServiceConfig)
  (nonce : Nonce)

/-- `run_data_channel` of the client, with `do_data_channel_handshake`. -/
def run_data_channel (service : ClientServiceConfig) (session_key : Nonce) : Talk UInt8 Await DataEnd :=
  .write (serialize Hello.codec (.dataChannelHello CURRENT_PROTO_VERSION session_key)) <|
  .read (PacketLength.new digest).d_cmd fun buf =>
    match read_data_cmd (PacketLength.new digest) buf with
    | .error e => .done (.failed e)
    | .ok (.startForwardTcp, _) =>
        if service.service_type ≠ .tcp then .done (.unexpected .startForwardTcp)
        else .done (.forwarding .tcp)
    | .ok (.startForwardUdp, _) =>
        if service.service_type ≠ .udp then .done (.unexpected .startForwardUdp)
        else .done (.forwarding .udp)

/-- The pool of a service, once it has taken the connection out of the queue. -/
def runPool (service : ServerServiceConfig) : Talk UInt8 Await ConnEnd :=
  .write (serialize DataChannelCmd.codec (startForward service.service_type))
    (.done (.forwarding service.service_type))

/-- `do_data_channel_handshake` of the server, and the way of the connection to the pool. -/
def do_data_channel_handshake (control_channels : Nonce → Option ServerServiceConfig) :
    ServerEnd → Talk UInt8 Await ConnEnd
  | .dataChannel nonce => .wait .controlChannelsRead <| match control_channels nonce with
    | none => .done .incorrectNonce
    | some service => .wait .queue (.wait .pool (runPool service))
  | e => .done (.control e)

/-- The client is the left one. -/
abbrev ChannelEnds : Side → Type
  | .left => DataEnd
  | .right => ConnEnd

variable (control_channels : Nonce → Option ServerServiceConfig) in
def channelPrograms (service : ClientServiceConfig) (session_key : Nonce) :
    ∀ d, Talk UInt8 Await (ChannelEnds d)
  | .left => run_data_channel digest service session_key
  | .right => (handle_connection digest services nonce).bind
      (do_data_channel_handshake control_channels)

/-- A channel that forwards carries payload. -/
def forwards : ∀ d, ChannelEnds d → Bool
  | .left, .forwarding _ => true
  | .right, .forwarding _ => true
  | _, _ => false

variable (control_channels : Nonce → Option ServerServiceConfig) in
/-- **The handshake of a data channel**, on one connection. -/
def channel (service : ClientServiceConfig) (session_key : Nonce) :
    Machine (Dialogue UInt8 Await ChannelEnds) (DialogueAct UInt8) :=
  dialogue forwards (channelPrograms digest services nonce control_channels service session_key)

/-- How the client goes on where the server's service is of this type. -/
def dataEnd (service : ClientServiceConfig) (service_type : ServiceType) : DataEnd :=
  if service.service_type = service_type then .forwarding service_type
  else .unexpected (startForward service_type)

end

/-! ## 2. The transcript -/

section

variable {digest : Bytes → Digest} {services : ServiceDigest → Option ServerServiceConfig}
  {nonce : Nonce} {control_channels : Nonce → Option ServerServiceConfig}
  {service : ClientServiceConfig} {session_key : Nonce} {cfg : ServerServiceConfig}

theorem read_data_cmd_whole (cmd : DataChannelCmd) :
    read_data_cmd (PacketLength.new digest) (serialize DataChannelCmd.codec cmd) =
      .ok (cmd, []) := by
  rw [read_data_cmd, packetLength_new]
  exact (readPacket_eq_ok fixed_dataCmd).mpr (List.append_nil _)

theorem data_cmd_length (cmd : DataChannelCmd) :
    (serialize DataChannelCmd.codec cmd).length = (PacketLength.new digest).d_cmd := by
  rw [packetLength_new]
  exact fixed_dataCmd cmd

/-- **The bytes of the handshake of a data channel.** -/
def channelTranscript (session_key : Nonce) (service_type : ServiceType) : Side → Bytes
  | .left => serialize Hello.codec (.dataChannelHello CURRENT_PROTO_VERSION session_key)
  | .right => serialize DataChannelCmd.codec (startForward service_type)

/-- How it ends. -/
def channelEnds (service : ClientServiceConfig) (service_type : ServiceType) :
    ∀ d, ChannelEnds d
  | .left => dataEnd service service_type
  | .right => .forwarding service_type

variable (digest service session_key) in
/-- The client behind the command of the pool. -/
theorem run_data_channel_spec (service_type : ServiceType) (x : Bytes) :
    (∀ y, (run_data_channel digest service session_key).output y =
      channelTranscript session_key service_type .left) ∧
    (run_data_channel digest service session_key).result
        (channelTranscript session_key service_type .right ++ x) =
      some (dataEnd service service_type) ∧
    (run_data_channel digest service session_key).rest
        (channelTranscript session_key service_type .right ++ x) = x := by
  refine ⟨fun y => ?_, ?_, ?_⟩
  · unfold run_data_channel
    rw [Talk.output, Talk.output]
    split
    · split
      · exact List.append_nil _
      · split <;> exact List.append_nil _
      · split <;> exact List.append_nil _
    · exact List.append_nil _
  · unfold run_data_channel dataEnd
    rw [Talk.result, channelTranscript, Talk.result_read (data_cmd_length _), read_data_cmd_whole]
    cases service_type <;> cases service.service_type <;> rfl
  · unfold run_data_channel
    rw [Talk.rest, channelTranscript, Talk.rest_read (data_cmd_length _), read_data_cmd_whole]
    cases service_type <;> cases service.service_type <;> rfl

variable (digest service session_key) in
/-- The client waits for nothing but the server. -/
theorem run_data_channel_waits (x : Bytes) :
    (run_data_channel digest service session_key).waits x = [] := by
  unfold run_data_channel
  rw [Talk.waits, Talk.waits]
  split
  · split
    · rfl
    · split <;> rfl
    · split <;> rfl
  · rfl

variable (digest services nonce) in
/-- The server behind the client's hello. -/
theorem do_data_channel_handshake_spec (hk : control_channels session_key = some cfg) (x : Bytes) :
    let p := (handle_connection digest services nonce).bind
      (do_data_channel_handshake control_channels)
    p.output (channelTranscript session_key cfg.service_type .left ++ x) =
        channelTranscript session_key cfg.service_type .right ∧
      p.result (channelTranscript session_key cfg.service_type .left ++ x) =
        some (.forwarding cfg.service_type) ∧
      p.rest (channelTranscript session_key cfg.service_type .left ++ x) = x ∧
      p.waits (channelTranscript session_key cfg.service_type .left ++ x) =
        [.controlChannelsRead, .queue, .pool] := by
  -- `handle_connection` reads the hello and hands the connection on
  have hread : (handle_connection digest services nonce).output
        (channelTranscript session_key cfg.service_type .left ++ x) = [] ∧
      (handle_connection digest services nonce).result
        (channelTranscript session_key cfg.service_type .left ++ x) =
          some (.dataChannel session_key) ∧
      (handle_connection digest services nonce).rest
        (channelTranscript session_key cfg.service_type .left ++ x) = x ∧
      (handle_connection digest services nonce).waits
        (channelTranscript session_key cfg.service_type .left ++ x) = [] := by
    unfold handle_connection
    rw [channelTranscript, Talk.output_read (hello_length _), Talk.result_read (hello_length _),
      Talk.rest_read (hello_length _), Talk.waits_read (hello_length _), read_hello_whole rfl]
    exact ⟨rfl, rfl, rfl, rfl⟩
  obtain ⟨hout, hres, hrest, hwaits⟩ := hread
  obtain ⟨h1, h2, h3, h4⟩ := (handle_connection digest services nonce).bind_spec
    (do_data_channel_handshake control_channels) hres
  have hcmd : do_data_channel_handshake control_channels (.dataChannel session_key) =
      .wait .controlChannelsRead (.wait .queue (.wait .pool (runPool cfg))) := by
    simp only [do_data_channel_handshake, hk]
  rw [hout, hrest, hcmd] at h1
  rw [hrest, hcmd] at h2 h3
  rw [hwaits, hrest, hcmd] at h4
  exact ⟨h1.trans (List.append_nil _), h2, h3, h4⟩

variable (digest services nonce service) in
/-- Two rounds: the client's hello, and the command. -/
theorem transcript_channel (hk : control_channels session_key = some cfg) :
    Transcript (channelPrograms digest services nonce control_channels service session_key)
      (channelTranscript session_key cfg.service_type) (channelEnds service cfg.service_type) := by
  obtain ⟨hout, hres, -⟩ := run_data_channel_spec digest service session_key cfg.service_type []
  obtain ⟨hsout, hsres, -⟩ := do_data_channel_handshake_spec digest services nonce hk []
  rw [List.append_nil] at hres hsout hsres
  refine ⟨⟨2, ?_⟩, ?_, ?_⟩
  · funext d
    cases d with
    | left => exact (hout _).symm
    | right =>
        show _ = ((handle_connection digest services nonce).bind
          (do_data_channel_handshake control_channels)).output
            ((run_data_channel digest service session_key).output [])
        rw [hout]
        exact hsout.symm
  · intro d
    cases d with
    | left => exact hout _
    | right => exact hsout
  · intro d
    cases d with
    | left => exact hres
    | right => exact hsres

/-- Where the connection waits: on the server, on its way to the pool. -/
def onItsWay : Side → List Await
  | .left => []
  | .right => [.controlChannelsRead, .queue, .pool]

theorem channel_waits (hk : control_channels session_key = some cfg) (d : Side) :
    (channelPrograms digest services nonce control_channels service session_key d).waits
      (channelTranscript session_key cfg.service_type d.other) = onItsWay d := by
  cases d with
  | left => exact run_data_channel_waits digest service session_key _
  | right =>
      obtain ⟨-, -, -, h⟩ := do_data_channel_handshake_spec digest services nonce hk []
      rw [List.append_nil] at h
      exact h

/-! ## 3. Both ends agree -/

variable (service cfg) in
/-- The server forwards, and the client forwards or has refused. -/
def ChannelEnded (s : Dialogue UInt8 Await ChannelEnds) : Prop :=
  s.talk .left = some (.done (dataEnd service cfg.service_type)) ∧
    s.talk .right = some (.done (.forwarding cfg.service_type))

/-- **A data channel of a known session is forwarded by both ends or refused by the client**, whatever
    the pieces, the order and the losses. The client forwards precisely where its service is of the
    server's type; and neither side's payload loses a byte to the handshake, nor gains one. As long
    as the connection holds both come to it once the pool has taken the connection; by themselves
    they go on until they have, or the connection waits on its way to the pool. -/
theorem channel_agrees (hk : control_channels session_key = some cfg)
    {tr : List (Dialogue UInt8 Await ChannelEnds × DialogueAct UInt8)}
    {s : Dialogue UInt8 Await ChannelEnds}
    (r : (channel digest services nonce control_channels service session_key).Run tr s) :
    (∀ x, s.talk .left = some (.done x) → x = dataEnd service cfg.service_type ∧
      s.heard .left <+: s.said .right) ∧
    (∀ y, s.talk .right = some (.done y) → y = .forwarding cfg.service_type ∧
      s.heard .right <+: s.said .left) ∧
    ((∀ d, ∃ t, s.talk d = some t) →
      (channel digest services nonce control_channels service session_key).Completes Proceeds
        (ChannelEnded service cfg) s ∧
      (channel digest services nonce control_channels service session_key).Completes Talks
        (fun s => ChannelEnded service cfg s ∨ s.Waits .right .controlChannelsRead ∨
          s.Waits .right .queue ∨ s.Waits .right .pool) s) := by
  have hT := transcript_channel digest services nonce service hk
  obtain ⟨-, -, hrest⟩ := run_data_channel_spec digest service session_key cfg.service_type []
  obtain ⟨-, -, hsrest, -⟩ := do_data_channel_handshake_spec digest services nonce hk []
  rw [List.append_nil] at hrest hsrest
  have hended {s : Dialogue UInt8 Await ChannelEnds} (h : ∀ d, s.talk d = some (.done
      (channelEnds service cfg.service_type d))) : ChannelEnded service cfg s := ⟨h .left, h .right⟩
  refine ⟨fun x hx => ⟨returns hT r hx, (hears hT r hx hrest).2⟩,
    fun y hy => ⟨returns hT r hy, (hears hT r hy hsrest).2⟩, fun hc =>
      ⟨(dialogue_completes hT r hc).mono fun s h => hended h,
        (dialogue_returns_or_waits hT r hc).mono ?_⟩⟩
  rintro s (h | ⟨d, x, hx, hw⟩)
  · exact .inl (hended h)
  · rw [channel_waits hk] at hx
    cases d with
    | left => cases hx
    | right =>
        simp only [onItsWay, List.mem_cons, List.not_mem_nil, or_false] at hx
        rcases hx with rfl | rfl | rfl
        · exact .inr (.inl hw)
        · exact .inr (.inr (.inl hw))
        · exact .inr (.inr (.inr hw))

end

section

/-- The session of a service that forwards TCP. -/
def webSession (nonce : Nonce) : Option ServerServiceConfig := webServices nonce

/-- The pool takes the connection for its visitor; what the visitor says comes in with the
    command. -/
theorem channel_agrees_web : ∃ tr s,
    (channel (fun _ => nulls) webServices nulls webSession webService nulls).Run tr s ∧
      s.talk .left = some (.done (.forwarding .tcp)) ∧ s.heard .left = [71, 69] ∧
      s.heard .left <+: s.said .right := by
  obtain ⟨s, hs, hl, hh⟩ :
      ∃ s, (channel (fun _ => nulls) webServices nulls webSession webService nulls).exec
        (.start (channelPrograms (fun _ => nulls) webServices nulls webSession webService nulls))
        [.write .left 37, .next .left, .read .right 30, .read .right 7, .next .right, .grant .right,
          .grant .right, .grant .right, .write .right 4, .next .right, .say .right [71, 69, 84],
          .read .left 4, .next .left, .hear .left 2] = some s ∧
        s.talk .left = some (.done (.forwarding .tcp)) ∧ s.heard .left = [71, 69] :=
    ⟨_, rfl, rfl, rfl⟩
  have run := run_trace (.start rfl) hs
  obtain ⟨hleft, -⟩ := channel_agrees (show webSession nulls = some _ from rfl) run
  exact ⟨_, s, run, hl, hh, (hleft _ hl).2⟩

end

end Penetrate.Handshake
