/-
  File:      Penetrate/Handshake.lean
  Subject:   THE CONTROL HANDSHAKE, BYTE BY BYTE, and the commands behind it
             (`client/control_channel.rs`, `server/control_channel.rs`, `server/connection.rs`).

  Both ends are programs over the two byte streams of one connection, with the readers of
  `protocol.rs` on what they read. The server's locks and its table are modelled elsewhere; here it
  waits for their guards, the service it looks up is a parameter, and so is the nonce it draws. An
  established control channel goes on with commands from the server.

  * `run`, `handle_connection`, `do_control_channel_handshake` -- the two programs;
  * `clientEnd`, `serverEnd` -- how the handshake ends on either side;
  * `transcript` -- the bytes of it;
  * `handshake_agrees` -- **both ends come to the same end**, and the commands are read as they
    were written; `handshake_completes` -- they come to it, or the server waits for a guard.
-/
import Penetrate.Concurrent.Dialogue
import Penetrate.Server.Connections
import Penetrate.Wire

namespace Penetrate.Handshake

open Concurrent Machine Wire Server

/-! ## 1. The two programs -/

/-- How `ControlChannel::run` leaves the handshake. -/
inductive ClientEnd where
  | established (session_key : Digest)
  /-- "Authentication failed: ControlChannelCmd…", with this `Ack` -/
  | refused (v : Ack)
  /-- "Unexpected type of hello" -/
  | unexpectedHello
  | failed (e : ReadError)
  /-- an unwrap of the token -/
  | panicked
  deriving DecidableEq

/-- How `handle_connection` leaves it. -/
inductive ServerEnd where
  | established (d : ServiceDigest) (session_key : Digest)
  /-- "No such a service …" -/
  | noSuchService (d : ServiceDigest)
  /-- "Service … failed the authentication" -/
  | authFailed (name : String)
  /-- a data channel, the handshake of which ends here -/
  | dataChannel (nonce : Nonce)
  | failed (e : ReadError)
  | panicked
  deriving DecidableEq

/-- What a connection of the server waits for. -/
inductive Await where
  /-- `services.read()` -/
  | servicesRead
  /-- `control_channels.read()` -/
  | controlChannelsRead
  /-- `control_channels.write()` -/
  | controlChannelsWrite
  /-- a place in the queue, in `data_ch_tx.send` -/
  | queue
  /-- in the queue: the pool, which takes it for a visitor -/
  | pool
  deriving DecidableEq

section

variable (digest : Bytes → Digest)

/-- What follows the server's hello in `ControlChannel::run`. -/
def sendAuth (session_key : Digest) : Talk UInt8 Await ClientEnd :=
  .write (serialize Auth.codec ⟨session_key⟩) <|
  .read (PacketLength.new digest).ack fun buf =>
    match read_ack (PacketLength.new digest) buf with
    | .error e => .done (.failed e)
    | .ok (.ok, _) => .done (.established session_key)
    | .ok (v, _) => .done (.refused v)

/-- `ControlChannel::run` of the client, up to its loop. -/
def run (service : ClientServiceConfig) : Talk UInt8 Await ClientEnd :=
  .write (serialize Hello.codec
    (.controlChannelHello CURRENT_PROTO_VERSION (nameDigest digest service.name))) <|
  .read (PacketLength.new digest).hello fun buf =>
    match read_hello (PacketLength.new digest) buf with
    | .error e => .done (.failed e)
    | .ok (.dataChannelHello _ _, _) => .done .unexpectedHello
    | .ok (.controlChannelHello _ nonce, _) => match service.token with
      | none => .done .panicked
      | some token => sendAuth digest (sessionKey digest token nonce)

/-- What follows the look-up of the service in `do_control_channel_handshake`. -/
def authenticate (d : ServiceDigest) (nonce : Nonce) :
    Option ServerServiceConfig → Talk UInt8 Await ServerEnd
  | none => .write (serialize Ack.codec .serviceNotExist) (.done (.noSuchService d))
  | some service_config => match service_config.token with
    | none => .done .panicked
    | some token => .read (PacketLength.new digest).auth fun buf =>
        match read_auth (PacketLength.new digest) buf with
        | .error e => .done (.failed e)
        | .ok (auth, _) =>
            let session_key := sessionKey digest token nonce
            if session_key ≠ auth.digest then
              .write (serialize Ack.codec .authFailed) (.done (.authFailed service_config.name))
            else .wait .controlChannelsWrite <|
              .write (serialize Ack.codec .ok) (.done (.established d session_key))

variable (services : ServiceDigest → Option ServerServiceConfig) (nonce : Nonce)

def do_control_channel_handshake (d : ServiceDigest) : Talk UInt8 Await ServerEnd :=
  .write (serialize Hello.codec (.controlChannelHello CURRENT_PROTO_VERSION nonce)) <|
  .wait .servicesRead (authenticate digest d nonce (services d))

def handle_connection : Talk UInt8 Await ServerEnd :=
  .read (PacketLength.new digest).hello fun buf =>
    match read_hello (PacketLength.new digest) buf with
    | .error e => .done (.failed e)
    | .ok (.controlChannelHello _ d, _) => do_control_channel_handshake digest services nonce d
    | .ok (.dataChannelHello _ n, _) => .done (.dataChannel n)

/-! ## 2. How it ends -/

/-- The client is the left one. -/
abbrev Ends : Side → Type
  | .left => ClientEnd
  | .right => ServerEnd

def programs (service : ClientServiceConfig) : ∀ d, Talk UInt8 Await (Ends d)
  | .left => run digest service
  | .right => handle_connection digest services nonce

/-- An established control channel carries commands. -/
def goesOn : ∀ d, Ends d → Bool
  | .left, .established _ => true
  | .right, .established _ _ => true
  | _, _ => false

/-- **The handshake** of a client with the server, on one connection. -/
def handshake (service : ClientServiceConfig) :
    Machine (Dialogue UInt8 Await Ends) (DialogueAct UInt8) :=
  dialogue goesOn (programs digest services nonce service)

/-- The server's answer to a client with this session key. -/
def answer (session_key : Digest) : Option ServerServiceConfig → Ack
  | none => .serviceNotExist
  | some cfg =>
      if cfg.token.map (fun t => sessionKey digest t nonce) = some session_key then .ok else .authFailed

/-- How the client leaves the handshake. -/
def clientEnd (session_key : Digest) : Ack → ClientEnd
  | .ok => .established session_key
  | v => .refused v

/-- How the server leaves it. -/
def serverEnd (d : ServiceDigest) (session_key : Digest) : Option ServerServiceConfig → ServerEnd
  | none => .noSuchService d
  | some cfg =>
      if cfg.token.map (fun t => sessionKey digest t nonce) = some session_key then
        .established d session_key
      else .authFailed cfg.name

end

/-! ## 3. The transcript -/

section

variable {digest : Bytes → Digest}

/-- One end is established where the other one is, with the same key. -/
theorem established_iff {nonce : Nonce} {d : ServiceDigest} {k key : Digest}
    {found : Option ServerServiceConfig} :
    clientEnd k (answer digest nonce k found) = .established key ↔
      serverEnd digest nonce d k found = .established d key := by
  cases found with
  | none => simp [answer, clientEnd, serverEnd]
  | some cfg =>
      by_cases hk : cfg.token.map (fun t => sessionKey digest t nonce) = some k
      · simp only [answer, serverEnd, if_pos hk, clientEnd, ClientEnd.established.injEq,
          ServerEnd.established.injEq, true_and]
      · simp only [answer, serverEnd, if_neg hk, clientEnd, reduceCtorEq]

/-- A reader on a buffer that a writer has filled. -/
theorem read_hello_whole {h : Wire.Hello} (hv : h.version = CURRENT_PROTO_VERSION) :
    read_hello (PacketLength.new digest) (serialize Hello.codec h) = .ok (h, []) :=
  read_hello_eq_ok.mpr ⟨hv, List.append_nil _⟩

theorem read_auth_whole (a : Wire.Auth) :
    read_auth (PacketLength.new digest) (serialize Auth.codec a) = .ok (a, []) := by
  rw [read_auth, packetLength_new]
  exact (readPacket_eq_ok fixed_auth).mpr (List.append_nil _)

theorem read_ack_whole (v : Ack) :
    read_ack (PacketLength.new digest) (serialize Ack.codec v) = .ok (v, []) := by
  rw [read_ack, packetLength_new]
  exact (readPacket_eq_ok fixed_ack).mpr (List.append_nil _)

theorem hello_length (h : Wire.Hello) :
    (serialize Hello.codec h).length = (PacketLength.new digest).hello := by
  rw [packetLength_new]
  exact fixed_hello h

theorem auth_length (a : Wire.Auth) :
    (serialize Auth.codec a).length = (PacketLength.new digest).auth := by
  rw [packetLength_new]
  exact fixed_auth a

theorem ack_length (v : Ack) : (serialize Ack.codec v).length = (PacketLength.new digest).ack := by
  rw [packetLength_new]
  exact fixed_ack v

variable {service : ClientServiceConfig} {services : ServiceDigest → Option ServerServiceConfig}
  {nonce : Nonce} {token : String}

def clientHello (digest : Bytes → Digest) (service : ClientServiceConfig) : Bytes :=
  serialize Hello.codec (.controlChannelHello CURRENT_PROTO_VERSION (nameDigest digest service.name))

def serverHello (nonce : Nonce) : Bytes :=
  serialize Hello.codec (.controlChannelHello CURRENT_PROTO_VERSION nonce)

variable (digest) in
theorem sendAuth_spec (k : Digest) (v : Ack) :
    (∀ x, (sendAuth digest k).output x = serialize Auth.codec ⟨k⟩) ∧
      (sendAuth digest k).result (serialize Ack.codec v) = some (clientEnd k v) ∧
      (sendAuth digest k).rest (serialize Ack.codec v) = [] := by
  have hnil := List.append_nil (serialize Ack.codec v)
  refine ⟨fun x => ?_, ?_, ?_⟩
  · unfold sendAuth
    rw [Talk.output, Talk.output]
    split
    · split <;> exact List.append_nil _
    · exact List.append_nil _
  · unfold sendAuth
    rw [Talk.result, ← hnil, Talk.result_read (ack_length v), read_ack_whole]
    cases v <;> rfl
  · unfold sendAuth
    rw [Talk.rest, ← hnil, Talk.rest_read (ack_length v), read_ack_whole]
    cases v <;> rfl

variable (digest nonce) in
/-- The client behind the server's hello. -/
theorem run_spec (ht : service.token = some token) (x : Bytes) :
    (run digest service).output (serverHello nonce ++ x) =
        clientHello digest service ++ (sendAuth digest (sessionKey digest token nonce)).output x ∧
      (run digest service).result (serverHello nonce ++ x) =
        (sendAuth digest (sessionKey digest token nonce)).result x ∧
      (run digest service).rest (serverHello nonce ++ x) =
        (sendAuth digest (sessionKey digest token nonce)).rest x := by
  unfold run
  rw [Talk.output, Talk.result, Talk.rest, serverHello, Talk.output_read (hello_length _),
    Talk.result_read (hello_length _), Talk.rest_read (hello_length _), read_hello_whole rfl]
  simp only [ht, and_true]
  rfl

variable (digest service services nonce) in
/-- The server behind the client's hello. -/
theorem handle_connection_spec (x : Bytes) :
    let d := nameDigest digest service.name
    let t := authenticate digest d nonce (services d)
    (handle_connection digest services nonce).output (clientHello digest service ++ x) =
        serverHello nonce ++ t.output x ∧
      (handle_connection digest services nonce).result (clientHello digest service ++ x) =
        t.result x ∧
      (handle_connection digest services nonce).rest (clientHello digest service ++ x) =
        t.rest x ∧
      (handle_connection digest services nonce).waits (clientHello digest service ++ x) =
        .servicesRead :: t.waits x := by
  unfold handle_connection
  rw [clientHello, Talk.output_read (hello_length _), Talk.result_read (hello_length _),
    Talk.rest_read (hello_length _), Talk.waits_read (hello_length _), read_hello_whole rfl]
  exact ⟨rfl, rfl, rfl, rfl⟩

variable (digest nonce) in
/-- The server behind the look-up. -/
theorem authenticate_spec {d : ServiceDigest} {found : Option ServerServiceConfig}
    (ht : ∀ cfg, found = some cfg → cfg.token.isSome = true) (k : Digest) :
    (authenticate digest d nonce found).output (serialize Auth.codec ⟨k⟩) =
        serialize Ack.codec (answer digest nonce k found) ∧
      (authenticate digest d nonce found).result (serialize Auth.codec ⟨k⟩) =
        some (serverEnd digest nonce d k found) ∧
      (authenticate digest d nonce found).waits (serialize Auth.codec ⟨k⟩) ⊆
        [.controlChannelsWrite] := by
  cases found with
  | none => exact ⟨List.append_nil _, rfl, List.nil_subset _⟩
  | some cfg =>
      obtain ⟨token, htok⟩ := Option.isSome_iff_exists.mp (ht cfg rfl)
      have hnil := List.append_nil (serialize Auth.codec ⟨k⟩)
      unfold authenticate
      simp only [htok]
      rw [← hnil, Talk.output_read (auth_length _), Talk.result_read (auth_length _),
        Talk.waits_read (auth_length _), read_auth_whole]
      by_cases hk : sessionKey digest token nonce = k
      · simp [answer, serverEnd, htok, hk, Talk.output, Talk.result, Talk.waits]
      · simp [answer, serverEnd, htok, hk, Talk.output, Talk.result, Talk.waits]

variable (digest services nonce) in
/-- **The bytes of a handshake.** -/
def transcript (service : ClientServiceConfig) (k : Digest) : Side → Bytes
  | .left => clientHello digest service ++ serialize Auth.codec ⟨k⟩
  | .right => serverHello nonce ++
      serialize Ack.codec (answer digest nonce k (services (nameDigest digest service.name)))

variable (digest services nonce) in
/-- How it ends. -/
def ends (service : ClientServiceConfig) (k : Digest) : ∀ d, Ends d
  | .left => clientEnd k (answer digest nonce k (services (nameDigest digest service.name)))
  | .right => serverEnd digest nonce (nameDigest digest service.name) k
      (services (nameDigest digest service.name))

/-- The service looked up, if there is one, has a token. -/
def Provided (digest : Bytes → Digest) (services : ServiceDigest → Option ServerServiceConfig)
    (service : ClientServiceConfig) : Prop :=
  ∀ cfg, services (nameDigest digest service.name) = some cfg → cfg.token.isSome = true

variable (nonce) in
/-- Four rounds: the client's hello, the server's, the answer to its nonce, and the `Ack`. -/
theorem transcript_handshake (ht : service.token = some token)
    (hs : Provided digest services service) :
    Transcript (programs digest services nonce service)
      (transcript digest services nonce service (sessionKey digest token nonce))
      (ends digest services nonce service (sessionKey digest token nonce)) := by
  let p := programs digest services nonce service
  let k := sessionKey digest token nonce
  let S := transcript digest services nonce service k
  obtain ⟨hout, hres, -⟩ := sendAuth_spec digest k
    (answer digest nonce k (services (nameDigest digest service.name)))
  obtain ⟨haout, hares, -⟩ := authenticate_spec digest nonce
    (d := nameDigest digest service.name) hs k
  -- whatever comes behind the server's hello, the client writes both its messages
  have hleft : ∀ x, (p .left).output (serverHello nonce ++ x) = S .left := fun x => by
    obtain ⟨h, -⟩ := run_spec digest nonce ht x
    exact h.trans (congrArg (clientHello digest service ++ ·) (hout x))
  have hright : (p .right).output (S .left) = S .right := by
    obtain ⟨h, -⟩ := handle_connection_spec digest service services nonce (serialize Auth.codec ⟨k⟩)
    exact h.trans (congrArg (serverHello nonce ++ ·) haout)
  -- nor does the server's hello depend on what comes behind the client's
  obtain ⟨z, hz⟩ : ∃ z, (p .right).output (clientHello digest service) = serverHello nonce ++ z := by
    obtain ⟨h, -⟩ := handle_connection_spec digest service services nonce []
    rw [List.append_nil] at h
    exact ⟨_, h⟩
  have hhello : (p .left).output [] = clientHello digest service := List.append_nil _
  have hfirst : rounds p 3 .right = serverHello nonce ++ z := by
    show (p .right).output ((p .left).output (rounds p 1 .right)) = _
    have hnil : rounds p 1 .right = [] := rfl
    rw [hnil, hhello]
    exact hz
  have hl : rounds p 5 .left = S .left := by
    show (p .left).output ((p .right).output ((p .left).output ((p .right).output
      ((p .left).output [])))) = S .left
    rw [hhello, hz, hleft, hright]
    exact hleft _
  have hr : rounds p 5 .right = S .right := by
    show (p .right).output ((p .left).output (rounds p 3 .right)) = S .right
    rw [hfirst, hleft, hright]
  refine ⟨⟨5, ?_⟩, ?_, ?_⟩
  · funext d
    cases d with
    | left => exact hl.symm
    | right => exact hr.symm
  · intro d
    cases d with
    | left => exact hleft _
    | right => exact hright
  · intro d
    cases d with
    | left =>
        obtain ⟨-, h, -⟩ := run_spec digest nonce ht
          (serialize Ack.codec (answer digest nonce k (services (nameDigest digest service.name))))
        exact h.trans hres
    | right =>
        obtain ⟨-, h, -⟩ := handle_connection_spec digest service services nonce
          (serialize Auth.codec ⟨k⟩)
        exact h.trans hares

/-! ## 4. Both ends come to the same end -/

/-- The bytes of a list of commands of the server. -/
def commandBytes (cmds : List ControlChannelCmd) : Bytes :=
  (cmds.map Message.controlCmd).flatMap Message.serialize

theorem commandBytes_cons (cmd : ControlChannelCmd) (cmds : List ControlChannelCmd) :
    commandBytes (cmd :: cmds) = serialize ControlChannelCmd.codec cmd ++ commandBytes cmds := rfl

theorem commandBytes_length (cmds : List ControlChannelCmd) :
    (commandBytes cmds).length = 4 * cmds.length := by
  induction cmds with
  | nil => rfl
  | cons cmd cmds ih =>
      have hlen : (serialize ControlChannelCmd.codec cmd).length = 4 := fixed_controlCmd cmd
      rw [commandBytes_cons, List.length_append, hlen, ih, List.length_cons]
      omega

/-- Whatever piece of the commands has come in, it is whole commands and a part of the next. -/
theorem commandBytes_split {cmds : List ControlChannelCmd} {buf : Bytes}
    (h : buf <+: commandBytes cmds) : ∃ rest, rest.length < 4 ∧
      buf = commandBytes (cmds.take (buf.length / 4)) ++ rest := by
  induction cmds generalizing buf with
  | nil =>
      have hnil : buf = [] := List.prefix_nil.mp h
      subst hnil
      exact ⟨[], by decide, rfl⟩
  | cons cmd cmds ih =>
      have hlen : (serialize ControlChannelCmd.codec cmd).length = 4 := fixed_controlCmd cmd
      rw [commandBytes_cons] at h
      by_cases hb : buf.length < 4
      · refine ⟨buf, hb, ?_⟩
        rw [Nat.div_eq_of_lt hb]
        rfl
      · obtain ⟨buf', rfl⟩ : ∃ buf', buf = serialize ControlChannelCmd.codec cmd ++ buf' := by
          obtain ⟨buf', hbuf⟩ := List.prefix_of_prefix_length_le (List.prefix_append _ _) h (by omega)
          exact ⟨buf', hbuf.symm⟩
        obtain ⟨rest, hrest, hsplit⟩ := ih ((List.prefix_append_right_inj _).mp h)
        have hdiv : (4 + buf'.length) / 4 = buf'.length / 4 + 1 := by omega
        refine ⟨rest, hrest, ?_⟩
        rw [List.length_append, hlen, hdiv, List.take_succ_cons, commandBytes_cons,
          List.append_assoc, ← hsplit]

/-- The readers of the client's loop read them. -/
theorem readAll_commands {cmds : List ControlChannelCmd} {buf : Bytes}
    (h : buf <+: commandBytes cmds) : ∃ rest, rest.length < 4 ∧
      readAll (PacketLength.new digest) (List.replicate (buf.length / 4) .controlCmd) buf =
        .ok ((cmds.take (buf.length / 4)).map .controlCmd, rest) := by
  obtain ⟨rest, hrest, hsplit⟩ := commandBytes_split h
  have hle : buf.length / 4 ≤ cmds.length := by
    have hlen := h.length_le
    rw [commandBytes_length] at hlen
    omega
  have hkinds : List.replicate (buf.length / 4) Kind.controlCmd =
      ((cmds.take (buf.length / 4)).map Message.controlCmd).map Message.kind := by
    have hconst : Message.kind ∘ Message.controlCmd = fun _ => Kind.controlCmd := rfl
    rw [List.map_map, hconst, List.map_const', List.length_take, Nat.min_eq_left hle]
  refine ⟨rest, hrest, ?_⟩
  rw [hkinds]
  generalize buf.length / 4 = n at hsplit
  subst hsplit
  exact readAll_serialize digest _ rest

/-- **Both ends agree, whatever the pieces, the order and the losses.** Whoever returns, returns
    what the server's answer says, so a client that is established and a server that is have the
    same session key. A client that has its `Ok` hears the commands the server writes behind it, and
    its readers take them off as they were written: no byte of the handshake is left before them. -/
theorem handshake_agrees (ht : service.token = some token) (hs : Provided digest services service)
    {tr : List (Dialogue UInt8 Await Ends × DialogueAct UInt8)} {s : Dialogue UInt8 Await Ends}
    (r : (handshake digest services nonce service).Run tr s) :
    let d := nameDigest digest service.name
    let k := sessionKey digest token nonce
    (∀ x, s.talk .left = some (.done x) → x = clientEnd k (answer digest nonce k (services d))) ∧
    (∀ y, s.talk .right = some (.done y) → y = serverEnd digest nonce d k (services d)) ∧
    (∀ x y, s.talk .left = some (.done x) → s.talk .right = some (.done y) →
      ∀ key, x = .established key ↔ y = .established d key) ∧
    (∀ x cmds, s.talk .left = some (.done x) → s.said .right <+: commandBytes cmds →
      ∃ rest, rest.length < 4 ∧ readAll (PacketLength.new digest)
        (List.replicate ((s.heard .left).length / 4) .controlCmd) (s.heard .left) =
          .ok ((cmds.take ((s.heard .left).length / 4)).map .controlCmd, rest)) := by
  intro d k
  have hT := transcript_handshake nonce ht hs
  have hx : ∀ x, s.talk .left = some (.done x) →
      x = clientEnd k (answer digest nonce k (services d)) := fun x hx => returns hT r hx
  have hy : ∀ y, s.talk .right = some (.done y) → y = serverEnd digest nonce d k (services d) :=
    fun y hy => returns hT r hy
  refine ⟨hx, hy, fun x y hdx hdy key => ?_, fun x cmds hdx hcmds => ?_⟩
  · rw [hx x hdx, hy y hdy]
    exact established_iff
  · have hrest : (programs digest services nonce service .left).rest
        (transcript digest services nonce service k .right) = [] := by
      obtain ⟨-, -, h⟩ := run_spec digest nonce ht
        (serialize Ack.codec (answer digest nonce k (services d)))
      obtain ⟨-, -, h'⟩ := sendAuth_spec digest k (answer digest nonce k (services d))
      exact h.trans h'
    obtain ⟨-, hheard⟩ := hears hT r hdx hrest
    exact readAll_commands (hheard.trans hcmds)

/-- The client waits for nothing but the server. -/
theorem run_waits (x : Bytes) : (run digest service).waits x = [] := by
  have hsend : ∀ k y, (sendAuth digest k).waits y = [] := fun k y => by
    unfold sendAuth
    rw [Talk.waits, Talk.waits]
    split
    · split <;> rfl
    · rfl
  unfold run
  rw [Talk.waits, Talk.waits]
  split
  · cases read_hello (PacketLength.new digest) _ with
    | error e => rfl
    | ok p =>
        obtain ⟨v | v, rest⟩ := p
        · cases service.token with
          | none => rfl
          | some token => exact hsend _ _
        · rfl
  · rfl

/-- The server waits for the guards of its two tables. -/
theorem handle_connection_waits (hs : Provided digest services service) (k : Digest) :
    (handle_connection digest services nonce).waits (transcript digest services nonce service k .left) ⊆
      [.servicesRead, .controlChannelsWrite] := by
  obtain ⟨-, -, -, hw⟩ :=
    handle_connection_spec digest service services nonce (serialize Auth.codec ⟨k⟩)
  obtain ⟨-, -, ha⟩ := authenticate_spec digest nonce (d := nameDigest digest service.name) hs k
  rw [transcript, hw]
  exact List.cons_subset_cons _ ha

variable (digest services nonce) in
/-- Both have returned, as the server's look-up and the two tokens determine. -/
def Ended (service : ClientServiceConfig) (k : Digest) (s : Dialogue UInt8 Await Ends) : Prop :=
  ∀ d, s.talk d = some (.done (ends digest services nonce service k d))

/-- **They do come to it**, as long as the connection holds, if the server gets the guards of its
    tables; by themselves they go on until they have, or the server waits for a guard. -/
theorem handshake_completes (ht : service.token = some token) (hs : Provided digest services service)
    {tr : List (Dialogue UInt8 Await Ends × DialogueAct UInt8)} {s : Dialogue UInt8 Await Ends}
    (r : (handshake digest services nonce service).Run tr s) (hc : ∀ d, ∃ t, s.talk d = some t) :
    (handshake digest services nonce service).Completes Proceeds
        (Ended digest services nonce service (sessionKey digest token nonce)) s ∧
      (handshake digest services nonce service).Completes Talks
        (fun s => Ended digest services nonce service (sessionKey digest token nonce) s ∨
          s.Waits .right .servicesRead ∨ s.Waits .right .controlChannelsWrite) s := by
  have hT := transcript_handshake nonce ht hs
  refine ⟨dialogue_completes hT r hc, (dialogue_returns_or_waits hT r hc).mono ?_⟩
  rintro s (h | ⟨d, x, hx, hw⟩)
  · exact .inl h
  · cases d with
    | left =>
        rw [show (programs digest services nonce service .left).waits _ = [] from run_waits _] at hx
        cases hx
    | right =>
        have hx' := handle_connection_waits hs _ hx
        simp only [List.mem_cons, List.not_mem_nil, or_false] at hx'
        rcases hx' with rfl | rfl
        · exact .inr (.inl hw)
        · exact .inr (.inr hw)

end

/-! ## 5. A handshake that succeeds -/

section

def nulls : Digest := Vector.replicate HASH_WIDTH_IN_BYTES 0

def webService : ClientServiceConfig :=
  ⟨.tcp, "web", "127.0.0.1:80", some "secret", none, none⟩

def webServices : ServiceDigest → Option ServerServiceConfig :=
  fun _ => some ⟨.tcp, "web", "0.0.0.0:8080", some "secret", none⟩

/-- The whole handshake, in pieces, and a command and a half. -/
def webHandshake : List (DialogueAct UInt8) :=
  [.write .left 30, .read .right 30, .write .left 7, .next .left, .read .right 7, .next .right,
    .write .right 37, .next .right, .grant .right, .read .left 37, .next .left, .write .left 32,
    .next .left, .read .right 32, .next .right, .grant .right, .write .right 4, .next .right,
    .say .right (commandBytes [.createDataChannel]), .say .right [0, 0], .read .left 4, .next .left,
    .hear .left 6]

/-- Both are established, and the client has one command and a part of the next. -/
theorem handshake_agrees_web : ∃ tr s,
    (handshake (fun _ => nulls) webServices nulls webService).Run tr s ∧
      (∃ key, s.talk .left = some (.done (.established key)) ∧
        s.talk .right = some (.done (.established (nameDigest (fun _ => nulls) "web") key))) ∧
      ∃ rest, rest.length < 4 ∧
        readAll (PacketLength.new fun _ => nulls) [.controlCmd] (s.heard .left) =
          .ok ([.controlCmd .createDataChannel], rest) := by
  obtain ⟨s, hs, hl, hr, hh, hc⟩ :
      ∃ s, (handshake (fun _ => nulls) webServices nulls webService).exec
        (.start (programs (fun _ => nulls) webServices nulls webService)) webHandshake = some s ∧
        s.talk .left = some (.done (.established nulls)) ∧
        s.talk .right = some (.done (.established nulls nulls)) ∧ (s.heard .left).length = 6 ∧
        s.said .right = commandBytes [.createDataChannel] ++ [0, 0] := ⟨_, rfl, rfl, rfl, rfl, rfl⟩
  have run := run_trace (.start rfl) hs
  obtain ⟨-, -, -, hread⟩ := handshake_agrees
    (show webService.token = some "secret" from rfl)
    (fun cfg h => by cases h; rfl) run
  obtain ⟨rest, hrest, h⟩ := hread _ [.createDataChannel, .createDataChannel] hl
    (hc ▸ ⟨[0, 0], rfl⟩)
  rw [hh] at h
  exact ⟨_, s, run, ⟨nulls, hl, hr⟩, rest, hrest, h⟩

/-- A client the server does not know is refused, or the server waits to look it up. -/
theorem handshake_completes_unknown :
    let h := handshake (fun _ => nulls) (fun _ => none) nulls webService
    let start := Dialogue.start (programs (fun _ => nulls) (fun _ => none) nulls webService)
    let refused := fun s : Dialogue UInt8 Await Ends =>
      s.talk .left = some (.done (.refused .serviceNotExist)) ∧
        s.talk .right = some (.done (.noSuchService nulls))
    h.Completes Proceeds refused start ∧ h.Completes Talks (fun s => refused s ∨
      s.Waits .right .servicesRead ∨ s.Waits .right .controlChannelsWrite) start := by
  intro h start refused
  have run : h.Run [] start := .start rfl
  obtain ⟨hp, ht⟩ := handshake_completes (show webService.token = some "secret" from rfl)
    (fun _ h => by cases h) run fun _ => ⟨_, rfl⟩
  have hend : ∀ s, Ended (fun _ => nulls) (fun _ => none) nulls webService nulls s → refused s :=
    fun s h => ⟨h .left, h .right⟩
  exact ⟨hp.mono hend, ht.mono fun s h => h.imp_left (hend s)⟩

end

end Penetrate.Handshake
