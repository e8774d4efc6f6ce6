/-
  File:      Penetrate/Network.lean
  Subject:   THE SERVER, ITS CLIENTS AND AN ATTACKER, over strings of symbols.

  The server is its gate. Honest clients run `ControlChannel::run` any number of times. The attacker
  opens connections, and says on them whatever it can build from the letters that have leaked and
  from what it has seen. Of what the server writes to it only the nonces are news:
  acknowledgements and commands are the same for everybody, and what visitors send through a service
  is no part of a handshake.

  An attacker that relays takes connections of clients too. Such a session talks to the attacker,
  who answers in the server's place and repeats to the server what it likes; one that it only
  listens to is one it repeats faithfully.

  * `Session`, `Net` -- the parties; `network` -- the machine: what each may do (`Net.allows`), what
    it is for the server (`NetAct.gateAct`), what else it changes (`Net.after`);
  * `NetAct.relays` -- the steps only a relay takes;
  * `Net.Extends` -- what has been said and seen stays;
  * `Net.Inv` -- **whom every registration goes back to, and what the attacker has seen**.
-/
import Penetrate.Symbolic.Knowledge
import Penetrate.Server.Gate

namespace Penetrate.Network

open Concurrent Machine Symbolic Server

/-! ## 1. The parties -/

/-- A digest, a nonce or a session key. -/
abbrev Word (κ : Type*) := Block (Sym κ)

section

variable {κ : Type*}

def hash (w : List (Sym κ)) : Word κ := digest HASH_WIDTH_IN_BYTES w

/-- The nonce that the server draws on connection `n`. -/
def drawn (n : Nat) : Word κ := nonce HASH_WIDTH_IN_BYTES n

/-- Names and tokens are strings of letters. -/
def lettered (w : List κ) : List (Sym κ) := w.map .letter

def spelled (cfg : Secured κ) : Secured (Sym κ) := ⟨lettered cfg.name, cfg.token.map lettered⟩

def nameDigest (name : List κ) : Word κ := hash (lettered name)

inductive SessionPhase (κ : Type*) where
  /-- has sent its `Hello` -/
  | readHello
  /-- has answered this nonce with this `Auth` -/
  | readAck (nonce session_key : Word κ)
  | running (nonce session_key : Word κ)

/-- A call of `ControlChannel::run`, by an honest client. -/
structure Session (κ : Type*) where
  service : Secured κ
  /-- its connection to the server; `none` where the attacker has taken it -/
  conn : Option Nat
  phase : SessionPhase κ

/-- The nonce the session has answered, and its answer. -/
def Session.answer (s : Session κ) : Option (Word κ × Word κ) :=
  match s.phase with
  | .readHello => none
  | .readAck nonce session_key => some (nonce, session_key)
  | .running nonce session_key => some (nonce, session_key)

/-- Who is at the other end of a connection to the server. -/
inductive Peer where
  | attacker
  /-- session `i`, for its control channel -/
  | control (i : Nat)
  /-- session `i`, for a data channel -/
  | data (i : Nat)
  deriving DecidableEq

/-- What a peer says to the server. -/
inductive Message (κ : Type*) where
  | controlHello (d : Word κ)
  | dataHello (session_key : Word κ)
  | auth (x : Word κ)

def Message.word : Message κ → Word κ
  | .controlHello d => d
  | .dataHello session_key => session_key
  | .auth x => x

def Message.act : Message κ → GateConnAct (Sym κ)
  | .controlHello d => .controlHello d
  | .dataHello session_key => .dataHello session_key
  | .auth x => .auth x

theorem act_inj {m m' : Message κ} (h : m.act = m'.act) : m = m' := by
  cases m <;> cases m' <;> cases h <;> rfl

/-- The server goes on by itself. -/
def ownAct : GateConnAct (Sym κ) → Bool
  | .lookup | .takeTable | .ack | .find | .send | .leave => true
  | _ => false

/-- Session `s'` is session `s`, later. -/
def Session.Before (s s' : Session κ) : Prop :=
  s'.service = s.service ∧ s'.conn = s.conn ∧ ∀ x, s.answer = some x → s'.answer = some x

theorem Session.Before.refl (s : Session κ) : s.Before s := ⟨rfl, rfl, fun _ h => h⟩

theorem sessions_append {l l' : List (Session κ)} {i : Nat} {s : Session κ} (h : l[i]? = some s) :
    ∃ s', (l ++ l')[i]? = some s' ∧ s.Before s' := by
  refine ⟨s, ?_, .refl s⟩
  rw [List.getElem?_append_left (List.getElem?_eq_some_iff.mp h).1]
  exact h

theorem sessions_modify {l : List (Session κ)} {f : Session κ → Session κ} {i j : Nat}
    {s : Session κ} (h : l[i]? = some s) (hf : l[j]? = some s → s.Before (f s)) :
    ∃ s', (l.modify j f)[i]? = some s' ∧ s.Before s' := by
  rw [List.getElem?_modify, h]
  by_cases e : j = i
  · subst e
    exact ⟨f s, by simp, hf h⟩
  · exact ⟨s, by simp [e], .refl s⟩

/-- What session `s` becomes when it reads `Ack::Ok`. -/
theorem before_acked (s : Session κ) : s.Before (match s.phase with
    | .readAck nonce session_key => { s with phase := .running nonce session_key }
    | _ => s) := by
  unfold Session.Before Session.answer
  split <;> simp_all

theorem peers_append {l l' : List Peer} {n : Nat} {p : Peer} (h : l[n]? = some p) :
    (l ++ l')[n]? = some p := by
  rw [List.getElem?_append_left (List.getElem?_eq_some_iff.mp h).1]
  exact h

end

structure Net (κ : Type*) [DecidableEq κ] where
  gate : Gate (Sym κ)
  /-- by connection -/
  peers : List Peer
  sessions : List (Session κ)
  /-- the connections on which the nonce has been sent -/
  challenged : List Nat
  /-- what the attacker has seen -/
  seen : List (Sym κ)

inductive NetAct (κ : Type*) where
  /-- the attacker opens a connection -/
  | dial
  /-- a client sends its `Hello`, to the server or into the hands of the attacker -/
  | start (service : Secured κ) (taken : Bool)
  /-- session `i` reads this nonce and answers it -/
  | answer (i : Nat) (nonce session_key : Word κ)
  /-- session `i` reads `Ack::Ok` -/
  | acked (i : Nat)
  /-- session `i` opens a data channel, to the server or into the hands of the attacker -/
  | dataChannel (i : Nat) (session_key : Word κ) (taken : Bool)
  /-- the server reads what the peer of connection `n` has said -/
  | hear (n : Nat) (m : Message κ)
  /-- the server sends the nonce of connection `n` -/
  | challenge (n : Nat)
  | own (n : Nat) (a : GateConnAct (Sym κ))
  | addService (cfg : Secured κ)
  | delService (name : List κ)
  | removeEntry (name : List κ)
  | dropTable

/-- Only a relay takes connections of clients. -/
def NetAct.relays {κ : Type*} : NetAct κ → Bool
  | .start _ taken => taken
  | .dataChannel _ _ taken => taken
  | _ => false

section

variable {κ : Type*} [DecidableEq κ]

/-! ## 2. The machine -/

/-- What session `i` may say on its control channel. -/
def Session.says (s : Session κ) : Message κ → Bool
  | .controlHello d => d = nameDigest s.service.name
  | .auth x => s.answer.map Prod.snd = some x
  | .dataHello _ => false

/-- What it may say on a data channel. -/
def Session.presents (s : Session κ) : Message κ → Bool
  | .dataHello session_key => s.answer.map Prod.snd = some session_key
  | _ => false

/-- The nonce that session `s` may read. -/
def Net.offers (leaked : κ → Bool) (net : Net κ) (s : Session κ) (nonce : Word κ) : Bool :=
  match s.conn with
  | some n => n ∈ net.challenged ∧ nonce = drawn n
  | none => Builds (Known leaked net.seen) nonce.toList

/-- `Ack::Ok` for session `s` has been written. -/
def Net.acknowledges (net : Net κ) (s : Session κ) : Bool :=
  match s.conn with
  | some n => net.gate.handles.any fun x => x.conn = n
  | none => true

/-- The peer of connection `n` may say this. -/
def Net.maySay (leaked : κ → Bool) (net : Net κ) (n : Nat) (m : Message κ) : Bool :=
  match net.peers[n]? with
  | some .attacker => Builds (Known leaked net.seen) m.word.toList
  | some (.control i) => net.sessions[i]?.any fun s => s.says m
  | some (.data i) => net.sessions[i]?.any fun s => s.presents m
  | none => false

def Net.allows (leaked : κ → Bool) (honest : Secured κ → Bool) (net : Net κ) : NetAct κ → Bool
  | .start service _ => honest service
  | .answer i nonce session_key => net.sessions[i]?.any fun s =>
      s.answer.isNone && (spelled s.service).session_key hash nonce = some session_key &&
        net.offers leaked s nonce
  | .acked i => net.sessions[i]?.any fun s => s.answer.isSome && net.acknowledges s
  | .dataChannel i session_key _ => net.sessions[i]?.any fun s =>
      match s.phase with
      | .running _ k => k = session_key
      | _ => false
  | .hear n m => net.maySay leaked n m
  | .own _ a => ownAct a
  | _ => true

/-- What a step is for the server. -/
def NetAct.gateAct : NetAct κ → Option (GateAct (Sym κ))
  | .dial => some .accept
  | .start _ taken => if taken then none else some .accept
  | .answer _ _ _ | .acked _ => none
  | .dataChannel _ _ taken => if taken then none else some .accept
  | .hear n m => some (.conn n m.act)
  | .challenge n => some (.conn n (.challenge (drawn n)))
  | .own n a => some (.conn n a)
  | .addService cfg => some (.addService (spelled cfg))
  | .delService name => some (.delService (lettered name))
  | .removeEntry name => some (.removeEntry (lettered name))
  | .dropTable => some .dropTable

/-- The attacker has the connection of session `i`. -/
def Net.taken (net : Net κ) (i : Nat) : Bool := net.sessions[i]?.any fun s => s.conn.isNone

def Net.sees (net : Net κ) (b : Bool) (w : Word κ) : List (Sym κ) :=
  if b then net.seen ++ w.toList else net.seen

/-- What a step changes, apart from the server. -/
def Net.after (net : Net κ) : NetAct κ → Net κ
  | .dial => { net with peers := net.peers ++ [.attacker] }
  | .start service taken => { net with
      peers := if taken then net.peers else net.peers ++ [.control net.sessions.length]
      sessions := net.sessions ++
        [⟨service, if taken then none else some net.peers.length, .readHello⟩]
      seen := net.sees taken (nameDigest service.name) }
  | .answer i nonce session_key => { net with
      sessions := net.sessions.modify i fun s => { s with phase := .readAck nonce session_key }
      seen := net.sees (net.taken i) session_key }
  | .acked i => { net with
      sessions := net.sessions.modify i fun s => match s.phase with
        | .readAck nonce session_key => { s with phase := .running nonce session_key }
        | _ => s }
  | .dataChannel i session_key taken => { net with
      peers := if taken then net.peers else net.peers ++ [.data i]
      seen := net.sees taken session_key }
  | .challenge n => { net with
      challenged := n :: net.challenged
      seen := net.sees (net.peers[n]? = some .attacker) (drawn n) }
  | _ => net

def Net.step (leaked : κ → Bool) (honest : Secured κ → Bool) (net : Net κ) (a : NetAct κ) :
    Option (Net κ) :=
  if net.allows leaked honest a then
    match a.gateAct with
    | none => some (net.after a)
    | some b => (net.gate.step hash b).map fun g => { net.after a with gate := g }
  else none

/-- The services a server starts with. -/
def servicesOf (configs : List (Secured κ)) (d : Word κ) : Option (Secured (Sym κ)) :=
  (configs.find? fun cfg => nameDigest cfg.name = d).map spelled

def Net.initial (configs : List (Secured κ)) : Net κ where
  gate := .initial (servicesOf configs)
  peers := []
  sessions := []
  challenged := []
  seen := []

/-- **The network**: `leaked` are the letters the attacker has, `honest` the configs of honest
    clients, `configs` the services the server starts with. -/
def network (leaked : κ → Bool) (honest : Secured κ → Bool) (configs : List (Secured κ)) :
    Machine (Net κ) (NetAct κ) where
  start net := net = .initial configs
  step := Net.step leaked honest

/-- What one step of the network can do. -/
structure NetStep (leaked : κ → Bool) (honest : Secured κ → Bool) (net : Net κ) (a : NetAct κ)
    (net' : Net κ) : Prop where
  allowed : net.allows leaked honest a = true
  gate : match a.gateAct with
    | none => net'.gate = net.gate
    | some b => GateStep hash net.gate b net'.gate
  rest : net' = { net.after a with gate := net'.gate }

variable {leaked : κ → Bool} {honest : Secured κ → Bool} {net net' : Net κ} {a : NetAct κ}

@[simp] theorem after_gate (net : Net κ) (a : NetAct κ) : (net.after a).gate = net.gate := by
  cases a <;> rfl

theorem net_cases (h : net.step leaked honest a = some net') :
    NetStep leaked honest net a net' := by
  unfold Net.step at h
  split at h
  · rename_i ha
    split at h
    · rename_i hg
      cases h
      exact ⟨ha, by rw [hg]; exact after_gate net a, rfl⟩
    · rename_i b hg
      obtain ⟨g, hb, rfl⟩ := Option.map_eq_some_iff.mp h
      exact ⟨ha, by rw [hg]; exact gate_cases hb, rfl⟩
  · cases h

/-- Who may say it, and why. -/
theorem maySay_cases {n : Nat} {m : Message κ} (h : net.maySay leaked n m = true) :
    (net.peers[n]? = some .attacker ∧ Builds (Known leaked net.seen) m.word.toList) ∨
      (∃ i s, net.peers[n]? = some (.control i) ∧ net.sessions[i]? = some s ∧ s.says m = true) ∨
      ∃ i s, net.peers[n]? = some (.data i) ∧ net.sessions[i]? = some s ∧ s.presents m = true := by
  unfold Net.maySay at h
  split at h
  · rename_i hp
    exact Or.inl ⟨hp, of_decide_eq_true h⟩
  · rename_i i hp
    obtain ⟨s, hs, hm⟩ := (Option.any_eq_true _ _).mp h
    exact Or.inr (Or.inl ⟨i, s, hp, hs, hm⟩)
  · rename_i i hp
    obtain ⟨s, hs, hm⟩ := (Option.any_eq_true _ _).mp h
    exact Or.inr (Or.inr ⟨i, s, hp, hs, hm⟩)
  · cases h

theorem answer_of_says {s : Session κ} {x : Word κ} (h : s.says (.auth x) = true) :
    ∃ nonce, s.answer = some (nonce, x) := by
  obtain ⟨⟨nonce, _⟩, hy, rfl⟩ := Option.map_eq_some_iff.mp (of_decide_eq_true h)
  exact ⟨nonce, hy⟩

theorem answer_of_presents {s : Session κ} {x : Word κ} (h : s.presents (.dataHello x) = true) :
    ∃ nonce, s.answer = some (nonce, x) := by
  obtain ⟨⟨nonce, _⟩, hy, rfl⟩ := Option.map_eq_some_iff.mp (of_decide_eq_true h)
  exact ⟨nonce, hy⟩

/-! ## 3. What stays -/

/-- What has been said and seen is still there. -/
structure Net.Extends (net net' : Net κ) : Prop where
  peers : ∀ (n : Nat) (p : Peer), net.peers[n]? = some p → net'.peers[n]? = some p
  sessions : ∀ (i : Nat) (s : Session κ), net.sessions[i]? = some s →
    ∃ s', net'.sessions[i]? = some s' ∧ s.Before s'
  seen : ∀ b ∈ net.seen, b ∈ net'.seen

theorem mem_sees {net : Net κ} {taken : Bool} {w : Word κ} {b : Sym κ} :
    b ∈ net.sees taken w ↔ b ∈ net.seen ∨ taken = true ∧ b ∈ w.toList := by
  cases taken <;> simp [Net.sees]

/-- A session that answers has not answered before. -/
theorem before_answer {i : Nat} {nonce session_key : Word κ}
    (ha : net.allows leaked honest (.answer i nonce session_key) = true) {s : Session κ}
    (hs : net.sessions[i]? = some s) : s.Before { s with phase := .readAck nonce session_key } := by
  refine ⟨rfl, rfl, fun x hx => ?_⟩
  simp [Net.allows, hs, hx] at ha

/-- **Every step extends.** -/
theorem NetStep.extends (hs : NetStep leaked honest net a net') : net.Extends net' := by
  rw [hs.rest]
  cases a with
  | dial => exact ⟨fun n p h => peers_append h, fun i s h => ⟨s, h, .refl s⟩, fun b h => h⟩
  | start service taken =>
      refine ⟨fun n p h => ?_, fun i s h => sessions_append h, fun b h => mem_sees.mpr (Or.inl h)⟩
      show (if taken then _ else _)[n]? = some p
      cases taken with
      | true => exact h
      | false => exact peers_append h
  | answer i nonce session_key =>
      exact ⟨fun n p h => h, fun j s h => sessions_modify h fun hi => before_answer hs.allowed hi,
        fun b h => mem_sees.mpr (Or.inl h)⟩
  | acked i =>
      exact ⟨fun n p h => h, fun j s h => sessions_modify h fun _ => before_acked s, fun b h => h⟩
  | dataChannel i session_key taken =>
      refine ⟨fun n p h => ?_, fun i s h => ⟨s, h, .refl s⟩, fun b h => mem_sees.mpr (Or.inl h)⟩
      show (if taken then _ else _)[n]? = some p
      cases taken with
      | true => exact h
      | false => exact peers_append h
  | challenge n =>
      exact ⟨fun n p h => h, fun i s h => ⟨s, h, .refl s⟩, fun b h => mem_sees.mpr (Or.inl h)⟩
  | _ => exact ⟨fun n p h => h, fun i s h => ⟨s, h, .refl s⟩, fun b h => h⟩

theorem maySay_mono (he : net.Extends net') {n : Nat} {m : Message κ}
    (h : net.maySay leaked n m = true) : net'.maySay leaked n m = true := by
  unfold Net.maySay at h ⊢
  cases hp : net.peers[n]? with
  | none => simp [hp] at h
  | some p =>
      rw [he.peers n p hp]
      rw [hp] at h
      cases p with
      | attacker =>
          have hb : Builds (Known leaked net.seen) m.word.toList := of_decide_eq_true h
          exact decide_eq_true (hb.mono (known_mono he.seen))
      | control i =>
          obtain ⟨s, hi, hm⟩ := (Option.any_eq_true _ _).mp h
          obtain ⟨s', hi', hservice, _, hans⟩ := he.sessions i s hi
          refine (Option.any_eq_true _ _).mpr ⟨s', hi', ?_⟩
          cases m with
          | controlHello d =>
              unfold Session.says at hm ⊢
              rw [hservice]
              exact hm
          | auth x =>
              obtain ⟨y, hy, rfl⟩ := Option.map_eq_some_iff.mp (of_decide_eq_true hm)
              exact decide_eq_true (Option.map_eq_some_iff.mpr ⟨y, hans y hy, rfl⟩)
          | dataHello k => cases hm
      | data i =>
          obtain ⟨s, hi, hm⟩ := (Option.any_eq_true _ _).mp h
          obtain ⟨s', hi', _, _, hans⟩ := he.sessions i s hi
          refine (Option.any_eq_true _ _).mpr ⟨s', hi', ?_⟩
          cases m with
          | dataHello k =>
              obtain ⟨y, hy, rfl⟩ := Option.map_eq_some_iff.mp (of_decide_eq_true hm)
              exact decide_eq_true (Option.map_eq_some_iff.mpr ⟨y, hans y hy, rfl⟩)
          | controlHello d => cases hm
          | auth x => cases hm

/-! ## 4. What is known of a run -/

/-- A session of an honest client, with the key of its own token. -/
def Session.Honest (honest : Secured κ → Bool) (s : Session κ) : Prop :=
  honest s.service = true ∧ ∀ nonce session_key, s.answer = some (nonce, session_key) →
    (spelled s.service).session_key hash nonce = some session_key

/-- Where the attacker has a symbol from: a nonce, the `Hello` of a session, its key. -/
inductive Net.Source (net : Net κ) : Sym κ → Prop where
  | nonce (n j : Nat) : Source net (.nonce n j)
  | hello (s : Session κ) (hs : s ∈ net.sessions) (j : Nat) :
      Source net (.hashed (lettered s.service.name) j)
  | key (s : Session κ) (hs : s ∈ net.sessions) (nonce session_key : Word κ) (b : Sym κ)
      (ha : s.answer = some (nonce, session_key)) (hb : b ∈ session_key.toList) : Source net b

/-- What the server has heard, and whose configs it has. -/
def Net.heard (leaked : κ → Bool) (net : Net κ) : Heard (Sym κ) where
  asked n d := net.maySay leaked n (.controlHello d) = true
  told n nonce := nonce = drawn n
  served d x := ∃ cfg, x = spelled cfg ∧ d = nameDigest cfg.name
  answered n x := net.maySay leaked n (.auth x) = true
  presented n session_key := net.maySay leaked n (.dataHello session_key) = true

structure Net.Inv (leaked : κ → Bool) (honest : Secured κ → Bool) (net : Net κ) : Prop where
  gate : net.gate.Inv hash (net.heard leaked)
  services : ∀ d x, net.gate.services d = some x → ∃ cfg, x = spelled cfg ∧ d = nameDigest cfg.name
  sessions : ∀ s ∈ net.sessions, s.Honest honest
  seen : ∀ b ∈ net.seen, net.Source b

theorem Net.Extends.heard (he : net.Extends net') : (net.heard leaked).Le (net'.heard leaked) where
  asked _ _ h := maySay_mono he h
  told _ _ h := h
  served _ _ h := h
  answered _ _ h := maySay_mono he h
  presented _ _ h := maySay_mono he h

theorem Net.Source.mono {b : Sym κ} (h : net.Source b) (he : net.Extends net') : net'.Source b := by
  have hlater {s : Session κ} (hs : s ∈ net.sessions) : ∃ s' ∈ net'.sessions, s.Before s' := by
    obtain ⟨i, hi⟩ := List.mem_iff_getElem?.mp hs
    obtain ⟨s', hi', hb⟩ := he.sessions i s hi
    exact ⟨s', List.mem_of_getElem? hi', hb⟩
  cases h with
  | nonce n j => exact .nonce n j
  | hello s hs j =>
      obtain ⟨s', hs', hservice, _⟩ := hlater hs
      rw [← hservice]
      exact .hello s' hs' j
  | key s hs nonce session_key _ ha hb =>
      obtain ⟨s', hs', _, _, hans⟩ := hlater hs
      exact .key s' hs' nonce session_key b (hans _ ha) hb

omit [DecidableEq κ] in
/-- What a task of the server does is heard, is the challenge, or is its own. -/
theorem conn_act_cases {n : Nat} {b : GateConnAct (Sym κ)} (h : a.gateAct = some (.conn n b)) :
    (∃ m, a = .hear n m ∧ b = m.act) ∨ (a = .challenge n ∧ b = .challenge (drawn n)) ∨
      a = .own n b := by
  cases a with
  | hear n' m =>
      cases h
      exact Or.inl ⟨m, rfl, rfl⟩
  | challenge n' =>
      cases h
      exact Or.inr (Or.inl ⟨rfl, rfl⟩)
  | own n' a' =>
      cases h
      exact Or.inr (Or.inr rfl)
  | start _ taken => cases taken <;> cases h
  | dataChannel _ _ taken => cases taken <;> cases h
  | _ => cases h

omit [DecidableEq κ] in
theorem addService_of_act {x : Secured (Sym κ)} (h : a.gateAct = some (.addService x)) :
    ∃ cfg, x = spelled cfg := by
  cases a with
  | addService cfg =>
      cases h
      exact ⟨cfg, rfl⟩
  | start _ taken => cases taken <;> cases h
  | dataChannel _ _ taken => cases taken <;> cases h
  | _ => cases h

/-- What the server hears has been said. -/
theorem maySay_of_act (ha : net.allows leaked honest a = true) {n : Nat} {m : Message κ}
    (h : a.gateAct = some (.conn n m.act)) : net.maySay leaked n m = true := by
  rcases conn_act_cases h with ⟨m', rfl, e⟩ | ⟨_, e⟩ | rfl
  · rw [act_inj e]
    exact ha
  · cases m <;> cases e
  · cases m <;> cases ha

theorem challenge_of_act (ha : net.allows leaked honest a = true) {n : Nat} {nonce : Word κ}
    (h : a.gateAct = some (.conn n (.challenge nonce))) : nonce = drawn n := by
  rcases conn_act_cases h with ⟨m, _, e⟩ | ⟨_, e⟩ | rfl
  · cases m <;> cases e
  · exact GateConnAct.challenge.inj e
  · cases ha

/-- The server hears what has been said. -/
theorem Net.Inv.hears (hI : net.Inv leaked honest) (ha : net.allows leaked honest a = true)
    {b : GateAct (Sym κ)} (hb : a.gateAct = some b) : (net.heard leaked).Hears net.gate b where
  asked n d e := maySay_of_act (m := .controlHello d) ha (by rw [hb, e]; rfl)
  told n nonce e := challenge_of_act ha (by rw [hb, e])
  served n d nonce x _ _ hx := hI.services d x hx
  answered n x e := maySay_of_act (m := .auth x) ha (by rw [hb, e]; rfl)
  presented n k e := maySay_of_act (m := .dataHello k) ha (by rw [hb, e]; rfl)

theorem Net.Inv.gate_step (hI : net.Inv leaked honest) (hs : NetStep leaked honest net a net') :
    net'.gate.Inv hash (net'.heard leaked) := by
  have hle : (net.heard leaked).Le (net'.heard leaked) := hs.extends.heard
  have hg := hs.gate
  split at hg
  · rw [hg]
    exact hI.gate.mono hle
  · rename_i b hb
    exact (hI.gate.step (hI.hears hs.allowed hb) hg).mono hle

theorem Net.Inv.services_step (hI : net.Inv leaked honest) (hs : NetStep leaked honest net a net') :
    ∀ d x, net'.gate.services d = some x → ∃ cfg, x = spelled cfg ∧ d = nameDigest cfg.name := by
  have hg := hs.gate
  split at hg
  · rw [hg]
    exact hI.services
  · rename_i b hb
    refine hg.services hI.services fun x e => ?_
    obtain ⟨cfg, rfl⟩ := addService_of_act (hb.trans (congrArg some e))
    exact ⟨cfg, rfl, rfl⟩

omit [DecidableEq κ] in
/-- The sessions where one of them was changed. -/
theorem mem_modify {l : List (Session κ)} {i : Nat} {f : Session κ → Session κ} {s : Session κ}
    (h : s ∈ l.modify i f) : s ∈ l ∨ ∃ s₀, l[i]? = some s₀ ∧ s = f s₀ := by
  obtain ⟨j, hj⟩ := List.mem_iff_getElem?.mp h
  rw [List.getElem?_modify] at hj
  obtain ⟨s₀, hs₀, e⟩ := Option.map_eq_some_iff.mp hj
  by_cases hij : i = j
  · subst hij
    exact Or.inr ⟨s₀, hs₀, by simpa using e.symm⟩
  · have hs : s₀ = s := by simpa [hij] using e
    rw [← hs]
    exact Or.inl (List.mem_of_getElem? hs₀)

/-- Honest sessions answer with the key of their own token. -/
theorem Net.Inv.sessions_step (hI : net.Inv leaked honest) (hs : NetStep leaked honest net a net') :
    ∀ s ∈ net'.sessions, s.Honest honest := by
  have ha := hs.allowed
  rw [hs.rest]
  cases a with
  | start service taken =>
      intro s hmem
      rcases List.mem_append.mp hmem with hmem | hmem
      · exact hI.sessions s hmem
      · rw [List.mem_singleton.mp hmem]
        exact ⟨ha, fun nonce session_key h => by cases h⟩
  | answer i nonce session_key =>
      intro s hmem
      rcases mem_modify hmem with hmem | ⟨s₀, hs₀, rfl⟩
      · exact hI.sessions s hmem
      · simp only [Net.allows, hs₀, Option.any_some, Bool.and_eq_true, decide_eq_true_eq] at ha
        refine ⟨(hI.sessions s₀ (List.mem_of_getElem? hs₀)).1, fun x k h => ?_⟩
        cases h
        exact ha.1.2
  | acked i =>
      intro s hmem
      rcases mem_modify hmem with hmem | ⟨s₀, hs₀, rfl⟩
      · exact hI.sessions s hmem
      · have h0 := hI.sessions s₀ (List.mem_of_getElem? hs₀)
        unfold Session.Honest Session.answer at h0 ⊢
        split <;> simp_all
  | _ => exact hI.sessions

/-- **What the attacker sees is a nonce, the `Hello` of a session or its key.** -/
theorem Net.Inv.seen_step (hI : net.Inv leaked honest) (hs : NetStep leaked honest net a net') :
    ∀ b ∈ net'.seen, net'.Source b := by
  have he := hs.extends
  have hold (b : Sym κ) (hb : b ∈ net.seen) : net'.Source b := (hI.seen b hb).mono he
  have ha := hs.allowed
  have hrest := hs.rest
  intro b hb
  have hb' : b ∈ (net.after a).seen := by
    rw [hrest] at hb
    exact hb
  cases a with
  | start service taken =>
      rcases mem_sees.mp hb' with hb' | ⟨_, hb'⟩
      · exact hold b hb'
      · obtain ⟨j, _, rfl⟩ := mem_digest.mp hb'
        have hmem : (⟨service, if taken then none else some net.peers.length, .readHello⟩ : Session κ) ∈
            net'.sessions := by
          rw [hrest]
          exact List.mem_append_right _ (List.mem_singleton_self _)
        exact .hello _ hmem j
  | answer i nonce session_key =>
      rcases mem_sees.mp hb' with hb' | ⟨_, hb'⟩
      · exact hold b hb'
      · obtain ⟨s, hi, _⟩ := (Option.any_eq_true _ _).mp ha
        have hi' : net'.sessions[i]? = some { s with phase := .readAck nonce session_key } := by
          rw [hrest]
          show (net.sessions.modify i _)[i]? = _
          rw [List.getElem?_modify, hi]
          simp
        exact .key _ (List.mem_of_getElem? hi') nonce session_key b rfl hb'
  | dataChannel i session_key taken =>
      rcases mem_sees.mp hb' with hb' | ⟨_, hb'⟩
      · exact hold b hb'
      · obtain ⟨s, hi, hk⟩ := (Option.any_eq_true _ _).mp ha
        split at hk
        · rename_i nonce k hp
          have hans : s.answer = some (nonce, session_key) := by
            unfold Session.answer
            rw [hp, of_decide_eq_true hk]
          have hmem : s ∈ net'.sessions := by
            rw [hrest]
            exact List.mem_of_getElem? hi
          exact .key s hmem nonce session_key b hans hb'
        · cases hk
  | challenge n =>
      rcases mem_sees.mp hb' with hb' | ⟨_, hb'⟩
      · exact hold b hb'
      · obtain ⟨j, _, rfl⟩ := mem_nonce.mp hb'
        exact .nonce n j
  | _ => exact hold b hb'

/-- **One step.** -/
theorem Net.Inv.step (hI : net.Inv leaked honest) (hs : NetStep leaked honest net a net') :
    net'.Inv leaked honest :=
  ⟨hI.gate_step hs, hI.services_step hs, hI.sessions_step hs, hI.seen_step hs⟩

theorem Net.inv_initial (configs : List (Secured κ)) : (Net.initial configs).Inv leaked honest where
  gate := Gate.inv_initial _
  services d x h := by
    obtain ⟨cfg, hcfg, rfl⟩ := Option.map_eq_some_iff.mp h
    have hd : nameDigest cfg.name = d := by simpa using List.find?_some hcfg
    exact ⟨cfg, rfl, hd.symm⟩
  sessions s h := by cases h
  seen b h := by cases h

/-- **A run.** -/
theorem Net.inv_run {configs : List (Secured κ)} {tr : List (Net κ × NetAct κ)}
    (r : (network leaked honest configs).Run tr net) : net.Inv leaked honest := by
  refine r.invariant (fun net h => ?_) fun net a net' hI h => hI.step (net_cases h)
  subst h
  exact Net.inv_initial configs

end

end Penetrate.Network
