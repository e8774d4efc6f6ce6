/-
  File:      Penetrate/Agreement.lean
  Subject:   WHO GETS A SERVICE.

  The session key is the hash of the token with the server's nonce appended, and it is all that the
  server compares. Nobody without the token can build it; but it does not say for which service it
  was made, and an honest client answers whatever nonce it reads.

  * `Secret`, `Accepted` -- tokens the attacker has not, and answers the server took;
  * `Net.Inv.key_seen` -- the attacker has a key only where it has seen it;
  * `Untapped` -- without a relay it sees nothing but nonces; `only_token_holder`;
  * `Net.Inv.answered` -- **an answer goes back to a client with the token**;
  * `BindsToken`, `BindsService`, `authentication_binds_token` -- an `Ok` goes back to a client with
    the token of the service, and to one of the service itself where nobody has that token for
    another (`Sole`); `relayed_answer` -- where somebody has.
-/
import Penetrate.Network

namespace Penetrate.Network

open Concurrent Machine Symbolic Server

section

variable {κ : Type*}

/-! ## 1. Tokens and keys -/

/-- The attacker does not know the token. -/
def Secret (leaked : κ → Bool) (t : List κ) : Prop := ¬ Builds (Known leaked []) (lettered t)

theorem lettered_inj {v w : List κ} (h : lettered v = lettered w) : v = w := by
  have hinj : Function.Injective (Sym.letter : κ → Sym κ) := fun _ _ e => Sym.letter.inj e
  exact hinj.list_map h

theorem builds_lettered {K : Set (Sym κ)} {w : List κ} :
    Builds K (lettered w) ↔ ∀ c ∈ w, .letter c ∈ K := by
  unfold Builds lettered
  simp only [List.forall_mem_map, derives_letter]

/-- A token is secret precisely where one of its letters is. -/
theorem secret_iff {leaked : κ → Bool} {t : List κ} : Secret leaked t ↔ ∃ c ∈ t, leaked c = false := by
  unfold Secret
  rw [builds_lettered]
  simp [letter_mem_known]

theorem hash_inj {v w : List (Sym κ)} (h : (hash v : Word κ) = hash w) : v = w :=
  (digest_inj (by decide)).mp h

/-- Keys of one token and one nonce, whatever the lengths of the tokens. -/
theorem key_inj {t t' : List κ} {x y : Word κ}
    (h : (hash (lettered t ++ x.toList) : Word κ) = hash (lettered t' ++ y.toList)) :
    t = t' ∧ x = y := by
  obtain ⟨ht, hx⟩ := append_block_inj.mp (hash_inj h)
  exact ⟨lettered_inj ht, hx⟩

theorem drawn_inj {n m : Nat} (h : (drawn n : Word κ) = drawn m) : n = m :=
  (nonce_inj (by decide)).mp h

/-- A name is no token with a nonce appended. -/
theorem name_ne_key (name t : List κ) (n : Nat) :
    lettered name ≠ lettered t ++ (drawn n : Word κ).toList := by
  intro h
  have hmem : Sym.nonce n 0 ∈ lettered name := by
    rw [h]
    exact List.mem_append_right _ (mem_nonce.mpr ⟨0, by decide, rfl⟩)
  obtain ⟨c, _, e⟩ := List.mem_map.mp hmem
  cases e

variable {honest : Secured κ → Bool}

theorem Session.Honest.key {s : Session κ} (h : s.Honest honest) {nonce session_key : Word κ}
    (ha : s.answer = some (nonce, session_key)) :
    ∃ t, s.service.token = some t ∧ session_key = hash (lettered t ++ nonce.toList) := by
  obtain ⟨w, hw, hk⟩ := Option.map_eq_some_iff.mp (h.2 nonce session_key ha)
  obtain ⟨t, ht, rfl⟩ := Option.map_eq_some_iff.mp hw
  exact ⟨t, ht, hk.symm⟩

end

section

variable {κ : Type*} [DecidableEq κ] {leaked : κ → Bool} {honest : Secured κ → Bool}
  {net net' : Net κ} {a : NetAct κ} {tr : List (Net κ × NetAct κ)}

/-- The handshake of connection `n` took the answer `k`, for a service with this config. -/
def Accepted (tr : List (Net κ × NetAct κ)) (n : Nat) (cfg : Secured (Sym κ)) (k : Word κ) : Prop :=
  ∃ net d, (net, .hear n (.auth k)) ∈ tr ∧ net.gate.conns[n]? = some (.readAuth d cfg k)

/-! ## 2. What the attacker has -/

theorem Net.Inv.letter_not_seen (hI : net.Inv leaked honest) (c : κ) : .letter c ∉ net.seen := by
  intro hc
  cases hI.seen _ hc with
  | key s hs nonce session_key _ ha hb =>
      obtain ⟨t, _, rfl⟩ := (hI.sessions s hs).key ha
      obtain ⟨j, _, e⟩ := mem_digest.mp hb
      cases e

/-- **The attacker has a key of a secret token only where it has seen it.** -/
theorem Net.Inv.key_seen (hI : net.Inv leaked honest) {t : List κ} (ht : Secret leaked t)
    {x : Word κ} (h : Builds (Known leaked net.seen) (hash (lettered t ++ x.toList) : Word κ).toList) :
    .hashed (lettered t ++ x.toList) 0 ∈ net.seen := by
  rcases builds_digest (by decide) h with h | h
  · rcases h with h | ⟨c, _, e⟩
    · exact h
    · cases e
  · refine (ht ?_).elim
    rw [builds_lettered]
    intro c hc
    have hk := builds_lettered.mp (builds_append.mp h).1 c hc
    exact Or.inr ((hk).resolve_left (hI.letter_not_seen c))

/-- A hash the attacker has seen is a `Hello`, or the key of a session. -/
theorem Net.Inv.hashed_seen (hI : net.Inv leaked honest) {w : List (Sym κ)} {j : Nat}
    (h : .hashed w j ∈ net.seen) : (∃ s ∈ net.sessions, w = lettered s.service.name) ∨
      ∃ s ∈ net.sessions, ∃ x, s.answer = some (x, hash w) := by
  cases hI.seen _ h with
  | hello s hs _ => exact Or.inl ⟨s, hs, rfl⟩
  | key s hs x session_key _ ha hb =>
      obtain ⟨t, _, rfl⟩ := (hI.sessions s hs).key ha
      obtain ⟨i, _, e⟩ := mem_digest.mp hb
      cases e
      exact Or.inr ⟨s, hs, x, ha⟩

/-- What the server has for the key of connection `n`. -/
theorem Net.Inv.key_eq {n : Nat} {x : Secured (Sym κ)} {k : Word κ}
    (hk : (net.heard leaked).Key hash n x k) {t : List κ} (ht : x.token = some (lettered t)) :
    k = hash (lettered t ++ (drawn n).toList) := by
  obtain ⟨w, nonce, hw, rfl, rfl⟩ := hk
  rw [ht] at hw
  cases hw
  rfl

/-- An honest session that has this key has this token, and has read this nonce. -/
theorem Net.Inv.of_key (hI : net.Inv leaked honest) {s : Session κ} (hs : s ∈ net.sessions)
    {t : List κ} {x y : Word κ} (ha : s.answer = some (y, hash (lettered t ++ x.toList))) :
    s.service.token = some t ∧ y = x := by
  obtain ⟨t', ht', hk⟩ := (hI.sessions s hs).key ha
  obtain ⟨rfl, rfl⟩ := key_inj hk
  exact ⟨ht', rfl⟩

/-- **An answer with a secret token is one of an honest client with this token, to the nonce of
    this very connection.** -/
theorem Net.Inv.answered (hI : net.Inv leaked honest) {t : List κ} (ht : Secret leaked t) {n : Nat}
    {k : Word κ} (hk : k = hash (lettered t ++ (drawn n).toList))
    (hm : net.maySay leaked n (.auth k) = true) :
    ∃ s ∈ net.sessions, s.service.token = some t ∧ s.answer = some (drawn n, k) := by
  subst hk
  rcases maySay_cases hm with ⟨_, hb⟩ | ⟨i, s, _, hs, hsays⟩ | ⟨_, _, _, _, hsays⟩
  · rcases hI.hashed_seen (hI.key_seen ht hb) with ⟨s, _, e⟩ | ⟨s, hs, x, ha⟩
    · exact absurd e.symm (name_ne_key s.service.name t n)
    · obtain ⟨ht', rfl⟩ := hI.of_key hs ha
      exact ⟨s, hs, ht', ha⟩
  · obtain ⟨y, ha⟩ := answer_of_says hsays
    have hmem := List.mem_of_getElem? hs
    obtain ⟨ht', rfl⟩ := hI.of_key hmem ha
    exact ⟨s, hmem, ht', ha⟩
  · cases hsays

/-! ## 3. Without a relay -/

/-- The attacker has seen nonces only, and no connection of a client is its own. -/
structure Net.Untapped (net : Net κ) : Prop where
  sessions : ∀ s ∈ net.sessions, s.conn ≠ none
  seen : ∀ b ∈ net.seen, ∃ n j, b = .nonce n j

theorem Net.Untapped.initial (configs : List (Secured κ)) : (Net.initial configs).Untapped where
  sessions s h := by cases h
  seen b h := by cases h

theorem Net.Untapped.step (hU : net.Untapped) (hr : a.relays = false)
    (hs : NetStep leaked honest net a net') : net'.Untapped := by
  have ha := hs.allowed
  rw [hs.rest]
  cases a with
  | start service taken =>
      cases hr
      refine ⟨fun s hmem => ?_, hU.seen⟩
      rcases List.mem_append.mp hmem with hmem | hmem
      · exact hU.sessions s hmem
      · rw [List.mem_singleton.mp hmem]
        exact Option.some_ne_none _
  | answer i nonce session_key =>
      have ht : net.taken i = false := by
        obtain ⟨s, hi, _⟩ := (Option.any_eq_true _ _).mp ha
        have hconn : s.conn.isSome = true :=
          Option.isSome_iff_ne_none.mpr (hU.sessions s (List.mem_of_getElem? hi))
        simp [Net.taken, hi, hconn]
      refine ⟨fun s hmem => ?_, fun b hb => ?_⟩
      · rcases mem_modify hmem with hmem | ⟨s₀, hi, rfl⟩
        · exact hU.sessions s hmem
        · exact hU.sessions s₀ (List.mem_of_getElem? hi)
      · rcases mem_sees.mp hb with hb | ⟨htaken, _⟩
        · exact hU.seen b hb
        · rw [ht] at htaken
          cases htaken
  | acked i =>
      refine ⟨fun s hmem => ?_, hU.seen⟩
      rcases mem_modify hmem with hmem | ⟨s₀, hi, rfl⟩
      · exact hU.sessions s hmem
      · rw [(before_acked s₀).2.1]
        exact hU.sessions s₀ (List.mem_of_getElem? hi)
  | dataChannel i session_key taken =>
      cases hr
      exact ⟨hU.sessions, hU.seen⟩
  | challenge n =>
      refine ⟨hU.sessions, fun b hb => ?_⟩
      rcases mem_sees.mp hb with hb | ⟨_, hb⟩
      · exact hU.seen b hb
      · obtain ⟨j, _, rfl⟩ := mem_nonce.mp hb
        exact ⟨n, j, rfl⟩
  | _ => exact ⟨hU.sessions, hU.seen⟩

/-- Without a relay the attacker has no key of a secret token. -/
theorem Net.Inv.key_not_built (hI : net.Inv leaked honest) (hU : net.Untapped) {t : List κ}
    (ht : Secret leaked t) {x : Word κ} :
    ¬ Builds (Known leaked net.seen) (hash (lettered t ++ x.toList) : Word κ).toList := by
  intro h
  obtain ⟨n, j, e⟩ := hU.seen _ (hI.key_seen ht h)
  cases e

/-- What the server has compared an answer with. -/
theorem Accepted.key {configs : List (Secured κ)} (r : (network leaked honest configs).Run tr net)
    {n : Nat} {x : Secured (Sym κ)} {k : Word κ} (h : Accepted tr n x k) :
    ∃ cfg t, x = spelled cfg ∧ cfg.token = some t ∧ k = hash (lettered t ++ (drawn n).toList) := by
  obtain ⟨v, d, hv, hn⟩ := h
  obtain ⟨tr', r'⟩ := r.prefix_run hv
  obtain ⟨_, ⟨cfg, rfl, _⟩, w, _, hw, rfl, hk⟩ := (Net.inv_run r').gate.phase n _ hn
  obtain ⟨t, ht, rfl⟩ := Option.map_eq_some_iff.mp hw
  exact ⟨cfg, t, rfl, ht, hk⟩

/-- **Two handshakes take different answers.** -/
theorem Accepted.once {configs : List (Secured κ)} (r : (network leaked honest configs).Run tr net)
    {n m : Nat} {x x' : Secured (Sym κ)} {k : Word κ} (h : Accepted tr n x k)
    (h' : Accepted tr m x' k) : n = m := by
  obtain ⟨_, _, _, _, hk⟩ := h.key r
  obtain ⟨_, _, _, _, hk'⟩ := h'.key r
  exact drawn_inj (key_inj (hk.symm.trans hk')).2

/-- Connection `n` is one of an honest client that has the token `t`. -/
def Net.OfHolder (net : Net κ) (t : List κ) (n : Nat) : Prop :=
  ∃ i s, (net.peers[n]? = some (.control i) ∨ net.peers[n]? = some (.data i)) ∧
    net.sessions[i]? = some s ∧ s.service.token = some t

/-- The token `t` guards its services: over no connection of the attacker is a handle registered for
    one of them, nor is one enqueued to it; no answer is taken twice. -/
structure Guards (tr : List (Net κ × NetAct κ)) (net : Net κ) (t : List κ) : Prop where
  registered : ∀ x ∈ net.gate.handles, x.service.token = some (lettered t) →
    net.peers[x.conn]? ≠ some .attacker ∧ net.OfHolder t x.conn
  once : ∀ n m x x' k, Accepted tr n x k → Accepted tr m x' k → n = m
  enqueued : ∀ q ∈ net.gate.queued, ∀ x, net.gate.handles[q.2]? = some x →
    x.service.token = some (lettered t) →
      net.peers[q.1]? ≠ some .attacker ∧ net.OfHolder t q.1

theorem Net.OfHolder.not_attacker {t : List κ} {n : Nat} (h : net.OfHolder t n) :
    net.peers[n]? ≠ some .attacker := by
  obtain ⟨i, s, hp, _⟩ := h
  intro e
  rcases hp with hp | hp <;> rw [hp] at e <;> cases e

/-- Who says a key of a secret token has the token. -/
theorem Net.Inv.holder (hI : net.Inv leaked honest) (hU : net.Untapped) {t : List κ}
    (ht : Secret leaked t) {x : Word κ} {n : Nat} {m : Message κ}
    (hw : m.word = hash (lettered t ++ x.toList)) (hm : net.maySay leaked n m = true)
    (hhello : ∀ d, m ≠ .controlHello d) : net.OfHolder t n := by
  rcases maySay_cases hm with ⟨_, hb⟩ | ⟨i, s, hp, hs, hsays⟩ | ⟨i, s, hp, hs, hsays⟩
  · rw [hw] at hb
    exact (hI.key_not_built hU ht hb).elim
  · cases m with
    | controlHello d => exact (hhello d rfl).elim
    | dataHello k => cases hsays
    | auth k =>
        obtain ⟨y, ha⟩ := answer_of_says hsays
        rw [show k = _ from hw] at ha
        exact ⟨i, s, Or.inl hp, hs, (hI.of_key (List.mem_of_getElem? hs) ha).1⟩
  · cases m with
    | controlHello d => cases hsays
    | auth k => cases hsays
    | dataHello k =>
        obtain ⟨y, ha⟩ := answer_of_presents hsays
        rw [show k = _ from hw] at ha
        exact ⟨i, s, Or.inr hp, hs, (hI.of_key (List.mem_of_getElem? hs) ha).1⟩

/-- **Only the token holder gets a service**, against every attacker that is no relay: for every
    token it does not know. -/
theorem only_token_holder {configs : List (Secured κ)} (r : (network leaked honest configs).Run tr net)
    (hr : Guarded (fun _ a => a.relays = false) tr) {t : List κ} (ht : Secret leaked t) :
    Guards tr net t := by
  have hI := Net.inv_run r
  have hU : net.Untapped := by
    refine r.inv (fun v h => ?_) (fun v a v' hU hr h => hU.step hr (net_cases h)) hr
    subst h
    exact Net.Untapped.initial configs
  refine ⟨fun x hx htok => ?_, fun n m x x' k h h' => h.once r h', fun q hq x hx htok => ?_⟩
  · obtain ⟨_, _, hkey, hans⟩ := hI.gate.handle x hx
    have hk := Net.Inv.key_eq hkey htok
    have hh : net.OfHolder t x.conn := hI.holder hU ht (m := .auth x.session_key) hk hans (by simp)
    exact ⟨hh.not_attacker, hh⟩
  · obtain ⟨y, hy, hp⟩ := hI.gate.queued q hq
    rw [hx] at hy
    cases hy
    obtain ⟨_, _, hkey, _⟩ := hI.gate.handle x (List.mem_of_getElem? hx)
    have hk := Net.Inv.key_eq hkey htok
    have hh : net.OfHolder t q.1 := hI.holder hU ht (m := .dataHello x.session_key) hk hp (by simp)
    exact ⟨hh.not_attacker, hh⟩

end

/-- Every letter but one is public. -/
def isPublic (c : Char) : Bool := c ≠ 'K'

/-- Two services with one token. -/
def web : Secured Char := ⟨['w', 'e', 'b'], some ['K']⟩
def ssh : Secured Char := ⟨['s', 's', 'h'], some ['K']⟩

def theirs (c : Secured Char) : Bool := (c.name = web.name ∨ c.name = ssh.name) ∧ c.token = some ['K']

/-- The key of connection `n` for both. -/
def sharedKey (n : Nat) : Word Char := hash (lettered ['K'] ++ (drawn n).toList)

/-- The client of `web` registers and opens a data channel, while the attacker tries to register
    `ssh` and to open a data channel with a wrong key. -/
def serving : List (NetAct Char) :=
  [.start web false, .dial, .hear 1 (.controlHello (nameDigest ssh.name)),
    .hear 0 (.controlHello (nameDigest web.name)), .challenge 1, .challenge 0, .own 1 .lookup,
    .own 0 .lookup, .answer 0 (drawn 0) (sharedKey 0), .hear 1 (.auth (drawn 1)),
    .hear 0 (.auth (sharedKey 0)), .own 0 .takeTable, .own 0 .ack, .acked 0,
    .dataChannel 0 (sharedKey 0) false, .dial, .hear 3 (.dataHello (drawn 1)),
    .hear 2 (.dataHello (sharedKey 0)), .own 3 .find, .own 2 .find, .own 2 .send]

theorem exec_serving : ((network isPublic theirs [web, ssh]).exec (.initial [web, ssh]) serving).any
    (fun net => net.gate.handles.map Registered.conn = [0] ∧ net.gate.queued = [(2, 0)]) = true := by
  decide +kernel

theorem secret_shared : Secret isPublic ['K'] := secret_iff.mpr ⟨'K', by decide, by decide⟩

theorem only_token_holder_web : ∃ tr net, (network isPublic theirs [web, ssh]).Run tr net ∧
    net.gate.handles.map Registered.conn = [0] ∧ net.gate.queued = [(2, 0)] ∧ Guards tr net ['K'] := by
  obtain ⟨net, hnet, ht⟩ := (Option.any_eq_true _ _).mp exec_serving
  obtain ⟨tr, r, hacts⟩ := run_exec_acts (.start rfl) hnet
  rw [List.append_nil] at r
  have hr : Guarded (fun _ a => a.relays = false) tr := by
    intro p hp
    have hmem : p.2 ∈ serving := by
      rw [← List.mem_reverse, ← hacts]
      exact List.mem_map_of_mem hp
    have hall : serving.all (fun a => !a.relays) = true := rfl
    simpa using List.all_eq_true.mp hall p.2 hmem
  obtain ⟨hc, hq⟩ := of_decide_eq_true ht
  exact ⟨tr, net, r, hc, hq, only_token_holder r hr secret_shared⟩

section

variable {κ : Type*} [DecidableEq κ] {leaked : κ → Bool} {honest : Secured κ → Bool}
  {net : Net κ} {tr : List (Net κ × NetAct κ)}

/-! ## 4. With a relay -/

/-- Nobody honest has the token of this service under the name of another. -/
def Sole (honest : Secured κ → Bool) (x : Secured (Sym κ)) : Prop :=
  ∀ c, honest c = true → (spelled c).token = x.token → (spelled c).name = x.name

/-- **Authentication binds the token**: a registration with a token that the attacker does not know
    goes back to an honest session with this token that has answered this very nonce, and an answer
    the server takes is of no session with another token. It binds the service with it where the
    token is of no other. -/
structure BindsToken (leaked : κ → Bool) (honest : Secured κ → Bool) (tr : List (Net κ × NetAct κ))
    (net : Net κ) : Prop where
  named : ∀ x ∈ net.gate.handles, x.digest = hash x.service.name
  registered : ∀ x ∈ net.gate.handles, ∀ t, x.service.token = some (lettered t) → Secret leaked t →
    ∃ s ∈ net.sessions, honest s.service = true ∧ s.service.token = some t ∧
      s.answer = some (drawn x.conn, x.session_key) ∧
        (Sole honest x.service → spelled s.service = x.service)
  accepted : ∀ n x k, Accepted tr n x k → ∀ s ∈ net.sessions, ∀ nonce, s.answer = some (nonce, k) →
    (spelled s.service).token = x.token ∧ (Sole honest x → spelled s.service = x)

/-- The same of the service, whoever has its token. -/
structure BindsService (leaked : κ → Bool) (tr : List (Net κ × NetAct κ)) (net : Net κ) : Prop where
  registered : ∀ x ∈ net.gate.handles, ∀ t, x.service.token = some (lettered t) → Secret leaked t →
    ∃ s ∈ net.sessions, spelled s.service = x.service ∧ s.answer = some (drawn x.conn, x.session_key)
  accepted : ∀ n x k, Accepted tr n x k → ∀ s ∈ net.sessions, ∀ nonce, s.answer = some (nonce, k) →
    spelled s.service = x

omit [DecidableEq κ] in
theorem Sole.service {x : Secured (Sym κ)} (h : Sole honest x) {c : Secured κ} (hc : honest c = true)
    (ht : (spelled c).token = x.token) : spelled c = x := by
  have hn := h c hc ht
  cases x
  cases hn
  cases ht
  rfl

/-- **Authentication binds the token**, and the service where nobody else has it, against every
    relay. -/
theorem authentication_binds_token {configs : List (Secured κ)}
    (r : (network leaked honest configs).Run tr net) : BindsToken leaked honest tr net := by
  have hI := Net.inv_run r
  refine ⟨fun x hx => ?_, fun x hx t htok hsec => ?_, fun n x k hacc s hs nonce ha => ?_⟩
  · obtain ⟨_, ⟨cfg, hcfg, hd⟩, _⟩ := hI.gate.handle x hx
    rw [hd, hcfg]
    rfl
  · obtain ⟨_, _, hkey, hans⟩ := hI.gate.handle x hx
    obtain ⟨s, hs, hst, ha⟩ := hI.answered hsec (Net.Inv.key_eq hkey htok) hans
    have hhonest := (hI.sessions s hs).1
    have ht : (spelled s.service).token = x.service.token := by
      rw [htok]
      show s.service.token.map lettered = _
      rw [hst]
      rfl
    exact ⟨s, hs, hhonest, hst, ha, fun hsole => hsole.service hhonest ht⟩
  · obtain ⟨cfg, t, rfl, ht, hk⟩ := hacc.key r
    rw [hk] at ha
    have hst : s.service.token = cfg.token := (hI.of_key hs ha).1.trans ht.symm
    have ht' : (spelled s.service).token = (spelled cfg).token := congrArg (Option.map lettered) hst
    exact ⟨ht', fun hsole => hsole.service (hI.sessions s hs).1 ht'⟩

end

/-- A relay takes the client of `web`, asks for `ssh` itself, and has the client answer the nonce it
    is sent. -/
def relaying : List (NetAct Char) :=
  [.start web true, .dial, .hear 0 (.controlHello (nameDigest ssh.name)), .challenge 0,
    .own 0 .lookup, .answer 0 (drawn 0) (sharedKey 0), .hear 0 (.auth (sharedKey 0)),
    .own 0 .takeTable, .own 0 .ack]

theorem exec_relaying : ((network isPublic theirs [web, ssh]).exec (.initial [web, ssh]) relaying).any
    (fun net => net.gate.handles.map (fun x => (x.service.name, x.service.token)) =
        [(lettered ssh.name, some (lettered ['K']))] ∧
      net.sessions.map (fun s => s.service.name) = [web.name]) = true := by
  decide +kernel

theorem run_relaying : ∃ tr net, (network isPublic theirs [web, ssh]).Run tr net ∧
    (∃ x ∈ net.gate.handles, x.service = spelled ssh) ∧
      ∀ s ∈ net.sessions, s.service.name = web.name := by
  obtain ⟨net, hnet, ht⟩ := (Option.any_eq_true _ _).mp exec_relaying
  obtain ⟨tr, r⟩ := run_exec (.start rfl) hnet
  obtain ⟨hh, hs⟩ := of_decide_eq_true ht
  refine ⟨_, net, r, ?_, fun s hmem => ?_⟩
  · have hmem : (lettered ssh.name, some (lettered ['K'])) ∈
        net.gate.handles.map (fun x => (x.service.name, x.service.token)) := by
      rw [hh]
      exact List.mem_singleton_self _
    obtain ⟨x, hx, e⟩ := List.mem_map.mp hmem
    refine ⟨x, hx, ?_⟩
    obtain ⟨hn, htok⟩ := Prod.mk.inj e
    cases hx' : x.service with
    | mk name token =>
        rw [hx'] at hn htok
        cases hn
        cases htok
        rfl
  · have hmem' : s.service.name ∈ net.sessions.map (fun s => s.service.name) :=
      List.mem_map_of_mem hmem
    rw [hs] at hmem'
    exact List.mem_singleton.mp hmem'

/-- **An answer made for one service opens another** with the same token, which the attacker does not
    know. -/
theorem relayed_answer : Secret isPublic ['K'] ∧ (∀ c, theirs c = true → c.token = some ['K']) ∧
    ∃ tr net, (network isPublic theirs [web, ssh]).Run tr net ∧ ¬ BindsService isPublic tr net := by
  refine ⟨secret_shared, fun c hc => (of_decide_eq_true hc).2, ?_⟩
  obtain ⟨tr, net, r, ⟨x, hx, hssh⟩, hweb⟩ := run_relaying
  refine ⟨tr, net, r, fun hb => ?_⟩
  have htok : x.service.token = some (lettered ['K']) := by
    rw [hssh]
    rfl
  obtain ⟨s, hs, e, _⟩ := hb.registered x hx ['K'] htok secret_shared
  have hname : lettered s.service.name = lettered ssh.name := by
    rw [hssh] at e
    exact congrArg Secured.name e
  have hne : web.name ≠ ssh.name := by decide
  exact hne ((hweb s hs).symm.trans (lettered_inj hname))

theorem authentication_binds_token_ssh : ∃ tr net,
    (network isPublic theirs [web, ssh]).Run tr net ∧
      (∃ x ∈ net.gate.handles, x.service = spelled ssh) ∧ BindsToken isPublic theirs tr net := by
  obtain ⟨tr, net, r, hx, _⟩ := run_relaying
  exact ⟨tr, net, r, hx, authentication_binds_token r⟩

end Penetrate.Network
