/-
  File:      Penetrate/Client/Replacement.lean
  Subject:   A DROPPED CONTROL CHANNEL AND ITS REPLACEMENT: the client of ControlChannel.lean with the
             table of its server.

  The server brings each `Auth` to its table in the task of its connection: in any order, and any
  time after it was sent. Whoever is brought there displaces the control channel that has the
  service.

  * `Link`, `link` -- the client, the `Auth`s on their way, and `control_channels`, against every
    other client and every hot reload of the server;
  * `can_do`, `can_send`, `can_displace` -- what a task may still do, signalled or not;
  * `Link.Quiet` -- what it has done for good, with none of its `Auth`s on their way;
  * `stays_down_iff` -- **what a dropped task still does**, by where it was at the drop and what was
    on its way.
-/
import Penetrate.Client.ControlChannel
import Penetrate.Instance

namespace Penetrate.Client

open Collections Concurrent Machine

/-! ## 1. The two ends -/

/-- An `Auth` on its way: the task and the run that sent it, and the service of its `Hello`. -/
structure SentAuth where
  task : Nat
  run : Nat
  service : ServiceDigest
  deriving DecidableEq

/-- Whose control channel has a service. -/
inductive Holder where
  | task (i : Nat)
  /-- one of another client, or of another instance of this one -/
  | other
  deriving DecidableEq, Repr

structure Link where
  services : Services
  /-- sent, and not yet brought to the table -/
  inFlight : List SentAuth
  /-- registered, with an `Ack::Ok` -/
  acked : List SentAuth
  control_channels : ServiceDigest → Option Holder

inductive LinkAct where
  | client (a : ServicesAct)
  /-- the server's task has its guard: `remove1`, the `Ack` and, where that was sent, `insert` -/
  | register (x : SentAuth) (ok : Bool)
  /-- it ends before that -/
  | refuse (x : SentAuth)
  | other (d : ServiceDigest)
  /-- a hot reload of the server -/
  | remove (d : ServiceDigest)

section

variable (digest : Bytes → Digest)

/-- The `Auth` a step of the client sends. -/
def Services.sends (s : Services) : ServicesAct → List SentAuth
  | .task i (.proceed true) => match s.tasks[i]? with
    | some t =>
        if t.phase = .running .sendAuth then [⟨i, t.runs, nameDigest digest t.service.name⟩] else []
    | none => []
  | _ => []

/-- `read_ack` ends well once the server has acknowledged the `Auth` of this run. -/
def Link.answers (l : Link) : ServicesAct → Bool
  | .task i (.proceed true) => match l.services.tasks[i]? with
    | some t =>
        t.phase ≠ .running .readAck || l.acked.any fun x => x.task = i && x.run = t.runs
    | none => true
  | _ => true

def Link.step (heartbeat_timeout : UInt64) (l : Link) : LinkAct → Option Link
  | .client a =>
      if l.answers a then
        (l.services.step heartbeat_timeout a).map fun s =>
          { l with services := s, inFlight := l.inFlight ++ l.services.sends digest a }
      else none
  | .register x ok =>
      if x ∈ l.inFlight then
        some { l with
          inFlight := l.inFlight.erase x
          acked := if ok then l.acked ++ [x] else l.acked
          control_channels := Function.update l.control_channels x.service
            (if ok then some (.task x.task) else none) }
      else none
  | .refuse x => if x ∈ l.inFlight then some { l with inFlight := l.inFlight.erase x } else none
  | .other d =>
      some { l with control_channels := Function.update l.control_channels d (some .other) }
  | .remove d => some { l with control_channels := Function.update l.control_channels d none }

/-- **A client and the table of its server.** -/
def link (config : ClientConfig) : Machine Link LinkAct where
  start l := l = ⟨.initial config, [], [], fun _ => none⟩
  step := Link.step digest config.heartbeat_timeout

end

/-- The registration of an `Auth` of task `i` drops the control channel of somebody else. -/
def Link.Displaces (l : Link) (i : Nat) (a : LinkAct) : Prop :=
  ∃ x ok holder, a = .register x ok ∧ x ∈ l.inFlight ∧ x.task = i ∧
    l.control_channels x.service = some holder ∧ holder ≠ .task i

/-- No `Auth` of task `i` is on its way. -/
def Link.Settled (l : Link) (i : Nat) : Prop := ∀ x ∈ l.inFlight, x.task ≠ i

variable {digest : Bytes → Digest} {config : ClientConfig}

/-- **One step**: the client's, which may send an `Auth`, or one that leaves the client alone and adds
    none. -/
theorem link_cases {l l' : Link} {a : LinkAct} (h : (link digest config).step l a = some l') :
    (∃ b, l.services.step config.heartbeat_timeout b = some l'.services ∧
      l'.inFlight = l.inFlight ++ l.services.sends digest b) ∨
    l'.services = l.services ∧ l'.inFlight ⊆ l.inFlight := by
  unfold link Link.step at h
  dsimp only at h
  split at h
  · rename_i b
    split at h
    · obtain ⟨s, hs, rfl⟩ := Option.map_eq_some_iff.mp h
      exact Or.inl ⟨b, hs, rfl⟩
    · cases h
  · split at h
    · cases h
      exact Or.inr ⟨rfl, List.erase_subset⟩
    · cases h
  · split at h
    · cases h
      exact Or.inr ⟨rfl, List.erase_subset⟩
    · cases h
  · cases h
    exact Or.inr ⟨rfl, List.Subset.refl _⟩
  · cases h
    exact Or.inr ⟨rfl, List.Subset.refl _⟩

/-- What the client comes to here, it comes to by itself. -/
theorem services_reachable {l : Link} (h : (link digest config).Reachable l) :
    (controlChannels config).Reachable l.services := by
  obtain ⟨tr, r⟩ := h
  refine (r.simulates (f := Link.services) (I := fun _ => True)
    (fun l hl => ⟨by rw [show l = _ from hl]; rfl, trivial⟩) fun l a l' _ h => ⟨?_, trivial⟩).1
  rcases link_cases h with ⟨b, hb, _⟩ | ⟨heq, _⟩
  · exact .of_step hb
  · rw [heq]
    exact .refl _

/-! ## 2. What a task can still do -/

variable (digest) in
/-- Up to the `Auth`, the server holds no step of a task back. -/
theorem client_step {l : Link} {i : Nat} {t t' : ControlTask} {b : TaskAct}
    (ht : l.services.tasks[i]? = some t) (hr : t.phase.rank ≤ 5)
    (h : t.step config.heartbeat_timeout b = some t') :
    ∃ l', (link digest config).step l (.client (.task i b)) = some l' ∧
      l'.services.tasks[i]? = some t' ∧
      l'.inFlight = l.inFlight ++ l.services.sends digest (.task i b) := by
  have hanswers : l.answers (.task i b) = true := by
    unfold Link.answers
    split
    · have hne : t.phase ≠ .running .readAck := by
        intro e
        rw [e] at hr
        exact absurd hr (by decide)
      rename_i e
      cases e
      simp [ht, hne]
    · rfl
  have hlt := (List.getElem?_eq_some_iff.mp ht).1
  refine ⟨{ l with
    services := { l.services with tasks := l.services.tasks.set i t' }
    inFlight := l.inFlight ++ l.services.sends digest (.task i b) }, ?_, by simp [hlt], rfl⟩
  simp only [link, Link.step, hanswers, if_true, Services.step, ht, h, Option.map_some]

variable (digest config) in
/-- **A task that is not past its last deed `d` can still do it**, signalled or not. -/
theorem can_do {l : Link} {i : Nat} {t : ControlTask} {d : Deed}
    (ht : l.services.tasks[i]? = some t) (h : t.phase.rank ≤ d.last) :
    ∃ l', (link digest config).Leads l l' ∧ t.deeds d < l'.services.deeds i d := by
  have h5 : d.last ≤ 5 := by cases d <;> decide
  obtain ⟨b, t', hstep, hrank, hdeeds⟩ := t.advance config.heartbeat_timeout (h.trans h5)
  obtain ⟨l1, hl1, ht', _⟩ := client_step digest ht (h.trans h5) hstep
  by_cases he : d.last = t.phase.rank
  · refine ⟨l1, .of_step hl1, ?_⟩
    rw [deeds_eq ht']
    exact (hdeeds d).2 he
  · -- the next await first
    obtain ⟨l', hl, hd⟩ := can_do ht' (d := d) (by omega)
    exact ⟨l', (Leads.of_step hl1).trans hl, Nat.lt_of_le_of_lt (hdeeds d).1 hd⟩
termination_by d.last - t.phase.rank

variable (digest config) in
/-- One that has not sent its `Auth` can still send it. -/
theorem can_send {l : Link} {i : Nat} {t : ControlTask} (ht : l.services.tasks[i]? = some t)
    (h : t.phase.rank ≤ 5) : ∃ l', (link digest config).Leads l l' ∧ ¬ l'.Settled i := by
  by_cases he : t.phase = .running .sendAuth
  · have hstep : t.step config.heartbeat_timeout (.proceed true) =
        some { t with phase := .running .readAck, messages := t.messages + 1 } := by
      simp only [ControlTask.step, he]
    obtain ⟨l', hl, _, hin⟩ := client_step digest ht h hstep
    refine ⟨l', .of_step hl, fun hset => hset ⟨i, t.runs, nameDigest digest t.service.name⟩ ?_ rfl⟩
    simp [hin, Services.sends, ht, he]
  · obtain ⟨b, t', hstep, hrank, _⟩ := t.advance config.heartbeat_timeout h
    obtain ⟨l1, hl1, ht', _⟩ := client_step digest ht h hstep
    have hlt : t.phase.rank ≠ 5 := by
      intro e
      cases hp : t.phase with
      | running r => cases r <;> simp_all [TaskPhase.rank]
      | _ => simp_all [TaskPhase.rank]
    obtain ⟨l', hl, hset⟩ := can_send ht' (by omega)
    exact ⟨l', (Leads.of_step hl1).trans hl, hset⟩
termination_by 6 - t.phase.rank

variable (digest config) in
/-- **An `Auth` on its way can displace whoever has the service by then.** -/
theorem can_displace {l : Link} {i : Nat} (h : ¬ l.Settled i) :
    ∃ l' a, (link digest config).Leads l l' ∧ l'.Displaces i a := by
  obtain ⟨x, hx, rfl⟩ : ∃ x ∈ l.inFlight, x.task = i := by
    simpa [Link.Settled] using h
  have hother : (link digest config).step l (.other x.service) = some { l with
      control_channels := Function.update l.control_channels x.service (some .other) } := rfl
  exact ⟨_, .register x true, .of_step hother, x, true, .other, rfl, hx, rfl,
    Function.update_self _ _ _, by simp⟩

/-! ## 3. What a task has done for good -/

/-- Task `i` has lost its handle and sends no `Auth` any more, and none of it is on its way. -/
def Link.Quiet (l : Link) (i : Nat) : Prop := (∃ n, l.services.Past i .message n) ∧ l.Settled i

theorem past_link {l l' : Link} {a : LinkAct} {i : Nat} {d : Deed} {n : Nat}
    (hP : l.services.Past i d n) (h : (link digest config).step l a = some l') :
    l'.services.Past i d n := by
  rcases link_cases h with ⟨b, hb, _⟩ | ⟨heq, _⟩
  · exact past_step hP (services_cases hb)
  · rw [heq]
    exact hP

/-- What is sent is sent by a task that has not sent it yet. -/
theorem sends_eq {s : Services} {b : ServicesAct} {x : SentAuth} (hx : x ∈ s.sends digest b) :
    s.PhaseOf x.task (.running .sendAuth) := by
  unfold Services.sends at hx
  split at hx
  · split at hx
    · split at hx
      · rename_i t ht hp
        rw [List.mem_singleton.mp hx]
        exact ⟨t, ht, hp⟩
      · cases hx
    · cases hx
  · cases hx

/-- **A task that has sent its last `Auth` adds none.** -/
theorem Link.Quiet.step {l l' : Link} {a : LinkAct} {i : Nat} (hQ : l.Quiet i)
    (h : (link digest config).step l a = some l') : l'.Quiet i := by
  obtain ⟨⟨n, hP⟩, hset⟩ := hQ
  refine ⟨⟨n, past_link hP h⟩, fun x hx => ?_⟩
  rcases link_cases h with ⟨b, _, hin⟩ | ⟨_, hsub⟩
  · rw [hin] at hx
    rcases List.mem_append.mp hx with hx | hx
    · exact hset x hx
    · rintro rfl
      obtain ⟨t, ht, _, hrank, _⟩ := hP
      obtain ⟨t', ht', hp⟩ := sends_eq hx
      cases ht.symm.trans ht'
      rw [hp] at hrank
      exact absurd hrank (by decide)
  · exact hset x (hsub hx)

/-- The step that takes a task's handle away leaves the task, and what is on its way, alone. -/
theorem dropped_link {l l' : Link} {a : LinkAct} {i : Nat} (hl : (link digest config).Reachable l)
    (h : (link digest config).step l a = some l') (ho : l.services.Owned i)
    (hd : ¬ l'.services.Owned i) :
    (∃ t signal, l.services.tasks[i]? = some t ∧ l'.services.tasks[i]? = some (t.signalled signal) ∧
      signal ≠ .held) ∧ l'.inFlight = l.inFlight := by
  rcases link_cases h with ⟨b, hb, hin⟩ | ⟨heq, _⟩
  · refine ⟨dropped_at (services_reachable hl) hb ho hd, ?_⟩
    rw [hin]
    cases b with
    | task j c =>
        -- a task keeps all handles
        obtain ⟨name, hn⟩ := ho
        generalize hs : l'.services = s' at hb hd
        cases services_cases hb with
        | task _ _ t t' _ _ => exact absurd ⟨name, hn⟩ hd
        | moves _ p => exact absurd ⟨name, hn⟩ hd
    | _ => exact List.append_nil _
  · rw [heq] at hd
    exact absurd ho hd

/-- From here on task `i` begins no run, opens no connection, sends no message of the handshake, and
    none that it has sent displaces the control channel of another. -/
def Link.StaysDown (digest : Bytes → Digest) (config : ClientConfig) (l : Link) (i : Nat) : Prop :=
  ∀ l', (link digest config).Leads l l' →
    (∀ d, l'.services.deeds i d = l.services.deeds i d) ∧ ∀ a, ¬ l'.Displaces i a

/-- **What a dropped task still does, exactly.** In every run, when the handle of a task goes -- by a
    hot reload or by the shutdown -- the task stays down, whatever comes after, precisely where it is
    harmless at that moment and none of its `Auth`s is on its way. Of each kind of deed it does no
    more precisely where it is past the last of them. -/
theorem stays_down_iff {l l' : Link} {a : LinkAct} {i : Nat} {p : TaskPhase}
    (hl : (link digest config).Reachable l) (h : (link digest config).step l a = some l')
    (ho : l.services.Owned i) (hd : ¬ l'.services.Owned i) (hp : l.services.PhaseOf i p) :
    (l'.StaysDown digest config i ↔ p.Harmless ∧ l.Settled i) ∧
      ∀ d : Deed, (∀ l2, (link digest config).Leads l' l2 →
        l2.services.deeds i d = l'.services.deeds i d) ↔ d.last < p.rank := by
  obtain ⟨⟨t, signal, ht, ht', hne⟩, hin⟩ := dropped_link hl h ho hd
  obtain ⟨t0, ht0, rfl⟩ := hp
  cases ht0.symm.trans ht
  have hpast (d : Deed) (hlt : d.last < t.phase.rank) : l'.services.Past i d (t.deeds d) :=
    ⟨_, ht', hne, hlt, rfl⟩
  have hkeeps (d : Deed) (hlt : d.last < t.phase.rank) : ∀ l2, (link digest config).Leads l' l2 →
      l2.services.deeds i d = l'.services.deeds i d := by
    intro l2 hl2
    obtain ⟨t2, ht2, _, _, hn⟩ := hl2.inv (I := fun l => l.services.Past i d (t.deeds d))
      (fun l a l' hP h => past_link hP h) (hpast d hlt)
    rw [deeds_eq ht2, deeds_eq ht', hn]
    rfl
  have hdeed : ∀ d : Deed, (∀ l2, (link digest config).Leads l' l2 →
      l2.services.deeds i d = l'.services.deeds i d) ↔ d.last < t.phase.rank := by
    refine fun d => ⟨fun hno => ?_, hkeeps d⟩
    by_contra hge
    obtain ⟨l2, hl2, hlt⟩ := can_do digest config ht' (d := d)
      (by simp only [ControlTask.signalled]; omega)
    rw [hno l2 hl2, deeds_eq ht'] at hlt
    exact Nat.lt_irrefl _ hlt
  refine ⟨?_, hdeed⟩
  rw [harmless_iff]
  constructor
  · intro hdown
    refine ⟨(hdeed .message).mp fun l2 hl2 => (hdown l2 hl2).1 .message, ?_⟩
    by_contra hset
    have hset' : ¬ l'.Settled i := by
      rw [Link.Settled, hin]
      exact hset
    obtain ⟨l2, b, hl2, hdis⟩ := can_displace digest config hset'
    exact (hdown l2 hl2).2 b hdis
  · rintro ⟨hrank, hset⟩ l2 hl2
    refine ⟨fun d => hkeeps d ?_ l2 hl2, ?_⟩
    · have hd5 : d.last ≤ 5 := by cases d <;> decide
      omega
    · have hquiet : l'.Quiet i := by
        refine ⟨⟨_, hpast .message hrank⟩, ?_⟩
        rw [Link.Settled, hin]
        exact hset
      have hquiet2 := hl2.inv (I := fun l => l.Quiet i) (fun l a l' hQ h => hQ.step h) hquiet
      rintro b ⟨x, ok, holder, _, hx, htask, _⟩
      exact hquiet2.2 x hx htask

/-- A client with one service. -/
def webService : ClientServiceConfig where
  service_type := .tcp
  name := "web"
  local_addr := "127.0.0.1:80"
  token := some "token"
  nodelay := none
  retry_interval := some 1

def webClient : ClientConfig where
  remote_addr := "example.com:2333"
  default_token := none
  services := AList.singleton "web" webService
  transport :=
    { transport_type := .tcp
      tcp := { nodelay := true, keepalive_secs := 20, keepalive_interval := 8, proxy := none }
      tls := none
      noise := none }
  heartbeat_timeout := 40
  retry_interval := 1

/-- A digest; what it gives makes no difference here. -/
def zeros : Bytes → Digest := fun _ => .replicate HASH_WIDTH_IN_BYTES 0

/-- The first run cannot resolve the address, and the task goes to sleep. -/
def asleep : List LinkAct :=
  [.client (.task 0 .begin), .client (.task 0 (.proceed false)), .client (.task 0 .check)]

/-- Task `i` runs up to where it waits for the `Ack`. -/
def authSent (i : Nat) : List LinkAct :=
  .client (.task i .begin) :: List.replicate 5 (.client (.task i (.proceed true)))

def deleted : LinkAct := .client (.hotReload (.delete "web"))

/-- The service is added again, and the server registers its new task. -/
def replaced : List LinkAct :=
  .client (.hotReload (.add webService)) :: authSent 1 ++ [.register ⟨1, 1, nameDigest zeros "web"⟩ true]

/-- **A task deleted in its sleep wakes up and runs again; one deleted while its `Auth` is on its way
    displaces its replacement**: the claim that a dropped service stays down is false in both its
    parts. -/
theorem dropped_runs_again :
    (¬ ∀ (config : ClientConfig) (l l' : Link) (a : LinkAct) (i : Nat),
      (link zeros config).Reachable l → (link zeros config).step l a = some l' →
        l.services.Owned i → ¬ l'.services.Owned i →
          ∀ l2, (link zeros config).Leads l' l2 → l2.services.deeds i .run = l'.services.deeds i .run) ∧
    ¬ ∀ (config : ClientConfig) (l l' : Link) (a : LinkAct) (i : Nat),
      (link zeros config).Reachable l → (link zeros config).step l a = some l' →
        l.services.Owned i → ¬ l'.services.Owned i →
          ∀ l2, (link zeros config).Leads l' l2 → ∀ b, ¬ l2.Displaces i b := by
  have start : (link zeros webClient).Reachable ⟨.initial webClient, [], [], fun _ => none⟩ :=
    .start rfl
  constructor
  · intro hall
    have hex : ∃ l l', (link zeros webClient).exec ⟨.initial webClient, [], [], fun _ => none⟩ asleep =
        some l ∧ (link zeros webClient).step l deleted = some l' ∧
        l.services.service_handles.lookup "web" = some 0 ∧ l'.services.service_handles = ∅ ∧
        (l'.services.tasks[0]?.map fun t => t.phase) = some .sleeping :=
      ⟨_, _, rfl, rfl, rfl, rfl, rfl⟩
    obtain ⟨l, l', hl, h, ho, hd, hp⟩ := hex
    obtain ⟨t, ht, hsleep⟩ := Option.map_eq_some_iff.mp hp
    have hrank : t.phase.rank ≤ Deed.run.last := by
      rw [hsleep]
      decide
    obtain ⟨l2, hl2, hlt⟩ := can_do zeros webClient ht hrank
    rw [hall webClient l l' deleted 0 (start.leads ⟨_, hl⟩) h ⟨"web", ho⟩ (not_owned_of_empty hd 0)
      l2 hl2, deeds_eq ht] at hlt
    exact Nat.lt_irrefl _ hlt
  · intro hall
    have hex : ∃ l l' l2, (link zeros webClient).exec ⟨.initial webClient, [], [], fun _ => none⟩
        (authSent 0) = some l ∧ (link zeros webClient).step l deleted = some l' ∧
        (link zeros webClient).exec l' replaced = some l2 ∧
        l.services.service_handles.lookup "web" = some 0 ∧ l'.services.service_handles = ∅ ∧
        l2.inFlight = [⟨0, 1, nameDigest zeros "web"⟩] ∧
        l2.control_channels (nameDigest zeros "web") = some (.task 1) :=
      ⟨_, _, _, rfl, rfl, rfl, rfl, rfl, rfl, by decide +kernel⟩
    obtain ⟨l, l', l2, hl, h, hl2, ho, hd, hin, hholder⟩ := hex
    refine hall webClient l l' deleted 0 (start.leads ⟨_, hl⟩) h ⟨"web", ho⟩
      (not_owned_of_empty hd 0) l2 ⟨_, hl2⟩ (.register ⟨0, 1, nameDigest zeros "web"⟩ true) ?_
    exact ⟨_, true, .task 1, rfl, by simp [hin], rfl, hholder, by decide⟩

/-- Deleted while its channel is up, the task stays down; deleted while its `Auth` is on its way, it
    does not, although it is harmless itself. -/
theorem stays_down_iff_select :
    (∃ l l', (link zeros webClient).Reachable l ∧ (link zeros webClient).step l deleted = some l' ∧
      l.services.PhaseOf 0 (.running .select) ∧ l'.StaysDown zeros webClient 0) ∧
    ∃ l l', (link zeros webClient).Reachable l ∧ (link zeros webClient).step l deleted = some l' ∧
      l.services.PhaseOf 0 (.running .readAck) ∧ ¬ l'.StaysDown zeros webClient 0 := by
  have start : (link zeros webClient).Reachable ⟨.initial webClient, [], [], fun _ => none⟩ :=
    .start rfl
  constructor
  · have hex : ∃ l l', (link zeros webClient).exec ⟨.initial webClient, [], [], fun _ => none⟩
        (authSent 0 ++ [.register ⟨0, 1, nameDigest zeros "web"⟩ true,
          .client (.task 0 (.proceed true))]) = some l ∧
        (link zeros webClient).step l deleted = some l' ∧
        l.services.service_handles.lookup "web" = some 0 ∧ l'.services.service_handles = ∅ ∧
        l.inFlight = [] ∧ (l.services.tasks[0]?.map fun t => t.phase) = some (.running .select) :=
      ⟨_, _, rfl, rfl, rfl, rfl, rfl, rfl⟩
    obtain ⟨l, l', hl, h, ho, hd, hin, hp⟩ := hex
    have hphase : l.services.PhaseOf 0 (.running .select) := Option.map_eq_some_iff.mp hp
    have hset : l.Settled 0 := by
      rw [Link.Settled, hin]
      simp
    exact ⟨l, l', start.leads ⟨_, hl⟩, h, hphase, (stays_down_iff (start.leads ⟨_, hl⟩) h
      ⟨"web", ho⟩ (not_owned_of_empty hd 0) hphase).1.mpr ⟨trivial, hset⟩⟩
  · have hex : ∃ l l', (link zeros webClient).exec ⟨.initial webClient, [], [], fun _ => none⟩
        (authSent 0) = some l ∧ (link zeros webClient).step l deleted = some l' ∧
        l.services.service_handles.lookup "web" = some 0 ∧ l'.services.service_handles = ∅ ∧
        l.inFlight = [⟨0, 1, nameDigest zeros "web"⟩] ∧
        (l.services.tasks[0]?.map fun t => t.phase) = some (.running .readAck) :=
      ⟨_, _, rfl, rfl, rfl, rfl, rfl, rfl⟩
    obtain ⟨l, l', hl, h, ho, hd, hin, hp⟩ := hex
    have hphase : l.services.PhaseOf 0 (.running .readAck) := Option.map_eq_some_iff.mp hp
    refine ⟨l, l', start.leads ⟨_, hl⟩, h, hphase, fun hdown => ?_⟩
    have hset := ((stays_down_iff (start.leads ⟨_, hl⟩) h ⟨"web", ho⟩ (not_owned_of_empty hd 0)
      hphase).1.mp hdown).2
    rw [Link.Settled, hin] at hset
    exact hset _ List.mem_cons_self rfl

end Penetrate.Client
