/-
  File:      Penetrate/Process.lean
  Subject:   THE WHOLE PROCESS OF `lib::run`: the file, the watcher, the router, the instance.

  What the watcher sends goes through `event_rx` to the loop of `run`, which knows nothing of the
  file; the loop starts, restarts and updates the instance. Edits come at any time, and each of the
  three goes on at its own pace.

  * `Process.step`, `process` -- the machine; `process_cases` lists its rules;
  * `Sends` -- what a step of the watcher sends;
  * `Healthy` -- the invariant of the loop: the instance lives, or is being replaced;
  * `Process.Inv` -- **the invariant**: what the watcher, the loop and the instance know of one
    another; `inv_process` -- for every run as `Expected`.
-/
import Penetrate.Watcher
import Penetrate.Validated

namespace Penetrate

open Concurrent Machine

/-! ## 1. The machine -/

/-- The watcher, what is in `event_rx`, and what the loop of `run` has. -/
structure Process where
  watcher : Watcher
  events : List ConfigChange
  router : Router
  last_instance : Option LastInstance

inductive ProcessAct (Seed : Type) where
  | watcher (a : WatcherAct Seed)
  /-- the loop of `run`, or the instance -/
  | run (a : SupervisorAct Seed)
  /-- `event_rx` is empty, and nobody is left to send -/
  | closed

/-- `event_rx` is still there. -/
def Router.listens : Router → Bool
  | .stopped => false
  | _ => true

section

variable {Seed : Type} (toml : Seed → String → Except String Config) (digest : Bytes → Digest)
  (args : Cli)

/-- The supervisor, with the watcher's configuration `old`. -/
def Process.supervisor (s : Process) (old : Config) : Supervisor :=
  ⟨old, s.events, s.router, s.last_instance⟩

def Process.step (s : Process) : ProcessAct Seed → Option Process
  | .watcher a => (Watcher.step toml s.watcher a).bind fun w =>
      let sent := w.sent.drop s.watcher.sent.length
      -- `event_tx.send(event)?`: an error once `run` has returned
      if sent.isEmpty || s.router.listens then
        some { s with watcher := w, events := s.events ++ sent }
      else none
  | .run (.rescan _ _) => none
  | .run a =>
      -- there is no loop before `ConfigWatcherHandle::new` has returned
      s.watcher.old.bind fun old => (Supervisor.step toml digest args (s.supervisor old) a).map
        fun r => { s with events := r.events, router := r.router, last_instance := r.last_instance }
  | .closed => match s.watcher.old, s.watcher.phase, s.router, s.events with
    | some _, .exited, .recv, [] => some { s with router := .stopped }
    | _, _, _, _ => none

/-- **The process**, from the moment `new` begins to read the file. -/
def process : Machine Process (ProcessAct Seed) where
  start s := (watcher toml).start s.watcher ∧ s.events = [] ∧ s.router = .recv ∧
    s.last_instance = none
  step := Process.step toml digest args

/-! ## 2. The rules -/

/-- What a step of the watcher sends, and what it then takes the configuration to be. -/
inductive Sends (s s' : Watcher) : Prop where
  | nothing (ho : s'.old = s.old) (he : s'.sent = s.sent)
  | first (σ : Seed) (content : Option String) (origin_cfg : Config)
      (hp : s.phase = .loaded content) (hf : Config.from_file toml σ content = .ok origin_cfg)
      (ho : s'.old = some origin_cfg) (he : s'.sent = [.general origin_cfg])
  | changes (σ : Seed) (content : Option String) (old new : Config)
      (hp : s.phase = .scanned content) (hf : Config.from_file toml σ content = .ok new)
      (ho : s.old = some old) (ho' : s'.old = some new)
      (he : s'.sent = s.sent ++ (calculate_events old new).getD [])

inductive ProcessStep (s : Process) : ProcessAct Seed → Process → Prop where
  | watcher (a : WatcherAct Seed) (w : Watcher) (h : WatcherStep toml s.watcher a w)
      (hl : w.sent.drop s.watcher.sent.length = [] ∨ s.router.listens = true) :
      ProcessStep s (.watcher a)
        { s with watcher := w, events := s.events ++ w.sent.drop s.watcher.sent.length }
  | run (a : SupervisorAct Seed) (old : Config) (r : Supervisor) (ha : ∀ σ t, a ≠ .rescan σ t)
      (ho : s.watcher.old = some old)
      (h : Supervisor.step toml digest args (s.supervisor old) a = some r) :
      ProcessStep s (.run a)
        { s with events := r.events, router := r.router, last_instance := r.last_instance }
  | closed (old : Config) (ho : s.watcher.old = some old) (hp : s.watcher.phase = .exited)
      (hr : s.router = .recv) (he : s.events = []) :
      ProcessStep s .closed { s with router := .stopped }

variable {toml digest args}

theorem process_cases {s s' : Process} {a : ProcessAct Seed}
    (h : Process.step toml digest args s a = some s') : ProcessStep toml digest args s a s' := by
  cases a with
  | watcher a =>
      obtain ⟨w, hw, hs⟩ := Option.bind_eq_some_iff.mp h
      dsimp only at hs
      split at hs
      · rename_i hl
        cases hs
        exact .watcher a w (watcher_cases hw) (by simpa using hl)
      · cases hs
  | run a =>
      cases a with
      | rescan σ t => cases h
      | route | forward | restart | boot | apply | hang | stop | fail =>
          obtain ⟨old, ho, h'⟩ := Option.bind_eq_some_iff.mp h
          obtain ⟨r, hr, rfl⟩ := Option.map_eq_some_iff.mp h'
          exact .run _ old r (fun _ _ => by simp) ho hr
  | closed =>
      simp only [Process.step] at h
      split at h
      · rename_i old ho hp hr he
        cases h
        exact .closed old ho hp hr he
      · cases h

theorem watcher_sends {s s' : Watcher} {a : WatcherAct Seed} (h : WatcherStep toml s a s') :
    Sends toml s s' := by
  cases h with
  | accept σ content origin_cfg hp hf => exact .first σ content origin_cfg hp hf rfl rfl
  | update σ content old new hp hf ho => exact .changes σ content old new hp hf ho rfl rfl
  | edit _ _ _ | spurious _ | coalesce _ | load _ _ _ _ | rescan _ _ _ _ | refuse _ _ _ _
  | ignore _ _ _ _ | register _ | watching _ | receive _ _ _ | exit _ => exact .nothing rfl rfl

/-- A supervisor's step never touches the watcher's configuration, but by a rescan. -/
theorem supervisor_old {s s' : Supervisor} {a : SupervisorAct Seed} (ha : ∀ σ t, a ≠ .rescan σ t)
    (h : SupervisorStep toml digest args s a s') : s'.old = s.old := by
  cases h with
  | rescanInvalid σ text hp => rfl
  | rescan σ text new hp => exact absurd rfl (ha σ text)
  | first | general | generalDead | drop | route | forward | forwardDead | restart | restartFailed
  | boot | bootFailed | apply | applyFailed | hang | stop | fail => rfl

end

/-! ## 3. The loop and the instance -/

/-- The instance lives, or has been told to end and is being replaced. -/
structure Healthy (s : Supervisor) : Prop where
  /-- the first change starts the first instance -/
  first : s.last_instance = none → s.router = .recv ∧ ∃ c rest, s.events = .general c :: rest
  lives : ∀ i, s.last_instance = some i → i.task ≠ .failed
  replaced : ∀ i, s.last_instance = some i → i.task = .finished ∨ i.shutdown = true →
    ∃ c, s.router = .restarting c
  restarting : ∀ c, s.router = .restarting c → ∃ i, s.last_instance = some i ∧ i.shutdown = true

/-- The instance between two changes lives, and has not been told to end. -/
theorem Healthy.alive {s : Supervisor} (hI : Healthy s) {i : LastInstance}
    (hi : s.last_instance = some i) (hr : ∀ c, s.router ≠ .restarting c) :
    i.task.alive = true ∧ i.shutdown = false := by
  have hno : ¬ (i.task = .finished ∨ i.shutdown = true) := fun h => by
    obtain ⟨c, hc⟩ := hI.replaced i hi h
    exact hr c hc
  obtain ⟨hf, hs⟩ := not_or.mp hno
  refine ⟨?_, by simpa using hs⟩
  cases ht : i.task with
  | starting c => rfl
  | running r => rfl
  | hung r => rfl
  | finished => exact absurd ht hf
  | failed => exact absurd ht (hI.lives i hi)

/-- A new instance has been started. -/
theorem Healthy.spawned {s : Supervisor} {config : Config}
    (hi : s.last_instance = some (spawn config)) (hr : s.router = .recv) : Healthy s where
  first h := by
    rw [hi] at h
    cases h
  lives i h := by
    cases hi.symm.trans h
    simp [spawn]
  replaced i h hf := by
    cases hi.symm.trans h
    rcases hf with hf | hf <;> cases hf
  restarting c hc := by
    rw [hr] at hc
    cases hc

/-- The instance takes a step of its own. -/
theorem Healthy.instance {s : Supervisor} (hI : Healthy s) {i i' : LastInstance}
    (hi : s.last_instance = some i) (hl : i'.task ≠ .failed) (hs : i'.shutdown = i.shutdown)
    (hf : i'.task = .finished → i.shutdown = true) :
    Healthy { s with last_instance := some i' } where
  first h := by cases h
  lives j hj := by
    cases hj
    exact hl
  replaced j hj h := by
    cases hj
    refine hI.replaced i hi (Or.inr ?_)
    rcases h with h | h
    · exact hf h
    · rw [← hs]
      exact h
  restarting c hc := by
    obtain ⟨j, hj, hsd⟩ := hI.restarting c hc
    cases hi.symm.trans hj
    exact ⟨i', rfl, hs.trans hsd⟩

/-- The router goes on between two changes, the instance told nothing. -/
theorem Healthy.routes {s : Supervisor} (hI : Healthy s) {i : LastInstance}
    (hi : s.last_instance = some i) (hr : ∀ c, s.router ≠ .restarting c)
    (events : List ConfigChange) (router : Router) (i' : LastInstance)
    (hr' : ∀ c, router ≠ .restarting c) (ht : i'.task = i.task) (hs : i'.shutdown = i.shutdown) :
    Healthy { s with events := events, router := router, last_instance := some i' } where
  first h := by cases h
  lives j hj := by
    cases hj
    rw [ht]
    exact hI.lives i hi
  replaced j hj h := by
    cases hj
    rw [ht, hs] at h
    obtain ⟨c, hc⟩ := hI.replaced i hi h
    exact absurd hc (hr c)
  restarting c hc := absurd hc (hr' c)

section

variable {Seed : Type} {toml : Seed → String → Except String Config} {digest : Bytes → Digest}
  {args : Cli} {texts : Set String} {s s' : Supervisor}

/-- Every configuration the file may get can be started. -/
def Starts (toml : Seed → String → Except String Config) (digest : Bytes → Digest) (args : Cli)
    (texts : Set String) : Prop :=
  ∀ c, Accepted toml texts c → (run_instance digest args c).isSome = true

/-- **The instance lives on** where all that it is started with can be, and it does not fail on its
    own. -/
theorem healthy_step (hI : Healthy s) (hS : SupervisorSound toml texts digest s)
    (hboot : Starts toml digest args texts) {a : SupervisorAct Seed} (ha : a ≠ .fail)
    (h : SupervisorStep toml digest args s a s') : Healthy s' := by
  cases h with
  | rescanInvalid σ text hp => exact hI
  | rescan σ text new hp =>
      refine { hI with first := fun hn => ?_ }
      obtain ⟨hr, c, rest, he⟩ := hI.first hn
      exact ⟨hr, c, rest ++ (calculate_events s.old new).getD [], by rw [he]; rfl⟩
  | first config rest hr he hi =>
      exact .spawned rfl hr
  | general config rest i hr he hi hal =>
      refine ⟨(fun h => by cases h), fun j h => ?_, fun j h hf => ⟨config, rfl⟩, fun c hc => ?_⟩
      · cases h
        exact hI.lives i hi
      · exact ⟨_, rfl, rfl⟩
  | generalDead config rest i hr he hi hal =>
      rw [(hI.alive hi (by simp [hr])).1] at hal
      cases hal
  | drop ev rest hr he hn hi =>
      obtain ⟨-, c, rest', he'⟩ := hI.first hi
      exact absurd (List.cons.inj (he.symm.trans he')).1 (hn c)
  | route ev rest i hr he hn hi =>
      have h := hI.routes hi (by simp [hr]) rest (.forwarding ev) i (by simp) rfl rfl
      rw [← hi] at h
      exact h
  | forward ev i q hr hi hal hq =>
      exact hI.routes hi (by simp [hr]) s.events .recv { i with updates := q } (by simp) rfl rfl
  | forwardDead ev i hr hi hal =>
      rw [(hI.alive hi (by simp [hr])).1] at hal
      cases hal
  | restart config i hr hi ht =>
      exact .spawned rfl rfl
  | restartFailed config i hr hi ht => exact absurd ht (hI.lives i hi)
  | boot config i r hi ht hr => exact hI.instance hi (by simp) rfl fun h => by cases h
  | bootFailed config i hi ht hr =>
      have hc := hS.task i hi
      rw [ht] at hc
      have hsome := hboot config hc
      rw [hr] at hsome
      cases hsome
  | apply i r r' e q hi ht hq hr => exact hI.instance hi (by simp) rfl fun h => by cases h
  | hang i r r' e q hi ht hq hg hr => exact hI.instance hi (by simp) rfl fun h => by cases h
  | applyFailed i r e q hi ht hq hr =>
      have hrun := hS.task i hi
      rw [ht] at hrun
      have he : e ∈ i.updates.items := by
        rw [Mpsc.recv_eq_some hq]
        exact List.mem_cons_self
      obtain ⟨r', hr', -⟩ := hot_reload_provided hrun (hS.updates i hi e he)
      rw [hr] at hr'
      cases hr'
  | stop i r hi ht hs => exact hI.instance hi (by simp) rfl fun _ => hs
  | fail i hi hal => exact absurd rfl ha

/-- It goes on receiving. -/
theorem Healthy.listens (hI : Healthy s) {a : SupervisorAct Seed}
    (h : SupervisorStep toml digest args s a s') (hs : s'.router = .stopped) :
    s.router = .stopped := by
  cases h with
  | generalDead config rest i hr he hi hal =>
      rw [(hI.alive hi (by simp [hr])).1] at hal
      cases hal
  | restartFailed config i hr hi ht => exact absurd ht (hI.lives i hi)
  | general | route | forward | forwardDead | restart => cases hs
  | rescanInvalid | rescan | first | drop | boot | bootFailed | apply | applyFailed | hang | stop
  | fail => exact hs

end

/-! ## 4. The invariant -/

section

variable {Seed : Type} (toml : Seed → String → Except String Config) (digest : Bytes → Digest)
  (args : Cli) (texts : Set String)

/-- What the parts know of one another. -/
structure Process.Inv (s : Process) : Prop where
  coherent : s.watcher.Coherent toml
  upToDate : s.watcher.UpToDate toml
  /-- nothing has been sent before the first configuration is there -/
  early : s.watcher.old = none →
    s.watcher.sent = [] ∧ s.events = [] ∧ s.router = .recv ∧ s.last_instance = none
  loaded : ∀ content, s.watcher.phase = .loaded content → s.watcher.old = none
  reads : ∀ text, s.watcher.phase = .loaded (some text) ∨ s.watcher.phase = .scanned (some text) →
    text ∈ texts
  sound : ∀ old, s.watcher.old = some old → SupervisorSound toml texts digest (s.supervisor old)
  tracks : ∀ old, s.watcher.old = some old → Tracks digest args (s.supervisor old)
  healthy : ∀ old, s.watcher.old = some old → Healthy (s.supervisor old)
  stopped : s.router = .stopped → s.watcher.phase = .exited

/-- What is expected of a step: no edit goes unseen before the watcher is registered, the file is
    read as one of the texts, and the instance does not fail on its own. -/
def Expected (s : Process) : ProcessAct Seed → Prop
  | .watcher .watching => Unmissed toml s.watcher .watching
  | .watcher (.read (some text)) => text ∈ texts
  | .run .fail => False
  | _ => True

variable {toml digest args texts}

/-- Two names that some text gives to services have two digests. -/
def NamesApart (toml : Seed → String → Except String Config) (digest : Bytes → Digest)
    (texts : Set String) : Prop :=
  Set.InjOn (nameDigest digest) {n | ∃ c, Accepted toml texts c ∧ n ∈ c.serverNames}

theorem NamesApart.union (h : NamesApart toml digest texts) {a b : Config}
    (ha : Accepted toml texts a) (hb : Accepted toml texts b) :
    Set.InjOn (nameDigest digest) (a.serverNames ∪ b.serverNames) := by
  refine Set.InjOn.mono (fun n hn => ?_) h
  rcases hn with hn | hn
  · exact ⟨a, ha, hn⟩
  · exact ⟨b, hb, hn⟩

theorem Accepted.valid {c : Config} (h : Accepted toml texts c) : c.Valid := by
  obtain ⟨σ, t, -, hc⟩ := h
  exact Config.from_str_valid hc

theorem Accepted.of_file {σ : Seed} {content : Option String} {c : Config}
    (h : Config.from_file toml σ content = .ok c)
    (ht : ∀ text, content = some text → text ∈ texts) : Accepted toml texts c := by
  obtain ⟨text, rfl, hc⟩ := Config.from_file_ok.mp h
  exact ⟨σ, text, ht text rfl, hc⟩

/-- A change of the watcher's configuration, to the loop. -/
theorem inv_rescan {s : Supervisor} (hS : SupervisorSound toml texts digest s)
    (hT : Tracks digest args s) (hH : Healthy s) (hinj : NamesApart toml digest texts)
    (hboot : Starts toml digest args texts) (hr : s.router ≠ .stopped) {σ : Seed} {text : String}
    {new : Config} (ht : text ∈ texts) (hp : Config.from_str toml σ text = .ok new) :
    let s' : Supervisor :=
      { s with events := s.events ++ (calculate_events s.old new).getD [], old := new }
    SupervisorSound toml texts digest s' ∧ Tracks digest args s' ∧ Healthy s' := by
  have hs : Supervisor.step toml digest args s (.rescan σ text) =
      some { s with events := s.events ++ (calculate_events s.old new).getD [], old := new } := by
    simp only [Supervisor.step, hp]
  have hnew : Accepted toml texts new := ⟨σ, text, ht, hp⟩
  refine ⟨supervisorSound_step hS hs fun _ _ h => ?_,
    tracks_step hT hS.old.valid (hinj.union hS.old hnew) (supervisor_cases hs),
    healthy_step hH hS hboot (by simp) (supervisor_cases hs)⟩
  cases h
  exact ht

/-- No phase but a read is entered by a read, and what has been read is a text. -/
theorem reads_step {w w' : Watcher} {a : WatcherAct Seed} (h : WatcherStep toml w a w')
    (hI : ∀ text, w.phase = .loaded (some text) ∨ w.phase = .scanned (some text) → text ∈ texts)
    (ha : ∀ text, a = .read (some text) → text ∈ texts) :
    ∀ text, w'.phase = .loaded (some text) ∨ w'.phase = .scanned (some text) → text ∈ texts := by
  intro text ht
  cases h with
  | edit content noticed hn =>
      refine hI text ?_
      cases hp : w.phase <;> simp_all [WatcherPhase.touched]
  | load content edited hp hc =>
      refine ha text ?_
      simpa using ht
  | rescan content edited hp hc =>
      refine ha text ?_
      simpa using ht
  | spurious | coalesce => exact hI text ht
  | refuse | accept | ignore | update | register | watching | receive | exit =>
      rcases ht with ht | ht <;> cases ht

/-- Before it has accepted the first content it has no configuration. -/
theorem loaded_step {w w' : Watcher} {a : WatcherAct Seed} (h : WatcherStep toml w a w')
    (hc : w.Coherent toml) (hI : ∀ content, w.phase = .loaded content → w.old = none) :
    ∀ content, w'.phase = .loaded content → w'.old = none := by
  intro content ht
  cases h with
  | edit content' noticed hn =>
      refine hI content ?_
      cases hp : w.phase <;> simp_all [WatcherPhase.touched]
  | load content' edited hp hcl => exact hc.at hp
  | spurious | coalesce => exact hI content ht
  | rescan | refuse | accept | ignore | update | register | watching | receive | exit => cases ht

/-- Once it has gone it does not come back. -/
theorem exited_step {w w' : Watcher} {a : WatcherAct Seed} (h : WatcherStep toml w a w')
    (hp : w.phase = .exited) : w'.phase = .exited := by
  cases h with
  | edit content noticed hn => simp [hp, WatcherPhase.touched]
  | spurious | coalesce => exact hp
  | refuse | exit => rfl
  | load _ _ hp' | rescan _ _ hp' | accept _ _ _ hp' | ignore _ _ hp'
  | update _ _ _ _ hp' | register hp' | watching hp' | receive _ hp' =>
      rw [hp] at hp'
      cases hp'

/-- **A step of the watcher.** -/
theorem inv_watcher (htoml : Config.SeedBlind toml) (hboot : Starts toml digest args texts)
    (hinj : NamesApart toml digest texts) {s : Process} (hI : s.Inv toml digest args texts)
    {a : WatcherAct Seed} {w : Watcher} (h : WatcherStep toml s.watcher a w) (he : Expected toml texts s (.watcher a)) :
    Process.Inv toml digest args texts
      { s with watcher := w, events := s.events ++ w.sent.drop s.watcher.sent.length } := by
  have hup : w.UpToDate toml := by
    by_cases ha : a = .watching
    · subst ha
      cases h with
      | watching hp => exact (up_to_date_watching htoml hp hI.coherent).mpr he
    · exact up_to_date_step htoml h hI.coherent ha
  have hreads := reads_step h hI.reads fun text ht => by
    subst ht
    exact he
  have hloaded := loaded_step h hI.coherent hI.loaded
  have hexit := fun hr => exited_step h (hI.stopped hr)
  cases watcher_sends h with
  | nothing ho hs =>
      have hdrop : s.events ++ w.sent.drop s.watcher.sent.length = s.events := by
        rw [hs, List.drop_length, List.append_nil]
      rw [hdrop]
      exact
        { coherent := coherent_step h hI.coherent
          upToDate := hup
          early := fun hn => by
            rw [ho] at hn
            obtain ⟨h1, h2⟩ := hI.early hn
            exact ⟨hs.trans h1, h2⟩
          loaded := hloaded
          reads := hreads
          sound := fun old hold => hI.sound old (ho ▸ hold)
          tracks := fun old hold => hI.tracks old (ho ▸ hold)
          healthy := fun old hold => hI.healthy old (ho ▸ hold)
          stopped := hexit }
  | first σ content c hp hf ho hs =>
      obtain ⟨hsent, hev, hr, hi⟩ := hI.early (hI.loaded content hp)
      obtain ⟨text, rfl, hc⟩ := Config.from_file_ok.mp hf
      have htext : text ∈ texts := hI.reads text (.inl hp)
      have hdrop : s.events ++ w.sent.drop s.watcher.sent.length = [.general c] := by
        rw [hev, hsent, hs]
        rfl
      rw [hdrop]
      have hsup : ∀ old, w.old = some old →
          Process.supervisor { s with watcher := w, events := [.general c] } old =
            ⟨c, [.general c], .recv, none⟩ := by
        intro old hold
        cases ho.symm.trans hold
        rw [Process.supervisor, hr, hi]
      refine
        { coherent := coherent_step h hI.coherent
          upToDate := hup
          early := fun hn => by rw [ho] at hn; cases hn
          loaded := hloaded
          reads := hreads
          sound := fun old hold => ?_
          tracks := fun old hold => ?_
          healthy := fun old hold => ?_
          stopped := hexit }
      all_goals rw [hsup old hold]
      · have hstart : (supervisor toml digest args text).start ⟨c, [.general c], .recv, none⟩ :=
          ⟨σ, c, hc, rfl⟩
        exact supervisorSound_start htext hstart
      · refine .of_recv rfl (fun x hx => ?_) fun e he => by cases he
        cases hx
        rfl
      · exact ⟨fun _ => ⟨rfl, c, [], rfl⟩, by simp, by simp, by simp⟩
  | changes σ content old new hp hf ho ho' hs =>
      obtain ⟨text, rfl, hc⟩ := Config.from_file_ok.mp hf
      have htext : text ∈ texts := hI.reads text (.inr hp)
      have hr : s.router ≠ .stopped := fun hr => by
        have hx := hI.stopped hr
        rw [hp] at hx
        cases hx
      have hdrop : s.events ++ w.sent.drop s.watcher.sent.length =
          s.events ++ (calculate_events old new).getD [] := by
        rw [hs, List.drop_left]
      rw [hdrop]
      obtain ⟨h1, h2, h3⟩ := inv_rescan (hI.sound old ho) (hI.tracks old ho) (hI.healthy old ho)
        hinj hboot hr htext hc
      refine
        { coherent := coherent_step h hI.coherent
          upToDate := hup
          early := fun hn => by rw [ho'] at hn; cases hn
          loaded := hloaded
          reads := hreads
          sound := fun o hold => ?_
          tracks := fun o hold => ?_
          healthy := fun o hold => ?_
          stopped := hexit }
      all_goals cases ho'.symm.trans hold
      · exact h1
      · exact h2
      · exact h3

/-- **A step of the loop or of the instance.** -/
theorem inv_run (hboot : Starts toml digest args texts) (hinj : NamesApart toml digest texts)
    {s : Process} (hI : s.Inv toml digest args texts) {a : SupervisorAct Seed} {old : Config} {r : Supervisor}
    (ha : ∀ σ t, a ≠ .rescan σ t) (ho : s.watcher.old = some old)
    (h : Supervisor.step toml digest args (s.supervisor old) a = some r)
    (hf : a ≠ .fail) :
    Process.Inv toml digest args texts
      { s with events := r.events, router := r.router, last_instance := r.last_instance } := by
  have hs := supervisor_cases h
  have hold : r.old = old := supervisor_old ha hs
  have hsup : ∀ o, s.watcher.old = some o → Process.supervisor
      { s with events := r.events, router := r.router, last_instance := r.last_instance } o = r := by
    intro o hoo
    cases ho.symm.trans hoo
    rw [Process.supervisor, ← hold]
  have hS := hI.sound old ho
  have hH := hI.healthy old ho
  have hS' := supervisorSound_step hS h fun σ t e => absurd e (ha σ t)
  refine
    { coherent := hI.coherent
      upToDate := hI.upToDate
      early := fun hn => by rw [ho] at hn; cases hn
      loaded := hI.loaded
      reads := hI.reads
      sound := fun o hoo => (hsup o hoo).symm ▸ hS'
      tracks := fun o hoo => ?_
      healthy := fun o hoo => (hsup o hoo).symm ▸ healthy_step hH hS hboot hf hs
      stopped := fun hr => hI.stopped (hH.listens hs hr) }
  rw [hsup o hoo]
  exact tracks_step (hI.tracks old ho) hS.old.valid (hinj.union hS.old hS'.old) hs

/-- **The rule for a whole run.** -/
theorem inv_step (htoml : Config.SeedBlind toml) (hboot : Starts toml digest args texts)
    (hinj : NamesApart toml digest texts) {s s' : Process} {a : ProcessAct Seed}
    (hI : s.Inv toml digest args texts) (he : Expected toml texts s a)
    (h : Process.step toml digest args s a = some s') : s'.Inv toml digest args texts := by
  cases process_cases h with
  | watcher a w hw hl => exact inv_watcher htoml hboot hinj hI hw he
  | run a old r ha ho hr =>
      refine inv_run hboot hinj hI ha ho hr ?_
      rintro rfl
      exact he
  | closed old ho hp hr hev =>
      refine
        { coherent := hI.coherent
          upToDate := hI.upToDate
          early := fun hn => by rw [ho] at hn; cases hn
          loaded := hI.loaded
          reads := hI.reads
          sound := fun o hoo => (hI.sound o hoo).idle (.inr rfl)
          tracks := fun o hoo => (hI.tracks o hoo).stopped s.events
          healthy := fun o hoo => ?_
          stopped := fun _ => hp }
      have hH := hI.healthy o hoo
      have hr' : (s.supervisor o).router = .recv := hr
      refine ⟨fun hn => ?_, hH.lives, fun i hi hf => ?_, fun c hc => by cases hc⟩
      · obtain ⟨-, c, rest, he'⟩ := hH.first hn
        cases hev.symm.trans he'
      · obtain ⟨c, hc⟩ := hH.replaced i hi hf
        cases hr'.symm.trans hc

theorem inv_process (htoml : Config.SeedBlind toml) (hboot : Starts toml digest args texts)
    (hinj : NamesApart toml digest texts) {tr : List (Process × ProcessAct Seed)} {s : Process}
    (r : (process toml digest args).Run tr s) (he : Guarded (Expected toml texts) tr) :
    s.Inv toml digest args texts := by
  refine r.inv (I := Process.Inv toml digest args texts) (fun s h => ?_)
    (fun s a s' hI he h => inv_step htoml hboot hinj hI he h) he
  obtain ⟨⟨file, first, hw⟩, hev, hr, hi⟩ := h
  obtain ⟨w, ev, rt, li⟩ := s
  cases hw
  cases hev
  cases hr
  cases hi
  exact
    { coherent := rfl
      upToDate := fun h => by cases h
      early := fun _ => ⟨rfl, rfl, rfl, rfl⟩
      loaded := fun _ _ => rfl
      reads := fun _ h => by rcases h with h | h <;> cases h
      sound := fun _ h => by cases h
      tracks := fun _ h => by cases h
      healthy := fun _ h => by cases h
      stopped := fun h => by cases h }

end

end Penetrate
