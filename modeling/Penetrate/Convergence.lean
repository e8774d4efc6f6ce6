/-
  File:      Penetrate/Convergence.lean
  Subject:   THE PROCESS COMES TO REST: what the file says comes into force, and `run` returns.

  Each event of the file watcher is one rescan, which may send any number of changes; each change is
  routed, forwarded and applied, or an instance ends and the next one starts. So the steps of the
  watcher are counted first, and those of the loop (Due.lean) behind them.

  * `rests_or_loops` -- the loop rests, or goes on, or its instance hangs;
  * `config_converges` -- **once the file is left alone, what it says comes into force**;
  * `shutdown_returns` -- **once the watcher has gone, `run` returns**.

  Either may instead end with a server that waits in `handle_hot_reload` for a guard of its tables.
-/
import Penetrate.Due
import Penetrate.Process

namespace Penetrate

open Concurrent Machine

section

variable {Seed : Type} {toml : Seed → String → Except String Config} {digest : Bytes → Digest}
  {args : Cli} {texts : Set String}

/-! ## 1. The loop comes to rest -/

theorem Healthy.joins {s : Supervisor} (hI : Healthy s) : Joins s.router s.last_instance := by
  refine ⟨fun ev hev => ?_, hI.restarting⟩
  cases hi : s.last_instance with
  | some i => exact ⟨i, rfl⟩
  | none => cases (hI.first hi).1.symm.trans hev

/-- Every change has been routed, and the instance, if it lives, has applied them all or hangs. -/
structure Supervisor.Rests (s : Supervisor) : Prop where
  router : s.router = .recv
  events : s.events = []
  applied : ∀ i, s.last_instance = some i → i.task.alive = true →
    (∃ r, i.task = .running r) ∧ i.updates.items = [] ∨ ∃ r, i.task = .hung r

/-- The loop waits for an instance that hangs: for a place in its queue, or for its end. -/
def Supervisor.Blocked (s : Supervisor) : Prop :=
  ∃ i r, s.last_instance = some i ∧ i.task = .hung r ∧
    ((∃ ev, s.router = .forwarding ev ∧ i.updates.full = true) ∨ ∃ c, s.router = .restarting c)

/-- A step of the loop or of its instance, not a failure. -/
def loops : SupervisorAct Seed → Bool
  | .rescan _ _ => false
  | .fail => false
  | _ => true

/-- A living instance has caught up, hangs, or goes on. -/
theorem instance_goes_on (digest : Bytes → Digest) (args : Cli) {s : Supervisor} {i : LastInstance}
    (hi : s.last_instance = some i) (hal : i.task.alive = true) :
    ((∃ r, i.task = .running r) ∧ i.updates.items = [] ∨ ∃ r, i.task = .hung r) ∨
      ∃ a : SupervisorAct Seed, loops a = true ∧
        (Supervisor.step toml digest args s a).isSome = true := by
  cases ht : i.task with
  | starting c => exact .inr ⟨.boot, rfl, by simp [Supervisor.step, hi, ht]⟩
  | running r =>
      cases hq : i.updates.recv with
      | none => exact .inl (.inl ⟨⟨r, rfl⟩, Mpsc.recv_eq_none.mp hq⟩)
      | some p => exact .inr ⟨.apply, rfl, by simp [Supervisor.step, hi, ht, hq]⟩
  | hung r => exact .inl (.inr ⟨r, rfl⟩)
  | finished =>
      rw [ht] at hal
      cases hal
  | failed =>
      rw [ht] at hal
      cases hal

/-- **The loop rests, waits for an instance that hangs, or goes on**, as long as `run` has not
    returned. -/
theorem rests_or_loops (digest : Bytes → Digest) (args : Cli) {s : Supervisor}
    (hJ : Joins s.router s.last_instance) (hr : s.router ≠ .stopped) :
    s.Rests ∨ s.Blocked ∨ ∃ a : SupervisorAct Seed, loops a = true ∧
      (Supervisor.step toml digest args s a).isSome = true := by
  cases hrt : s.router with
  | stopped => exact absurd hrt hr
  | recv =>
      cases hev : s.events with
      | cons e rest =>
          refine .inr (.inr ⟨.route, rfl, ?_⟩)
          cases hi : s.last_instance with
          | none => cases e <;> simp [Supervisor.step, hrt, hev, hi]
          | some i =>
              cases e with
              | general c => cases hal : i.task.alive <;> simp [Supervisor.step, hrt, hev, hi, hal]
              | serverChange x => simp [Supervisor.step, hrt, hev, hi]
              | clientChange x => simp [Supervisor.step, hrt, hev, hi]
      | nil =>
          by_cases hex : ∃ a : SupervisorAct Seed, loops a = true ∧
              (Supervisor.step toml digest args s a).isSome = true
          · exact .inr (.inr hex)
          · exact .inl ⟨hrt, hev, fun i hi hal =>
              (instance_goes_on digest args hi hal).resolve_right hex⟩
  | forwarding ev =>
      obtain ⟨i, hi⟩ := hJ.forwarding ev hrt
      cases hal : i.task.alive with
      | false => exact .inr (.inr ⟨.forward, rfl, by simp [Supervisor.step, hrt, hi, hal]⟩)
      | true =>
          cases hq : i.updates.send ev with
          | some q => exact .inr (.inr ⟨.forward, rfl, by simp [Supervisor.step, hrt, hi, hal, hq]⟩)
          | none =>
              -- the queue is full, so the instance has a change to apply
              have hfull := Mpsc.send_eq_none.mp hq
              rcases instance_goes_on digest args hi hal with (⟨_, hnil⟩ | ⟨r, ht⟩) | h
              · have hlen := Mpsc.full_iff.mp hfull
                rw [hnil] at hlen
                cases hlen
              · exact .inr (.inl ⟨i, r, hi, ht, .inl ⟨ev, hrt, hfull⟩⟩)
              · exact .inr (.inr h)
  | restarting c =>
      obtain ⟨i, hi, hs⟩ := hJ.restarting c hrt
      cases ht : i.task with
      | starting config => exact .inr (.inr ⟨.boot, rfl, by simp [Supervisor.step, hi, ht]⟩)
      | running r => exact .inr (.inr ⟨.stop, rfl, by simp [Supervisor.step, hi, ht, hs]⟩)
      | hung r => exact .inr (.inl ⟨i, r, hi, ht, .inr ⟨c, hrt⟩⟩)
      | finished => exact .inr (.inr ⟨.restart, rfl, by simp [Supervisor.step, hrt, hi, ht]⟩)
      | failed => exact .inr (.inr ⟨.restart, rfl, by simp [Supervisor.step, hrt, hi, ht]⟩)

/-! ## 2. What the file says comes into force -/

/-- In the `select!` of `config_watcher`, or at work on an event. -/
def WatcherPhase.registered : WatcherPhase → Bool
  | .waiting => true
  | .rescanning _ => true
  | .scanned _ => true
  | _ => false

def WatcherPhase.due : WatcherPhase → Nat
  | .rescanning _ => 2
  | .scanned _ => 1
  | _ => 0

/-- The steps due of a watcher whose file is left alone. -/
def Watcher.due (s : Watcher) : Nat := 3 * s.pending + s.phase.due

variable (texts) in
/-- What goes on while the file is left alone: the watcher reads it at each event still pending, the
    loop and its instance go on. -/
def Internal : ProcessAct Seed → Prop
  | .watcher .coalesce => True
  | .watcher .receive => True
  | .watcher (.read content) => ∀ text, content = some text → text ∈ texts
  | .watcher (.parse _) => True
  | .run a => loops a = true
  | _ => False

/-- **A step of the watcher then is one due.** -/
theorem watcher_due {s s' : Watcher} {a : WatcherAct Seed} (hp : s.phase.registered = true)
    (ha : Internal texts (.watcher a)) (h : WatcherStep toml s a s') :
    s'.file = s.file ∧ s'.phase.registered = true ∧ s'.due < s.due := by
  cases h with
  | edit | spurious | register | watching | exit => exact ha.elim
  | load _ _ hp' | refuse _ _ hp' | accept _ _ _ hp' =>
      rw [hp'] at hp
      cases hp
  | coalesce h2 =>
      refine ⟨rfl, hp, ?_⟩
      simp only [Watcher.due]
      omega
  | rescan content edited hp' hc =>
      refine ⟨rfl, rfl, ?_⟩
      simp only [Watcher.due, hp', WatcherPhase.due]
      omega
  | ignore σ content hp' hf =>
      refine ⟨rfl, rfl, ?_⟩
      simp only [Watcher.due, hp', WatcherPhase.due]
      omega
  | update σ content old new hp' hf ho =>
      refine ⟨rfl, rfl, ?_⟩
      simp only [Watcher.due, hp', WatcherPhase.due]
      omega
  | receive pending hp' h1 =>
      refine ⟨rfl, rfl, ?_⟩
      simp only [Watcher.due, hp', h1, WatcherPhase.due]
      omega

/-- The steps due: the watcher's may each send any number of changes. -/
def Process.due (s : Process) : Nat × Nat :=
  (s.watcher.due, 4 * s.events.length + s.router.due +
    (s.last_instance.map LastInstance.due).getD 0)

/-- The watcher's steps come first. -/
def Sooner : Nat × Nat → Nat × Nat → Prop := Prod.Lex (· < ·) (· < ·)

theorem sooner_wf : WellFounded Sooner := (Prod.lex Nat.lt_wfRel Nat.lt_wfRel).wf

variable (toml digest args) in
/-- The watcher waits, nothing is under way, and the instance has in force what one started from the
    file would have; an invalid file leaves what the watcher has accepted last. -/
structure Converged (file : Option String) (s : Process) : Prop where
  same : s.watcher.file = file
  waits : s.watcher.phase = .waiting ∧ s.watcher.pending = 0
  settled : s.events = [] ∧ s.router = .recv
  inForce : ∃ l i old, s.last_instance = some l ∧ l.updates.items = [] ∧ l.task = .running i ∧
    s.watcher.old = some old ∧ fresh digest args old = some i.effective ∧
    ∀ σ c, Config.from_file toml σ file = .ok c →
      old.eq c = true ∧ fresh digest args c = some i.effective

/-- Or the instance is a server that waits in `handle_hot_reload` for a guard it is never granted, and
    nothing else is left to do: the loop has nothing to do either, or waits for that instance. -/
structure Hangs (s : Process) : Prop where
  waits : s.watcher.phase = .waiting ∧ s.watcher.pending = 0
  hung : ∃ l r, s.last_instance = some l ∧ l.task = .hung r ∧
    (s.events = [] ∧ s.router = .recv ∨
      (∃ ev, s.router = .forwarding ev ∧ l.updates.full = true) ∨ ∃ c, s.router = .restarting c)

variable (toml digest args texts) in
/-- What the steps keep, as long as the file has this content. -/
structure Left (file : Option String) (s : Process) : Prop where
  inv : s.Inv toml digest args texts
  registered : s.watcher.phase.registered = true
  same : s.watcher.file = file

theorem left_step (htoml : Config.SeedBlind toml) (hboot : Starts toml digest args texts)
    (hinj : NamesApart toml digest texts) {file : Option String} {s s' : Process}
    {a : ProcessAct Seed} (hI : Left toml digest args texts file s) (ha : Internal texts a)
    (h : Process.step toml digest args s a = some s') :
    Left toml digest args texts file s' ∧ Sooner s'.due s.due := by
  have hexp : Expected toml texts s a := by
    cases a with
    | watcher a =>
        cases a with
        | read content =>
            cases content with
            | none => trivial
            | some text => exact ha text rfl
        | watching => exact ha.elim
        | edit | spurious | coalesce | parse | register | receive | exit => trivial
    | run a =>
        cases a with
        | fail => cases ha
        | rescan | route | forward | restart | boot | apply | hang | stop => trivial
    | closed => exact ha.elim
  have hinv := inv_step htoml hboot hinj hI.inv hexp h
  cases process_cases h with
  | watcher a w hw hl =>
      obtain ⟨hf, hr, hd⟩ := watcher_due hI.registered ha hw
      exact ⟨⟨hinv, hr, hf.trans hI.same⟩, .left _ _ hd⟩
  | run a old r hra ho hr => exact ⟨⟨hinv, hI.registered, hI.same⟩,
      .right _ (loop_due hra (supervisor_cases hr))⟩
  | closed => exact ha.elim

/-- A step of the loop is one of the process. -/
theorem run_enabled {s : Process} {old : Config} (ho : s.watcher.old = some old)
    {a : SupervisorAct Seed} (ha : loops a = true)
    (h : (Supervisor.step toml digest args (s.supervisor old) a).isSome = true) :
    ∃ s', Process.step toml digest args s (.run a) = some s' := by
  obtain ⟨r, hr⟩ := Option.isSome_iff_exists.mp h
  cases a with
  | rescan | fail => cases ha
  | route | forward | restart | boot | apply | hang | stop =>
      exact ⟨_, by simp only [Process.step, ho, Option.bind_some, hr, Option.map_some]; rfl⟩

/-- Nor is one of the watcher, while the loop listens. -/
theorem watcher_enabled {s : Process} {a : WatcherAct Seed}
    (h : (Watcher.step toml s.watcher a).isSome = true) (hl : s.router.listens = true) :
    ∃ s', Process.step toml digest args s (.watcher a) = some s' := by
  obtain ⟨w, hw⟩ := Option.isSome_iff_exists.mp h
  exact ⟨_, by simp only [Process.step, hw, Option.bind_some, hl, Bool.or_true, if_true]; rfl⟩

/-- The watcher waits and the loop rests: the instance has caught up with the file, or hangs. -/
theorem converged_at_rest (hinj : NamesApart toml digest texts) {s : Process}
    (hI : s.Inv toml digest args texts) (hfile : ∀ text, s.watcher.file = some text → text ∈ texts)
    (hp : s.watcher.phase = .waiting) (h0 : s.watcher.pending = 0) {old : Config}
    (ho : s.watcher.old = some old) (hrest : (s.supervisor old).Rests) :
    Converged toml digest args s.watcher.file s ∨ Hangs s := by
  have hH := hI.healthy old ho
  have hr : s.router = .recv := hrest.router
  have he : s.events = [] := hrest.events
  obtain ⟨l, hl⟩ : ∃ l, s.last_instance = some l := by
    cases hn : s.last_instance with
    | some l => exact ⟨l, rfl⟩
    | none =>
        obtain ⟨-, c, rest, he'⟩ := hH.first hn
        cases he.symm.trans he'
  have hrec : ∀ c, (s.supervisor old).router ≠ .restarting c := fun c hc => by
    cases hr.symm.trans hc
  obtain ⟨⟨i, hi⟩, hq⟩ | ⟨i, hi⟩ := hrest.applied l hl (hH.alive hl hrec).1
  swap
  · exact .inr ⟨⟨hp, h0⟩, l, i, hl, hi, .inl ⟨he, hr⟩⟩
  -- nothing is under way, so what is in force is what the watcher has accepted
  have hfresh : fresh digest args old = some i.effective := by
    have hx : (s.supervisor old).inForce digest args = some (some i.effective) := by
      rw [inForce_some hl, hi]
      rfl
    have hcur := (hI.tracks old ho).current (.inl hr) _ hx
    have hnone : (s.supervisor old).queued ++ (s.supervisor old).router.hand ++
        (s.supervisor old).events = [] := by
      rw [queued_some hl, hq, show (s.supervisor old).router = .recv from hr,
        show (s.supervisor old).events = [] from he]
      rfl
    rw [hnone] at hcur
    exact hcur.symm
  refine .inl ⟨rfl, ⟨hp, h0⟩, ⟨he, hr⟩, l, i, old, hl, hq, hi, ho, hfresh, fun σ c hc => ?_⟩
  obtain ⟨old', ho', heq, -⟩ := hI.upToDate hp h0 σ c hc
  cases ho.symm.trans ho'
  have hacc : Accepted toml texts c := .of_file hc hfile
  have hold := (hI.sound old ho).old
  refine ⟨heq, ?_⟩
  rw [← fresh_congr args hold.valid hacc.valid (hinj.union hold hacc) heq]
  exact hfresh

/-- **Whatever is left to do can be done**, until the instance has caught up with the file or
    hangs. -/
theorem converged_or_goes (hinj : NamesApart toml digest texts) {file : Option String}
    (hfile : ∀ text, file = some text → text ∈ texts) {s : Process}
    (hI : Left toml digest args texts file s) :
    (Converged toml digest args file s ∨ Hangs s) ∨
      ∃ a t, Internal texts a ∧ Process.step toml digest args s a = some t := by
  obtain ⟨hinv, hreg, rfl⟩ := hI
  have hr : s.router ≠ .stopped := fun hr => by
    rw [hinv.stopped hr] at hreg
    cases hreg
  have hl : s.router.listens = true := by
    cases hrt : s.router with
    | stopped => exact absurd hrt hr
    | recv | forwarding | restarting => rfl
  cases hp : s.watcher.phase with
  | starting | loaded | spawned | registering | exited =>
      rw [hp] at hreg
      cases hreg
  | rescanning edited =>
      have hstep : (Watcher.step toml s.watcher (.read s.watcher.file)).isSome = true := by
        simp [Watcher.step, hp]
      obtain ⟨t, ht⟩ := watcher_enabled hstep hl
      exact .inr ⟨.watcher (.read s.watcher.file), t, hfile, ht⟩
  | scanned content =>
      obtain ⟨⟨old, hold, -⟩, -⟩ := hinv.coherent.at hp
      have ho : s.watcher.old = some old := hold
      obtain ⟨σ, -⟩ := (hinv.sound old ho).old
      have hstep : (Watcher.step toml s.watcher (.parse σ)).isSome = true := by
        cases hf : Config.from_file toml σ content <;> simp [Watcher.step, hp, hf, ho]
      obtain ⟨t, ht⟩ := watcher_enabled hstep hl
      exact .inr ⟨.watcher (.parse σ), t, trivial, ht⟩
  | waiting =>
      cases h0 : s.watcher.pending with
      | succ n =>
          have hstep : (Watcher.step toml s.watcher .receive).isSome = true := by
            simp [Watcher.step, hp, h0]
          obtain ⟨t, ht⟩ := watcher_enabled hstep hl
          exact .inr ⟨.watcher .receive, t, trivial, ht⟩
      | zero =>
          obtain ⟨old, ho, -⟩ := hinv.coherent.at hp
          have hH := hinv.healthy old ho
          rcases rests_or_loops digest args hH.joins hr with
            hrest | ⟨l, i, hl, hi, hwait⟩ | ⟨a, ha, hstep⟩
          · exact .inl (converged_at_rest hinj hinv hfile hp h0 ho hrest)
          · exact .inl (.inr ⟨⟨hp, h0⟩, l, i, hl, hi, .inr hwait⟩)
          · obtain ⟨t, ht⟩ := run_enabled ho ha hstep
            exact .inr ⟨.run a, t, ha, ht⟩

/-- **What the file says comes into force.** Once the watcher is registered and as long as the file
    is left alone, the watcher, the loop of `run` and the instance come to rest in whatever order
    they take their steps, and then the instance has in force what one freshly started from the file
    has. Or they come to rest with a server that waits for a guard of its tables for ever. Expected
    is that no edit has gone unseen before, that every content read is one a process of this mode
    can be started with, and that the instance does not fail on its own. -/
theorem config_converges (htoml : Config.SeedBlind toml) (hboot : Starts toml digest args texts)
    (hinj : NamesApart toml digest texts) {tr : List (Process × ProcessAct Seed)} {s : Process}
    (r : (process toml digest args).Run tr s) (he : Guarded (Expected toml texts) tr)
    (hreg : s.watcher.phase.registered = true)
    (hfile : ∀ text, s.watcher.file = some text → text ∈ texts) :
    (process toml digest args).Concludes (Internal texts)
      (fun t => Converged toml digest args s.watcher.file t ∨ Hangs t) s :=
  Concludes.of_wf sooner_wf (I := Left toml digest args texts s.watcher.file) Process.due
    (fun _ _ _ hI ha h => left_step htoml hboot hinj hI ha h)
    (fun _ hI => converged_or_goes hinj hfile hI)
    ⟨inv_process htoml hboot hinj r he, hreg, rfl⟩

/-! ## 3. `run` returns -/

/-- The loop, its instance, or the end of `event_rx`. -/
def Winds : ProcessAct Seed → Prop
  | .run _ => True
  | .closed => True
  | .watcher _ => False

/-- The watcher has gone, once the first configuration has been accepted. -/
structure Gone (s : Process) : Prop where
  exited : s.watcher.phase = .exited
  old : ∃ old, s.watcher.old = some old
  joins : Joins s.router s.last_instance

theorem joins_process {tr : List (Process × ProcessAct Seed)} {s : Process}
    (r : (process toml digest args).Run tr s) : Joins s.router s.last_instance := by
  refine r.invariant (I := fun s => Joins s.router s.last_instance) (fun s h => ?_)
    fun s a s' hJ h => ?_
  · exact .idle (.inl h.2.2.1) _
  · cases process_cases h with
    | watcher a w hw hl => exact hJ
    | run a old r ha ho hr =>
        have hJ' : Joins (s.supervisor old).router (s.supervisor old).last_instance := hJ
        exact joins_step hJ' (supervisor_cases hr)
    | closed => exact .idle (.inr rfl) _

theorem gone_step {s s' : Process} {a : ProcessAct Seed} (hI : Gone s) (ha : Winds a)
    (h : Process.step toml digest args s a = some s') : Gone s' ∧ s'.due.2 < s.due.2 := by
  cases process_cases h with
  | watcher => exact ha.elim
  | run a old r hra ho hr =>
      have hJ : Joins (s.supervisor old).router (s.supervisor old).last_instance := hI.joins
      exact ⟨⟨hI.exited, hI.old, joins_step hJ (supervisor_cases hr)⟩,
        loop_due hra (supervisor_cases hr)⟩
  | closed old ho hp hr he =>
      refine ⟨⟨hI.exited, hI.old, .idle (.inr rfl) _⟩, ?_⟩
      simp only [Process.due, hr, Router.due]
      omega

/-- The loop waits for an instance that hangs. -/
def Process.Blocked (s : Process) : Prop :=
  ∃ l r, s.last_instance = some l ∧ l.task = .hung r ∧
    ((∃ ev, s.router = .forwarding ev ∧ l.updates.full = true) ∨ ∃ c, s.router = .restarting c)

/-- **After the shutdown signal `run` returns.** Once the watcher has gone, the loop routes what has
    been sent, whatever becomes of the instances, and comes to its end; but where a server waits for
    ever for a guard of its tables, and the loop for that server. -/
theorem shutdown_returns {tr : List (Process × ProcessAct Seed)} {s : Process}
    (r : (process toml digest args).Run tr s) (hx : s.watcher.phase = .exited)
    (ho : s.watcher.old.isSome = true) :
    (process toml digest args).Completes Winds (fun s => s.router = .stopped ∨ s.Blocked) s := by
  refine Completes.of_measure (I := Gone) (fun s => s.due.2)
    (fun _ _ _ hI ha h => gone_step hI ha h) (fun s hI => ?_)
    ⟨hx, Option.isSome_iff_exists.mp ho, joins_process r⟩
  obtain ⟨hx, ⟨old, ho⟩, hJ⟩ := hI
  by_cases hr : s.router = .stopped
  · exact .inl (.inl hr)
  · have hJ' : Joins (s.supervisor old).router (s.supervisor old).last_instance := hJ
    rcases rests_or_loops digest args hJ' hr with hrest | hblocked | ⟨a, ha, hstep⟩
    · have hr' : s.router = .recv := hrest.router
      have he' : s.events = [] := hrest.events
      exact .inr ⟨.closed, _, trivial, by simp only [process, Process.step, ho, hx, hr', he']; rfl⟩
    · exact .inl (.inr hblocked)
    · obtain ⟨t, ht⟩ := run_enabled ho ha hstep
      exact .inr ⟨.run a, t, trivial, ht⟩

end

/-! The port of the service is edited while the server runs, or the signal comes. -/

def webTexts : Set String := {t | t = webText "0.0.0.0:80" ∨ t = webText "0.0.0.0:81"}

/-- Every accepted content is a server's. -/
theorem webStarts : Starts webToml webDigest ⟨false, false⟩ webTexts := by
  intro c hc
  obtain ⟨σ, t, -, hp⟩ := hc
  obtain ⟨c0, h0, hv⟩ := Config.from_str_ok hp
  have hval : ∀ b, Config.validate (webConfig b) = .ok c →
      (run_instance webDigest ⟨false, false⟩ c).isSome = true := by
    intro b hb
    cases hb
    rfl
  unfold webToml at h0
  split at h0
  · cases h0
    exact hval _ hv
  · split at h0
    · cases h0
      exact hval _ hv
    · cases h0

theorem webApart : NamesApart webToml webDigest webTexts := by
  intro n hn m hm _
  obtain ⟨c, ⟨_, _, _, hc⟩, hnc⟩ := hn
  obtain ⟨c', ⟨_, _, _, hc'⟩, hmc⟩ := hm
  exact (webNames hc hnc).trans (webNames hc' hmc).symm

/-- The watcher is at work on the edit. -/
theorem config_converges_web : ∃ tr s,
    (process webToml webDigest ⟨false, false⟩).Run tr s ∧
      s.watcher.file = some (webText "0.0.0.0:81") ∧
      (process webToml webDigest ⟨false, false⟩).Concludes (Internal webTexts)
        (fun t => Converged webToml webDigest ⟨false, false⟩ (some (webText "0.0.0.0:81")) t ∨
          Hangs t) s := by
  have r : ∃ tr s, (process webToml webDigest ⟨false, false⟩).Run tr s ∧
      s.watcher.file = some (webText "0.0.0.0:81") ∧ s.watcher.phase.registered = true ∧
      Guarded (Expected webToml webTexts) tr := by
    refine ⟨_, _, .step (a := .watcher .receive)
      (.step (a := .watcher (.edit (some (webText "0.0.0.0:81")) true))
      (.step (a := .run .boot) (.step (a := .run .route) (.step (a := .watcher .watching)
      (.step (a := .watcher .register) (.step (a := .watcher (.parse ()))
      (.step (a := .watcher (.read (some (webText "0.0.0.0:80"))))
      (.start (s := ⟨⟨some (webText "0.0.0.0:80"), .starting false, 0, none, none, []⟩, [], .recv,
        none⟩) ⟨⟨_, _, rfl⟩, rfl, rfl, rfl⟩) rfl) rfl) rfl) rfl) rfl) rfl) rfl) rfl, rfl, rfl, ?_⟩
    simp only [guarded_cons]
    exact ⟨trivial, trivial, trivial, trivial, fun _ _ => .refl webToml_seedBlind _, trivial,
      trivial, .inl rfl, by simp [Guarded]⟩
  obtain ⟨tr, s, r, hf, hreg, he⟩ := r
  have hfile : ∀ text, s.watcher.file = some text → text ∈ webTexts := by
    intro text ht
    cases hf.symm.trans ht
    exact .inr rfl
  have hc := config_converges webToml_seedBlind webStarts webApart r he hreg hfile
  rw [hf] at hc
  exact ⟨tr, s, r, hf, hc⟩

/-- The signal comes before the loop has received anything. -/
def interrupted : List (ProcessAct Unit) :=
  [.watcher (.read (some (webText "0.0.0.0:80"))), .watcher (.parse ()), .watcher .exit]

theorem shutdown_returns_web : ∃ tr s,
    (process webToml webDigest ⟨false, false⟩).Run tr s ∧ s.events.length = 1 ∧
      (process webToml webDigest ⟨false, false⟩).Completes Winds
        (fun s => s.router = .stopped ∨ s.Blocked) s := by
  have hex : ∃ s, (process webToml webDigest ⟨false, false⟩).exec
      ⟨⟨some (webText "0.0.0.0:80"), .starting false, 0, none, none, []⟩, [], .recv, none⟩
      interrupted = some s ∧ s.events.length = 1 ∧ s.watcher.phase = .exited ∧
      s.watcher.old.isSome = true := ⟨_, rfl, rfl, rfl, rfl⟩
  obtain ⟨s, hs, hev, hx, ho⟩ := hex
  have hstart : (process webToml webDigest ⟨false, false⟩).start
      ⟨⟨some (webText "0.0.0.0:80"), .starting false, 0, none, none, []⟩, [], .recv, none⟩ :=
    ⟨⟨_, _, rfl⟩, rfl, rfl, rfl⟩
  have r := run_trace (.start hstart) hs
  exact ⟨_, s, r, hev, shutdown_returns r hx ho⟩

end Penetrate
