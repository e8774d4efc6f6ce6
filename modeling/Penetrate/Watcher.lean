/-
  File:      Penetrate/Watcher.lean
  Subject:   THE WATCHER AND THE FILE IT WATCHES.

  `ConfigWatcherHandle::new` reads the file and spawns `config_watcher`, which registers with the
  file watcher and rescans at each event. The file may change between any two of these steps, and
  while it is read. A change made once `watcher.watch` has returned gives an event; one made before
  the call gives none; one made during the call may or may not.

  * `Watcher.step`, `watcher` -- the machine; `watcher_cases` lists its rules;
  * `Computed` -- the events of a chain of rescans, up to a configuration;
  * `Watcher.UpToDate` -- what the waiting watcher owes: no event is pending, so `old` is what the
    file says, and the events lead up to it;
  * `Watcher.Coherent` -- **the invariant**: wherever a read has missed an edit, an event is pending;
  * `watcher_supervised` -- its events are those of the watcher in the supervisor;
  * `up_to_date_iff` -- **it loses exactly the edits made before it is registered**.
-/
import Penetrate.Supervisor

namespace Penetrate

open Concurrent Machine

/-! ## 1. Reading the file -/

/-- What `Config::from_file` fails with. -/
inductive FileError where
  | read
  | invalid (e : ConfigError)

/-- The context it is reported in; `path` is the path as `{:?}` shows it. -/
def FileError.context (path : String) : FileError → String
  | .read => "Failed to read the config: " ++ path
  | .invalid _ =>
      "Configuration is invalid. Please refer to the configuration specification."

section

variable {Seed : Type} (toml : Seed → String → Except String Config)

/-- `none` where the file cannot be read. -/
def Config.from_file (σ : Seed) : Option String → Except FileError Config
  | none => .error .read
  | some s => (Config.from_str toml σ s).mapError .invalid

/-! ## 2. The machine -/

/-- Where `new`, and then the task it spawns, is. The reads note whether the file has been modified
    since they began. -/
inductive WatcherPhase where
  /-- in the `Config::from_file` of `new` -/
  | starting (edited : Bool)
  | loaded (content : Option String)
  /-- `config_watcher` is spawned -/
  | spawned
  /-- in `watcher.watch` -/
  | registering
  /-- in the `select!` -/
  | waiting
  /-- in the `Config::from_file` of the loop -/
  | rescanning (edited : Bool)
  | scanned (content : Option String)
  | exited

/-- `first` is the content `new` read, `sent` what has gone into `event_tx`. -/
structure Watcher where
  file : Option String
  phase : WatcherPhase
  /-- the events of the file watcher still in `fevent_rx` -/
  pending : Nat
  first : Option String
  old : Option Config
  sent : List ConfigChange

inductive WatcherAct (Seed : Type) where
  /-- the file gets this content; `noticed`: with an event -/
  | edit (content : Option String) (noticed : Bool)
  /-- an event of the file that comes with no change of its content -/
  | spurious
  /-- two events become one -/
  | coalesce
  | read (content : Option String)
  | parse (σ : Seed)
  | register
  | watching
  | receive
  | exit

/-- The file watcher may deliver events. -/
def WatcherPhase.listens : WatcherPhase → Bool
  | .registering => true
  | .waiting => true
  | .rescanning _ => true
  | .scanned _ => true
  | _ => false

/-- Whether a modification comes with an event. -/
def WatcherPhase.notices (noticed : Bool) : WatcherPhase → Bool
  | .registering => true
  | .waiting => noticed
  | .rescanning _ => noticed
  | .scanned _ => noticed
  | _ => !noticed

/-- A read under way notes the modification. -/
def WatcherPhase.touched : WatcherPhase → WatcherPhase
  | .starting _ => .starting true
  | .rescanning _ => .rescanning true
  | p => p

/-- Where the task can return: on an error of `current_dir`, of the file watcher or of `event_tx`,
    and on the shutdown signal. -/
def WatcherPhase.returns : WatcherPhase → Bool
  | .spawned => true
  | .registering => true
  | .waiting => true
  | .scanned _ => true
  | _ => false

def Watcher.step (s : Watcher) : WatcherAct Seed → Option Watcher
  | .edit content noticed =>
      if s.phase.notices noticed then
        some { s with
          file := content, phase := s.phase.touched, pending := s.pending + noticed.toNat }
      else none
  | .spurious => if s.phase.listens then some { s with pending := s.pending + 1 } else none
  | .coalesce => if 2 ≤ s.pending then some { s with pending := s.pending - 1 } else none
  | .read content => match s.phase with
    | .starting edited =>
        -- modified while it is read: any mixture of the contents may come of it
        if edited || content == s.file then
          some { s with phase := .loaded content, first := content }
        else none
    | .rescanning edited =>
        if edited || content == s.file then some { s with phase := .scanned content } else none
    | _ => none
  | .parse σ => match s.phase with
    | .loaded content => match Config.from_file toml σ content with
      | .error _ => some { s with phase := .exited }
      | .ok origin_cfg =>
          some { s with phase := .spawned, old := some origin_cfg, sent := [.general origin_cfg] }
    | .scanned content => match Config.from_file toml σ content with
      -- "If the config is invalid, just ignore it"
      | .error _ => some { s with phase := .waiting }
      | .ok new => match s.old with
        | some old =>
            some { s with
              phase := .waiting
              old := some new
              sent := s.sent ++ (calculate_events old new).getD [] }
        | none => none
    | _ => none
  | .register => match s.phase with
    | .spawned => some { s with phase := .registering }
    | _ => none
  | .watching => match s.phase with
    | .registering => some { s with phase := .waiting }
    | _ => none
  | .receive => match s.phase, s.pending with
    | .waiting, pending + 1 => some { s with phase := .rescanning false, pending := pending }
    | _, _ => none
  | .exit => if s.phase.returns then some { s with phase := .exited } else none

/-- **The watcher**, from the moment `new` begins to read. -/
def watcher : Machine Watcher (WatcherAct Seed) where
  start s := ∃ file first, s = ⟨file, .starting false, 0, first, none, []⟩
  step := Watcher.step toml

/-! ## 3. The rules -/

inductive WatcherStep (s : Watcher) : WatcherAct Seed → Watcher → Prop where
  | edit (content : Option String) (noticed : Bool) (hn : s.phase.notices noticed = true) :
      WatcherStep s (.edit content noticed)
        { s with
          file := content, phase := s.phase.touched, pending := s.pending + noticed.toNat }
  | spurious (hl : s.phase.listens = true) :
      WatcherStep s .spurious { s with pending := s.pending + 1 }
  | coalesce (h2 : 2 ≤ s.pending) : WatcherStep s .coalesce { s with pending := s.pending - 1 }
  | load (content : Option String) (edited : Bool) (hp : s.phase = .starting edited)
      (hc : edited = false → content = s.file) :
      WatcherStep s (.read content) { s with phase := .loaded content, first := content }
  | rescan (content : Option String) (edited : Bool) (hp : s.phase = .rescanning edited)
      (hc : edited = false → content = s.file) :
      WatcherStep s (.read content) { s with phase := .scanned content }
  | refuse (σ : Seed) (content : Option String) (hp : s.phase = .loaded content)
      (hf : ∀ origin_cfg, Config.from_file toml σ content ≠ .ok origin_cfg) :
      WatcherStep s (.parse σ) { s with phase := .exited }
  | accept (σ : Seed) (content : Option String) (origin_cfg : Config)
      (hp : s.phase = .loaded content) (hf : Config.from_file toml σ content = .ok origin_cfg) :
      WatcherStep s (.parse σ)
        { s with phase := .spawned, old := some origin_cfg, sent := [.general origin_cfg] }
  | ignore (σ : Seed) (content : Option String) (hp : s.phase = .scanned content)
      (hf : ∀ new, Config.from_file toml σ content ≠ .ok new) :
      WatcherStep s (.parse σ) { s with phase := .waiting }
  | update (σ : Seed) (content : Option String) (old new : Config)
      (hp : s.phase = .scanned content) (hf : Config.from_file toml σ content = .ok new)
      (ho : s.old = some old) :
      WatcherStep s (.parse σ)
        { s with
          phase := .waiting
          old := some new
          sent := s.sent ++ (calculate_events old new).getD [] }
  | register (hp : s.phase = .spawned) : WatcherStep s .register { s with phase := .registering }
  | watching (hp : s.phase = .registering) : WatcherStep s .watching { s with phase := .waiting }
  | receive (pending : Nat) (hp : s.phase = .waiting) (h1 : s.pending = pending + 1) :
      WatcherStep s .receive { s with phase := .rescanning false, pending := pending }
  | exit (hp : s.phase.returns = true) : WatcherStep s .exit { s with phase := .exited }

variable {toml}

theorem watcher_cases {s s' : Watcher} {a : WatcherAct Seed}
    (h : Watcher.step toml s a = some s') : WatcherStep toml s a s' := by
  unfold Watcher.step at h
  split at h
  · rename_i content noticed
    split at h
    · rename_i hn
      cases h
      exact .edit content noticed hn
    · cases h
  · split at h
    · rename_i hl
      cases h
      exact .spurious hl
    · cases h
  · split at h
    · rename_i h2
      cases h
      exact .coalesce h2
    · cases h
  · rename_i content
    split at h
    · rename_i edited hp
      split at h
      · rename_i hc
        cases h
        exact .load content edited hp fun he => by simpa [he] using hc
      · cases h
    · rename_i edited hp
      split at h
      · rename_i hc
        cases h
        exact .rescan content edited hp fun he => by simpa [he] using hc
      · cases h
    · cases h
  · rename_i σ
    split at h
    · rename_i content hp
      split at h
      · rename_i e hf
        cases h
        exact .refuse σ content hp fun c hc => by rw [hf] at hc; cases hc
      · rename_i origin_cfg hf
        cases h
        exact .accept σ content origin_cfg hp hf
    · rename_i content hp
      split at h
      · rename_i e hf
        cases h
        exact .ignore σ content hp fun new hn => by rw [hf] at hn; cases hn
      · rename_i new hf
        split at h
        · rename_i old ho
          cases h
          exact .update σ content old new hp hf ho
        · cases h
    · cases h
  · split at h
    · rename_i hp
      cases h
      exact .register hp
    · cases h
  · split at h
    · rename_i hp
      cases h
      exact .watching hp
    · cases h
  · split at h
    · rename_i pending hp h1
      cases h
      exact .receive pending hp h1
    · cases h
  · split at h
    · rename_i hp
      cases h
      exact .exit hp
    · cases h

theorem Config.from_file_ok {σ : Seed} {file : Option String} {c : Config} :
    Config.from_file toml σ file = .ok c ↔
      ∃ text, file = some text ∧ Config.from_str toml σ text = .ok c := by
  cases file with
  | none =>
      refine iff_of_false (fun h => by cases h) fun h => ?_
      obtain ⟨text, ht, -⟩ := h
      cases ht
  | some text =>
      have he : Config.from_file toml σ (some text) = .ok c ↔ Config.from_str toml σ text = .ok c := by
        show (Config.from_str toml σ text).mapError FileError.invalid = .ok c ↔ _
        cases Config.from_str toml σ text <;> simp [Except.mapError]
      rw [he]
      constructor
      · intro h
        exact ⟨text, rfl, h⟩
      · rintro ⟨t, ht, h⟩
        cases ht
        exact h

/-- The same content is accepted, and as an equal configuration, whatever the seed. -/
theorem Config.from_file_congr (htoml : Config.SeedBlind toml) {σ : Seed} (σ' : Seed)
    {file : Option String} {c : Config} (h : Config.from_file toml σ file = .ok c) :
    ∃ c', Config.from_file toml σ' file = .ok c' ∧ c.eq c' = true := by
  obtain ⟨text, ht, hc⟩ := Config.from_file_ok.mp h
  obtain ⟨c', hc', heq⟩ := Config.from_str_congr htoml σ' hc
  exact ⟨c', Config.from_file_ok.mpr ⟨text, ht, hc'⟩, heq⟩

/-! ## 4. What the waiting watcher owes -/

/-- The events of a chain of rescans that ends with this configuration. -/
inductive Computed : Config → List ConfigChange → Prop where
  | general (origin_cfg : Config) : Computed origin_cfg [.general origin_cfg]
  | rescan {old : Config} {sent : List ConfigChange} (new : Config) (h : Computed old sent) :
      Computed new (sent ++ (calculate_events old new).getD [])

variable (toml) in
/-- **It waits, with no event pending and a valid file: `old` is what the file says, and the events
    lead up to it.** -/
def Watcher.UpToDate (s : Watcher) : Prop :=
  s.phase = .waiting → s.pending = 0 → ∀ σ c, Config.from_file toml σ s.file = .ok c →
    ∃ old, s.old = some old ∧ old.eq c = true ∧ Computed old s.sent

variable (toml) in
/-- The file, if it is valid, says what it said when `new` read `first`. -/
def Agrees (first file : Option String) : Prop :=
  ∀ σ c σ' c', Config.from_file toml σ first = .ok c → Config.from_file toml σ' file = .ok c' →
    c.eq c' = true

variable (toml) in
/-- Where `watcher.watch` returns and nothing is pending, no edit has gone unseen. -/
def Unmissed (s : Watcher) (a : WatcherAct Seed) : Prop :=
  a = .watching → s.pending = 0 → Agrees toml s.first s.file

theorem Agrees.refl (htoml : Config.SeedBlind toml) (file : Option String) :
    Agrees toml file file := by
  intro σ c σ' c' hc hc'
  obtain ⟨d, hd, heq⟩ := Config.from_file_congr htoml σ' hc
  rw [hc'] at hd
  cases hd
  exact heq

/-! ## 5. The invariant -/

variable (toml) in
/-- What the phases know. An event is pending wherever a read has missed a modification. -/
def Watcher.Coherent (s : Watcher) : Prop :=
  match s.phase with
  | .starting _ => s.old = none
  | .loaded content => s.first = content
  | .spawned => ∃ σ old, Config.from_file toml σ s.first = .ok old ∧ s.old = some old ∧
      Computed old s.sent
  | .registering => ∃ σ old, Config.from_file toml σ s.first = .ok old ∧ s.old = some old ∧
      Computed old s.sent
  | .waiting => ∃ old, s.old = some old ∧ Computed old s.sent
  | .rescanning edited => (∃ old, s.old = some old ∧ Computed old s.sent) ∧
      (s.pending = 0 → edited = false)
  | .scanned content => (∃ old, s.old = some old ∧ Computed old s.sent) ∧
      (s.pending = 0 → content = s.file)
  | .exited => True

/-- What the phase it is in knows. -/
theorem Watcher.Coherent.at {s : Watcher} {p : WatcherPhase} (hI : s.Coherent toml)
    (hp : s.phase = p) : Watcher.Coherent toml { s with phase := p } := by
  subst hp
  exact hI

/-- An edit that a read under way, or one not yet parsed, has missed leaves its event. -/
theorem coherent_edit {s : Watcher} {content : Option String} {noticed : Bool}
    (hn : s.phase.notices noticed = true) (hI : s.Coherent toml) :
    Watcher.Coherent toml
      { s with file := content, phase := s.phase.touched, pending := s.pending + noticed.toNat } := by
  obtain ⟨file, phase, pending, first, old, sent⟩ := s
  cases phase with
  | rescanning edited =>
      have hn' : noticed = true := hn
      refine ⟨hI.1, fun h0 => ?_⟩
      rw [hn'] at h0
      cases h0
  | scanned c =>
      have hn' : noticed = true := hn
      refine ⟨hI.1, fun h0 => ?_⟩
      rw [hn'] at h0
      cases h0
  | starting edited => exact hI
  | exited => trivial
  | loaded c => exact hI
  | spawned => exact hI
  | registering => exact hI
  | waiting => exact hI

/-- One more event, or one fewer of several, is no matter. -/
theorem coherent_pending {s : Watcher} {n : Nat} (hn : n ≠ 0) (hI : s.Coherent toml) :
    Watcher.Coherent toml { s with pending := n } := by
  obtain ⟨file, phase, pending, first, old, sent⟩ := s
  cases phase with
  | rescanning edited => exact ⟨hI.1, fun h0 => absurd h0 hn⟩
  | scanned c => exact ⟨hI.1, fun h0 => absurd h0 hn⟩
  | starting edited => exact hI
  | exited => trivial
  | loaded c => exact hI
  | spawned => exact hI
  | registering => exact hI
  | waiting => exact hI

theorem coherent_step {s s' : Watcher} {a : WatcherAct Seed} (hs : WatcherStep toml s a s')
    (hI : s.Coherent toml) : s'.Coherent toml := by
  cases hs with
  | edit content noticed hn => exact coherent_edit hn hI
  | spurious hl => exact coherent_pending (by omega) hI
  | coalesce h2 => exact coherent_pending (by omega) hI
  | load content edited hp hc => exact rfl
  | refuse σ content hp hf => trivial
  | exit hp => trivial
  | rescan content edited hp hc =>
      obtain ⟨hold, hclean⟩ := hI.at hp
      exact ⟨hold, fun h0 => hc (hclean h0)⟩
  | accept σ content origin_cfg hp hf =>
      have hfirst : s.first = content := hI.at hp
      exact ⟨σ, origin_cfg, by rw [hfirst]; exact hf, rfl, .general origin_cfg⟩
  | ignore σ content hp hf =>
      obtain ⟨hold, -⟩ := hI.at hp
      exact hold
  | update σ content old new hp hf ho =>
      obtain ⟨⟨old', ho', hsent⟩, -⟩ := hI.at hp
      rw [ho] at ho'
      cases ho'
      exact ⟨new, rfl, .rescan new hsent⟩
  | register hp =>
      have h := hI.at hp
      exact h
  | watching hp =>
      obtain ⟨σ, old, -, ho, hsent⟩ := hI.at hp
      exact ⟨old, ho, hsent⟩
  | receive pending hp h1 => exact ⟨hI.at hp, fun _ => rfl⟩

/-! ## 6. In the supervisor -/

variable (toml) in
/-- The watcher of the supervisor, nothing routed yet, can be where this watcher is. -/
def Supervised (digest : Bytes → Digest) (args : Cli) (s : Watcher) : Prop :=
  ∀ old, s.old = some old → ∃ text, s.first = some text ∧
    (supervisor toml digest args text).Reachable ⟨old, s.sent, .recv, none⟩

/-- A step that leaves what was read and what was sent alone. -/
theorem Supervised.frame {digest : Bytes → Digest} {args : Cli} {s s' : Watcher}
    (h : Supervised toml digest args s) (hf : s'.first = s.first) (ho : s'.old = s.old)
    (he : s'.sent = s.sent) : Supervised toml digest args s' := by
  intro old hold
  rw [ho] at hold
  rw [hf, he]
  exact h old hold

theorem supervised_step {digest : Bytes → Digest} {args : Cli} {s s' : Watcher}
    {a : WatcherAct Seed} (hs : WatcherStep toml s a s') (hI : s.Coherent toml)
    (hS : Supervised toml digest args s) : Supervised toml digest args s' := by
  cases hs with
  | edit _ _ _ | spurious _ | coalesce _ | rescan _ _ _ _ | refuse _ _ _ _ | ignore _ _ _ _
  | register _ | watching _ | receive _ _ _ | exit _ => exact hS.frame rfl rfl rfl
  | load content edited hp hc =>
      have hnone : s.old = none := hI.at hp
      intro old hold
      rw [hnone] at hold
      cases hold
  | accept σ content origin_cfg hp hf =>
      have hfirst : s.first = content := hI.at hp
      intro old hold
      cases hold
      obtain ⟨text, ht, hc⟩ := Config.from_file_ok.mp hf
      exact ⟨text, hfirst.trans ht, .start ⟨σ, origin_cfg, hc, rfl⟩⟩
  | update σ content old new hp hf ho =>
      intro old' hold
      cases hold
      obtain ⟨text, ht, hr⟩ := hS old ho
      obtain ⟨text', -, hc⟩ := Config.from_file_ok.mp hf
      have hstep : (supervisor toml digest args text).step ⟨old, s.sent, .recv, none⟩
          (.rescan σ text') =
            some ⟨new, s.sent ++ (calculate_events old new).getD [], .recv, none⟩ := by
        simp [supervisor, Supervisor.step, hc]
      exact ⟨text, ht, hr.leads (.of_step hstep)⟩

/-- **What the watcher sends is what the watcher of the supervisor sends**, for the text that was
    read first. -/
theorem watcher_supervised (digest : Bytes → Digest) (args : Cli)
    {tr : List (Watcher × WatcherAct Seed)} {s : Watcher} (r : (watcher toml).Run tr s) :
    Supervised toml digest args s := by
  have h : s.Coherent toml ∧ Supervised toml digest args s := by
    refine r.invariant (I := fun s => s.Coherent toml ∧ Supervised toml digest args s) ?_ ?_
    · rintro s ⟨file, first, rfl⟩
      exact ⟨rfl, fun _ h => by cases h⟩
    · rintro s a s' ⟨hI, hS⟩ h
      have hs := watcher_cases h
      exact ⟨coherent_step hs hI, supervised_step hs hI hS⟩
  exact h.2

/-! ## 7. No edit is lost once the watcher is registered -/

/-- **Every other step keeps the waiting watcher up to date.** -/
theorem up_to_date_step (htoml : Config.SeedBlind toml) {s s' : Watcher} {a : WatcherAct Seed}
    (hs : WatcherStep toml s a s') (hI : s.Coherent toml) (ha : a ≠ .watching) :
    s'.UpToDate toml := by
  intro hw h0 σ c hc
  cases hs with
  | edit content noticed hn =>
      have hp : s.phase = .waiting := by
        cases h : s.phase <;> simp [h, WatcherPhase.touched] at hw ⊢
      rw [hp] at hn
      have hn' : noticed = true := hn
      rw [hn'] at h0
      cases h0
  | spurious hl => cases h0
  | coalesce h2 =>
      have h0' : s.pending - 1 = 0 := h0
      omega
  | watching hp => exact absurd rfl ha
  | ignore σ' content hp hf =>
      obtain ⟨-, hfile⟩ := hI.at hp
      obtain ⟨c', hc', -⟩ := Config.from_file_congr htoml σ' hc
      rw [hfile h0] at hf
      exact absurd hc' (hf c')
  | update σ' content old new hp hf ho =>
      obtain ⟨⟨old', ho', hsent⟩, hfile⟩ := hI.at hp
      rw [ho] at ho'
      cases ho'
      rw [hfile h0] at hf
      obtain ⟨c', hc', heq⟩ := Config.from_file_congr htoml σ hf
      have hcc : Config.from_file toml σ s.file = .ok c := hc
      rw [hcc] at hc'
      cases hc'
      exact ⟨new, rfl, heq, .rescan new hsent⟩
  | load _ _ _ _ | rescan _ _ _ _ | refuse _ _ _ _ | accept _ _ _ _ _ | register _ | receive _ _ _
  | exit _ => cases hw

/-- The return of `watcher.watch` does so exactly where no edit has gone unseen. -/
theorem up_to_date_watching (htoml : Config.SeedBlind toml) {s : Watcher}
    (hp : s.phase = .registering) (hI : s.Coherent toml) :
    Watcher.UpToDate toml { s with phase := .waiting } ↔ Unmissed toml s .watching := by
  obtain ⟨σ0, old, hfirst, ho, hsent⟩ := hI.at hp
  constructor
  · intro hU _ h0 σ c σ' c' hc hc'
    obtain ⟨old', ho', heq, -⟩ := hU rfl h0 σ' c' hc'
    have ho'' : s.old = some old' := ho'
    rw [ho] at ho''
    cases ho''
    obtain ⟨old', hold', heq'⟩ := Config.from_file_congr htoml σ0 hc
    rw [hfirst] at hold'
    cases hold'
    exact Config.eq_trans heq' heq
  · intro hU _ h0 σ c hc
    exact ⟨old, ho, hU rfl h0 σ0 old σ c hfirst hc, hsent⟩

/-- **The watcher is up to date wherever it waits, exactly if no edit went unseen before it was
    registered**: in every state of a run, precisely where the file, if nothing is pending, is
    invalid or says what `new` read, at the moment `watcher.watch` returns. -/
theorem up_to_date_iff (htoml : Config.SeedBlind toml) {tr : List (Watcher × WatcherAct Seed)}
    {s : Watcher} (r : (watcher toml).Run tr s) :
    Throughout (Watcher.UpToDate toml) tr s ↔ Guarded (Unmissed toml) tr := by
  refine r.throughout_iff (I := Watcher.Coherent toml) ?_ ?_ ?_
  · rintro s ⟨file, first, rfl⟩
    exact ⟨rfl, fun hw => by cases hw⟩
  · intro s a s' hI h
    exact coherent_step (watcher_cases h) hI
  · intro s a s' hI _ h
    have hs := watcher_cases h
    by_cases ha : a = .watching
    · subst ha
      cases hs with
      | watching hp => exact up_to_date_watching htoml hp hI
    · exact iff_of_true (up_to_date_step htoml hs hI ha) fun he => absurd he ha

end

/-! The port of the service is edited before the watcher is registered: nobody ever reads it. -/

/-- The watcher comes to wait, while the file says something else and nothing is pending. -/
theorem edit_lost : ¬ ∀ tr s, (watcher webToml).Run tr s → s.UpToDate webToml := by
  intro h
  have r : ∃ tr old c, (watcher webToml).Run tr
      ⟨some (webText "0.0.0.0:81"), .waiting, 0, some (webText "0.0.0.0:80"), some old,
        [.general old]⟩ ∧
      Config.from_file webToml () (some (webText "0.0.0.0:81")) = .ok c ∧ old.eq c = false := by
    refine ⟨_, _, _, .step (a := .watching) (.step (a := .register)
      (.step (a := .edit (some (webText "0.0.0.0:81")) false) (.step (a := .parse ())
        (.step (a := .read (some (webText "0.0.0.0:80")))
          (.start ⟨some (webText "0.0.0.0:80"), none, rfl⟩) rfl) rfl) rfl) rfl) rfl, rfl, rfl⟩
  obtain ⟨tr, old, c, r, hc, hne⟩ := r
  obtain ⟨old', ho, heq, -⟩ := h tr _ r rfl rfl () c hc
  cases ho
  rw [hne] at heq
  cases heq

/-- An edit while the watcher waits is noticed, read and sent. -/
theorem up_to_date_iff_web : ∃ tr old sent, (watcher webToml).Run tr
    ⟨some (webText "0.0.0.0:81"), .waiting, 0, some (webText "0.0.0.0:80"), some old, sent⟩ ∧
      Throughout (Watcher.UpToDate webToml) tr
        ⟨some (webText "0.0.0.0:81"), .waiting, 0, some (webText "0.0.0.0:80"), some old, sent⟩ := by
  have r : ∃ tr old sent, (watcher webToml).Run tr
      ⟨some (webText "0.0.0.0:81"), .waiting, 0, some (webText "0.0.0.0:80"), some old, sent⟩ ∧
      Guarded (Unmissed webToml) tr := by
    refine ⟨_, _, _, .step (a := .parse ()) (.step (a := .read (some (webText "0.0.0.0:81")))
      (.step (a := .receive) (.step (a := .edit (some (webText "0.0.0.0:81")) true)
        (.step (a := .watching) (.step (a := .register) (.step (a := .parse ())
          (.step (a := .read (some (webText "0.0.0.0:80")))
            (.start ⟨some (webText "0.0.0.0:80"), none, rfl⟩) rfl) rfl) rfl) rfl) rfl) rfl) rfl)
      rfl, ?_⟩
    simp only [guarded_cons]
    have hno : ∀ s (a : WatcherAct Unit), a ≠ .watching → Unmissed webToml s a :=
      fun _ _ ha he => absurd he ha
    exact ⟨hno _ _ (by simp), hno _ _ (by simp), hno _ _ (by simp), hno _ _ (by simp),
      fun _ _ => .refl webToml_seedBlind _, hno _ _ (by simp), hno _ _ (by simp), hno _ _ (by simp),
      by simp [Guarded]⟩
  obtain ⟨tr, old, sent, r, hg⟩ := r
  exact ⟨tr, old, sent, r, (up_to_date_iff webToml_seedBlind r).mpr hg⟩

end Penetrate
