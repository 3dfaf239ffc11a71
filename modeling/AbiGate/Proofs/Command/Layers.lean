/-
# Settings in layers

The settings of a check come from the command line, from a file, and from the defaults, and each
setting by itself is what the first of these gives for it. Only the file can be at fault.

Key definitions: `Layer`, `SettingsFile`, `FaultyFile`, `Setting.OnCommandLine`,
`Setting.InFile`, `LayeredSettings`.
Key theorems: `faultyFile_or_document`, `settingsFile_iff`, `Setting.of_override`,
`Setting.of_eq_of_document`, `settings_layered`.
-/
import AbiGate.Command.Configuration
import AbiGate.Proofs.Collection.Protocol
import AbiGate.Proofs.Command.CommandLine
import AbiGate.Proofs.Command.Milestones
import AbiGate.Proofs.Document.Settings
import AbiGate.Tool.Machine

namespace AbiGate

/-! ### The layers -/

/-- What the upper layer gives, or else what comes from below. -/
def Layer {α : Type} (upper below : α → Prop) (value : α) : Prop :=
  upper value ∨ (∀ v, ¬upper v) ∧ below value

section

variable (arguments : List String) (k : Machine)

/-- The file that the settings come from: the one that the command line names, whatever it is, or
else the usual one in the repository, if it is a file. -/
def SettingsFile : Path → Prop :=
  Layer (fun file => Arguments.Gives arguments .config file.text) fun file =>
    ∃ repository : Path,
      Layer (fun path => Arguments.Gives arguments .repo path.text) (· = ⟨"."⟩) repository ∧
      file = repository.join ⟨"abiguard.toml"⟩ ∧ (Machine.isFile file k).1 = true

/-- The document in a file. -/
def DocumentAt (file : Path) (d : Toml) : Prop :=
  ∃ text, (Machine.files.readText file k).1 = .ok text ∧ Toml.read? text = some d

/-- What is wrong with a file of settings. -/
inductive FaultyFile (file : Path) : ConfigurationError → Prop
  | unreadable (fault : FileFault) (h : (Machine.files.readText file k).1 = .error fault) :
      FaultyFile file (.unreadable file fault)
  | notToml (text : String) (hread : (Machine.files.readText file k).1 = .ok text)
      (h : Toml.read? text = none) : FaultyFile file (.invalid file)
  | malformed (d : Toml) (hdocument : DocumentAt k file d) (h : d.Malformed) :
      FaultyFile file (.invalid file)

end

namespace Setting

/-- The command line gives a setting a value. Most settings cannot be given there, and the removals
can be given one value only. -/
def OnCommandLine : (x : Setting) → (arguments : List String) → x.Value → Prop
  | removals, arguments, choice => choice = .exempt ∧ "--allow-removals" ∈ arguments
  | remote, arguments, text => Arguments.Gives arguments .remote text
  | reference, arguments, text => Arguments.Gives arguments .baseline text
  | strategy, arguments, choice => Arguments.Gives arguments .strategy choice.word
  | contractsDir, _, _ | sourceExtension, _, _ | marker, _, _ | keying, _, _ | git, _, _
  | forge, _, _ => False

/-- The file gives a setting a value. -/
def InFile (x : Setting) (arguments : List String) (k : Machine) (value : x.Value) : Prop :=
  ∃ file d, SettingsFile arguments k file ∧ DocumentAt k file d ∧ x.GivenIn d value

/-- What the setting is without the command line. -/
def BelowCommandLine (x : Setting) (arguments : List String) (k : Machine) : x.Value → Prop :=
  Layer (x.InFile arguments k) (· = x.default)

end Setting

/-- Each setting comes from the first layer that gives it. -/
structure LayeredSettings (arguments : List String) (k : Machine) (s : Settings) : Prop where
  layered : ∀ x : Setting,
    Layer (x.OnCommandLine arguments) (x.BelowCommandLine arguments k) (x.of s)
  /-- The flag for removals only ever exempts what would require a bump. -/
  removals : ∀ below, Setting.removals.BelowCommandLine arguments k below →
    s.policy.removals ≠ below →
      "--allow-removals" ∈ arguments ∧ below = .requireBump ∧ s.policy.removals = .exempt
  /-- Without a remote nothing is fetched, and the revision is the reference alone. -/
  unfetched : s.baseline.remote = "" → s.baseline.baseline.revision = s.baseline.reference ∧
    ∀ {σ : Type} (c : Collaborators (StateM σ)) (w : σ) remote reference answer,
      .fetch remote reference answer ∉ Request.pair.log c s.baseline w

/-! ### Reading a file -/

theorem Toml.isRecord_of_read? {text : String} {d : Toml} (h : read? text = some d) :
    d.IsRecord := by
  obtain ⟨tokens, -, hrest⟩ := Option.bind_eq_some_iff.1 h
  obtain ⟨reader, -, hrest⟩ := Option.bind_eq_some_iff.1 hrest
  obtain ⟨entries, -, hrest⟩ := Option.bind_eq_some_iff.1 hrest
  cases hrest
  exact .table _

theorem Settings.ofText?_eq_none_iff {text : String} :
    ofText? text = none ↔
      Toml.read? text = none ∨ ∃ d, Toml.read? text = some d ∧ d.Malformed := by
  unfold ofText?
  cases hread : Toml.read? text with
  | none => simp
  | some d => simp [Settings.ofDocument?_eq_none_iff (Toml.isRecord_of_read? hread)]

section

variable {file : Path} {k : Machine}

theorem outcome_loadSettings_of_ok {text : String}
    (h : (Machine.files.readText file k).1 = .ok text) :
    outcome (loadSettings Machine.surroundings file) k =
      ((Settings.ofText? text).elim (.error (.invalid file)) .ok, k) := by
  refine (outcome_lift_bind (Machine.files.readText file) _ k).trans ?_
  rw [h]
  cases htext : Settings.ofText? text <;> simp only [htext] <;> rfl

theorem outcome_loadSettings_of_faultyFile {e : ConfigurationError} (h : FaultyFile k file e) :
    outcome (loadSettings Machine.surroundings file) k = (.error e, k) := by
  cases h with
  | unreadable fault h =>
    refine (outcome_lift_bind (Machine.files.readText file) _ k).trans ?_
    rw [h]
    rfl
  | notToml text hread h =>
    rw [outcome_loadSettings_of_ok hread, Settings.ofText?_eq_none_iff.2 (.inl h)]
    rfl
  | malformed d hdocument h =>
    obtain ⟨text, hread, htoml⟩ := hdocument
    rw [outcome_loadSettings_of_ok hread, Settings.ofText?_eq_none_iff.2 (.inr ⟨d, htoml, h⟩)]
    rfl

theorem outcome_loadSettings_of_document {d : Toml} {s : Settings} (hdocument : DocumentAt k file d)
    (h : Settings.ofDocument? Toml.documents d = some s) :
    outcome (loadSettings Machine.surroundings file) k = (.ok s, k) := by
  obtain ⟨text, hread, htoml⟩ := hdocument
  have htext : Settings.ofText? text = some s := by
    rw [Settings.ofText?, htoml]
    exact h
  rw [outcome_loadSettings_of_ok hread, htext]
  rfl

/-- Either something is wrong with a file, or it has a document that settings are read from. -/
theorem faultyFile_or_document (file : Path) (k : Machine) :
    (∃ e, FaultyFile k file e) ∨
      ∃ d s, DocumentAt k file d ∧ Settings.ofDocument? Toml.documents d = some s := by
  cases hread : (Machine.files.readText file k).1 with
  | error fault => exact .inl ⟨_, .unreadable fault hread⟩
  | ok text =>
    cases htoml : Toml.read? text with
    | none => exact .inl ⟨_, .notToml text hread htoml⟩
    | some d =>
      have hdocument : DocumentAt k file d := ⟨text, hread, htoml⟩
      cases hsettings : Settings.ofDocument? Toml.documents d with
      | none =>
        rw [Settings.ofDocument?_eq_none_iff (Toml.isRecord_of_read? htoml)] at hsettings
        exact .inl ⟨_, .malformed d hdocument hsettings⟩
      | some s => exact .inr ⟨d, s, hdocument, hsettings⟩

end

/-! ### Finding the file -/

section

variable {arguments : List String} {a : Arguments} {k : Machine}

/-- The file that the arguments lead to, if there is one. -/
def Arguments.file? (a : Arguments) (k : Machine) : Option Path :=
  (configurationFile Machine.surroundings a k).1

theorem Arguments.file?_of_config_eq_some {file : Path} (h : a.config = some file) :
    a.file? k = some file := by
  rw [file?, configurationFile, h]
  rfl

theorem Arguments.file?_of_config_eq_none (h : a.config = none) :
    a.file? k = if (Machine.isFile (a.repository.join configurationName) k).1 = true then
      some (a.repository.join configurationName) else none := by
  rw [file?, configurationFile, h]
  rfl

/-- The upper layer as an option. -/
theorem layer_iff {α : Type} {upper below : α → Prop} {o : Option α}
    (h : ∀ v, o = some v ↔ upper v) {value : α} :
    Layer upper below value ↔ o = some value ∨ o = none ∧ below value := by
  unfold Layer
  rw [Option.eq_none_iff_forall_ne_some]
  simp only [ne_eq, h]

theorem layer_repository_iff (h : Arguments.SaidBy arguments a) {path : Path} :
    Layer (fun path : Path => Arguments.Gives arguments .repo path.text) (· = ⟨"."⟩) path ↔
      path = a.repository := by
  constructor
  · rintro (hgives | ⟨hnone, rfl⟩)
    · exact (h.repository path.text hgives).symm
    · exact (h.usualRepository fun value => hnone ⟨value⟩).symm
  · rintro rfl
    by_cases hgives : ∃ value, Arguments.Gives arguments .repo value
    · obtain ⟨value, hgives⟩ := hgives
      rw [h.repository value hgives]
      exact .inl hgives
    · have hnone (value : String) : ¬Arguments.Gives arguments .repo value := fun hvalue =>
        hgives ⟨value, hvalue⟩
      exact .inr ⟨fun path => hnone path.text, h.usualRepository hnone⟩

theorem settingsFile_iff (h : Arguments.SaidBy arguments a) {file : Path} :
    SettingsFile arguments k file ↔ a.file? k = some file := by
  rw [SettingsFile, layer_iff h.config]
  simp only [layer_repository_iff h, exists_eq_left]
  cases hconfig : a.config with
  | some explicit => simp [Arguments.file?_of_config_eq_some hconfig]
  | none =>
    rw [Arguments.file?_of_config_eq_none hconfig, configurationName,
      Option.ite_none_right_eq_some, Option.some_inj]
    simp only [reduceCtorEq, false_or, true_and]
    constructor
    · rintro ⟨rfl, husual⟩
      exact ⟨husual, rfl⟩
    · rintro ⟨husual, rfl⟩
      exact ⟨rfl, husual⟩

/-- Looking for the file changes nothing. -/
theorem outcome_resolveSettings (a : Arguments) (k : Machine) :
    outcome (resolveSettings Machine.surroundings a) k =
      outcome
        (match a.file? k with
        | some file => do return (← loadSettings Machine.surroundings file).override a
        | none => return Settings.override {} a) k := by
  refine (outcome_lift_bind (configurationFile Machine.surroundings a) _ k).trans ?_
  rw [snd_configurationFile]
  rfl

/-- What the command line says of a setting. -/
def Setting.flag? : (x : Setting) → (a : Arguments) → Option x.Value
  | removals, a => if a.allowRemovals then some .exempt else none
  | remote, a => a.remote
  | reference, a => a.baseline
  | strategy, a => a.strategy
  | contractsDir, _ | sourceExtension, _ | marker, _ | keying, _ | git, _ | forge, _ => none

theorem Setting.flag?_eq_some_iff (h : Arguments.SaidBy arguments a) (x : Setting)
    (value : x.Value) : x.flag? a = some value ↔ x.OnCommandLine arguments value := by
  cases x with
  | removals =>
    show (if a.allowRemovals = true then _ else _) = _ ↔ _ ∧ _
    rw [← h.allowRemovals]
    cases a.allowRemovals <;> simp [eq_comm]
  | remote => exact h.remote value
  | reference => exact h.baseline value
  | strategy => exact h.strategy value
  | contractsDir | sourceExtension | marker | keying | git | forge =>
    simp [flag?, OnCommandLine]

theorem Setting.of_override (x : Setting) (s : Settings) (a : Arguments) :
    x.of (s.override a) = (x.flag? a).getD (x.of s) := by
  cases x with
  | removals => cases h : a.allowRemovals <;> simp [of, flag?, Settings.override, h]
  | _ => rfl

/-- The document in a file, if the file can be read. -/
def document? (k : Machine) (file : Path) : Option Toml :=
  match (Machine.files.readText file k).1 with
  | .ok text => Toml.read? text
  | .error _ => none

theorem document?_eq_some_iff {file : Path} {d : Toml} :
    document? k file = some d ↔ DocumentAt k file d := by
  unfold document? DocumentAt
  cases (Machine.files.readText file k).1 <;> simp

/-- What the file says of a setting. -/
def Setting.inFile? (x : Setting) (a : Arguments) (k : Machine) : Option x.Value := do
  x.read? (← x.given? (← document? k (← a.file? k)))

theorem Setting.inFile?_eq_some_iff (h : Arguments.SaidBy arguments a) (x : Setting)
    (value : x.Value) : x.inFile? a k = some value ↔ x.InFile arguments k value := by
  simp [inFile?, Option.bind_eq_some_iff, InFile, settingsFile_iff h, document?_eq_some_iff,
    GivenIn, read?_eq_some_iff]

/-- What the setting is without the command line. -/
theorem Setting.belowCommandLine_iff (h : Arguments.SaidBy arguments a) (x : Setting)
    (value : x.Value) :
    x.BelowCommandLine arguments k value ↔ value = (x.inFile? a k).getD x.default := by
  rw [BelowCommandLine, layer_iff (x.inFile?_eq_some_iff h)]
  cases x.inFile? a k <;> simp [eq_comm]

/-- Settings that are read from the file have what it gives, or else the defaults. -/
theorem Setting.of_eq_of_document {file : Path} {d : Toml} {s : Settings}
    (hfile : a.file? k = some file) (hdocument : DocumentAt k file d)
    (h : Settings.ofDocument? Toml.documents d = some s) (x : Setting) :
    x.of s = (x.inFile? a k).getD x.default := by
  have hgiven : x.inFile? a k = (x.given? d).bind x.read? := by
    simp [inFile?, hfile, document?_eq_some_iff.2 hdocument]
  rw [hgiven]
  rcases (Settings.ofDocument?_eq_some_iff.1 h).2.2 x with ⟨t, ht, hspells⟩ | ⟨hnone, hdefault⟩
  · rw [ht, Option.bind_some, read?_eq_some_iff.2 hspells, Option.getD_some]
  · rw [hnone, hdefault, Option.bind_none, Option.getD_none]

end

/-! ### Without a remote -/

theorem fetch_not_mem_script {settings : BaselineSettings} (h : settings.baseline.remote = none)
    (original : String) (place : Path) (remote reference : String) :
    .fetch remote reference ∉ (Request.pair.script settings original place).steps := by
  rw [Request.script, Baseline.script, h]
  cases settings.strategy <;>
    simp [Script.steps, Script.after, Strategy.script, buildSteps]

theorem fetch_not_mem_log {σ : Type} {settings : BaselineSettings}
    (h : settings.baseline.remote = none) (c : Collaborators (StateM σ)) (w : σ)
    (remote reference : String) (answer : Except CollectionError Unit) :
    .fetch remote reference answer ∉ Request.pair.log c settings w := by
  obtain ⟨events, hlog, original, place, calls, rfl, hcalls⟩ :=
    playsClosed_perform c settings .pair w []
  have hlog' : Request.pair.log c settings w = calls ++ closing calls := hlog
  rw [hlog', List.mem_append, not_or]
  constructor
  · intro hmem
    refine hcalls.forall_mem (P := (· ≠ .fetch remote reference answer)) ?_ _ hmem rfl
    rintro step hstep _ _ htaken rfl
    cases htaken
    exact fetch_not_mem_script h original place remote reference hstep
  · unfold closing
    split <;> simp

/-! ### All settings -/

section

variable {arguments : List String} {a : Arguments} {k : Machine}

/-- Settings that are what the file says, or else the defaults, come in layers with what the command
line says above them. -/
theorem layeredSettings_override (h : Arguments.SaidBy arguments a) {s : Settings}
    (hbelow : ∀ x : Setting, x.of s = (x.inFile? a k).getD x.default) :
    LayeredSettings arguments k (s.override a) where
  layered x := by
    rw [layer_iff (x.flag?_eq_some_iff h), x.of_override]
    cases hflag : x.flag? a with
    | some value => exact .inl rfl
    | none => exact .inr ⟨rfl, (x.belowCommandLine_iff h _).2 (hbelow x)⟩
  removals below hlow hne := by
    obtain rfl : below = s.policy.removals :=
      ((Setting.removals.belowCommandLine_iff h below).1 hlow).trans (hbelow .removals).symm
    cases hflag : a.allowRemovals with
    | false => simp [Settings.override, hflag] at hne
    | true =>
      refine ⟨h.allowRemovals.1 hflag, ?_, by simp [Settings.override, hflag]⟩
      cases hold : s.policy.removals with
      | requireBump => rfl
      | exempt => simp [Settings.override, hflag, hold] at hne
  unfetched hremote := by
    have hlocal : (s.override a).baseline.baseline.remote = none := by
      simp [BaselineSettings.baseline, hremote]
    refine ⟨?_, fun c w => fetch_not_mem_log hlocal c w⟩
    rw [Baseline.revision, hlocal]
    rfl

/-- **Settings come in layers.** Whatever the command line says and the files hold, there are no
settings exactly if something is wrong with the file, and else each of them comes from the first
layer that gives it. Nothing is changed by that. -/
theorem settings_layered (h : Arguments.read arguments = .ok a) (k : Machine) :
    ∃ result, outcome (resolveSettings Machine.surroundings a) k = (result, k) ∧
      (∀ e, result = .error e ↔ ∃ file, SettingsFile arguments k file ∧ FaultyFile k file e) ∧
      ∀ s, result = .ok s → LayeredSettings arguments k s := by
  have hsaid := Arguments.saidBy_of_read h
  simp only [settingsFile_iff hsaid]
  rw [outcome_resolveSettings]
  cases hfile : a.file? k with
  | none =>
    refine ⟨_, rfl, fun e => by simp, ?_⟩
    rintro _ ⟨⟩
    exact layeredSettings_override hsaid fun x => by simp [Setting.inFile?, hfile, Setting.default]
  | some file =>
    simp only [Option.some.injEq, exists_eq_left']
    rcases faultyFile_or_document file k with ⟨e, hfaulty⟩ | ⟨d, s, hdocument, hsettings⟩
    · have hload := outcome_loadSettings_of_faultyFile hfaulty
      refine ⟨.error e, outcome_bind_of_error hload, fun e' => ⟨?_, fun hfaulty' => ?_⟩, ?_⟩
      · rintro ⟨⟩
        exact hfaulty
      · rw [outcome_loadSettings_of_faultyFile hfaulty'] at hload
        cases hload
        rfl
      · rintro _ ⟨⟩
    · have hload := outcome_loadSettings_of_document hdocument hsettings
      refine ⟨.ok (s.override a), (outcome_bind_of_ok hload).trans rfl,
        fun e => ⟨?_, fun hfaulty => ?_⟩, ?_⟩
      · rintro ⟨⟩
      · rw [outcome_loadSettings_of_faultyFile hfaulty] at hload
        cases hload
      · rintro _ ⟨⟩
        exact layeredSettings_override hsaid (Setting.of_eq_of_document hfile hdocument hsettings)

/-- A machine with a file of settings in the repository, which lies in the directory it starts
in. -/
def configuredMachine : Machine where
  disk := FileTree.empty.put ["kiosk", "abiguard.toml"] (.file (Text.Utf8.encode
    "extract.contracts_dir = \"src\"\n[baseline]\nremote = \"upstream\"\nreference = \"main\""))
  home := []
  worktree := ⟨"tree"⟩
  scratchAvailable := true
  programs := []
  rules := []
  trees := .empty

/-- An empty remote is a value, and so wins over the one in the file. -/
theorem settings_layered_configured :
    let arguments := ["--remote", "", "--repo=kiosk", "--allow-removals", "--baseline=release"]
    let s : Settings := {
      extraction := { contractsDir := ⟨"src"⟩ }
      policy := { removals := .exempt }
      baseline := { remote := "", reference := "release" } }
    ∃ a, Arguments.read arguments = .ok a ∧
      outcome (resolveSettings Machine.surroundings a) configuredMachine =
        (.ok s, configuredMachine) ∧
      LayeredSettings arguments configuredMachine s ∧
      s.baseline.remote = "" ∧ s.baseline.baseline.revision = "release" := by
  intro arguments s
  let a : Arguments := {
    repository := ⟨"kiosk"⟩, baseline := some "release", remote := some "", allowRemovals := true }
  have hread : Arguments.read arguments = .ok a := by decide +kernel
  have hs : (outcome (resolveSettings Machine.surroundings a) configuredMachine).1 = .ok s := by
    decide +kernel
  obtain ⟨result, houtcome, -, hlayered⟩ := settings_layered hread configuredMachine
  rw [houtcome] at hs
  obtain rfl : result = .ok s := hs
  have hsettings := hlayered s rfl
  exact ⟨a, hread, houtcome, hsettings, rfl, (hsettings.unfetched rfl).1⟩

end

end AbiGate
