import BuildSupervisor.Proofs.Config.Document
import BuildSupervisor.Proofs.Config.Overriding
/-!
# Layers of configuration

The configuration of a run is settled field by field: an option comes before a variable, a variable
before the configuration file, and the file before what holds where nothing is configured
(`Arguments.Settles`).  Options do not spare a run the variables under them: one that cannot be read
ends it, whatever the options say.
-/

namespace BuildSupervisor

open ConfigField (checked ordered)

/-- What an option says of a field. -/
def Options.given? (o : Options) : (f : ConfigField) → Option f.Value
  | .completionDelayMs => o.delayMs
  | .watchdogTimeoutSecs => o.watchdogSecs
  | .dialect => o.dialect
  | .reentry | .pathVariable | .normalizeNewlines => .none
  | .toolchainName | .toolchainDirs | .homeDir => .none

theorem Options.get_override (o : Options) (c : Config) (f : ConfigField) :
    (o.override c).get f = (o.given? f).getD (c.get f) := by
  cases f <;> rfl

namespace Config

/-- What reading the variables comes to. -/
structure Overriding (env : Environment) (c : Config) (r : Config × Option ConfigError) : Prop where
  succeeds : r.2 = none ↔ ∀ f ∈ checked, f.IsSound env
  /-- Each field has the value of its variable, or the one it had. -/
  overrides : r.2 = none → Overrides env ordered c r.1
  /-- The first variable that cannot be read is named, and only fields before it have changed. -/
  stops : ∀ e, r.2 = some e → ∃ front f back name s, checked = front ++ f :: back ∧
    (∀ g ∈ front, g.IsSound env) ∧ f.IsBad env name s ∧ e = .invalidValue name s ∧
    Overrides env front c r.1

theorem overriding (env : Environment) (c : Config) : Overriding env c (applyVariables env c) := by
  rcases applyVariables_reads env c with ⟨sound, read, all⟩ | ⟨front, f, back, split, stops⟩
  · refine ⟨by simp only [read, true_iff]; exact sound, fun _ => all, fun e stopped => ?_⟩
    cases read.symm.trans stopped
  · obtain ⟨name, s, bad, stopped⟩ := stops.error
    refine ⟨⟨fun read => ?_, fun sound => ?_⟩, fun read => ?_, fun e stopped' => ?_⟩
    · cases read.symm.trans stopped
    · exact absurd (sound f (split ▸ by simp)) bad.not_isSound
    · cases read.symm.trans stopped
    · obtain rfl := Option.some_inj.mp (stopped'.symm.trans stopped)
      exact ⟨front, f, back, name, s, split, stops.sound, bad, rfl, stops.overrides⟩

end Config

theorem Config.ofFile_eq_ok {fs : FileSystem} {missing c : Config} {path : Path}
    (h : Config.ofFile fs missing path = .ok c) :
    ∃ text root, fs.readText path = .ok text ∧ Toml.ofText? text = some root ∧
      (Codec.config missing).decode Rules.table root.toJson = some c := by
  unfold ofFile at h
  split at h
  · cases h
  · next text read =>
    unfold ofToml at h
    split at h
    · cases h
    · next root parsed =>
      split at h
      · next decoded =>
        cases h
        exact ⟨text, root, read, parsed, decoded⟩
      · cases h

namespace Arguments

variable {a : Arguments} {fs : FileSystem} {env : Environment}

/-- A configuration file is asked for and cannot be loaded. -/
def FileFails (a : Arguments) (fs : FileSystem) (env : Environment) : Prop :=
  ∃ path e, a.options.config = some path ∧
    Config.ofFile fs (Config.defaultIn env) path = .error e

/-- The document in the configuration file, if one is asked for. -/
def document? (a : Arguments) (fs : FileSystem) : Option Json :=
  a.options.config.bind fun path =>
    (fs.readText path).toOption.bind fun text => (Toml.ofText? text).map Toml.Node.toJson

/-- Something stands for a field in the configuration file. -/
def Writes (a : Arguments) (fs : FileSystem) (f : ConfigField) (v : Json) : Prop :=
  ∃ root, a.document? fs = some root ∧ ConfigField.StandsAt f.place root v

/-- Where a field gets its value from. -/
inductive Settles (a : Arguments) (fs : FileSystem) (env : Environment) (f : ConfigField) :
    f.Value → Prop
  | option {v} (given : a.options.given? f = some v) : Settles a fs env f v
  | environment {v} (bare : a.options.given? f = none) (told : f.Says env v) : Settles a fs env f v
  | file {v w} (bare : a.options.given? f = none) (unset : ¬ f.IsSet env)
    (written : a.Writes fs f w) (read : f.codec.decode Rules.table w = some v) :
    Settles a fs env f v
  | missing (bare : a.options.given? f = none) (unset : ¬ f.IsSet env)
    (unwritten : ∀ w, ¬ a.Writes fs f w) : Settles a fs env f ((Config.defaultIn env).get f)

/-- The configuration before variables and options is what the file says, if there is one. -/
theorem fills_baseConfig {c : Config} (h : a.baseConfig fs env = .ok c) (f : ConfigField) :
    Codec.Fills (f.codec.decode Rules.table) (a.Writes fs f) ((Config.defaultIn env).get f)
      (c.get f) := by
  unfold baseConfig at h
  cases asked : a.options.config with
  | none =>
    simp only [asked] at h
    cases h
    have unwritten (v : Json) : ¬ a.Writes fs f v := by simp [Writes, document?, asked]
    exact ⟨fun v written => absurd written (unwritten v), fun _ => rfl⟩
  | some path =>
    simp only [asked] at h
    split at h
    · next base loaded =>
      cases h
      obtain ⟨text, root, read, parsed, decoded⟩ := Config.ofFile_eq_ok loaded
      have written : a.Writes fs f = ConfigField.StandsAt f.place root.toJson := by
        funext v
        simp [Writes, document?, asked, read, parsed, Except.toOption]
      rw [written]
      exact Config.readFrom_of_decode rfl decoded f
    · cases h

theorem baseConfig_eq_error_iff : (∃ e, a.baseConfig fs env = .error e) ↔ a.FileFails fs env := by
  unfold baseConfig FileFails
  cases a.options.config with
  | none => simp
  | some path =>
    cases loaded : Config.ofFile fs (Config.defaultIn env) path <;> simp [loaded]

theorem config_eq_error_iff :
    (∃ e, a.config fs env = .error e) ↔
      a.FileFails fs env ∨ ∃ f ∈ checked, ¬ f.IsSound env := by
  rw [← baseConfig_eq_error_iff, config]
  cases base : a.baseConfig fs env with
  | error e => simp
  | ok c =>
    have read := (Config.overriding env c).succeeds
    dsimp only
    generalize Config.applyVariables env c = r at read ⊢
    obtain ⟨c', _ | e⟩ := r
    · simpa using read
    · simpa using read

/-- A field that has gone through file and variables has come to where it is settled, but for the
    options. -/
theorem settles_iff_getD {base c : Config} {f : ConfigField}
    (file : Codec.Fills (f.codec.decode Rules.table) (a.Writes fs f)
      ((Config.defaultIn env).get f) (base.get f))
    (layer : Config.Overrides env ordered base c) (v : f.Value) :
    a.Settles fs env f v ↔ (a.options.given? f).getD (c.get f) = v := by
  obtain ⟨told, untold⟩ := layer.get f
  constructor
  · rintro (given | ⟨bare, saying⟩ | ⟨bare, unset, written, decoded⟩ | ⟨bare, unset, unwritten⟩)
    · rw [given, Option.getD_some]
    · rw [bare, Option.getD_none, (told saying.isSet v).mp saying]
    · rw [bare, Option.getD_none, untold unset]
      exact Option.some_inj.mp ((file.present _ written).symm.trans decoded)
    · rw [bare, Option.getD_none, untold unset, file.absent unwritten]
  · rintro rfl
    cases given : a.options.given? f with
    | some v => exact .option given
    | none =>
      rw [Option.getD_none]
      by_cases set : f.IsSet env
      · exact .environment given ((told set _).mpr rfl)
      · rw [untold set]
        by_cases written : ∃ w, a.Writes fs f w
        · obtain ⟨w, written⟩ := written
          exact .file given set written (file.present w written)
        · have unwritten := not_exists.mp written
          exact file.absent unwritten ▸ .missing given set unwritten

theorem settles_iff {c : Config} (h : a.config fs env = .ok c) (f : ConfigField) (v : f.Value) :
    a.Settles fs env f v ↔ c.get f = v := by
  unfold config at h
  cases based : a.baseConfig fs env with
  | error e =>
    simp only [based] at h
    cases h
  | ok base =>
    simp only [based] at h
    have read := Config.overriding env base
    generalize Config.applyVariables env base = r at h read
    obtain ⟨c', _ | e⟩ := r
    · cases h
      rw [Options.get_override]
      exact settles_iff_getD (fills_baseConfig based f) (read.overrides rfl) v
    · cases h

/-- What is said of the configuration of a run. -/
structure Layered (a : Arguments) (fs : FileSystem) (env : Environment) : Prop where
  /-- Options do not spare a run the file or the variables. -/
  fails : (∃ e, a.config fs env = .error e) ↔
    a.FileFails fs env ∨ ∃ f ∈ checked, ¬ f.IsSound env
  settles : ∀ c, a.config fs env = .ok c → ∀ f v, a.Settles fs env f v ↔ c.get f = v

/-- Variables override a configuration field by field, and configurations come in layers. -/
theorem config_layered :
    (∀ env c, Config.Overriding env c (Config.applyVariables env c)) ∧
      ∀ a fs env, Arguments.Layered a fs env :=
  ⟨Config.overriding, fun _ _ _ => ⟨config_eq_error_iff, fun _ h => settles_iff h⟩⟩

/-- Variables; the one for the search path is no text. -/
def layerVariables : Environment :=
  .ofList [("BUILD_SESSION_COMPLETION_DELAY_MS", Utf8.encode "\t+7 "),
    ("BUILD_SESSION_WATCHDOG_TIMEOUT_SECS", Utf8.encode "8"),
    ("BUILD_SESSION_PATH_VARIABLE", [255]),
    ("BUILD_SESSION_TOOLCHAIN_DIRS", Utf8.encode "/a::/b")]

/-- A configuration file that these variables override in part. -/
def layerFiles : FileSystem :=
  ⟨[[]], [([Utf8.encode "s.toml"], Utf8.encode
    "completion_delay_ms = 5\npath_variable = 'P'\n[toolchain]\nname = 't'\ndirs = ['/c']\n")], []⟩

/-- Options that name the file, and override a variable. -/
def layerArguments : Arguments where
  target := .ofText "a.c"
  options := { Options.none with watchdogSecs := some 9, config := some (.ofText "s.toml") }
  words := []

theorem layerArguments_settle : ∃ c,
    layerArguments.config layerFiles layerVariables = .ok c ∧
      layerArguments.Settles layerFiles layerVariables .watchdogTimeoutSecs 9 ∧
      layerArguments.Settles layerFiles layerVariables .completionDelayMs 7 ∧
      layerArguments.Settles layerFiles layerVariables .toolchainDirs [.ofText "/a", .ofText "/b"] ∧
      layerArguments.Settles layerFiles layerVariables .pathVariable "P" ∧
      layerArguments.Settles layerFiles layerVariables .toolchainName "t" ∧
      layerArguments.Settles layerFiles layerVariables .reentry .replace := by
  have read : (layerArguments.config layerFiles layerVariables).toOption = some
      ⟨7, 9, .replace, .gcc, "P", false, ⟨"t", [.ofText "/a", .ofText "/b"]⟩, none⟩ := by
    decide +kernel
  obtain ⟨c, settled⟩ : ∃ c, layerArguments.config layerFiles layerVariables = .ok c := by
    cases settled : layerArguments.config layerFiles layerVariables with
    | ok c => exact ⟨c, rfl⟩
    | error e =>
      rw [settled] at read
      cases read
  rw [settled] at read
  obtain rfl := Option.some_inj.mp read
  have settles := (config_layered.2 layerArguments layerFiles layerVariables).settles _ settled
  exact ⟨_, settled, (settles _ _).mpr rfl, (settles _ _).mpr rfl, (settles _ _).mpr rfl,
    (settles _ _).mpr rfl, (settles _ _).mpr rfl, (settles _ _).mpr rfl⟩

end Arguments

end BuildSupervisor
