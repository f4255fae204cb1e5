import BuildSupervisor.CommandLine.Settings
import BuildSupervisor.Proofs.Environment.SearchPath
import BuildSupervisor.Proofs.Text.Trimmed
import Mathlib.Data.List.Forall2
/-!
# Fields of a configuration

A configuration is nine fields, each of its own type; the name and the directories of a toolchain
are two of them.  `Config.get` and `Config.put` read and write one field and leave the others alone,
so that what is said of configurations can be said of one field after the other.

`ConfigField.Says` is what a variable says of its field, without an algorithm: four of them have to
be read, two are taken as they are, one is a switch, and one lists directories in octets.
-/

namespace BuildSupervisor

inductive ConfigField where
  | completionDelayMs
  | watchdogTimeoutSecs
  | reentry
  | dialect
  | pathVariable
  | normalizeNewlines
  | toolchainName
  | toolchainDirs
  | homeDir
  deriving DecidableEq, Repr

namespace ConfigField

/-- What a field holds. -/
abbrev Value : ConfigField → Type
  | .completionDelayMs | .watchdogTimeoutSecs => UInt64
  | .reentry => ReentryPolicy
  | .dialect => Dialect
  | .pathVariable | .toolchainName => String
  | .normalizeNewlines => Bool
  | .toolchainDirs => List Path
  | .homeDir => Option Path

/-- The fields whose variables have to be read, in order. -/
def checked : List ConfigField :=
  [.completionDelayMs, .watchdogTimeoutSecs, .reentry, .dialect]

/-- The fields whose variables may be any text, in order. -/
def unchecked : List ConfigField :=
  [.pathVariable, .normalizeNewlines, .toolchainName]

/-- The fields that have variables, in the order in which these are looked at. -/
def ordered : List ConfigField :=
  checked ++ unchecked ++ [.toolchainDirs]

/-- The variable for a field. -/
def variableName? : ConfigField → Option String
  | .completionDelayMs => some "BUILD_SESSION_COMPLETION_DELAY_MS"
  | .watchdogTimeoutSecs => some "BUILD_SESSION_WATCHDOG_TIMEOUT_SECS"
  | .reentry => some "BUILD_SESSION_REENTRY"
  | .dialect => some "BUILD_SESSION_DIALECT"
  | .pathVariable => some "BUILD_SESSION_PATH_VARIABLE"
  | .normalizeNewlines => some "BUILD_SESSION_NORMALIZE_NEWLINES"
  | .toolchainName => some "BUILD_SESSION_TOOLCHAIN_NAME"
  | .toolchainDirs => some "BUILD_SESSION_TOOLCHAIN_DIRS"
  | .homeDir => none

end ConfigField

namespace Config

def get (c : Config) : (f : ConfigField) → f.Value
  | .completionDelayMs => c.completionDelayMs
  | .watchdogTimeoutSecs => c.watchdogTimeoutSecs
  | .reentry => c.reentry
  | .dialect => c.dialect
  | .pathVariable => c.pathVariable
  | .normalizeNewlines => c.normalizeNewlines
  | .toolchainName => c.toolchain.name
  | .toolchainDirs => c.toolchain.dirs
  | .homeDir => c.homeDir

def put : (f : ConfigField) → f.Value → Config → Config
  | .completionDelayMs, ms, c => { c with completionDelayMs := ms }
  | .watchdogTimeoutSecs, secs, c => { c with watchdogTimeoutSecs := secs }
  | .reentry, policy, c => { c with reentry := policy }
  | .dialect, dialect, c => { c with dialect := dialect }
  | .pathVariable, name, c => { c with pathVariable := name }
  | .normalizeNewlines, on, c => { c with normalizeNewlines := on }
  | .toolchainName, name, c => { c with toolchain := { c.toolchain with name := name } }
  | .toolchainDirs, dirs, c => { c with toolchain := { c.toolchain with dirs := dirs } }
  | .homeDir, dir, c => { c with homeDir := dir }

@[simp] theorem get_put_same (f : ConfigField) (v : f.Value) (c : Config) :
    (c.put f v).get f = v := by
  cases f <;> rfl

theorem get_put_other {f g : ConfigField} (other : g ≠ f) (v : f.Value) (c : Config) :
    (c.put f v).get g = c.get g := by
  cases f <;> cases g <;> first | rfl | exact absurd rfl other

end Config

/-! ### What variables say -/

namespace ConfigField

/-- The words for a dialect. -/
def dialectWords : Dialect → List String
  | .gcc => ["gcc", "clang"]
  | .rustc => ["rustc", "cargo"]

/-- The octets are some directories with colons between them; those without a name are left out. -/
def Lists (octets : Bytes) (dirs : List Path) : Prop :=
  ∃ pieces, pieces ≠ [] ∧ (∀ piece ∈ pieces, SearchPath.colon ∉ piece) ∧
    octets = Text.join [SearchPath.colon] pieces ∧
    dirs = (pieces.filter fun piece => piece ≠ []).map Path.mk

/-- What a text stands for as the value of a field. -/
def Reads : (f : ConfigField) → String → f.Value → Prop
  | .completionDelayMs, s, n | .watchdogTimeoutSecs, s, n => Text.IsNumber s.toList n.toNat
  | .reentry, s, policy => Text.IsWord s.toList policy.name
  | .dialect, s, d => ∃ word ∈ dialectWords d, Text.IsWord s.toList word
  | .pathVariable, s, name | .toolchainName, s, name => name = s
  | .normalizeNewlines, s, on => on = true ↔ s.toList.map asciiLower = "true".toList ∨ s = "1"
  | .toolchainDirs, _, _ | .homeDir, _, _ => False

/-- The variable for a field is set.  One whose octets are no text counts as unset, except where
    they list directories. -/
def IsSet (env : Environment) : ConfigField → Prop
  | .toolchainDirs => ∃ octets, env.value "BUILD_SESSION_TOOLCHAIN_DIRS" = some octets
  | f => ∃ name s, f.variableName? = some name ∧ env.text? name = some s

/-- What the variable for a field says. -/
def Says (env : Environment) : (f : ConfigField) → f.Value → Prop
  | .toolchainDirs, dirs =>
    ∃ octets, env.value "BUILD_SESSION_TOOLCHAIN_DIRS" = some octets ∧ Lists octets dirs
  | f, v => ∃ name s, f.variableName? = some name ∧ env.text? name = some s ∧ f.Reads s v

theorem says_iff {env : Environment} {f : ConfigField} (text : f ≠ .toolchainDirs) {v : f.Value} :
    f.Says env v ↔
      ∃ name s, f.variableName? = some name ∧ env.text? name = some s ∧ f.Reads s v := by
  cases f with
  | toolchainDirs => exact absurd rfl text
  | _ => exact Iff.rfl

theorem isSet_iff {env : Environment} {f : ConfigField} (text : f ≠ .toolchainDirs) :
    f.IsSet env ↔ ∃ name s, f.variableName? = some name ∧ env.text? name = some s := by
  cases f with
  | toolchainDirs => exact absurd rfl text
  | _ => exact Iff.rfl

theorem Says.isSet {env : Environment} {f : ConfigField} {v : f.Value} (h : f.Says env v) :
    f.IsSet env := by
  by_cases text : f = .toolchainDirs
  · subst text
    obtain ⟨octets, value, -⟩ := h
    exact ⟨octets, value⟩
  · obtain ⟨name, s, named, text', -⟩ := (says_iff text).mp h
    exact (isSet_iff text).mpr ⟨name, s, named, text'⟩

theorem directories_eq_iff {octets : Bytes} {dirs : List Path} :
    Config.directories octets = dirs ↔ Lists octets dirs := by
  have kept (pieces : List Bytes) : (pieces.map Path.mk).filter (fun dir => !dir.isEmpty) =
      (pieces.filter fun piece => piece ≠ []).map Path.mk := by
    rw [List.filter_map]
    congr 2
    funext piece
    cases piece <;> rfl
  rw [Config.directories, SearchPath.entries, kept]
  constructor
  · rintro rfl
    exact ⟨Text.cut SearchPath.colon octets, Text.cut_ne_nil _ _, fun _ => Text.not_mem_of_mem_cut,
      (Text.join_cut _ _).symm, rfl⟩
  · rintro ⟨pieces, some_, clean, rfl, rfl⟩
    rw [Text.cut_join some_ clean]

/-! ### The settings of the program -/

/-- A setting reads a field. -/
structure IsSetBy (f : ConfigField) (setting : Config.Setting) : Prop where
  named : f.variableName? = some setting.name
  text : f ≠ .toolchainDirs
  apply_iff : ∀ s c c', setting.apply s c = some c' ↔ ∃ v, f.Reads s v ∧ c.put f v = c'

theorem isSetBy_parsed {f : ConfigField} {name : String} {read : String → Option f.Value}
    (named : f.variableName? = some name) (text : f ≠ .toolchainDirs)
    (reads : ∀ s v, read (String.ofList (Text.trim s.toList)) = some v ↔ f.Reads s v) :
    f.IsSetBy (Config.parsed name read (Config.put f)) where
  named := named
  text := text
  apply_iff s c c' := by
    simp only [Config.parsed, Option.map_eq_some_iff, reads]

theorem isSetBy_verbatim {f : ConfigField} {name : String} {value : String → f.Value}
    (named : f.variableName? = some name) (text : f ≠ .toolchainDirs)
    (reads : ∀ s v, value s = v ↔ f.Reads s v) :
    f.IsSetBy (Config.verbatim name fun s => Config.put f (value s)) where
  named := named
  text := text
  apply_iff s c c' := by
    simp only [Config.verbatim, ← reads, Option.some_inj, exists_eq_left']

theorem readWord?_trim_iff {s : String} {n : UInt64} :
    Config.readWord? (String.ofList (Text.trim s.toList)) = some n ↔
      Text.IsNumber s.toList n.toNat := by
  rw [Config.readWord?, String.toList_ofList, Option.map_eq_some_iff]
  constructor
  · rintro ⟨m, read, rfl⟩
    obtain ⟨number, small⟩ := Text.readUnsigned?_trim_eq_some_iff.mp read
    rwa [UInt64.toNat_ofNat_of_lt' small]
  · intro number
    exact ⟨n.toNat, Text.readUnsigned?_trim_eq_some_iff.mpr ⟨number, n.toNat_lt⟩,
      UInt64.ofNat_toNat⟩

theorem reentry_iff {s : String} {policy : ReentryPolicy} :
    (ReentryPolicy.ofWord (String.ofList (Text.trim s.toList))).toOption = some policy ↔
      Text.IsWord s.toList policy.name := by
  rw [← Text.keyword_trim_iff, ReentryPolicy.ofWord, String.toList_ofList]
  cases policy <;> split <;> simp_all [Except.toOption, ReentryPolicy.name]

theorem dialect_iff {s : String} {d : Dialect} :
    (Dialect.ofWord (String.ofList (Text.trim s.toList))).toOption = some d ↔
      ∃ word ∈ dialectWords d, Text.IsWord s.toList word := by
  simp only [← Text.keyword_trim_iff, Dialect.ofWord, String.toList_ofList]
  cases d <;> split <;> simp_all [Except.toOption, dialectWords]

theorem isOn_iff {s : String} {on : Bool} :
    Config.isOn s = on ↔
      (on = true ↔ s.toList.map asciiLower = "true".toList ∨ s = "1") := by
  have switched : Config.isOn s = true ↔ s.toList.map asciiLower = "true".toList ∨ s = "1" := by
    rw [Config.isOn, Bool.or_eq_true, decide_eq_true_iff, decide_eq_true_iff]
  rw [Bool.eq_iff_iff, switched]
  exact iff_comm

/-- The program reads the variables of the fields, one after the other. -/
theorem isSetBy_settings : List.Forall₂ IsSetBy (checked ++ unchecked) Config.settings :=
  .cons (isSetBy_parsed rfl nofun fun _ _ => readWord?_trim_iff) <|
  .cons (isSetBy_parsed rfl nofun fun _ _ => readWord?_trim_iff) <|
  .cons (isSetBy_parsed rfl nofun fun _ _ => reentry_iff) <|
  .cons (isSetBy_parsed rfl nofun fun _ _ => dialect_iff) <|
  .cons (isSetBy_verbatim rfl nofun fun _ _ => eq_comm) <|
  .cons (isSetBy_verbatim rfl nofun fun _ _ => isOn_iff) <|
  .cons (isSetBy_verbatim rfl nofun fun _ _ => eq_comm) .nil

end ConfigField

end BuildSupervisor
