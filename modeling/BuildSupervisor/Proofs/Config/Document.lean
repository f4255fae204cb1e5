import BuildSupervisor.Proofs.Config.Fields
import Mathlib.Data.List.Nodup
/-!
# Fields in a document

A field has a place in a configuration file: a member of the record, and for the fields of a
toolchain a member of that member.  A record may stand in a document as an array of its members too.
What is read for a field is what stands at its place (`Config.ReadFrom`), and where nothing does,
what holds when it is missing.
-/

namespace BuildSupervisor

namespace Codec

/-- The member of a record with some names stands in a value. -/
inductive Holds (names : List String) : Json → String → Json → Prop
  | member {members name v} (mem : (name, v) ∈ members) : Holds names (.object members) name v
  | element {elements name v} (i : Nat) (named : names[i]? = some name)
      (there : elements[i]? = some v) : Holds names (.array elements) name v

theorem membersNamed_spec {members : List (String × Json)} {names : List String}
    {found : List (Option Json)} (h : membersNamed members names = some found) :
    List.Forall₂ (fun name field => ∀ v, (name, v) ∈ members ↔ field = some v) names found := by
  induction names generalizing found with
  | nil =>
    cases h
    exact .nil
  | cons name names ih =>
    have named (v : Json) :
        (name, v) ∈ members ↔ (name, v) ∈ members.filter fun m => m.1 = name := by simp
    rw [membersNamed] at h
    split at h
    · next rest none_ more =>
      cases h
      refine .cons (fun v => ?_) (ih more)
      rw [named, none_]
      simp
    · next first v rest one more =>
      cases h
      refine .cons (fun w => ?_) (ih more)
      have mem : (first, v) ∈ members.filter fun m => m.1 = name := one ▸ List.mem_cons_self
      obtain rfl : first = name := by simpa using (List.mem_filter.mp mem).2
      rw [named, one]
      simp [eq_comm]
    · cases h

theorem getElem?_elementsAsFields (elements : List Json) {count i : Nat} (small : i < count) :
    (elementsAsFields elements count)[i]? = some elements[i]? := by
  rw [elementsAsFields, List.getElem?_append, List.length_map, List.length_take]
  by_cases there : i < elements.length
  · rw [if_pos (Nat.lt_min.mpr ⟨small, there⟩), List.getElem?_map, List.getElem?_take_of_lt small,
      List.getElem?_eq_getElem there, Option.map_some]
  · have behind : elements.length ≤ i := Nat.le_of_not_lt there
    rw [if_neg (by omega), List.getElem?_replicate_of_lt (by omega),
      List.getElem?_eq_none behind]

theorem elementsAsFields_spec {elements : List Json} {names : List String}
    (distinct : names.Nodup) :
    List.Forall₂ (fun name field => ∀ v, Holds names (.array elements) name v ↔ field = some v)
      names (elementsAsFields elements names.length) := by
  refine List.forall₂_iff_get.mpr ⟨?_, fun i small small' v => ?_⟩
  · rw [elementsAsFields, List.length_append, List.length_map, List.length_take,
      List.length_replicate]
    omega
  · have field := getElem?_elementsAsFields elements small
    rw [List.getElem?_eq_getElem small', Option.some_inj] at field
    rw [List.get_eq_getElem, List.get_eq_getElem, field]
    constructor
    · rintro (_ | ⟨j, named, there⟩)
      obtain ⟨small'', same⟩ := List.getElem?_eq_some_iff.mp named
      obtain rfl : j = i := (List.Nodup.getElem_inj_iff distinct).mp same
      exact there
    · exact .element i (List.getElem?_eq_getElem small)

/-- What is found of a record that may miss members are the members it has. -/
theorem optionalFields_spec {rules : Rules} {names : List String} (distinct : names.Nodup)
    {v : Json} {found : List (Option Json)} (h : optionalFields rules names v = some found) :
    List.Forall₂ (fun name field => ∀ w, Holds names v name w ↔ field = some w) names found := by
  unfold optionalFields at h
  split at h
  · next members =>
    refine (membersNamed_spec h).imp fun name field found w => ?_
    rw [← found]
    constructor
    · rintro ⟨mem⟩
      exact mem
    · exact .member
  · split at h
    · cases h
      exact elementsAsFields_spec distinct
    · cases h
  · cases h

/-- A field is read from what stands for it; where nothing does, it is what it is when missing. -/
structure Fills {α : Type} (decode : Json → Option α) (stands : Json → Prop) (missing a : α) :
    Prop where
  present : ∀ v, stands v → decode v = some a
  absent : (∀ v, ¬ stands v) → a = missing

theorem fills_of_orElse {α : Type} {c : Codec α} {rules : Rules} {missing a : α}
    {field : Option Json} {stands : Json → Prop} (found : ∀ v, stands v ↔ field = some v)
    (h : c.orElse missing rules field = some a) : Fills (c.decode rules) stands missing a where
  present v there := by
    rw [(found v).mp there] at h
    exact h
  absent none_ := by
    cases field with
    | none => exact (Option.some_inj.mp h).symm
    | some v => exact absurd ((found v).mpr rfl) (none_ v)

/-- The fields of a toolchain in a document. -/
theorem fills_toolchain {rules : Rules} {v : Json} {t : Toolchain}
    (h : toolchain.decode rules v = some t) :
    Fills (text.decode rules) (Holds ["name", "dirs"] v "name") "" t.name ∧
      Fills (path.list.decode rules) (Holds ["name", "dirs"] v "dirs") [] t.dirs := by
  unfold toolchain at h
  dsimp only at h
  split at h
  · next name dirs found =>
    obtain ⟨named, listed, -⟩ := by
      simpa only [List.forall₂_cons] using optionalFields_spec (by decide) found
    simp only [Option.bind_eq_bind, Option.bind_eq_some_iff, Option.pure_def, Option.some_inj] at h
    obtain ⟨name, readName, dirs, readDirs, rfl⟩ := h
    exact ⟨fills_of_orElse named readName, fills_of_orElse listed readDirs⟩
  · cases h

end Codec

namespace ConfigField

/-- Where a field stands in a document: for each record on the way, the names of its members and the
    one that is taken. -/
def place : ConfigField → List (List String × String)
  | .completionDelayMs => [(Codec.configNames, "completion_delay_ms")]
  | .watchdogTimeoutSecs => [(Codec.configNames, "watchdog_timeout_secs")]
  | .reentry => [(Codec.configNames, "reentry")]
  | .dialect => [(Codec.configNames, "dialect")]
  | .pathVariable => [(Codec.configNames, "path_variable")]
  | .normalizeNewlines => [(Codec.configNames, "normalize_newlines")]
  | .toolchainName => [(Codec.configNames, "toolchain"), (["name", "dirs"], "name")]
  | .toolchainDirs => [(Codec.configNames, "toolchain"), (["name", "dirs"], "dirs")]
  | .homeDir => [(Codec.configNames, "home_dir")]

/-- How the value of a field is written. -/
def codec : (f : ConfigField) → Codec f.Value
  | .completionDelayMs | .watchdogTimeoutSecs => Codec.word64
  | .reentry => Codec.reentryPolicy
  | .dialect => Codec.dialect
  | .pathVariable | .toolchainName => Codec.text
  | .normalizeNewlines => Codec.bool
  | .toolchainDirs => Codec.path.list
  | .homeDir => Codec.path.nullable

/-- A value stands at a place in another one. -/
def StandsAt : List (List String × String) → Json → Json → Prop
  | [], v, w => v = w
  | (names, name) :: rest, v, w =>
    ∃ member, Codec.Holds names v name member ∧ StandsAt rest member w

theorem standsAt_one (names : List String) (name : String) (v : Json) :
    StandsAt [(names, name)] v = Codec.Holds names v name := by
  funext w
  simp only [StandsAt, exists_eq_right]

/-- A member of a member is read from both, and is missing where either of them is. -/
theorem fills_inside {α β : Type} {names : List String} {name : String}
    {inner : List (List String × String)} {root : Json} {decode : Json → Option α}
    {decodeInner : Json → Option β} {p : α → β} {missing a : α}
    (outer : Codec.Fills decode (Codec.Holds names root name) missing a)
    (inside : ∀ v, decode v = some a →
      Codec.Fills decodeInner (StandsAt inner v) (p missing) (p a)) :
    Codec.Fills decodeInner (StandsAt ((names, name) :: inner) root) (p missing) (p a) where
  present := by
    rintro w ⟨v, there, stands⟩
    exact (inside v (outer.present v there)).present w stands
  absent none_ := by
    by_cases there : ∃ v, Codec.Holds names root name v
    · obtain ⟨v, there⟩ := there
      exact (inside v (outer.present v there)).absent fun w stands => none_ w ⟨v, there, stands⟩
    · rw [outer.absent (not_exists.mp there)]

end ConfigField

namespace Config

open ConfigField (place StandsAt standsAt_one fills_inside)

/-- A configuration is what a document says, and as another one where the document says nothing. -/
def ReadFrom (root : Json) (missing c : Config) : Prop :=
  ∀ f : ConfigField, Codec.Fills (f.codec.decode Rules.table) (StandsAt f.place root)
    (missing.get f) (c.get f)

theorem readFrom_of_decode {root : Json} {missing c : Config} (bare : missing.toolchain = ⟨"", []⟩)
    (h : (Codec.config missing).decode Rules.table root = some c) : ReadFrom root missing c := by
  unfold Codec.config at h
  dsimp only at h
  split at h
  · next delay timeout policy words variable_ newlines tools home found =>
    obtain ⟨delay_, timeout_, policy_, words_, variable__, newlines_, tools_, home_, -⟩ := by
      simpa only [Codec.configNames, List.forall₂_cons] using
        Codec.optionalFields_spec (by decide) found
    simp only [Option.bind_eq_bind, Option.bind_eq_some_iff, Option.pure_def, Option.some_inj] at h
    obtain ⟨ms, readMs, secs, readSecs, p, readP, d, readD, name, readName, on, readOn, t, readT,
      dir, readDir, rfl⟩ := h
    have tool := Codec.fills_of_orElse tools_ readT
    intro f
    cases f with
    | completionDelayMs => exact Codec.fills_of_orElse (by rwa [place, standsAt_one]) readMs
    | watchdogTimeoutSecs => exact Codec.fills_of_orElse (by rwa [place, standsAt_one]) readSecs
    | reentry => exact Codec.fills_of_orElse (by rwa [place, standsAt_one]) readP
    | dialect => exact Codec.fills_of_orElse (by rwa [place, standsAt_one]) readD
    | pathVariable => exact Codec.fills_of_orElse (by rwa [place, standsAt_one]) readName
    | normalizeNewlines => exact Codec.fills_of_orElse (by rwa [place, standsAt_one]) readOn
    | homeDir => exact Codec.fills_of_orElse (by rwa [place, standsAt_one]) readDir
    | toolchainName =>
      refine fills_inside (p := Toolchain.name) tool fun v read => ?_
      rw [standsAt_one, bare]
      exact (Codec.fills_toolchain read).1
    | toolchainDirs =>
      refine fills_inside (p := Toolchain.dirs) tool fun v read => ?_
      rw [standsAt_one, bare]
      exact (Codec.fills_toolchain read).2
  · cases h

end Config

end BuildSupervisor
