import BuildSupervisor.Proofs.Config.Fields
/-!
# Overriding by variables

Each variable that is read gives its field what it says and leaves the other fields as they are
(`Config.overrides_apply`).  The reading goes on to the end if all of the variables that have to be
read can be, and stops at the first one that cannot (`Config.applySettings_reads`); the fields in
front of it stay overridden.
-/

namespace BuildSupervisor

namespace ConfigField

/-- The variable for a field, if its octets are text, can be read. -/
def IsSound (env : Environment) (f : ConfigField) : Prop :=
  ∀ name s, f.variableName? = some name → env.text? name = some s → ∃ v, f.Reads s v

/-- The variable for a field cannot be read; its name and its text, just as it was written. -/
structure IsBad (env : Environment) (f : ConfigField) (name s : String) : Prop where
  named : f.variableName? = some name
  text : env.text? name = some s
  unread : ∀ v, ¬ f.Reads s v

/-- What a field is told by the setting that reads it. -/
theorem IsSetBy.says_iff {env : Environment} {f : ConfigField} {setting : Config.Setting}
    (set : f.IsSetBy setting) {v : f.Value} :
    f.Says env v ↔ ∃ s, env.text? setting.name = some s ∧ f.Reads s v := by
  simp only [ConfigField.says_iff set.text, set.named, Option.some_inj, exists_and_left,
    exists_eq_left']

theorem IsSetBy.isSound_iff {env : Environment} {f : ConfigField} {setting : Config.Setting}
    (set : f.IsSetBy setting) :
    f.IsSound env ↔ ∀ s, env.text? setting.name = some s → ∃ v, f.Reads s v := by
  constructor
  · exact fun sound s => sound setting.name s set.named
  · intro reads name s named
    obtain rfl := Option.some_inj.mp (named.symm.trans set.named)
    exact reads s

theorem IsBad.not_isSound {env : Environment} {f : ConfigField} {name s : String}
    (h : f.IsBad env name s) : ¬ f.IsSound env := fun sound =>
  (sound name s h.named h.text).elim h.unread

end ConfigField

namespace Config

open ConfigField

variable {env : Environment} {c c' : Config} {f : ConfigField}

/-- Some fields have the one value that their variables say, where these are set; otherwise they are
    as they were, and so are all other fields. -/
structure Overrides (env : Environment) (fields : List ConfigField) (c c' : Config) : Prop where
  told : ∀ f ∈ fields, f.IsSet env → ∀ v, f.Says env v ↔ c'.get f = v
  unset : ∀ f ∈ fields, ¬ f.IsSet env → c'.get f = c.get f
  kept : ∀ f ∉ fields, c'.get f = c.get f

theorem Overrides.nil (env : Environment) (c : Config) : Overrides env [] c c :=
  ⟨fun _ mem => absurd mem List.not_mem_nil, fun _ _ _ => rfl, fun _ _ => rfl⟩

theorem Overrides.append {fields others : List ConfigField} {between : Config}
    (fresh : ∀ f ∈ fields, f ∉ others) (first : Overrides env fields c between)
    (second : Overrides env others between c') : Overrides env (fields ++ others) c c' where
  told g mem set v := by
    by_cases back : g ∈ others
    · exact second.told g back set v
    · have front := (List.mem_append.mp mem).resolve_right back
      rw [second.kept g back, first.told g front set v]
  unset g mem unset := by
    by_cases back : g ∈ others
    · have front : g ∉ fields := fun mem => fresh g mem back
      rw [second.unset g back unset, first.kept g front]
    · have front := (List.mem_append.mp mem).resolve_right back
      rw [second.kept g back, first.unset g front unset]
  kept g absent := by
    obtain ⟨front, back⟩ := not_or.mp (mt List.mem_append.mpr absent)
    rw [second.kept g back, first.kept g front]

/-- Fields without a variable are never set. -/
theorem Overrides.get (h : Overrides env ordered c c') (f : ConfigField) :
    (f.IsSet env → ∀ v, f.Says env v ↔ c'.get f = v) ∧ (¬ f.IsSet env → c'.get f = c.get f) := by
  by_cases mem : f ∈ ordered
  · exact ⟨h.told f mem, h.unset f mem⟩
  · refine ⟨fun set => ?_, fun _ => h.kept f mem⟩
    cases f with
    | homeDir =>
      obtain ⟨name, s, named, -⟩ := set
      cases named
    | _ => exact absurd (by decide) mem

/-- A variable that is not set leaves everything as it was. -/
theorem overrides_of_unset (unset : ¬ f.IsSet env) : Overrides env [f] c c where
  told g mem set := by
    obtain rfl := List.mem_singleton.mp mem
    exact absurd set unset
  unset _ _ _ := rfl
  kept _ _ := rfl

/-- A variable that says one thing gives it to its field. -/
theorem overrides_of_says {v : f.Value} (only : ∀ w, f.Says env w ↔ w = v) :
    Overrides env [f] c (c.put f v) where
  told g mem _ w := by
    obtain rfl := List.mem_singleton.mp mem
    rw [get_put_same, only, eq_comm]
  unset g mem unset := by
    obtain rfl := List.mem_singleton.mp mem
    exact absurd ((only v).mpr rfl).isSet unset
  kept g absent := get_put_other (by simpa using absent) v c

/-! ### Settings one after the other -/

/-- What a setting does to a configuration, where its variable can be read. -/
theorem overrides_apply {setting : Setting} {s : String} (set : f.IsSetBy setting)
    (text : env.text? setting.name = some s) (applied : setting.apply s c = some c') :
    Overrides env [f] c c' := by
  obtain ⟨v, reads, rfl⟩ := (set.apply_iff s c c').mp applied
  refine overrides_of_says fun w => set.says_iff.trans ⟨?_, ?_⟩
  · rintro ⟨t, text', reads'⟩
    obtain rfl := Option.some_inj.mp (text'.symm.trans text)
    -- Both values are what the setting puts, and a setting puts one.
    have again := (set.apply_iff t c (c.put f w)).mpr ⟨w, reads', rfl⟩
    have same := Option.some_inj.mp (again.symm.trans applied)
    rw [← get_put_same f w c, same, get_put_same]
  · rintro rfl
    exact ⟨s, text, reads⟩

theorem overrides_of_no_text {setting : Setting} (set : f.IsSetBy setting)
    (unset : env.text? setting.name = none) : Overrides env [f] c c := by
  refine overrides_of_unset fun isSet => ?_
  obtain ⟨name, s, named, text⟩ := (isSet_iff set.text).mp isSet
  obtain rfl := Option.some_inj.mp (named.symm.trans set.named)
  cases unset.symm.trans text

/-- The variables of some fields are all read. -/
structure ReadsAll (env : Environment) (fields : List ConfigField) (c : Config)
    (r : Config × Option ConfigError) : Prop where
  sound : ∀ f ∈ fields, f.IsSound env
  error : r.2 = none
  overrides : Overrides env fields c r.1

/-- The reading stops at a field whose variable cannot be read.  The variables in front of it have
    been read, and only their fields have been overridden. -/
structure StopsAt (env : Environment) (front : List ConfigField) (f : ConfigField) (c : Config)
    (r : Config × Option ConfigError) : Prop where
  sound : ∀ g ∈ front, g.IsSound env
  error : ∃ name s, f.IsBad env name s ∧ r.2 = some (.invalidValue name s)
  overrides : Overrides env front c r.1

variable {fields front : List ConfigField} {between : Config} {r : Config × Option ConfigError}

theorem ReadsAll.cons (fresh : f ∉ fields) (sound : f.IsSound env)
    (step : Overrides env [f] c between) (h : ReadsAll env fields between r) :
    ReadsAll env (f :: fields) c r where
  sound := List.forall_mem_cons.mpr ⟨sound, h.sound⟩
  error := h.error
  overrides := step.append (by simpa using fresh) h.overrides

theorem StopsAt.cons {g : ConfigField} (fresh : f ∉ front) (sound : f.IsSound env)
    (step : Overrides env [f] c between) (h : StopsAt env front g between r) :
    StopsAt env (f :: front) g c r where
  sound := List.forall_mem_cons.mpr ⟨sound, h.sound⟩
  error := h.error
  overrides := step.append (by simpa using fresh) h.overrides

/-- What one setting does: it is read, and the others after it, or the reading stops at it. -/
theorem applySettings_cons {setting : Setting} (settings : List Setting) (set : f.IsSetBy setting)
    (c : Config) :
    (f.IsSound env ∧ ∃ between, Overrides env [f] c between ∧
      applySettings env (setting :: settings) c = applySettings env settings between) ∨
    StopsAt env [] f c (applySettings env (setting :: settings) c) := by
  rw [applySettings]
  cases text : env.text? setting.name with
  | none =>
    have sound : f.IsSound env := set.isSound_iff.mpr fun s text' => by
      cases text.symm.trans text'
    exact .inl ⟨sound, c, overrides_of_no_text set text, rfl⟩
  | some s =>
    cases applied : setting.apply s c with
    | some between =>
      simp only [applied]
      obtain ⟨v, reads, -⟩ := (set.apply_iff s c between).mp applied
      have sound : f.IsSound env := set.isSound_iff.mpr fun t text' =>
        ⟨v, Option.some_inj.mp (text.symm.trans text') ▸ reads⟩
      exact .inl ⟨sound, between, overrides_apply set text applied, rfl⟩
    | none =>
      simp only [applied]
      have bad : f.IsBad env setting.name s := ⟨set.named, text, fun v reads => by
        cases applied.symm.trans ((set.apply_iff s c (c.put f v)).mpr ⟨v, reads, rfl⟩)⟩
      exact .inr ⟨nofun, ⟨setting.name, s, bad, rfl⟩, .nil env c⟩

theorem applySettings_reads (env : Environment) {settings : List Setting}
    (set : List.Forall₂ IsSetBy fields settings) (distinct : fields.Nodup) (c : Config) :
    ReadsAll env fields c (applySettings env settings c) ∨
      ∃ front f back, fields = front ++ f :: back ∧
        StopsAt env front f c (applySettings env settings c) := by
  induction set generalizing c with
  | nil => exact .inl ⟨nofun, rfl, .nil env c⟩
  | @cons f setting fields settings first _ ih =>
    obtain ⟨fresh, distinct⟩ := List.nodup_cons.mp distinct
    rcases applySettings_cons settings first c with ⟨sound, between, step, goes⟩ | stops
    · rw [goes]
      rcases ih distinct between with reads | ⟨front, g, back, rfl, stops⟩
      · exact .inl (reads.cons fresh sound step)
      · have fresh : f ∉ front := fun mem => fresh (List.mem_append_left _ mem)
        exact .inr ⟨f :: front, g, back, rfl, stops.cons fresh sound step⟩
    · exact .inr ⟨[], f, fields, rfl, stops⟩

/-! ### All of the variables -/

/-- A value that may be any text can always be read. -/
theorem isSound_of_unchecked : ∀ f ∈ unchecked, f.IsSound env := by
  intro f mem name s _ _
  simp only [unchecked, List.mem_cons, List.not_mem_nil, or_false] at mem
  rcases mem with rfl | rfl | rfl
  · exact ⟨s, rfl⟩
  · exact ⟨isOn s, isOn_iff.mp rfl⟩
  · exact ⟨s, rfl⟩

/-- Only a field that has to be read can stop the reading. -/
theorem StopsAt.checked_eq {back : List ConfigField} (h : StopsAt env front f c r)
    (split : checked ++ unchecked = front ++ f :: back) : ∃ back, checked = front ++ f :: back := by
  obtain ⟨name, s, bad, -⟩ := h.error
  have early : f ∉ unchecked := fun mem => bad.not_isSound (isSound_of_unchecked f mem)
  rcases List.append_eq_append_iff.mp split with ⟨skipped, -, behind⟩ | ⟨kept, split, behind⟩
  -- the field would have to stand among those that may be any text
  · exact absurd (by simp [behind]) early
  · cases kept with
    | nil =>
      rw [List.nil_append] at behind
      exact absurd (by simp [← behind]) early
    | cons g kept =>
      obtain rfl := (List.cons.inj behind).1
      exact ⟨kept, split⟩

theorem overrides_dirs (env : Environment) (c : Config) :
    Overrides env [toolchainDirs] c
      (match env.value toolchainDirsName with
        | none => c
        | some octets => c.put toolchainDirs (directories octets)) := by
  cases value : env.value toolchainDirsName with
  | none =>
    refine overrides_of_unset ?_
    rintro ⟨octets, value'⟩
    cases value.symm.trans value'
  | some octets =>
    refine overrides_of_says fun dirs => ⟨?_, ?_⟩
    · rintro ⟨octets', value', lists⟩
      obtain rfl := Option.some_inj.mp (value'.symm.trans value)
      exact (directories_eq_iff.mpr lists).symm
    · rintro rfl
      exact ⟨octets, value, directories_eq_iff.mp rfl⟩

/-- The variables override a configuration, or the first of those that cannot be read is named. -/
theorem applyVariables_reads (env : Environment) (c : Config) :
    ((∀ f ∈ checked, f.IsSound env) ∧ (applyVariables env c).2 = none ∧
      Overrides env ordered c (applyVariables env c).1) ∨
    ∃ front f back, checked = front ++ f :: back ∧
      StopsAt env front f c (applyVariables env c) := by
  rw [applyVariables]
  have read := applySettings_reads env isSetBy_settings (by decide) c
  generalize applySettings env settings c = r at read
  rcases read with reads | ⟨front, f, back, split, stops⟩
  · obtain ⟨c', error⟩ := r
    obtain rfl : error = none := reads.error
    refine .inl ⟨fun f mem => reads.sound f (List.mem_append_left _ mem), ?_⟩
    have all := reads.overrides.append (by decide) (overrides_dirs env c')
    cases value : env.value toolchainDirsName with
    | none =>
      simp only [value] at all
      exact ⟨rfl, all⟩
    | some octets =>
      simp only [value] at all
      exact ⟨rfl, all⟩
  · obtain ⟨back, split⟩ := stops.checked_eq split
    refine .inr ⟨front, f, back, split, ?_⟩
    obtain ⟨name, s, bad, error⟩ := stops.error
    obtain ⟨c', stopped⟩ := r
    obtain rfl : stopped = some (.invalidValue name s) := error
    exact stops

end Config

end BuildSupervisor
