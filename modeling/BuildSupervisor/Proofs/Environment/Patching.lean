import BuildSupervisor.Proofs.Environment.SearchPath
/-!
# What a patch does to the environment

A patch has one of four outcomes, which `PatchOutcome` lists with all that is said of each:
nothing was located, nothing is missing, what is missing cannot be spelled in a search path, or
the search path is extended.  `ExactPatch` is read off that list.  What was there before stays, to
the octet, behind what is added, and patching twice is patching once.
-/

namespace BuildSupervisor.Environment

open SearchPath (colon)

variable {env : Environment} {name : String} {located : Located} {dirs : List Path}

/-- The directories that a toolchain needs and the search path in a variable does not have. -/
def lacks (env : Environment) (name : String) (dirs : List Path) : List Path :=
  SearchPath.firsts (env.searchPath name) dirs

/-- The search path in a variable, with `added` in front of it. -/
structure Extended (env : Environment) (name : String) (added : List Path) (value : Bytes) :
    Prop where
  entries : SearchPath.entries value = added ++ env.searchPath name
  ofUnset : env.value name = none → value = Text.join [colon] (added.map Path.octets)
  ofSet : ∀ old, env.value name = some old →
    value = Text.join [colon] (added.map Path.octets) ++ colon :: old

/-- How a patch may turn out. -/
inductive PatchOutcome (env : Environment) (name : String) : Located → Patch × Environment → Prop
    where
  | missing (toolchain : ToolchainMissing) : PatchOutcome env name (.error toolchain)
      (.unchanged (some (.missing toolchain)), env)
  | complete (dirs : List Path) : env.lacks name dirs = [] →
      PatchOutcome env name (.ok dirs) (.unchanged none, env)
  | colonInside (dirs : List Path) : (∃ dir ∈ env.lacks name dirs, colon ∈ dir.octets) →
      PatchOutcome env name (.ok dirs) (.unchanged (some (.colonInDirectory name)), env)
  | extended (dirs : List Path) (value : Bytes) : env.lacks name dirs ≠ [] →
      (∀ dir ∈ env.lacks name dirs, colon ∉ dir.octets) →
      Extended env name (env.lacks name dirs) value →
      PatchOutcome env name (.ok dirs) (.changed ⟨name, env.value name⟩, env.set name value)

theorem colon_not_mem_of_mem_searchPath {dir : Path} (mem : dir ∈ env.searchPath name) :
    colon ∉ dir.octets := by
  unfold searchPath at mem
  split at mem
  · exact SearchPath.colon_not_mem_of_mem_entries mem
  · cases mem

/-- The search path that is put together, where that can be done. -/
theorem extended_of_join? {added : List Path} (some_ : added ≠ []) {value : Bytes}
    (joined : SearchPath.join? (added ++ env.searchPath name) = some value) :
    Extended env name added value := by
  obtain ⟨rfl, absent⟩ := SearchPath.join?_eq_some joined
  constructor
  case entries => exact SearchPath.entries_join (List.append_ne_nil_of_left_ne_nil some_ _) absent
  case ofUnset =>
    intro unset
    rw [searchPath, unset, List.append_nil]
  case ofSet =>
    intro old set
    have nonempty : (SearchPath.entries old).map Path.octets ≠ [] :=
      mt List.map_eq_nil_iff.mp (mt List.map_eq_nil_iff.mp (Text.cut_ne_nil colon old))
    simp only [searchPath, set]
    rw [List.map_append, Text.join_append [colon] (mt List.map_eq_nil_iff.mp some_) nonempty,
      SearchPath.join_entries, List.append_assoc, List.singleton_append]

theorem patchOutcome (env : Environment) (name : String) (located : Located) :
    PatchOutcome env name located (env.patch name located) := by
  unfold patch
  split
  · exact .missing _
  · rename_i dirs
    have added := SearchPath.additions_eq_firsts (env.searchPath name) dirs
    dsimp only
    split
    · rename_i nothing
      exact .complete dirs (added.symm.trans nothing)
    · rename_i some_
      rw [added] at some_ ⊢
      split
      · rename_i failed
        obtain ⟨dir, mem, there⟩ := SearchPath.join?_eq_none.mp failed
        refine .colonInside dirs ⟨dir, ?_, there⟩
        rcases List.mem_append.mp mem with new | old
        · exact new
        · exact absurd there (colon_not_mem_of_mem_searchPath old)
      · rename_i value joined
        refine .extended dirs value some_ ?_ (extended_of_join? some_ joined)
        intro dir mem
        exact (SearchPath.join?_eq_some joined).2 dir (List.mem_append_left _ mem)

/-- Where a search path was extended, nothing is missing any more. -/
theorem additions_set_eq_nil {value : Bytes}
    (h : Extended env name (env.lacks name dirs) value) :
    SearchPath.additions ((env.set name value).searchPath name) dirs = [] := by
  have there : (env.set name value).searchPath name =
      SearchPath.additions (env.searchPath name) dirs ++ env.searchPath name := by
    rw [SearchPath.additions_eq_firsts, searchPath, set, put_same]
    exact h.entries
  rw [there]
  exact SearchPath.additions_eq_nil fun dir mem => SearchPath.any_same_additions _ mem

theorem patch_of_additions_eq_nil (h : SearchPath.additions (env.searchPath name) dirs = []) :
    env.patch name (.ok dirs) = (.unchanged none, env) := by
  simp only [patch, h]

/-- There is no toolchain to be added, or nothing of it is missing, or it cannot be spelled. -/
def NothingToAdd (env : Environment) (name : String) (located : Located) : Prop :=
  (∃ toolchain, located = .error toolchain) ∨ ∃ dirs, located = .ok dirs ∧
    (env.lacks name dirs = [] ∨ ∃ dir ∈ env.lacks name dirs, colon ∈ dir.octets)

/-- What is to be warned of. -/
inductive ToWarnOf (env : Environment) (name : String) : Located → PatchWarning → Prop where
  | missing (toolchain : ToolchainMissing) :
      ToWarnOf env name (.error toolchain) (.missing toolchain)
  | colonInside (dirs : List Path) : (∃ dir ∈ env.lacks name dirs, colon ∈ dir.octets) →
      ToWarnOf env name (.ok dirs) (.colonInDirectory name)

/-- Everything that a patch says, and does to the environment. -/
structure ExactPatch (env : Environment) (name : String) (located : Located) (patch : Patch)
    (after : Environment) : Prop where
  changed : patch.isChanged = true → ∃ dirs value, located = .ok dirs ∧
    env.lacks name dirs ≠ [] ∧ Extended env name (env.lacks name dirs) value ∧
    after.value name = some value ∧ patch.saved? = some ⟨name, env.value name⟩
  unchanged : patch.isChanged = false → after = env ∧ patch.saved? = none
  isChanged_iff : patch.isChanged = false ↔ NothingToAdd env name located
  warning_iff : ∀ warning, patch.warning? = some warning ↔ ToWarnOf env name located warning
  saved_iff : patch.saved?.isSome = patch.isChanged
  others : ∀ other, other ≠ name → after.value other = env.value other
  /-- What was saved brings the variable back, whatever has become of it meanwhile. -/
  restored : ∀ saved, patch.saved? = some saved → after.restore saved = env ∧
    ∀ later : Environment, (later.restore saved).value name = env.value name
  again : (after.patch name located).1.isChanged = false ∧ (after.patch name located).2 = after

theorem exactPatch_of_unchanged {warning? : Option PatchWarning}
    (patched : env.patch name located = (.unchanged warning?, env))
    (nothing : NothingToAdd env name located)
    (warns : ∀ warning, warning? = some warning ↔ ToWarnOf env name located warning) :
    ExactPatch env name located (.unchanged warning?) env where
  changed := nofun
  unchanged _ := ⟨rfl, rfl⟩
  isChanged_iff := iff_of_true rfl nothing
  warning_iff := warns
  saved_iff := rfl
  others _ _ := rfl
  restored := nofun
  again := by
    rw [patched]
    exact ⟨rfl, rfl⟩

/-- A directory with a colon in it is one that is missing. -/
theorem lacks_ne_nil (inside : ∃ dir ∈ env.lacks name dirs, colon ∈ dir.octets) :
    env.lacks name dirs ≠ [] := by
  obtain ⟨dir, mem, _⟩ := inside
  exact List.ne_nil_of_mem mem

theorem exactPatch_of_extended {value : Bytes} (some_ : env.lacks name dirs ≠ [])
    (absent : ∀ dir ∈ env.lacks name dirs, colon ∉ dir.octets)
    (extended : Extended env name (env.lacks name dirs) value) :
    ExactPatch env name (.ok dirs) (.changed ⟨name, env.value name⟩) (env.set name value) where
  changed _ := ⟨dirs, value, rfl, some_, extended, put_same env name _, rfl⟩
  unchanged := nofun
  isChanged_iff := by
    refine iff_of_false nofun ?_
    rintro (⟨_, failed⟩ | ⟨_, there, nothing | ⟨dir, mem, inside⟩⟩)
    · cases failed
    · cases there
      exact some_ nothing
    · cases there
      exact absent dir mem inside
  warning_iff warning := by
    refine iff_of_false nofun ?_
    intro warns
    cases warns with
    | colonInside _ inside =>
      obtain ⟨dir, mem, inside⟩ := inside
      exact absent dir mem inside
  saved_iff := rfl
  others other ne := put_other env _ ne
  restored saved there := by
    cases there
    refine ⟨?_, fun later => put_same later name _⟩
    rw [restore, set, put_put, put_value]
  again := by
    rw [patch_of_additions_eq_nil (additions_set_eq_nil extended)]
    exact ⟨rfl, rfl⟩

/-- The search path is edited exactly, or left alone. -/
theorem exactPatch (env : Environment) (name : String) (located : Located) :
    ExactPatch env name located (env.patch name located).1 (env.patch name located).2 := by
  have outcome := patchOutcome env name located
  generalize patched : env.patch name located = result at outcome
  cases outcome with
  | missing toolchain =>
    refine exactPatch_of_unchanged patched (.inl ⟨toolchain, rfl⟩) fun warning => ⟨?_, ?_⟩
    · rintro ⟨⟩
      exact .missing toolchain
    · rintro ⟨⟩
      rfl
  | complete dirs nothing =>
    refine exactPatch_of_unchanged patched (.inr ⟨dirs, rfl, .inl nothing⟩) fun warning => ?_
    refine iff_of_false nofun ?_
    rintro ⟨⟩
    rename_i inside
    exact lacks_ne_nil inside nothing
  | colonInside dirs inside =>
    refine exactPatch_of_unchanged patched (.inr ⟨dirs, rfl, .inr inside⟩) fun warning => ⟨?_, ?_⟩
    · rintro ⟨⟩
      exact .colonInside dirs inside
    · rintro ⟨⟩
      rfl
  | extended dirs value some_ absent extended => exact exactPatch_of_extended some_ absent extended

/-- A search path on which one of the directories is spelled with a slash at its end. -/
def spelled : Environment :=
  empty.set "PATH" (Utf8.encode "/usr/bin/:/bin")

/-- Of these directories the first is there, and the third is the second again. -/
def wanted : List Path :=
  ["/usr//bin", "/opt/gcc/", "/opt/./gcc", "/opt/make"].map Path.ofText

/-- Two directories are added, as they are spelled at first. -/
theorem spelled_patched : spelled.lacks "PATH" wanted = ["/opt/gcc/", "/opt/make"].map Path.ofText ∧
    ∃ value, Extended spelled "PATH" (spelled.lacks "PATH" wanted) value ∧
      (spelled.patch "PATH" (.ok wanted)).2.value "PATH" = some value := by
  refine ⟨by decide, ?_⟩
  have changed : (spelled.patch "PATH" (.ok wanted)).1.isChanged = true := by decide
  obtain ⟨_, value, located, _, extended, set, _⟩ :=
    (exactPatch spelled "PATH" (.ok wanted)).changed changed
  cases located
  exact ⟨value, extended, set⟩

end BuildSupervisor.Environment
