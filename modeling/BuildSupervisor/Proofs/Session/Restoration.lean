import BuildSupervisor.Proofs.Session.Effect
/-!
# The environment comes back

`Restorable` says of every state of a run that the value which is kept to undo the patch of the
build at hand was taken from the environment of the beginning.  Undoing is then right on whichever
way the session comes to rest, and the next patch starts from that environment again, so that
patches never pile up.
-/

namespace BuildSupervisor.Session

/-- The build was accepted in the run, when the toolchain was located as `located` says. -/
def StartedWith (first : Session) (ops : List Operation) (located : Located) (id : BuildId) :
    Prop :=
  ∃ before request after, ops = before ++ .start located request :: after ∧
    ((first.run before).start located request).1 = .ok (.accepted id)

theorem StartedWith.concat {first : Session} {ops : List Operation} {located : Located}
    {id : BuildId} (h : StartedWith first ops located id) (op : Operation) :
    StartedWith first (ops ++ [op]) located id := by
  obtain ⟨before, request, after, rfl, accepted⟩ := h
  refine ⟨before, request, after ++ [op], ?_, accepted⟩
  rw [List.append_assoc, List.cons_append]

/-- After the operations `ops`, the environment can be brought back to what it was at first. -/
structure Restorable (first : Session) (ops : List Operation) (s : Session) : Prop where
  config : s.config = first.config
  undone : s.reset.environment = first.environment
  patched : ∀ build, s.active = some build → ∃ located, StartedWith first ops located build.id ∧
    s.environment = (first.environment.patch first.config.pathVariable located).2

theorem reset_environment_of_rest {s : Session} (h : s.active = none) :
    s.reset.environment = s.environment := by
  simp only [reset, h, Option.bind_none, undo]

theorem SameBooks.reset_environment {s t : Session} (books : SameBooks s t) :
    t.reset.environment = s.reset.environment := by
  simp only [reset, books.environment, books.active]

theorem restorable_of_rest {first s : Session} {ops : List Operation}
    (config : s.config = first.config) (rest : s.active = none)
    (same : s.environment = first.environment) : Restorable first ops s := by
  refine ⟨config, (reset_environment_of_rest rest).trans same, ?_⟩
  intro build active
  rw [rest] at active
  cases active

theorem Restorable.patchFor {first s : Session} {ops : List Operation} (h : Restorable first ops s)
    (located : Located) :
    s.patchFor located = first.environment.patch first.config.pathVariable located := by
  rw [Session.patchFor, h.undone, h.config]

/-- Every operation keeps the way back open. -/
theorem Restorable.apply {first s t : Session} {ops : List Operation} {op : Operation}
    {answer : Answer} (run : first.run ops = s) (h : Restorable first ops s)
    (answered : (s.apply op).1 = answer) (effect : Effect s op answer t) :
    Restorable first (ops ++ [op]) t := by
  cases effect with
  | kept _ _ _ books =>
    refine ⟨books.config.trans h.config, books.reset_environment.trans h.undone, ?_⟩
    intro build active
    rw [books.active] at active
    obtain ⟨located, started, patched⟩ := h.patched build active
    exact ⟨located, started.concat op, books.environment.trans patched⟩
  | discarded books =>
    exact restorable_of_rest (books.config.trans h.config) books.active
      (books.environment.trans h.undone)
  | aborted located request books =>
    exact restorable_of_rest (books.config.trans h.config) books.active
      (books.environment.trans h.undone)
  | accepted located request books =>
    refine ⟨books.config.trans h.config, ?_, ?_⟩
    · rw [books.reset_environment]
      exact (undo_patch _ _ _).trans h.undone
    · intro build active
      rw [books.active] at active
      cases active
      refine ⟨located, ⟨ops, request, [], rfl, ?_⟩, ?_⟩
      · rw [run]
        exact Answer.started.inj answered
      · rw [books.environment, h.patchFor]
  | reported build succeeded said active _ books =>
    refine ⟨books.config.trans h.config, ?_, ?_⟩
    · rw [books.reset_environment, ← h.undone]
      simp only [reset, active, Option.bind_some]
    · intro other there
      rw [books.active] at there
      cases there
      obtain ⟨located, started, patched⟩ := h.patched build active
      exact ⟨located, started.concat _, books.environment.trans patched⟩
  | ended build result active _ _ _ books =>
    exact restorable_of_rest (books.config.trans h.config) books.active
      (books.environment.trans h.undone)

theorem restorable_run {first : Session} (rest : first.active = none) (ops : List Operation) :
    Restorable first ops (first.run ops) :=
  run_induction (P := Restorable first) (restorable_of_rest rfl rest rfl)
    (fun _ op s run ih => ih.apply run rfl (effect_apply s op)) ops

/-- A patch that did nothing leaves the environment as it was. -/
theorem patch_unchanged {environment : Environment} {name : String} {located : Located}
    (h : (environment.patch name located).1.isChanged = false) :
    (environment.patch name located).2 = environment := by
  revert h
  unfold Environment.patch
  split
  · exact fun _ => rfl
  · dsimp only
    split
    · exact fun _ => rfl
    · split
      · exact fun _ => rfl
      · exact nofun

/-- A patch changes no other variable. -/
theorem patch_other (environment : Environment) {name other : String} (located : Located)
    (h : other ≠ name) :
    (environment.patch name located).2.value other = environment.value other := by
  unfold Environment.patch
  split
  · rfl
  · dsimp only
    split
    · rfl
    · split
      · rfl
      · exact Environment.put_other environment _ h

theorem state_idle_iff (s : Session) : s.state = .idle ↔ s.active = none := by
  unfold state
  split
  · rename_i rest
    exact ⟨fun _ => rest, fun _ => rfl⟩
  · rename_i build active
    rw [active]
    split <;> exact ⟨nofun, nofun⟩

/-- The environment after a run, against the one that a session was given. -/
structure Restoration (first : Session) (ops : List Operation) : Prop where
  /-- At rest every variable has its first value. -/
  idle : (first.run ops).state = .idle → (first.run ops).environment = first.environment
  /-- So it is when the session has been let go. -/
  dropped : (first.run ops).drop.environment = first.environment
  /-- Nothing but the search path ever changes. -/
  others : ∀ name, name ≠ first.config.pathVariable →
    (first.run ops).environment.value name = first.environment.value name
  /-- While a build is looked after, the search path is what its own patch made of the first
      value, and it is the first value where the patch did nothing. -/
  building : (first.run ops).state ≠ .idle → ∃ id located,
    (first.run ops).currentBuild? = some id ∧ StartedWith first ops located id ∧
    (first.run ops).environment =
      (first.environment.patch first.config.pathVariable located).2 ∧
    ((first.environment.patch first.config.pathVariable located).1.isChanged = false →
      (first.run ops).environment = first.environment)

/-- Whatever is done to a new session, the environment is patched at most once at a time and comes
    back exactly. -/
theorem restoration_new (config : Config) (dialect : Dialect) (environment : Environment)
    (console : Console) (ops : List Operation) :
    Restoration (Session.new config dialect environment console) ops := by
  generalize hs : Session.new config dialect environment console = first
  have rest : first.active = none := by rw [← hs]; rfl
  have h := restorable_run rest ops
  constructor
  case idle =>
    intro idle
    rw [← reset_environment_of_rest ((state_idle_iff _).mp idle)]
    exact h.undone
  case dropped => exact h.undone
  case others =>
    intro name other
    cases active : (first.run ops).active with
    | none => rw [← h.undone, reset_environment_of_rest active]
    | some build =>
      obtain ⟨located, -, patched⟩ := h.patched build active
      rw [patched]
      exact patch_other first.environment located other
  case building =>
    intro busy
    rw [Ne, state_idle_iff, ← Ne, Option.ne_none_iff_exists'] at busy
    obtain ⟨build, active⟩ := busy
    obtain ⟨located, started, patched⟩ := h.patched build active
    refine ⟨build.id, located, ?_, started, patched, ?_⟩
    · rw [currentBuild?, active]
      rfl
    · intro unchanged
      exact patched.trans (patch_unchanged unchanged)

end BuildSupervisor.Session
