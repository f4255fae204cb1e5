import BuildSupervisor.Proofs.Errand.Progress
/-!
# What an invoker reports

`Errand.returns_report` says that an undisturbed errand comes back, and with which report: it is a
function of what the tool has written to its two pipes and of its exit status, however the reading
of the pipes, the turns of the service and the clock come to lie.
-/

namespace BuildSupervisor

namespace Errand

/-- Only the service, the invoker and the clock have turns, the watchdog does not end the build, and
    no chunk is lost. -/
structure Undisturbed (e : Errand) (turns : List Turn) : Prop where
  own : ∀ t ∈ turns, t.isOwn = true
  patient : .watchdog e.id ∉ e.endings turns
  keepsUp : e.KeepsUp turns

/-- The invoker of an undisturbed errand comes back with no other report. -/
theorem outcome?_of_undisturbed {e : Errand} {turns : List Turn} (h : e.Undisturbed turns) :
    e.outcome? turns = none ∨ e.outcome? turns = some (.ok (.finished e.report)) := by
  obtain ⟨stage, phase, chunks, there, endings⟩ := e.at_run h.own
  have patient := h.patient
  rw [← endings] at patient
  have outcome : e.outcome? turns = _ := there.outcome?
  have sound := there.serves.tends.sound
  have attends := there.attends
  rw [outcome]
  generalize (e.after turns).service.inbox = inbox at attends
  cases attends with
  | failed _ _ => exact absurd (List.mem_singleton.mpr rfl) patient
  | ended =>
    have right := sound h.keepsUp
    subst right
    exact .inr rfl
  | asked => exact .inl rfl
  | building duty _ => cases duty <;> exact .inl rfl
  | expired duty _ => cases duty <;> exact .inl rfl
  | reported _ => exact .inl rfl
  | finished _ => exact .inl rfl

/-- Whenever the invoker of an undisturbed errand comes back, it comes back with the report that is
    made of what the tool wrote to its pipes and of its exit status, and it does come back unless
    someone is kept from acting for ever. -/
theorem returns_report (e : Errand) :
    (∀ turns, e.Undisturbed turns →
      e.outcome? turns = none ∨ e.outcome? turns = some (.ok (.finished e.report))) ∧
    ∀ turns : Nat → Turn, (∀ n, e.Undisturbed (firstTurns turns n)) → e.Fair turns →
      ∃ n, e.outcome? (firstTurns turns n) = some (.ok (.finished e.report)) := by
  refine ⟨fun turns h => outcome?_of_undisturbed h, ?_⟩
  intro turns undisturbed fair
  have own (n : Nat) : (turns n).isOwn = true := by
    refine (undisturbed (n + 1)).own (turns n) ?_
    rw [firstTurns_succ]
    exact List.mem_concat_self
  obtain ⟨n, back⟩ := exists_outcome own fair
  exact ⟨n, (outcome?_of_undisturbed (undisturbed n)).resolve_left back⟩

/-! ## A run without an end in which all is done -/

section

variable {e : Errand} {turns : Nat → Turn} {k : Nat}
  (still : ∀ n, k ≤ n → turns n = .serve) (done : (e.course turns k).service.step? = none)

include still done

/-- Where the service has nothing to do, it may have turns for ever. -/
theorem settled (n : Nat) (later : k ≤ n) :
    e.course turns n = e.course turns k ∧
      e.endings (firstTurns turns n) = e.endings (firstTurns turns k) := by
  induction later with
  | refl => exact ⟨rfl, rfl⟩
  | @step n later ih =>
    have same : (e.course turns k).turn .serve = e.course turns k := by
      simp only [Crew.turn, Crew.turn?, done, Option.map_none, Option.getD_none]
    have quiet : (e.course turns k).ending? .serve = none := by
      rw [Crew.ending?, same, if_pos rfl]
    constructor
    · rw [course_succ, still n later, ih.1, same]
    · rw [firstTurns_succ, Errand.endings, Crew.endings_concat, still n later]
      change e.endings (firstTurns turns n) ++ ((e.course turns n).ending? .serve).toList = _
      rw [ih.1, ih.2, quiet, Option.toList_none, List.append_nil]

theorem undisturbed_of_settled (own : ∀ n, (turns n).isOwn = true)
    (patient : ∀ n ≤ k, .watchdog e.id ∉ e.endings (firstTurns turns n))
    (keepsUp : ∀ n ≤ k, (e.course turns n).service.session.capture.backlog
      (e.course turns n).service.session.console ≤
        (e.course turns n).service.session.console.ring) (n : Nat) :
    e.Undisturbed (firstTurns turns n) := by
  refine ⟨isOwn_firstTurns own n, ?_, ?_⟩
  · rcases Nat.le_total n k with early | later
    · exact patient n early
    · rw [(settled still done n later).2]
      exact patient k (Nat.le_refl k)
  · intro before after place
    have start : before = firstTurns turns before.length := by
      have taken := congrArg (List.take before.length) place
      rw [List.take_left, firstTurns, ← List.map_take, List.take_range] at taken
      have short : before.length ≤ n := by
        have total := congrArg List.length place
        simp only [firstTurns, List.length_map, List.length_range, List.length_append] at total
        omega
      rw [Nat.min_eq_left short] at taken
      exact taken.symm
    have upToDate (m : Nat) : (e.course turns m).service.session.capture.backlog
        (e.course turns m).service.session.console ≤
          (e.course turns m).service.session.console.ring := by
      rcases Nat.le_total m k with early | later
      · exact keepsUp m early
      · rw [(settled still done m later).1]
        exact keepsUp k (Nat.le_refl k)
    rw [start]
    exact upToDate before.length

/-- Nobody can complain who has nothing to do. -/
theorem fair_of_settled (empty : (e.course turns k).service.session.schedule.pending = [])
    (back : (e.course turns k).outcome? ≠ none) : e.Fair turns := by
  intro a n can
  obtain ⟨t, actor, possible⟩ := can (max n k) (Nat.le_max_left n k)
  rw [(settled still done _ (Nat.le_max_right n k)).1] at possible
  generalize e.course turns k = c at *
  exfalso
  cases t with
  | serve =>
    rw [Crew.turn?, done] at possible
    cases possible
  | arrive target =>
    rw [Crew.turn?, Service.arrive?, Schedule.pop?, empty] at possible
    cases possible
  | proceed index first =>
    cases index with
    | succ index => cases actor
    | zero =>
      rw [Crew.turn?, Crew.proceed?, ← List.head?_eq_getElem?] at possible
      unfold Crew.outcome? at back
      cases head : c.invokers.head? with
      | none =>
        rw [head] at possible
        cases possible
      | some i =>
        rw [head] at possible back
        obtain ⟨command, launch, ticket, listener, phase⟩ := i
        cases phase with
        | asking | running | reporting | waiting => exact absurd rfl back
        | _ => cases possible
  | _ => cases actor

end

/-- A tool that fails, under a watchdog that has no reason to bark. -/
def broken : Errand :=
  .ofRun (Config.default none) .gcc Environment.empty (Channel.new consoleCapacity) [] rfl rfl
    (.error ⟨"gcc", "/opt/gcc/bin"⟩) ⟨Path.ofText "/proj/x.c", false, false⟩ ⟨"make", [], none⟩
    fun _ => .ok ⟨[[111], [107, 10]], [[98, 97, 100]], .exited 1⟩

/-- A run in which the service falls behind; there is nothing more to do in the end. -/
def unhurried (n : Nat) : Turn :=
  [.serve, .proceed 0 .normal, .proceed 0 .error, .proceed 0 .normal, .proceed 0 .normal,
    .proceed 0 .normal, .serve, .serve, .serve, .arrive Duration.max, .serve, .proceed 0 .normal,
    .arrive Duration.max].getD n .serve

/-- What is reported of it. -/
def breakage : Report :=
  ⟨1, false, some 1, ⟨"/proj/x.c", [⟨.normal, "ok\n"⟩, ⟨.error, "bad\n"⟩,
    ⟨.error, "could not locate the gcc toolchain (searched: /opt/gcc/bin)\n"⟩], []⟩⟩

theorem broken_returns_breakage :
    (∀ n, broken.Undisturbed (firstTurns unhurried n)) ∧ broken.Fair unhurried ∧
      ∃ n, broken.outcome? (firstTurns unhurried n) = some (.ok (.finished breakage)) := by
  have still (n : Nat) (later : 14 ≤ n) : unhurried n = .serve := by
    rw [unhurried, List.getD_eq_getElem?_getD, List.getElem?_eq_none, Option.getD_none]
    exact Nat.le_of_succ_le later
  have own (n : Nat) : (unhurried n).isOwn = true := by
    rcases Nat.lt_or_ge n 14 with early | later
    · revert n
      decide
    · rw [still n later]
      rfl
  have done : (broken.course unhurried 14).service.step? = none :=
    Option.isNone_iff_eq_none.mp (by decide +kernel)
  have undisturbed := undisturbed_of_settled still done own (by decide +kernel) (by decide +kernel)
  have fair := fair_of_settled still done (List.isEmpty_iff.mp (by decide +kernel))
    (by decide +kernel)
  have report : broken.report = breakage := by decide +kernel
  refine ⟨undisturbed, fair, ?_⟩
  rw [← report]
  exact (returns_report broken).2 unhurried undisturbed fair

end Errand

end BuildSupervisor
