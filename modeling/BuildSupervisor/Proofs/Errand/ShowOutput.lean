import BuildSupervisor.Proofs.Diagnostic.BlankLine
import BuildSupervisor.Proofs.Errand.Report
/-!
# The whole output on request

A build that succeeds shows what its tool reported, or, if the request says so, the whole output
that was gathered from the console.  The two come along different ways, but they are made of the
same lines: `Errand.shows_lineFeed_more` compares the reports of any two runs of which one asks for
the whole output, and finds one line feed at the end of the normal text.
-/

namespace BuildSupervisor

namespace Errand

/-- The same errand, with or without the wish to see the whole output. -/
def showing (e : Errand) (all : Bool) : Errand :=
  { e with request := { e.request with showOutput := all } }

/-- The lines that the tool writes as normal output. -/
def said (e : Errand) : List String :=
  match e.launch e.patched with
  | .ok run => Pipe.linesOf run.stdout.flatten
  | .error _ => []

end Errand

/-- The reports are the same but for the normal text, which has one line feed more at the end if
    `more` holds. -/
structure Report.SameButEnd (more : Prop) (r t : Report) : Prop where
  buildId : t.buildId = r.buildId
  succeeded : t.succeeded = r.succeeded
  exitCode : t.exitCode = r.exitCode
  targetFile : t.result.targetFile = r.result.targetFile
  diagnostics : t.result.diagnostics = r.result.diagnostics
  /-- The blocks of output are of the same kinds, and those of errors are the same. -/
  kinds : t.result.outputs.map Output.kind = r.result.outputs.map Output.kind
  errors : (t.result.outputs.filter fun o => o.kind = .error) =
    r.result.outputs.filter fun o => o.kind = .error
  same : ¬ more → t.result.textOf .normal = r.result.textOf .normal
  ended : more → t.result.textOf .normal = r.result.textOf .normal ++ "\n"

namespace Errand

/-- The whole output is what the tool reported, and a line feed if there was a line. -/
theorem written_eq {e : Errand} (succeeded : (e.toolEnd e.patched).succeeded = true) :
    String.join (e.texts e.patched .normal) =
      (e.toolEnd e.patched).reported ++ if e.said = [] then "" else "\n" := by
  unfold toolEnd texts said at *
  split at succeeded
  · rename_i run launched
    rw [launched]
    dsimp only
    split
    · rename_i none_
      rw [none_]
      rfl
    · rename_i some_
      exact Text.join_map_endLine some_
  · cases succeeded

/-- The report of a build that shows a text as its normal output. -/
def reportShowing (e : Errand) (shown : String) : Report :=
  let ended := e.toolEnd e.patched
  let errors := String.join (e.texts e.patched .error)
  ⟨e.id, ended.succeeded, ended.exitCode,
    { targetFile := e.request.targetFile.shown e.session.config.homeDir
      outputs :=
        [⟨.normal, shown⟩, ⟨.error, errors⟩] ++
          if ended.succeeded then []
          else e.build.warning.toList.map fun w => ⟨.error, Text.endLine w.message⟩
      diagnostics :=
        if e.request.fromCode then []
        else e.session.dialect.parse (shown ++ "\n" ++ errors) e.request.targetFile.baseDirectory }⟩

/-- The text that a report shows as normal output. -/
def shown (e : Errand) (all : Bool) : String :=
  if !(e.toolEnd e.patched).succeeded || all then String.join (e.texts e.patched .normal)
  else (e.toolEnd e.patched).reported

/-- The request for the whole output goes into nothing else than the text that is shown. -/
theorem report_showing (e : Errand) (all : Bool) :
    (e.showing all).report = e.reportShowing (e.shown all) :=
  rfl

/-- The whole output is shown in any case where the build fails, and is empty where the tool says
    nothing. -/
theorem shown_eq {e : Errand} (h : ¬((e.toolEnd e.patched).succeeded = true ∧ e.said ≠ [])) :
    e.shown true = e.shown false := by
  unfold shown
  cases succeeded : (e.toolEnd e.patched).succeeded with
  | false => rfl
  | true =>
    have none_ : e.said = [] := by
      by_contra some_
      exact h ⟨succeeded, some_⟩
    have written := written_eq succeeded
    rw [none_, if_pos rfl, String.append_empty] at written
    exact written

theorem shown_ended {e : Errand} (succeeded : (e.toolEnd e.patched).succeeded = true)
    (some_ : e.said ≠ []) : e.shown true = e.shown false ++ "\n" := by
  have written := written_eq succeeded
  rw [if_neg some_] at written
  simpa [shown, succeeded] using written

/-- What is made of the two requests is the same but for the end of the normal text. -/
theorem sameButEnd_showing (e : Errand) :
    Report.SameButEnd (e.report.succeeded = true ∧ e.said ≠ []) (e.showing false).report
      (e.showing true).report := by
  rw [report_showing, report_showing]
  by_cases more : (e.toolEnd e.patched).succeeded = true ∧ e.said ≠ []
  · obtain ⟨succeeded, some_⟩ := more
    rw [shown_ended succeeded some_]
    generalize e.shown false = text
    refine ⟨rfl, rfl, rfl, rfl, ?_, rfl, rfl, ?_, ?_⟩
    · simp only [reportShowing]
      split
      · rfl
      · exact Dialect.parse_blankLine _ _ _ _
    · exact fun no => absurd ⟨succeeded, some_⟩ no
    · intro _
      simp [reportShowing, BuildResult.textOf, succeeded]
  · rw [shown_eq more]
    exact ⟨rfl, rfl, rfl, rfl, rfl, rfl, rfl, fun _ => rfl, fun yes => absurd yes more⟩

/-- The invoker comes back from an undisturbed errand in which nobody is kept from acting. -/
theorem exists_report {e : Errand} {turns : Nat → Turn}
    (undisturbed : ∀ n, e.Undisturbed (firstTurns turns n)) (fair : e.Fair turns) :
    ∃ n, e.outcome? (firstTurns turns n) = some (.ok (.finished e.report)) := by
  have own (n : Nat) : (turns n).isOwn = true := by
    refine (undisturbed (n + 1)).own (turns n) ?_
    rw [firstTurns_succ]
    exact List.mem_concat_self
  obtain ⟨n, back⟩ := exists_outcome own fair
  exact ⟨n, (outcome?_of_undisturbed (undisturbed n)).resolve_left back⟩

/-- Two undisturbed errands of which one asks for the whole output come back with reports that are
    the same but for one line feed, and they do come back unless someone is kept from acting for
    ever.  The turns of the two need have nothing in common. -/
theorem shows_lineFeed_more (e : Errand) :
    (∀ terse verbose, (e.showing false).Undisturbed terse → (e.showing true).Undisturbed verbose →
      ∀ back back', (e.showing false).outcome? terse = some back →
        (e.showing true).outcome? verbose = some back' →
        ∃ r t, back = .ok (.finished r) ∧ back' = .ok (.finished t) ∧
          Report.SameButEnd (r.succeeded = true ∧ e.said ≠ []) r t) ∧
    ∀ terse verbose : Nat → Turn,
      (∀ n, (e.showing false).Undisturbed (firstTurns terse n)) →
      (∀ n, (e.showing true).Undisturbed (firstTurns verbose n)) →
      (e.showing false).Fair terse → (e.showing true).Fair verbose →
      ∃ n m r t, (e.showing false).outcome? (firstTurns terse n) = some (.ok (.finished r)) ∧
        (e.showing true).outcome? (firstTurns verbose m) = some (.ok (.finished t)) ∧
        Report.SameButEnd (r.succeeded = true ∧ e.said ≠ []) r t := by
  constructor
  · intro terse verbose undisturbed undisturbed' back back' outcome outcome'
    rcases outcome?_of_undisturbed undisturbed with none_ | made
    · rw [none_] at outcome
      cases outcome
    · rcases outcome?_of_undisturbed undisturbed' with none_ | made'
      · rw [none_] at outcome'
        cases outcome'
      · rw [made] at outcome
        rw [made'] at outcome'
        cases outcome
        cases outcome'
        exact ⟨_, _, rfl, rfl, e.sameButEnd_showing⟩
  · intro terse verbose undisturbed undisturbed' fair fair'
    obtain ⟨n, back⟩ := exists_report undisturbed fair
    obtain ⟨m, back'⟩ := exists_report undisturbed' fair'
    exact ⟨n, m, _, _, back, back', e.sameButEnd_showing⟩

/-- The tool of `broken`, had it been found: it succeeds and has something to say. -/
def tidy : Errand :=
  { broken with
    located := .ok []
    launch := fun _ => .ok ⟨[[111], [107, 10]], [[98, 97, 100]], .exited 0⟩ }

/-- The turns of a tool that fails fit this one, too, whatever it is asked to show. -/
theorem undisturbed_tidy (all : Bool) :
    (∀ n, (tidy.showing all).Undisturbed (firstTurns unhurried n)) ∧
      (tidy.showing all).Fair unhurried := by
  have still (n : Nat) (later : 14 ≤ n) : unhurried n = .serve := by
    rw [unhurried, List.getD_eq_getElem?_getD, List.getElem?_eq_none, Option.getD_none]
    exact Nat.le_of_succ_le later
  have own (n : Nat) : (unhurried n).isOwn = true := by
    rcases Nat.lt_or_ge n 14 with early | later
    · revert n
      decide
    · rw [still n later]
      rfl
  have last : ((tidy.showing all).course unhurried 14).service.step?.isNone = true ∧
      ((tidy.showing all).course unhurried 14).service.session.schedule.pending.isEmpty = true ∧
      ((tidy.showing all).course unhurried 14).outcome? ≠ none := by
    revert all
    decide +kernel
  obtain ⟨done, empty, back⟩ := last
  have done := Option.isNone_iff_eq_none.mp done
  have patient : ∀ n ≤ 14, .watchdog (tidy.showing all).id ∉
      (tidy.showing all).endings (firstTurns unhurried n) := by
    revert all
    decide +kernel
  have keepsUp : ∀ n ≤ 14, ((tidy.showing all).course unhurried n).service.session.capture.backlog
      ((tidy.showing all).course unhurried n).service.session.console ≤
        ((tidy.showing all).course unhurried n).service.session.console.ring := by
    revert all
    decide +kernel
  exact ⟨undisturbed_of_settled still done own patient keepsUp,
    fair_of_settled still done (List.isEmpty_iff.mp empty) back⟩

theorem tidy_shows_lineFeed_more :
    ∃ n m r t, (tidy.showing false).outcome? (firstTurns unhurried n) = some (.ok (.finished r)) ∧
      (tidy.showing true).outcome? (firstTurns unhurried m) = some (.ok (.finished t)) ∧
      Report.SameButEnd (r.succeeded = true ∧ tidy.said ≠ []) r t := by
  obtain ⟨undisturbed, fair⟩ := undisturbed_tidy false
  obtain ⟨undisturbed', fair'⟩ := undisturbed_tidy true
  exact (shows_lineFeed_more tidy).2 unhurried unhurried undisturbed undisturbed' fair fair'

end Errand

end BuildSupervisor
