import BuildSupervisor.Proofs.Console.Sifting
import BuildSupervisor.Proofs.Diagnostic.Significant
import BuildSupervisor.Proofs.Session.Outcome
/-!
# Diagnostics in one line stay where they are

A diagnostic in one line does not depend on the lines around it, and not on how its line ends.  So
the diagnostics of two texts, one below the other, are those of the one and those of the other, and
where every chunk ends its line, those of a capture are those of its chunks;
`Gcc.diagnostics_local` says so, and what follows for the results that a session publishes.
-/

namespace BuildSupervisor

namespace Text

variable {α : Type u} {β : Type v}

/-- A reader that is not misled by what ends a line, and finds nothing on a blank one, reads the
    pieces of a text. -/
theorem filterMap_terminated {f : List α → List α} {read : List α → Option β}
    (same : ∀ s, read (f s) = read s) (blank : read [] = none) (pieces : List (List α)) :
    (terminated f pieces).filterMap read = pieces.filterMap read := by
  fun_induction terminated f pieces with
  | case1 => rfl
  | case2 => rw [List.filterMap_cons_none blank]
  | case3 piece => rfl
  | case4 piece pieces _ _ ih => rw [List.filterMap_cons, List.filterMap_cons, same, ih]

/-- What is ended by a line feed is the text, or a text that has one there already. -/
theorem exists_endLine (text : String) :
    ∃ start, endLine text = start ++ "\n" ∧ (text = start ∨ text = start ++ "\n") := by
  unfold endLine
  split
  · rename_i last
    obtain ⟨start, whole⟩ := List.getLast?_eq_some_iff.mp last
    have ended : text = String.ofList start ++ "\n" := by
      rw [← String.toList_inj, whole]
      simp
    exact ⟨String.ofList start, ended, .inr ended⟩
  · exact ⟨text, rfl, .inl rfl⟩

end Text

namespace Gcc

open Text

variable {base : Path}

/-! ### Texts -/

theorem parseLine?_dropLastIf (line : List Char) (base : Path) :
    parseLine? (dropLastIf '\r' line) base = parseLine? line base := by
  rw [parseLine?, parseLine?, dropEndWhile_dropLastIf rfl]

/-- The diagnostics of a text are those of its pieces between the line feeds. -/
theorem parse_eq_pieces (text : String) (base : Path) :
    Dialect.gcc.parse text base = (cut '\n' text.toList).filterMap (parseLine? · base) :=
  filterMap_terminated (parseLine?_dropLastIf · base) rfl _

/-- The diagnostics of two texts, one below the other. -/
theorem parse_append (first second : String) (base : Path) :
    Dialect.gcc.parse (first ++ "\n" ++ second) base =
      Dialect.gcc.parse first base ++ Dialect.gcc.parse second base := by
  have text : (first ++ "\n" ++ second).toList = first.toList ++ '\n' :: second.toList := by simp
  rw [parse_eq_pieces, text, cut_append_cons, List.filterMap_append, ← parse_eq_pieces,
    ← parse_eq_pieces]

theorem parse_lineFeed (text : String) (base : Path) :
    Dialect.gcc.parse (text ++ "\n") base = Dialect.gcc.parse text base := by
  have whole := parse_append text "" base
  rw [String.append_empty] at whole
  exact whole.trans (List.append_nil _)

/-- A text that is ended by a line feed keeps its diagnostics apart from those that follow. -/
theorem parse_endLine_append (text rest : String) (base : Path) :
    Dialect.gcc.parse (endLine text ++ rest) base =
      Dialect.gcc.parse text base ++ Dialect.gcc.parse rest base := by
  obtain ⟨start, ended, same⟩ := exists_endLine text
  rw [ended, parse_append]
  rcases same with rfl | rfl
  · rfl
  · rw [parse_lineFeed]

/-! ### Chunks -/

/-- The diagnostics of the chunks of one stream, chunk by chunk. -/
def chunkDiagnostics (base : Path) (stream : OutputKind) (chunks : List Chunk) : List Diagnostic :=
  (chunks.filter fun c => c.stream = stream).flatMap fun c => Dialect.gcc.parse c.text base

theorem parse_transcript (stream : OutputKind) (chunks : List Chunk) (base : Path) :
    Dialect.gcc.parse (transcript true stream chunks) base = chunkDiagnostics base stream chunks := by
  unfold transcript chunkDiagnostics
  induction chunks.filter fun c => c.stream = stream with
  | nil => rfl
  | cons c rest ih =>
    rw [List.map_cons, String.join_cons, List.flatMap_cons, ← ih]
    exact parse_endLine_append c.text _ base

end Gcc

namespace Capture

theorem foldl_append_of_subscribed {cap : Capture} (subscribed : cap.isSubscribed = true)
    (chunks : List Chunk) : chunks.foldl append cap = cap.pushAll chunks := by
  induction chunks generalizing cap with
  | nil => rfl
  | cons c rest ih =>
    have first : cap.append c = cap.push c.stream (textOf cap.endLines c) := if_pos subscribed
    rw [List.foldl_cons, first, ih]
    · rfl
    · rw [isSubscribed, subscription_push]
      exact subscribed

/-- A capture that ends every line holds the diagnostics of its chunks, and no others. -/
theorem Holds.parse {cap : Capture} {chunks : List Chunk} (h : cap.Holds chunks)
    (ends : cap.endLines = true) (stream : OutputKind) (base : Path) :
    Dialect.gcc.parse (cap.gathered stream) base = Gcc.chunkDiagnostics base stream chunks := by
  rw [h stream, ends, Gcc.parse_transcript]

end Capture

namespace Session

/-! ### Results -/

/-- The build was accepted in the run, when it was asked for like this. -/
def AskedFor (first : Session) (ops : List Operation) (request : BuildRequest) (id : BuildId) :
    Prop :=
  ∃ before located after, ops = before ++ .start located request :: after ∧
    ((first.run before).start located request).1 = .ok (.accepted id)

theorem AskedFor.concat {first : Session} {ops : List Operation} {request : BuildRequest}
    {id : BuildId} (h : AskedFor first ops request id) (op : Operation) :
    AskedFor first (ops ++ [op]) request id := by
  obtain ⟨before, located, after, rfl, accepted⟩ := h
  refine ⟨before, located, after ++ [op], ?_, accepted⟩
  rw [List.append_assoc, List.cons_append]

/-- The build at hand is one that was asked for. -/
theorem askedFor_active {first : Session} (rest : first.active = none) (ops : List Operation) :
    ∀ build, (first.run ops).active = some build →
      AskedFor first ops build.request build.id := by
  refine run_induction (P := fun ops s => ∀ build, s.active = some build →
    AskedFor first ops build.request build.id) ?_ ?_ ops
  · intro build active
    rw [rest] at active
    cases active
  · intro ops op s run ih build there
    have effect := effect_apply s op
    generalize answered : (s.apply op).1 = answer at effect
    generalize (s.apply op).2 = t at effect there
    cases effect with
    | kept _ _ _ books => exact (ih build (books.active ▸ there)).concat op
    | discarded books =>
      rw [books.active] at there
      cases there
    | aborted located request books =>
      rw [books.active] at there
      cases there
    | accepted located request books =>
      rw [books.active] at there
      cases there
      refine ⟨ops, located, [], rfl, ?_⟩
      rw [run]
      exact Answer.started.inj answered
    | reported now succeeded said active _ books =>
      rw [books.active] at there
      cases there
      exact (ih now active).concat _
    | ended now result active _ _ _ books =>
      rw [books.active] at there
      cases there

end Session

namespace Gcc

/-- The result shows a normal text and an error text, and its diagnostics are those of the one and,
    behind them, those of the other. -/
def ReadsApart (base : Path) (result : BuildResult) : Prop :=
  ∃ shown errors others, result.outputs = ⟨.normal, shown⟩ :: ⟨.error, errors⟩ :: others ∧
    result.diagnostics = Dialect.gcc.parse shown base ++ Dialect.gcc.parse errors base

theorem readsApart_resultOf (config : Config) {build : ActiveBuild}
    (file : build.request.fromCode = false) (stdout stderr : String) (succeeded : Bool)
    (reported : String) (note : Option String) :
    ReadsApart build.request.targetFile.baseDirectory
      (Session.resultOf config .gcc build stdout stderr succeeded reported note) := by
  refine ⟨_, _, _, rfl, ?_⟩
  simp only [Session.resultOf, Session.diagnosticsOf, file, Bool.false_eq_true, if_false]
  exact parse_append _ _ _

end Gcc

namespace Session

/-- Whatever ends the build at hand gives it a result of which the two texts are read apart. -/
theorem Ends.readsApart {s : Session} {build : ActiveBuild} {task : Deferred} {result : BuildResult}
    (ends : Ends s build task result) (gcc : s.dialect = .gcc)
    (file : build.request.fromCode = false) :
    Gcc.ReadsApart build.request.targetFile.baseDirectory result := by
  cases ends with
  | reported succeeded said _ =>
    unfold finish
    dsimp only
    rw [gcc]
    exact Gcc.readsApart_resultOf _ file _ _ _ _ _
  | expired _ =>
    unfold finish
    dsimp only
    rw [gcc]
    exact Gcc.readsApart_resultOf _ file _ _ _ _ _

/-- Every result that is published is that of a build which was asked for, and its two texts are
    read apart unless the target is code. -/
theorem readsApart_run {first : Session} (prepared : Prepared first) (rest : first.active = none)
    (unheard : first.events.log = []) (gcc : first.dialect = .gcc) (ops : List Operation) :
    ∀ n ∈ (first.run ops).events.log, ∀ result, n.event = .completed result →
      ∃ request, AskedFor first ops request n.buildId ∧
        (request.fromCode = false →
          Gcc.ReadsApart request.targetFile.baseDirectory result) := by
  refine run_induction (P := fun ops s => ∀ n ∈ s.events.log, ∀ result,
    n.event = .completed result → ∃ request, AskedFor first ops request n.buildId ∧
      (request.fromCode = false → Gcc.ReadsApart request.targetFile.baseDirectory result))
    ?_ ?_ ops
  · intro n mem
    rw [unheard] at mem
    cases mem
  · intro ops op s run ih n mem result event
    have prepared : Prepared s := run ▸ prepared_run prepared ops
    rcases log_apply prepared.booked (effect_apply s op) event mem with old | ⟨published, _⟩
    · obtain ⟨request, asked, apart⟩ := ih n old result event
      exact ⟨request, asked.concat op, apart⟩
    · obtain ⟨number, id, _⟩ := n
      cases event
      obtain ⟨task, build, _, active, same, ends⟩ := published_result prepared published
      have asked : AskedFor first ops build.request id := by
        rw [← same]
        exact askedFor_active rest ops build (run ▸ active)
      have dialect : s.dialect = .gcc := by
        rw [← run, (BuildRun.settings_run first ops).2, gcc]
      exact ⟨build.request, asked.concat op, ends.readsApart dialect⟩

end Session

namespace Gcc

/-- Two texts, one below the other, hold the diagnostics of the first and then those of the second,
    so that every result of a build that reads this dialect has those of the text it shows and then
    those of its error text.  A capture that ends every line holds, for each stream, the diagnostics
    of its chunks, chunk by chunk, wherever the chunks are cut. -/
theorem diagnostics_local (base : Path) :
    (∀ first second, Dialect.gcc.parse (first ++ "\n" ++ second) base =
      Dialect.gcc.parse first base ++ Dialect.gcc.parse second base) ∧
    (∀ config environment console ops,
      let first := Session.new config .gcc environment console
      ∀ n ∈ (first.run ops).events.log, ∀ result, n.event = .completed result →
        ∃ request, Session.AskedFor first ops request n.buildId ∧
          (request.fromCode = false → ReadsApart request.targetFile.baseDirectory result)) ∧
    ∀ (cap : Capture) (before chunks : List Chunk), cap.isSubscribed = true → cap.endLines = true →
      cap.Holds before → ∀ stream,
      Dialect.gcc.parse ((chunks.foldl Capture.append cap).gathered stream) base =
        chunkDiagnostics base stream before ++ chunkDiagnostics base stream chunks := by
  refine ⟨fun first second => parse_append first second base, ?_, ?_⟩
  · intro config environment console ops
    exact Session.readsApart_run (Session.prepared_new config .gcc environment console) rfl rfl rfl
      ops
  · intro cap before chunks subscribed ends holds stream
    have ends' : (cap.pushAll chunks).endLines = true :=
      (Capture.endLines_pushAll cap chunks).trans ends
    rw [Capture.foldl_append_of_subscribed subscribed,
      (Capture.holds_pushAll holds chunks).parse ends' stream base]
    simp only [chunkDiagnostics, List.filter_append, List.flatMap_append]

/-- Two chunks that break off, one of them behind a carriage return, and one that goes on after a
    line of its own. -/
def torn : List Chunk :=
  [⟨.error, "a.c:1: error: x\r"⟩, ⟨.normal, "b.c:2:3: note: y"⟩, ⟨.error, "\nc.c:4: warning: z\n"⟩]

/-- Each stream has its line ends where its chunks end, and nowhere else. -/
example : chunkDiagnostics ⟨[]⟩ .error torn =
    [⟨"a.c", 1, 1, .error, "x"⟩, ⟨"c.c", 4, 1, .warning, "z"⟩] := by
  decide +kernel

/-- A capture that has just begun to read, and ends every line. -/
def attentive : Capture :=
  { Capture.new true with subscription := some ⟨0⟩ }

theorem torn_local :
    (∃ request, Session.AskedFor
        (Session.new BuildRun.failing.config .gcc BuildRun.failing.environment
          BuildRun.failing.console)
        (.start BuildRun.failing.located BuildRun.failing.request ::
          BuildRun.failing.middle ++ [BuildRun.failing.last]) request 1 ∧
        (request.fromCode = false →
          ReadsApart request.targetFile.baseDirectory BuildRun.failure)) ∧
      Dialect.gcc.parse ((torn.foldl Capture.append attentive).gathered .error) ⟨[]⟩ =
        chunkDiagnostics ⟨[]⟩ .error [] ++ chunkDiagnostics ⟨[]⟩ .error torn := by
  obtain ⟨-, results, chunks⟩ := diagnostics_local ⟨[]⟩
  constructor
  · exact results BuildRun.failing.config BuildRun.failing.environment BuildRun.failing.console
      (.start BuildRun.failing.located BuildRun.failing.request ::
        BuildRun.failing.middle ++ [BuildRun.failing.last])
      ⟨2, 1, .completed BuildRun.failure⟩ (by decide +kernel) BuildRun.failure rfl
  · exact chunks attentive [] torn rfl rfl (fun stream => by cases stream <;> rfl) .error

end Gcc

end BuildSupervisor
