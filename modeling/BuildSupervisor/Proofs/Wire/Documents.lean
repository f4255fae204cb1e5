import BuildSupervisor.Proofs.Text.Utf8
import BuildSupervisor.Proofs.Time.Timestamp
import BuildSupervisor.Proofs.Wire.Faithful
import BuildSupervisor.Wire.Session
/-!
# Documents are read back

Every kind of document is read back from its written form: results, events and notifications,
requests and answers, states and configurations.  `Codec.documents_read_back` lists them with what
the values have to satisfy: numbers of 64 bits, paths that are texts, and timestamps that are
written with four digits for the year.
-/

namespace BuildSupervisor

/-- The number of a build that an answer tells. -/
def StartOutcome.told : StartOutcome → BuildId
  | .accepted id => id
  | .busy active => active

namespace Codec

namespace Faithful

/-! ### Events -/

theorem severity : Codec.severity.Faithful (· ∈ [.error, .warning, .note]) :=
  .choice (by decide)

theorem diagnostic : Codec.diagnostic.Faithful fun _ => True := by
  constructor
  · intro d
    refine .object ?_
    simp only [List.forall_mem_cons]
    exact ⟨.text _, word32.sound _, word32.sound _, severity.sound _, .text _, nofun⟩
  · intro rules d _
    have known : d.severity ∈ [.error, .warning, .note] := by cases d.severity <;> decide
    have read : fields rules ["sourceFile", "line", "column", "severity", "message"]
        (Codec.diagnostic.encode d) = _ := fields_object rules rfl (by decide)
    have line := word32.required rules (a := d.line) trivial
    have column := word32.required rules (a := d.column) trivial
    have grave := severity.required rules known
    unfold Codec.diagnostic at read ⊢
    simp only [read, List.map_cons, List.map_nil, line, column, grave]
    rfl

theorem count : Codec.count.Faithful (· < UInt64.size) :=
  natural UInt64.size

theorem summary : Codec.summary.Faithful fun s =>
    s.errors < UInt64.size ∧ s.warnings < UInt64.size ∧ s.notes < UInt64.size := by
  constructor
  · intro s
    refine .object ?_
    simp only [List.forall_mem_cons]
    exact ⟨count.sound _, count.sound _, count.sound _, nofun⟩
  · rintro rules s ⟨errors, warnings, notes⟩
    have read : fields rules ["errors", "warnings", "notes"] (Codec.summary.encode s) = _ :=
      fields_object rules rfl (by decide)
    unfold Codec.summary at read ⊢
    simp only [read, List.map_cons, List.map_nil, count.required rules errors,
      count.required rules warnings, count.required rules notes]
    rfl

theorem outputKind : Codec.outputKind.Faithful (· ∈ [.normal, .error]) :=
  .choice (by decide)

theorem outputKind_mem (kind : OutputKind) : kind ∈ [OutputKind.normal, .error] := by
  cases kind <;> decide

theorem chunk : Codec.chunk.Faithful fun _ => True := by
  constructor
  · intro c
    refine .object ?_
    simp only [List.forall_mem_cons]
    exact ⟨outputKind.sound _, .text _, nofun⟩
  · intro rules c _
    have read : fields rules ["channel", "text"] (Codec.chunk.encode c) = _ :=
      fields_object rules rfl (by decide)
    unfold Codec.chunk at read ⊢
    simp only [read, List.map_cons, List.map_nil,
      outputKind.required rules (outputKind_mem c.stream)]
    rfl

theorem output : Codec.output.Faithful fun _ => True := by
  constructor
  · intro o
    refine .object ?_
    simp only [List.forall_mem_cons]
    exact ⟨outputKind.sound _, .text _, nofun⟩
  · intro rules o _
    have read : fields rules ["kind", "text"] (Codec.output.encode o) = _ :=
      fields_object rules rfl (by decide)
    unfold Codec.output at read ⊢
    simp only [read, List.map_cons, List.map_nil,
      outputKind.required rules (outputKind_mem o.kind)]
    rfl

theorem buildResult : Codec.buildResult.Faithful fun _ => True := by
  constructor
  · intro r
    refine .object ?_
    simp only [List.forall_mem_cons]
    exact ⟨.text _, output.list.sound _, diagnostic.list.sound _, nofun⟩
  · intro rules r _
    have read : fields rules ["targetFile", "outputs", "errors"] (Codec.buildResult.encode r) = _ :=
      fields_object rules rfl (by decide)
    have outputs := output.list.required rules (a := r.outputs) fun _ _ => trivial
    have errors := diagnostic.list.required rules (a := r.diagnostics) fun _ _ => trivial
    unfold Codec.buildResult at read ⊢
    simp only [read, List.map_cons, List.map_nil, outputs, errors]
    rfl

theorem event : Codec.event.Faithful fun _ => True := by
  constructor
  · intro e
    cases e with
    | started =>
      refine .object ?_
      simp only [List.forall_mem_cons]
      exact ⟨.text _, nofun⟩
    | completed r =>
      refine .object ?_
      simp only [List.forall_mem_cons]
      exact ⟨.text _, buildResult.sound _, nofun⟩
  · intro rules e _
    cases e with
    | started => rfl
    | completed r =>
      have result := buildResult.required rules (a := r) trivial
      change (eventNamed rules "build_completed" (some (Codec.buildResult.encode r))) = _
      unfold eventNamed
      rw [if_neg (by decide), if_pos rfl, result]
      rfl

theorem timestamp : Codec.timestamp.Faithful Timestamp.IsCommon :=
  ⟨fun t => .text t.render, fun _ _ common => Timestamp.ofText?_render common⟩

theorem number : Codec.number.Faithful (· < UInt64.size) :=
  natural UInt64.size

theorem envelope : Codec.envelope.Faithful fun e =>
    e.notification.sequence < UInt64.size ∧ e.notification.buildId < UInt64.size ∧
      e.timestamp.IsCommon := by
  constructor
  · intro e
    refine .object ?_
    simp only [List.forall_mem_cons]
    exact ⟨.text _, number.sound _, number.sound _, timestamp.sound _, event.sound _, nofun⟩
  · rintro rules e ⟨sequence, build, common⟩
    have read : fields rules ["id", "sequence", "build_id", "timestamp", "event"]
        (Codec.envelope.encode e) = _ := fields_object rules rfl (by decide)
    have told := event.required rules.inside (a := e.notification.event) trivial
    unfold Codec.envelope at read ⊢
    simp only [read, List.map_cons, List.map_nil, number.required rules sequence,
      number.required rules build, timestamp.required rules common, told]
    rfl

/-! ### Sessions -/

theorem path : Codec.path.Faithful Path.IsText :=
  ⟨fun p => .text p.text, fun _ _ isText => congrArg some isText.ofText_text⟩

theorem buildRequest : Codec.buildRequest.Faithful fun r => r.targetFile.IsText := by
  constructor
  · intro r
    refine .object ?_
    simp only [List.forall_mem_cons]
    exact ⟨path.sound _, .bool _, .bool _, nofun⟩
  · intro rules r isText
    have read : fields rules ["target_file", "from_code", "show_output"]
        (Codec.buildRequest.encode r) = _ := fields_object rules rfl (by decide)
    unfold Codec.buildRequest at read ⊢
    simp only [read, List.map_cons, List.map_nil, path.required rules isText]
    rfl

theorem busy : Codec.busy.Faithful (· < UInt64.size) := by
  constructor
  · intro active
    refine .object ?_
    simp only [List.forall_mem_cons]
    exact ⟨number.sound _, nofun⟩
  · intro rules active small
    have read : fields rules ["active"] (Codec.busy.encode active) = _ :=
      fields_object rules rfl (by decide)
    unfold Codec.busy at read ⊢
    simp only [read, List.map_cons, List.map_nil, number.required rules small]

theorem startOutcome : Codec.startOutcome.Faithful fun o => o.told < UInt64.size := by
  constructor
  · intro o
    cases o with
    | accepted id =>
      refine .object ?_
      simp only [List.forall_mem_cons]
      exact ⟨number.sound _, nofun⟩
    | busy active =>
      refine .object ?_
      simp only [List.forall_mem_cons]
      exact ⟨busy.sound _, nofun⟩
  · intro rules o small
    cases o with
    | accepted id =>
      change ((Codec.number.decode rules (Codec.number.encode id)).map StartOutcome.accepted) = _
      rw [number.decode_encode rules id small, Option.map_some]
    | busy active =>
      change ((Codec.busy.decode rules (Codec.busy.encode active)).map StartOutcome.busy) = _
      rw [busy.decode_encode rules active small, Option.map_some]

theorem sessionState : Codec.sessionState.Faithful (· ∈ [.idle, .building, .completionPending]) :=
  .choice (by decide)

theorem sessionStatus : Codec.sessionStatus.Faithful fun s =>
    (∀ id ∈ s.buildId, id < UInt64.size) ∧ ∀ target ∈ s.targetFile, target.IsText := by
  have build : Codec.number.nullable.Faithful _ := number.nullable nofun
  have target : Codec.path.nullable.Faithful _ := path.nullable nofun
  constructor
  · intro s
    refine .object ?_
    simp only [List.forall_mem_cons]
    exact ⟨sessionState.sound _, build.sound _, target.sound _, nofun⟩
  · rintro rules s ⟨small, isText⟩
    have known : s.state ∈ [.idle, .building, .completionPending] := by cases s.state <;> decide
    have read : fields rules ["state", "build_id", "target_file"]
        (Codec.sessionStatus.encode s) = _ := fields_object rules rfl (by decide)
    unfold Codec.sessionStatus at read ⊢
    simp only [read, List.map_cons, List.map_nil, sessionState.required rules known,
      build.orNull rules small, target.orNull rules isText]
    rfl

theorem toolchain : Codec.toolchain.Faithful fun t => ∀ dir ∈ t.dirs, dir.IsText := by
  constructor
  · intro t
    refine .object ?_
    simp only [List.forall_mem_cons]
    exact ⟨.text _, path.list.sound _, nofun⟩
  · intro rules t isText
    have read : optionalFields rules ["name", "dirs"] (Codec.toolchain.encode t) = _ :=
      optionalFields_object rules rfl (by decide)
    unfold Codec.toolchain at read ⊢
    simp only [read, List.map_cons, List.map_nil, path.list.orElse [] rules isText]
    rfl

theorem reentryPolicy : Codec.reentryPolicy.Faithful (· ∈ [.replace, .reject]) :=
  .choice (by decide)

theorem dialect : Codec.dialect.Faithful (· ∈ [.gcc, .rustc]) :=
  .choice (by decide)

theorem config (missing : Config) : (Codec.config missing).Faithful fun c =>
    (∀ dir ∈ c.toolchain.dirs, dir.IsText) ∧ ∀ home ∈ c.homeDir, home.IsText := by
  have home : Codec.path.nullable.Faithful _ := path.nullable nofun
  constructor
  · intro c
    refine .object ?_
    simp only [List.forall_mem_cons]
    exact ⟨word64.sound _, word64.sound _, reentryPolicy.sound _, dialect.sound _, .text _, .bool _,
      toolchain.sound _, home.sound _, nofun⟩
  · rintro rules c ⟨dirs, isText⟩
    have policy : c.reentry ∈ [.replace, .reject] := by cases c.reentry <;> decide
    have words : c.dialect ∈ [.gcc, .rustc] := by cases c.dialect <;> decide
    have read : optionalFields rules configNames ((Codec.config missing).encode c) = _ :=
      optionalFields_object rules rfl (by decide)
    have delay := word64.orElse missing.completionDelayMs rules (a := c.completionDelayMs) trivial
    have timeout :=
      word64.orElse missing.watchdogTimeoutSecs rules (a := c.watchdogTimeoutSecs) trivial
    unfold Codec.config at read ⊢
    simp only [read, List.map_cons, List.map_nil, delay, timeout,
      reentryPolicy.orElse missing.reentry rules policy, dialect.orElse missing.dialect rules words,
      toolchain.orElse missing.toolchain rules dirs, home.orElse missing.homeDir rules isText]
    rfl

end Faithful

/-- Every kind of document is read back from its written form, and a text that was read as one is
    written anew in a form that stays the same. -/
theorem documents_read_back :
    buildResult.ReadsBack (fun _ => True) ∧
      output.ReadsBack (fun _ => True) ∧
      event.ReadsBack (fun _ => True) ∧
      envelope.ReadsBack (fun e => e.notification.sequence < UInt64.size ∧
        e.notification.buildId < UInt64.size ∧ e.timestamp.IsCommon) ∧
      diagnostic.ReadsBack (fun _ => True) ∧
      summary.ReadsBack (fun s =>
        s.errors < UInt64.size ∧ s.warnings < UInt64.size ∧ s.notes < UInt64.size) ∧
      chunk.ReadsBack (fun _ => True) ∧
      startOutcome.ReadsBack (fun o => o.told < UInt64.size) ∧
      sessionStatus.ReadsBack (fun s =>
        (∀ id ∈ s.buildId, id < UInt64.size) ∧ ∀ target ∈ s.targetFile, target.IsText) ∧
      buildRequest.ReadsBack (fun r => r.targetFile.IsText) ∧
      (∀ missing, (config missing).ReadsBack fun c =>
        (∀ dir ∈ c.toolchain.dirs, dir.IsText) ∧ ∀ home ∈ c.homeDir, home.IsText) ∧
      toolchain.ReadsBack (fun t => ∀ dir ∈ t.dirs, dir.IsText) := by
  refine ⟨Faithful.buildResult.readsBack, Faithful.output.readsBack, Faithful.event.readsBack,
    Faithful.envelope.readsBack, Faithful.diagnostic.readsBack, Faithful.summary.readsBack,
    Faithful.chunk.readsBack, Faithful.startOutcome.readsBack, Faithful.sessionStatus.readsBack,
    Faithful.buildRequest.readsBack, fun missing => (Faithful.config missing).readsBack,
    Faithful.toolchain.readsBack⟩

/-- The end of a build in the last second of a leap day. -/
def lateNotice : Envelope :=
  ⟨"a\n\"", ⟨2024, 2, 29, 23, 59, 59, 120000000⟩,
    ⟨18446744073709551615, 7, .completed ⟨"~/x", [⟨.error, "\x07é"⟩], []⟩⟩⟩

theorem lateNotice_reads_back :
    lateNotice.notification.sequence < UInt64.size ∧
      lateNotice.notification.buildId < UInt64.size ∧ lateNotice.timestamp.IsCommon ∧
      envelope.read? (envelope.write lateNotice) = some lateNotice := by
  have sequence : lateNotice.notification.sequence < UInt64.size := by decide
  have build : lateNotice.notification.buildId < UInt64.size := by decide
  have common : lateNotice.timestamp.IsCommon :=
    ⟨by decide, by decide, by decide, by decide⟩
  obtain ⟨-, -, -, notice, -⟩ := documents_read_back
  exact ⟨sequence, build, common, notice.read_write lateNotice ⟨sequence, build, common⟩⟩

/-- A notification as it is sent: a fraction has as few digits as are exact, and the start of a
    build has no contents. -/
example : envelope.write
    ⟨"a\n\"", ⟨2024, 2, 29, 23, 0, 5, 120000000⟩, ⟨1, 18446744073709551615, .started⟩⟩ =
      "\x7b\"id\":\"a\\n\\\"\",\"sequence\":1,\"build_id\":18446744073709551615," ++
        "\"timestamp\":\"2024-02-29T23:00:05.120Z\"," ++
        "\"event\":\x7b\"type\":\"build_started\"\x7d\x7d" := by
  decide +kernel

end Codec

end BuildSupervisor
