import BuildSupervisor.Proofs.Diagnostic.BlankLine
import BuildSupervisor.Proofs.Diagnostic.LineGrammar
import BuildSupervisor.Report
import Mathlib.Data.List.Chain
/-!
# Rendered diagnostics are read back

A diagnostic is rendered without quotes, so that the colons and digits of its file name stand beside
those that divide the line.  `Diagnostic.IsRenderable` says which diagnostics survive this, and
`Gcc.renderable_reads_back` that a renderable diagnostic is read back from its line, and those of a
report from the whole report, the line on how the build ended adding none.
-/

namespace BuildSupervisor

open Text

/-- A diagnostic that can be read back from its rendered form, seen from the directory `base`: its
    file has no colon right before a digit and is not changed by the base directory, its message
    has no blanks around it, and neither holds a line feed. -/
structure Diagnostic.IsRenderable (base : Path) (d : Diagnostic) : Prop where
  file_ne_nil : d.sourceFile.toList ≠ []
  file_plain : '\n' ∉ d.sourceFile.toList
  file_calm : d.sourceFile.toList.IsChain fun c next => c = ':' → isDecimalDigit next = false
  file_fixed : isAbsoluteText d.sourceFile.toList = true ∨ base.isEmpty = true
  message_plain : '\n' ∉ d.message.toList
  message_start : ∀ c ∈ d.message.toList.head?, isBlank c = false
  message_end : ∀ c ∈ d.message.toList.getLast?, isBlank c = false

theorem Diagnostic.isRenderable_iff {base : Path} {d : Diagnostic} :
    d.IsRenderable base ↔
      d.sourceFile.toList ≠ [] ∧ '\n' ∉ d.sourceFile.toList ∧
        (d.sourceFile.toList.IsChain fun c next => c = ':' → isDecimalDigit next = false) ∧
        (isAbsoluteText d.sourceFile.toList = true ∨ base.isEmpty = true) ∧
        '\n' ∉ d.message.toList ∧ d.message.toList.head?.all (!isBlank ·) = true ∧
        d.message.toList.getLast?.all (!isBlank ·) = true := by
  have shown (o : Option Char) :
      o.all (!isBlank ·) = true ↔ ∀ c ∈ o, isBlank c = false := by
    cases o <;> simp
  rw [shown, shown]
  constructor
  · rintro ⟨some_, plain, calm, fixed, plain', start, end_⟩
    exact ⟨some_, plain, calm, fixed, plain', start, end_⟩
  · rintro ⟨some_, plain, calm, fixed, plain', start, end_⟩
    exact ⟨some_, plain, calm, fixed, plain', start, end_⟩

instance (base : Path) (d : Diagnostic) : Decidable (d.IsRenderable base) :=
  decidable_of_iff _ Diagnostic.isRenderable_iff.symm

namespace Gcc

/-! ### One diagnostic -/

theorem isBlank_of_isLineEnd {c : Char} (h : isLineEnd c = true) : isBlank c = true := by
  have : c = '\r' ∨ c = '\n' := by simpa [isLineEnd] using h
  rcases this with rfl | rfl <;> rfl

/-- A rendered diagnostic, taken apart as it was put together. -/
def renderedSplit {base : Path} {d : Diagnostic} (h : d.IsRenderable base) : Split where
  file := d.sourceFile.toList
  line := Nat.toDigits 10 d.line.toNat
  column := some (Nat.toDigits 10 d.column.toNat)
  gap := [' ']
  keyword := d.severity.name
  lead := [' ']
  message := d.message.toList
  file_ne_nil := h.file_ne_nil
  file_plain := h.file_plain
  line_run := isRun_toDigits d.line.toNat
  column_run := by
    intro digits mem
    cases mem
    exact isRun_toDigits d.column.toNat
  gap_blank := List.all_eq_true.mp (by decide)
  keyword_mem := by cases d.severity <;> decide
  lead_blank := List.all_eq_true.mp (by decide)
  message_stops := h.message_start
  message_plain := h.message_plain

theorem text_renderedSplit {base : Path} {d : Diagnostic} (h : d.IsRenderable base) :
    (renderedSplit h).text = d.render.toList := by
  simp [renderedSplit, Split.text, Split.behind, Split.columnText, Split.verdict, Split.said,
    Diagnostic.render, toList_showNat]

/-- No colon of the file name can be taken for the one behind it. -/
theorem isShortest_renderedSplit {base : Path} {d : Diagnostic} (h : d.IsRenderable base) :
    (renderedSplit h).IsShortest d.render.toList := by
  refine ⟨text_renderedSplit h, fun q same => Nat.le_of_not_lt fun shorter => ?_⟩
  change q.file.length < d.sourceFile.toList.length at shorter
  obtain ⟨digit, digits, line⟩ := List.exists_cons_of_ne_nil q.line_run.ne_nil
  have isDigit : isDecimalDigit digit = true := q.line_run.all digit (line ▸ List.mem_cons_self)
  have split_ : q.file ++ ':' :: digit :: (digits ++ ':' :: (q.columnText ++ q.verdict)) =
      d.sourceFile.toList ++ ':' :: (Nat.toDigits 10 d.line.toNat ++
        ':' :: ((renderedSplit h).columnText ++ (renderedSplit h).verdict)) := by
    rw [← text_renderedSplit h] at same
    simp only [Split.text, Split.behind, line, List.cons_append, List.append_assoc] at same
    exact same
  rcases List.append_eq_append_iff.mp split_ with ⟨more, file, rest⟩ | ⟨more, file, -⟩
  · cases more with
    | nil =>
      rw [file, List.append_nil] at shorter
      exact absurd shorter (Nat.lt_irrefl _)
    | cons c more =>
      obtain ⟨colon, rest⟩ := List.cons.inj rest
      cases more with
      | nil =>
        rw [(List.cons.inj rest).1] at isDigit
        exact absurd isDigit (by decide)
      | cons next more =>
        have same : digit = next := (List.cons.inj rest).1
        have calm := h.file_calm
        rw [file, List.isChain_append, List.isChain_cons_cons] at calm
        rw [same, calm.2.1.1 colon.symm] at isDigit
        cases isDigit
  · rw [file, List.length_append] at shorter
    omega

theorem ofKeyword?_name (s : Severity) : Severity.ofKeyword? s.name = some s := by
  cases s <;> decide

theorem says_renderedSplit {base : Path} {d : Diagnostic} (h : d.IsRenderable base) :
    (renderedSplit h).Says base d where
  file := by
    have fixed : (isAbsoluteText d.sourceFile.toList || base.isEmpty) = true := by
      simpa using h.file_fixed
    change d.sourceFile = resolveSource d.sourceFile.toList base
    rw [resolveSource, if_pos fixed, String.ofList_toList]
  line := writes_toDigits d.line.toNat
  column := writes_toDigits d.column.toNat
  severity := ofKeyword?_name d.severity
  message := by
    change d.message = String.ofList (dropEndWhile isBlank d.message.toList)
    rw [dropEndWhile_eq_self h.message_end, String.ofList_toList]

/-- A rendered diagnostic ends with its message, or else with a blank, but with no line end. -/
theorem getLast?_render {base : Path} {d : Diagnostic} (h : d.IsRenderable base) :
    ∀ c ∈ d.render.toList.getLast?, isLineEnd c = false := by
  intro c last
  have whole : d.render.toList = (d.sourceFile ++ ":" ++ showNat d.line.toNat ++ ":" ++
      showNat d.column.toNat ++ ": " ++ d.severity.name ++ ":").toList ++
        (' ' :: d.message.toList) := by
    simp [Diagnostic.render]
  rw [whole, List.getLast?_append] at last
  cases message : d.message.toList with
  | nil =>
    rw [message] at last
    cases last
    rfl
  | cons first more =>
    have blank : isBlank c = false := by
      refine h.message_end c ?_
      rw [message] at last ⊢
      simpa using last
    rw [Bool.eq_false_iff] at blank ⊢
    exact fun ends => blank (isBlank_of_isLineEnd ends)

theorem parseLine?_render {base : Path} {d : Diagnostic} (h : d.IsRenderable base) :
    parseLine? d.render.toList base = some d := by
  refine parseLine?_eq_some_iff.mpr ⟨renderedSplit h, ?_, says_renderedSplit h⟩
  rw [dropEndWhile_eq_self (getLast?_render h)]
  exact isShortest_renderedSplit h

/-! ### The line on how a build ended -/

/-- A text on one line without a colon. -/
def IsUndivided (s : List Char) : Prop :=
  ∀ c ∈ s, c ≠ ':' ∧ c ≠ '\n'

instance (s : List Char) : Decidable (IsUndivided s) :=
  List.decidableBAll (fun c => c ≠ ':' ∧ c ≠ '\n') s

theorem IsUndivided.append {s t : List Char} (hs : IsUndivided s) (ht : IsUndivided t) :
    IsUndivided (s ++ t) := by
  intro c mem
  rcases List.mem_append.mp mem with mem | mem
  · exact hs c mem
  · exact ht c mem

theorem isUndivided_toDigits (n : Nat) : IsUndivided (Nat.toDigits 10 n) := by
  intro c mem
  have digit := isAsciiDigit_of_mem_toDigits mem
  constructor <;> rintro rfl <;> cases digit

theorem isUndivided_showNat (n : Nat) : IsUndivided (showNat n).toList := by
  rw [toList_showNat]
  exact isUndivided_toDigits n

theorem isUndivided_showInt (n : Int) : IsUndivided (Report.showInt n).toList := by
  cases n with
  | ofNat n => exact isUndivided_showNat n
  | negSucc n =>
    rw [Report.showInt, String.toList_append]
    exact IsUndivided.append (by decide) (isUndivided_showNat _)

theorem isUndivided_summary (s : Diagnostic.Summary) : IsUndivided s.render.toList := by
  simp only [Diagnostic.Summary.render, String.toList_append]
  exact .append (.append (.append (.append (.append (isUndivided_showNat _) (by decide))
    (isUndivided_showNat _)) (by decide)) (isUndivided_showNat _)) (by decide)

/-- A split line has three colons at least. -/
theorem Split.three_le_count (p : Split) : 3 ≤ p.text.count ':' := by
  simp only [text, behind, verdict, List.count_append, List.count_cons_self, List.cons_append]
  omega

/-- A line with fewer than three colons holds no diagnostic. -/
theorem parseLine?_of_count {line : List Char} (few : line.count ':' < 3) (base : Path) :
    parseLine? line base = none := by
  cases parsed : parseLine? line base with
  | none => rfl
  | some d =>
    obtain ⟨p, shortest, -⟩ := parseLine?_eq_some_iff.mp parsed
    have three := p.three_le_count
    rw [shortest.text_eq] at three
    have fewer := (dropEndWhile_prefix_self isLineEnd line).sublist.count_le ':'
    omega

/-- The last line of a report is one line, and has a single colon. -/
theorem exists_verdict (r : Report) (target : IsUndivided r.result.targetFile.toList) :
    ∃ before after, r.verdict.toList = before ++ ':' :: after ∧ IsUndivided before ∧
      IsUndivided after := by
  let word := if r.succeeded then "succeeded" else "failed"
  let code := r.exitCode.elim "" fun code => " (exit code " ++ Report.showInt code ++ ")"
  have word_plain : IsUndivided word.toList := by
    unfold word
    cases r.succeeded <;> decide
  have code_plain : IsUndivided code.toList := by
    unfold code
    cases r.exitCode with
    | none => exact (by decide : IsUndivided [])
    | some n =>
      rw [Option.elim_some, String.toList_append, String.toList_append]
      exact .append (.append (by decide) (isUndivided_showInt n)) (by decide)
  refine ⟨("build " ++ showNat r.buildId ++ " " ++ word ++ " for " ++ r.result.targetFile).toList,
    (" " ++ (Diagnostic.summarize r.result.diagnostics).render ++ code).toList, ?_, ?_, ?_⟩
  · simp [Report.verdict, word, code]
  · simp only [String.toList_append]
    exact .append (.append (.append (.append (.append (by decide) (isUndivided_showNat _))
      (by decide)) word_plain) (by decide)) target
  · simp only [String.toList_append]
    exact .append (.append (by decide) (isUndivided_summary _)) code_plain

theorem IsUndivided.count_eq_zero {s : List Char} (h : IsUndivided s) : s.count ':' = 0 :=
  List.count_eq_zero.mpr fun mem => (h _ mem).1 rfl

theorem parse_verdict {r : Report} (target : IsUndivided r.result.targetFile.toList) (base : Path) :
    (Text.lines r.verdict.toList).filterMap (parseLine? · base) = [] := by
  obtain ⟨before, after, whole, before_plain, after_plain⟩ := exists_verdict r target
  have oneLine : '\n' ∉ r.verdict.toList := by
    rw [whole]
    intro mem
    rcases List.mem_append.mp mem with mem | mem
    · exact (before_plain _ mem).2 rfl
    · rcases List.mem_cons.mp mem with colon | mem
      · cases colon
      · exact (after_plain _ mem).2 rfl
  have few : r.verdict.toList.count ':' < 3 := by
    rw [whole, List.count_append, List.count_cons_self, before_plain.count_eq_zero,
      after_plain.count_eq_zero]
    decide
  rw [Text.lines, cut_of_not_mem oneLine]
  cases spelt : r.verdict.toList with
  | nil => rfl
  | cons c rest =>
    rw [spelt] at few
    rw [terminated, List.filterMap_cons, parseLine?_of_count few]
    · rfl
    · simp

/-! ### Whole reports -/

/-- The first line of a text that starts with a rendered diagnostic is that diagnostic. -/
theorem lines_render {base : Path} {d : Diagnostic} (h : d.IsRenderable base) (rest : List Char) :
    Text.lines (d.render.toList ++ '\n' :: rest) = d.render.toList :: Text.lines rest := by
  have oneLine : '\n' ∉ d.render.toList := by
    rw [← text_renderedSplit h]
    intro mem
    simp only [renderedSplit, Split.text, Split.behind, Split.columnText, Split.verdict, Split.said,
      Option.elim_some] at mem
    simp [h.file_plain, h.message_plain] at mem
    rcases mem with mem | mem | mem
    · exact ((isUndivided_toDigits _) _ mem).2 rfl
    · exact ((isUndivided_toDigits _) _ mem).2 rfl
    · revert mem
      cases d.severity <;> decide
  have kept : dropLastIf '\r' d.render.toList = d.render.toList := by
    refine Text.dropLastIf_eq_self fun last => ?_
    have := getLast?_render h '\r' last
    cases this
  rw [lines_append_lineFeed, cut_of_not_mem oneLine, List.map_singleton, kept]
  rfl

/-- The diagnostics of a report, if there is any or the build succeeded, are all that stands before
    its last line. -/
theorem findings_eq {r : Report} (h : r.succeeded = true ∨ r.result.diagnostics ≠ []) :
    r.findings = String.join (r.result.diagnostics.map fun d => d.render ++ "\n") := by
  unfold Report.findings
  split
  next none_ =>
    have : r.succeeded = true := h.resolve_right fun some_ => some_ none_
    rw [if_pos this, none_]
    rfl
  next => rfl

theorem parse_findings {base : Path} {ds : List Diagnostic} (h : ∀ d ∈ ds, d.IsRenderable base)
    (rest : List Char) :
    (Text.lines ((String.join (ds.map fun d => d.render ++ "\n")).toList ++ rest)).filterMap
        (parseLine? · base) =
      ds ++ (Text.lines rest).filterMap (parseLine? · base) := by
  induction ds with
  | nil => rfl
  | cons d ds ih =>
    have first : d.IsRenderable base := h d List.mem_cons_self
    have others : ∀ e ∈ ds, e.IsRenderable base := fun e mem => h e (List.mem_cons_of_mem d mem)
    have spelt : (String.join ((d :: ds).map fun d => d.render ++ "\n")).toList ++ rest =
        d.render.toList ++
          '\n' :: ((String.join (ds.map fun d => d.render ++ "\n")).toList ++ rest) := by
      rw [List.map_cons, String.join_cons]
      simp
    rw [spelt, lines_render first, List.filterMap_cons, parseLine?_render first, ih others]
    rfl

/-- A renderable diagnostic is read back from its line.  A report on renderable diagnostics, on a
    target whose name has no colon and no line feed, is read back as exactly these diagnostics, in
    order, unless it tells the raw error text of a failed build without any. -/
theorem renderable_reads_back (base : Path) :
    (∀ d : Diagnostic, d.IsRenderable base → parseLine? d.render.toList base = some d) ∧
    ∀ r : Report, (∀ d ∈ r.result.diagnostics, d.IsRenderable base) →
      ':' ∉ r.result.targetFile.toList → '\n' ∉ r.result.targetFile.toList →
      (r.succeeded = true ∨ r.result.diagnostics ≠ []) →
      Dialect.gcc.parse r.render base = r.result.diagnostics := by
  refine ⟨fun d => parseLine?_render, fun r renderable colon lineFeed told => ?_⟩
  have target : IsUndivided r.result.targetFile.toList := by
    intro c mem
    exact ⟨fun same => colon (same ▸ mem), fun same => lineFeed (same ▸ mem)⟩
  calc Dialect.gcc.parse r.render base
      = (Text.lines (r.findings.toList ++ r.verdict.toList)).filterMap (parseLine? · base) := by
        rw [Dialect.parse, Report.render, String.toList_append]
    _ = r.result.diagnostics ++ (Text.lines r.verdict.toList).filterMap (parseLine? · base) := by
        rw [findings_eq told, parse_findings renderable]
    _ = r.result.diagnostics := by
        rw [parse_verdict target, List.append_nil]

/-- A report whose files and messages are full of colons and digits. -/
def crowded : Report where
  buildId := 7
  succeeded := false
  exitCode := some (-1)
  result := ⟨"~/a b.c", [],
    [⟨"/w/a:b: 1:x:", 3, 4294967295, .note, "b:7:1: error: d"⟩, ⟨"C:\\w\\:.c", 0, 0, .error, ""⟩]⟩

theorem crowded_reads_back :
    (∀ d ∈ crowded.result.diagnostics, d.IsRenderable (.ofText "/work")) ∧
      (∀ d ∈ crowded.result.diagnostics,
        parseLine? d.render.toList (.ofText "/work") = some d) ∧
      ':' ∉ crowded.result.targetFile.toList ∧ '\n' ∉ crowded.result.targetFile.toList ∧
      (crowded.succeeded = true ∨ crowded.result.diagnostics ≠ []) ∧
      Dialect.gcc.parse crowded.render (.ofText "/work") = crowded.result.diagnostics := by
  have renderable : ∀ d ∈ crowded.result.diagnostics, d.IsRenderable (.ofText "/work") := by
    decide
  obtain ⟨one, all⟩ := renderable_reads_back (.ofText "/work")
  exact ⟨renderable, fun d mem => one d (renderable d mem), by decide, by decide, by decide,
    all crowded renderable (by decide) (by decide) (by decide)⟩

end Gcc

end BuildSupervisor
