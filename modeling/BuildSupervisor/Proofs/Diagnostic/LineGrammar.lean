import BuildSupervisor.Diagnostic.Gcc
import BuildSupervisor.Proofs.Text.Runs
/-!
# The grammar of diagnostic lines

A diagnostic line is `file:line: severity: message` or `file:line:column: severity: message`, with
blanks before the severity and before the message.  `Gcc.Split` is a line taken apart in this way.
A file name may hold colons and digits, so that a line may have several splits;
`Gcc.line_reads_iff_split` says that a line is a diagnostic exactly if it has a split and the
numbers of the one with the shortest file fit, and that the diagnostic is what this split says.
-/

namespace BuildSupervisor

namespace Gcc

open Text

/-! ### Lines taken apart -/

/-- A diagnostic line taken apart. -/
structure Split where
  file : List Char
  line : List Char
  column : Option (List Char)
  gap : List Char
  keyword : String
  lead : List Char
  message : List Char
  file_ne_nil : file ≠ []
  file_plain : '\n' ∉ file
  line_run : IsRun isDecimalDigit line
  column_run : ∀ digits ∈ column, IsRun isDecimalDigit digits
  gap_blank : ∀ c ∈ gap, isBlank c = true
  keyword_mem : keyword ∈ ["fatal error", "error", "warning", "note"]
  lead_blank : ∀ c ∈ lead, isBlank c = true
  /-- All blanks behind the severity belong to `lead`. -/
  message_stops : Stops isBlank message
  message_plain : '\n' ∉ message

namespace Split

/-- The line behind the colon that ends the severity. -/
def said (p : Split) : List Char :=
  p.lead ++ p.message

/-- The line from the blanks before the severity on. -/
def verdict (p : Split) : List Char :=
  p.gap ++ p.keyword.toList ++ ':' :: p.said

/-- The column and the colon behind it. -/
def columnText (p : Split) : List Char :=
  p.column.elim [] fun digits => digits ++ [':']

/-- The line behind the file name. -/
def behind (p : Split) : List Char :=
  ':' :: p.line ++ ':' :: p.columnText ++ p.verdict

/-- The whole line. -/
def text (p : Split) : List Char :=
  p.file ++ p.behind

/-- The split is one of the line `s`, and none of its splits has a shorter file. -/
structure IsShortest (p : Split) (s : List Char) : Prop where
  text_eq : p.text = s
  shortest : ∀ q : Split, q.text = s → p.file.length ≤ q.file.length

/-- The line, and the column if there is one, are written in digits `0` to `9` and are below
    `2 ^ 32`. -/
def IsNumbered (p : Split) : Prop :=
  (∃ n < UInt32.size, Writes p.line n) ∧
    ∀ digits ∈ p.column, ∃ n < UInt32.size, Writes digits n

/-- The diagnostic that the split stands for. -/
structure Says (base : Path) (p : Split) (d : Diagnostic) : Prop where
  file : d.sourceFile = resolveSource p.file base
  line : Writes p.line d.line.toNat
  column : p.column.elim (d.column = 1) fun digits => Writes digits d.column.toNat
  severity : Severity.ofKeyword? p.keyword = some d.severity
  message : d.message = String.ofList (trimEnd p.message)

end Split

/-! ### Reading what stands behind the file -/

theorem keywords_prefixFree : PrefixFree keywords := by
  decide

theorem keywords_vocabulary : IsVocabulary keywords := by
  decide

/-- The table of keywords holds four words, each with its severity. -/
theorem mem_keywords_iff {word : String} {severity : Severity} :
    (word, severity) ∈ keywords ↔
      word ∈ ["fatal error", "error", "warning", "note"] ∧
        Severity.ofKeyword? word = some severity :=
  keywords_vocabulary.mem_iff

/-- A keyword starts with a letter and holds no colon. -/
theorem keyword_plain {word : String} (h : word ∈ ["fatal error", "error", "warning", "note"]) :
    (∀ s, Stops isBlank (word.toList ++ s)) ∧ (∀ s, Stops isDecimalDigit (word.toList ++ s)) ∧
      ':' ∉ word.toList := by
  have heads : ∀ word ∈ ["fatal error", "error", "warning", "note"], ∃ c rest,
      word.toList = c :: rest ∧ isBlank c = false ∧ isDecimalDigit c = false ∧
        ':' ∉ word.toList := by
    simp only [List.mem_cons, List.not_mem_nil, or_false, forall_eq_or_imp, forall_eq]
    exact ⟨⟨_, _, rfl, by decide⟩, ⟨_, _, rfl, by decide⟩, ⟨_, _, rfl, by decide⟩,
      ⟨_, _, rfl, by decide⟩⟩
  obtain ⟨c, rest, spelt, blank, digit, colon⟩ := heads word h
  refine ⟨fun s => ?_, fun s => ?_, colon⟩
  · rw [spelt]
    exact stops_cons blank _
  · rw [spelt]
    exact stops_cons digit _

theorem readNumber?_eq_some_iff {s digits rest : List Char} :
    readNumber? s = some (digits, rest) ↔
      s = digits ++ ':' :: rest ∧ IsRun isDecimalDigit digits := by
  have colon : isDecimalDigit ':' = false := by decide
  unfold readNumber?
  constructor
  · intro h
    split at h
    next taken =>
      cases h
      obtain ⟨same, run, -⟩ := takeDigits?_eq_some_iff.mp taken
      exact ⟨same, run⟩
    next => cases h
  · rintro ⟨rfl, run⟩
    rw [takeDigits?_eq_some_iff.mpr ⟨rfl, run, stops_cons colon rest⟩]
    rfl

theorem readNumber?_of_stops {s : List Char} (h : Stops isDecimalDigit s) :
    readNumber? s = none := by
  cases read : readNumber? s with
  | none => rfl
  | some found =>
    obtain ⟨rfl, run⟩ := readNumber?_eq_some_iff.mp read
    have nothing := takeWhile_of_stops h
    rw [takeWhile_run run.all (stops_cons (by decide) _)] at nothing
    exact absurd nothing run.ne_nil

theorem readMessage?_eq_some_iff {s message : List Char} {severity : Severity} :
    readMessage? s = some (severity, message) ↔
      ∃ gap word lead, s = gap ++ word.toList ++ ':' :: (lead ++ message) ∧
        (∀ c ∈ gap, isBlank c = true) ∧ (word, severity) ∈ keywords ∧
        (∀ c ∈ lead, isBlank c = true) ∧ Stops isBlank message ∧ '\n' ∉ message := by
  unfold readMessage?
  constructor
  · intro h
    split at h
    next rest taken =>
      obtain ⟨word, mem, same⟩ := (takeKeyword?_eq_some_iff keywords_prefixFree).mp taken
      simp only at h
      split at h
      next => cases h
      next plain =>
        cases h
        refine ⟨s.takeWhile isBlank, word, rest.takeWhile isBlank, ?_,
          forall_mem_takeWhile _ _, mem, forall_mem_takeWhile _ _,
          stops_dropWhile isBlank rest, plain⟩
        rw [List.takeWhile_append_dropWhile, List.append_assoc, ← same,
          List.takeWhile_append_dropWhile]
    next => cases h
  · rintro ⟨gap, word, lead, rfl, gap_blank, mem, lead_blank, stops, plain⟩
    have begins := (keyword_plain (mem_keywords_iff.mp mem).1).1 (':' :: (lead ++ message))
    rw [List.append_assoc, dropWhile_run gap_blank begins,
      (takeKeyword?_eq_some_iff keywords_prefixFree).mpr ⟨word, mem, rfl⟩]
    simp only [dropWhile_run lead_blank stops, plain, if_false]

namespace Split

/-- Behind the line number there is no second one unless there is a column. -/
theorem verdict_stops (p : Split) : Stops isDecimalDigit p.verdict := by
  unfold verdict
  cases gap : p.gap with
  | nil =>
    rw [List.nil_append]
    exact (keyword_plain p.keyword_mem).2.1 _
  | cons c gap' =>
    have blank : isBlank c = true := p.gap_blank c (gap ▸ List.mem_cons_self)
    exact stops_cons (isDecimalDigit_of_blank blank) _

theorem readMessage?_verdict (p : Split) {severity : Severity}
    (means : Severity.ofKeyword? p.keyword = some severity) :
    readMessage? p.verdict = some (severity, p.message) :=
  readMessage?_eq_some_iff.mpr ⟨p.gap, p.keyword, p.lead, rfl, p.gap_blank,
    mem_keywords_iff.mpr ⟨p.keyword_mem, means⟩, p.lead_blank, p.message_stops, p.message_plain⟩

/-- A split line is read as it is split. -/
theorem readTail?_behind (p : Split) {severity : Severity}
    (means : Severity.ofKeyword? p.keyword = some severity) :
    readTail? p.behind = some ⟨p.line, p.column, severity, p.message⟩ := by
  have first : readNumber? (p.line ++ ':' :: (p.columnText ++ p.verdict)) =
      some (p.line, p.columnText ++ p.verdict) :=
    readNumber?_eq_some_iff.mpr ⟨rfl, p.line_run⟩
  have behind_eq : p.behind = ':' :: (p.line ++ ':' :: (p.columnText ++ p.verdict)) := by
    simp [behind]
  rw [behind_eq, readTail?, first]
  cases column : p.column with
  | none =>
    have nothing : p.columnText = [] := by rw [columnText, column]; rfl
    simp only [nothing, List.nil_append, readNumber?_of_stops p.verdict_stops,
      p.readMessage?_verdict means, Option.map_some]
  | some digits =>
    have second : readNumber? (p.columnText ++ p.verdict) = some (digits, p.verdict) := by
      refine readNumber?_eq_some_iff.mpr ⟨?_, p.column_run digits column⟩
      rw [columnText, column, Option.elim_some, List.append_assoc]
      rfl
    simp only [second, p.readMessage?_verdict means, Option.map_some]

/-- What is read behind a file comes from a split. -/
theorem exists_of_readTail? {file s : List Char} {tail : Tail} (ne_nil : file ≠ [])
    (plain : '\n' ∉ file) (read : readTail? s = some tail) :
    ∃ p : Split, p.file = file ∧ p.behind = s ∧ p.line = tail.line ∧ p.column = tail.column ∧
      Severity.ofKeyword? p.keyword = some tail.severity ∧ p.message = tail.message := by
  unfold readTail? at read
  split at read
  next s =>
    split at read
    next => cases read
    next line rest first =>
      obtain ⟨rfl, line_run⟩ := readNumber?_eq_some_iff.mp first
      split at read
      next column rest second =>
        obtain ⟨rfl, column_run⟩ := readNumber?_eq_some_iff.mp second
        obtain ⟨⟨severity, message⟩, found, rfl⟩ := Option.map_eq_some_iff.mp read
        obtain ⟨gap, word, lead, rfl, gap_blank, mem, lead_blank, stops, plain'⟩ :=
          readMessage?_eq_some_iff.mp found
        obtain ⟨known, means⟩ := mem_keywords_iff.mp mem
        refine ⟨⟨file, line, some column, gap, word, lead, message, ne_nil, plain, line_run, ?_,
          gap_blank, known, lead_blank, stops, plain'⟩, rfl, ?_, rfl, rfl, means, rfl⟩
        · intro digits mem
          cases mem
          exact column_run
        · simp [behind, columnText, verdict, said]
      next =>
        obtain ⟨⟨severity, message⟩, found, rfl⟩ := Option.map_eq_some_iff.mp read
        obtain ⟨gap, word, lead, rfl, gap_blank, mem, lead_blank, stops, plain'⟩ :=
          readMessage?_eq_some_iff.mp found
        obtain ⟨known, means⟩ := mem_keywords_iff.mp mem
        refine ⟨⟨file, line, none, gap, word, lead, message, ne_nil, plain, line_run, ?_,
          gap_blank, known, lead_blank, stops, plain'⟩, rfl, ?_, rfl, rfl, means, rfl⟩
        · intro digits mem
          cases mem
        · simp [behind, columnText, verdict, said]
  next => cases read

theorem exists_severity (p : Split) : ∃ severity, Severity.ofKeyword? p.keyword = some severity :=
  keywords_vocabulary.exists_severity p.keyword_mem

/-- Two splits of one line with the same file are the same. -/
theorem eq_of_behind {p q : Split} (file : p.file = q.file) (behind : p.behind = q.behind) :
    p = q := by
  obtain ⟨severity, means⟩ := p.exists_severity
  obtain ⟨severity', means'⟩ := q.exists_severity
  have tail := p.readTail?_behind means
  rw [behind, q.readTail?_behind means', Option.some.injEq, Tail.mk.injEq] at tail
  obtain ⟨line, column, -, message⟩ := tail
  have verdict : p.verdict = q.verdict := by
    simpa [Split.behind, columnText, line, column] using behind
  have colon {r : Split} : Stops (· ≠ ':') (':' :: r.said) := stops_cons (by simp) _
  have word {r : Split} : ∀ c ∈ r.keyword.toList, (c ≠ ':' : Bool) = true := by
    intro c mem
    have := (keyword_plain r.keyword_mem).2.2
    simp only [decide_eq_true_eq]
    rintro rfl
    exact this mem
  unfold Split.verdict at verdict
  rw [List.append_assoc, List.append_assoc] at verdict
  obtain ⟨gap, rest⟩ := run_unique p.gap_blank ((keyword_plain p.keyword_mem).1 _) q.gap_blank
    ((keyword_plain q.keyword_mem).1 _) verdict
  obtain ⟨keyword, said⟩ := run_unique word colon word colon rest
  have lead : p.lead = q.lead :=
    (run_unique p.lead_blank p.message_stops q.lead_blank q.message_stops
      (List.cons.inj said).2).1
  cases p
  cases q
  simp only [Split.mk.injEq]
  exact ⟨file, line.symm, column.symm, gap, String.toList_injective keyword, lead, message.symm⟩

end Split

/-! ### Reading a line -/

theorem splitLine?_eq (s : List Char) : splitLine? s = splitBefore? readTail? s := by
  induction s with
  | nil => rfl
  | cons c s ih =>
    rw [splitLine?, splitBefore?, ih]
    cases readTail? s <;> rfl

/-- The split with the shortest file is found. -/
theorem splitLine?_eq_some_iff {s file : List Char} {tail : Tail} :
    splitLine? s = some (file, tail) ↔
      ∃ p : Split, p.IsShortest s ∧ p.file = file ∧ readTail? p.behind = some tail := by
  rw [splitLine?_eq, splitBefore?_eq_some_iff]
  constructor
  · rintro ⟨⟨rest, rfl, reads⟩, ne_nil, plain, shortest⟩
    obtain ⟨p, rfl, rfl, -⟩ := Split.exists_of_readTail? ne_nil plain reads
    refine ⟨p, ⟨rfl, ?_⟩, rfl, reads⟩
    intro q same
    obtain ⟨severity, means⟩ := q.exists_severity
    exact shortest q.file q.behind same.symm q.file_ne_nil q.file_plain
      (by rw [q.readTail?_behind means]; rfl)
  · rintro ⟨p, ⟨rfl, shortest⟩, rfl, reads⟩
    refine ⟨⟨p.behind, rfl, reads⟩, p.file_ne_nil, p.file_plain, ?_⟩
    intro other rest same ne_nil plain reads'
    obtain ⟨tail', reads'⟩ := Option.isSome_iff_exists.mp reads'
    obtain ⟨q, rfl, rfl, -⟩ := Split.exists_of_readTail? ne_nil plain reads'
    exact shortest q same.symm

/-- A line that can be split has a split with the shortest file. -/
theorem Split.exists_isShortest (p : Split) : ∃ q : Split, q.IsShortest p.text := by
  obtain ⟨severity, means⟩ := p.exists_severity
  have reads : (readTail? p.behind).isSome := by
    rw [p.readTail?_behind means]
    rfl
  obtain ⟨file, tail, found⟩ := exists_splitBefore? p.file_ne_nil p.file_plain reads
  obtain ⟨q, shortest, -⟩ := splitLine?_eq_some_iff.mp ((splitLine?_eq _).trans found)
  exact ⟨q, shortest⟩

/-- The split with the shortest file is unique. -/
theorem Split.IsShortest.eq {p q : Split} {s : List Char} (hp : p.IsShortest s)
    (hq : q.IsShortest s) : p = q := by
  have same : p.file ++ p.behind = q.file ++ q.behind := hp.text_eq.trans hq.text_eq.symm
  have length : p.file.length = q.file.length :=
    Nat.le_antisymm (hp.shortest q hq.text_eq) (hq.shortest p hp.text_eq)
  obtain ⟨file, behind⟩ := List.append_inj same length
  exact eq_of_behind file behind

/-- The parts of a split make a diagnostic exactly if they say it. -/
theorem diagnosticOf?_eq_some_iff {base : Path} {p : Split} {tail : Tail} {d : Diagnostic}
    (read : readTail? p.behind = some tail) :
    diagnosticOf? base p.file tail = some d ↔ p.Says base d := by
  obtain ⟨severity, means⟩ := p.exists_severity
  rw [p.readTail?_behind means] at read
  cases read
  unfold diagnosticOf?
  have column_iff (n : UInt32) : p.column.elim (some 1) readPosition? = some n ↔
      p.column.elim (n = 1) fun digits => Writes digits n.toNat := by
    cases p.column with
    | none => simp [eq_comm]
    | some digits => exact readPosition?_eq_some_iff
  constructor
  · intro h
    split at h
    next line column line_eq column_eq =>
      cases h
      exact ⟨rfl, readPosition?_eq_some_iff.mp line_eq, (column_iff column).mp column_eq, means,
        rfl⟩
    next => cases h
  · intro h
    obtain ⟨file, line, column, severity', message⟩ := h
    rw [means, Option.some.injEq] at severity'
    rw [readPosition?_eq_some_iff.mpr line, (column_iff _).mpr column]
    cases d
    simp_all

theorem parseLine?_eq_some_iff {line : List Char} {base : Path} {d : Diagnostic} :
    parseLine? line base = some d ↔
      ∃ p : Split, p.IsShortest (dropEndWhile isLineEnd line) ∧ p.Says base d := by
  unfold parseLine?
  constructor
  · intro h
    split at h
    next file tail found =>
      obtain ⟨p, shortest, rfl, read⟩ := splitLine?_eq_some_iff.mp found
      exact ⟨p, shortest, (diagnosticOf?_eq_some_iff read).mp h⟩
    next => cases h
  · rintro ⟨p, shortest, told⟩
    obtain ⟨severity, means⟩ := p.exists_severity
    have read := p.readTail?_behind means
    rw [splitLine?_eq_some_iff.mpr ⟨p, shortest, rfl, read⟩]
    exact (diagnosticOf?_eq_some_iff read).mpr told

/-- A split says something exactly if its numbers fit. -/
theorem Split.exists_says_iff {base : Path} {p : Split} :
    (∃ d, p.Says base d) ↔ p.IsNumbered := by
  constructor
  · rintro ⟨d, told⟩
    refine ⟨⟨_, d.line.toNat_lt, told.line⟩, ?_⟩
    intro digits mem
    have column := told.column
    rw [Option.mem_def.mp mem] at column
    exact ⟨_, d.column.toNat_lt, column⟩
  · rintro ⟨⟨line, line_lt, line_writes⟩, columns⟩
    obtain ⟨severity, means⟩ := p.exists_severity
    have fits {n : Nat} (h : n < UInt32.size) : (UInt32.ofNat n).toNat = n :=
      UInt32.toNat_ofNat_of_lt' h
    cases column : p.column with
    | none =>
      refine ⟨⟨_, UInt32.ofNat line, 1, severity, _⟩, rfl, ?_, ?_, means, rfl⟩
      · rwa [fits line_lt]
      · rw [column]
        rfl
    | some digits =>
      obtain ⟨col, col_lt, col_writes⟩ := columns digits column
      refine ⟨⟨_, UInt32.ofNat line, UInt32.ofNat col, severity, _⟩, rfl, ?_, ?_, means, rfl⟩
      · rwa [fits line_lt]
      · rw [column, Option.elim_some, fits col_lt]
        exact col_writes

/-- The grammar of diagnostic lines.  A line, what ends it left aside, holds a diagnostic exactly if
    it can be split and the numbers of the split with the shortest file fit; this split is unique,
    and the diagnostic is what it says. -/
theorem line_reads_iff_split (line : List Char) (base : Path) :
    let s := dropEndWhile isLineEnd line
    ((parseLine? line base).isSome ↔
      (∃ p : Split, p.text = s) ∧ ∀ p : Split, p.IsShortest s → p.IsNumbered) ∧
    (∀ d, parseLine? line base = some d ↔ ∃ p : Split, p.IsShortest s ∧ p.Says base d) ∧
    ∀ p q : Split, p.IsShortest s → q.IsShortest s → p = q := by
  intro s
  refine ⟨?_, fun d => parseLine?_eq_some_iff, fun p q hp hq => hp.eq hq⟩
  rw [Option.isSome_iff_exists]
  constructor
  · rintro ⟨d, parsed⟩
    obtain ⟨p, shortest, told⟩ := parseLine?_eq_some_iff.mp parsed
    refine ⟨⟨p, shortest.text_eq⟩, fun q hq => ?_⟩
    rw [hq.eq shortest]
    exact Split.exists_says_iff.mp ⟨d, told⟩
  · rintro ⟨⟨p, same⟩, numbered⟩
    obtain ⟨q, shortest⟩ := p.exists_isShortest
    rw [same] at shortest
    obtain ⟨d, told⟩ : ∃ d, q.Says base d := Split.exists_says_iff.mpr (numbered q shortest)
    exact ⟨d, parseLine?_eq_some_iff.mpr ⟨q, shortest, told⟩⟩

/-- The shortest file that leaves a line and a column ends before the last two numbers. -/
example : parseLine? "a:1:2:3: error: b:4: note: c".toList ⟨[]⟩ =
    some ⟨"a:1", 2, 3, .error, "b:4: note: c"⟩ := by
  decide +kernel

end Gcc

end BuildSupervisor
