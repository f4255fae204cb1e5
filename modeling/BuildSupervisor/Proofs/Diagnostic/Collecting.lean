import BuildSupervisor.Proofs.Diagnostic.Header
import BuildSupervisor.Proofs.Diagnostic.Location
/-!
# Headers, locations and what is found below them

A line that matters is a header or a location, and never both.  For each kind of line there is one
lemma on the header that waits below it and one on the diagnostic that it completes;
`Rustc.collect_append` puts runs of lines together.
-/

namespace BuildSupervisor.Rustc

open Text

def IsHeader (line : List Char) : Prop :=
  ∃ p : HeaderSplit, p.text = line

def IsLocation (line : List Char) : Prop :=
  ∃ p : LocationSplit, p.text = line

/-- The line matters: it is a header or a location. -/
def IsSignificant (line : List Char) : Prop :=
  IsHeader line ∨ IsLocation line

/-- A blank is no letter. -/
theorem isAsciiLetter_of_blank {c : Char} (blank : isBlank c = true) : isAsciiLetter c = false := by
  simp only [isBlank, Bool.or_eq_true, Bool.and_eq_true, decide_eq_true_eq] at blank
  simp only [isAsciiLetter, Bool.or_eq_false_iff, Bool.and_eq_false_iff, decide_eq_false_iff_not]
  omega

/-- No line is both. -/
theorem not_header_and_location (line : List Char) : ¬ (IsHeader line ∧ IsLocation line) := by
  rintro ⟨⟨p, rfl⟩, ⟨q, same⟩⟩
  obtain ⟨c, rest, header, letter⟩ := p.exists_letter
  obtain ⟨d, rest', location, first⟩ := q.exists_first
  rw [header, location] at same
  obtain ⟨rfl, -⟩ := List.cons.inj same
  rcases first with blank | rfl
  · rw [isAsciiLetter_of_blank blank] at letter
    cases letter
  · exact absurd letter (by decide)

/-- What is said of a header by its split. -/
structure HeaderSplit.Gives (p : HeaderSplit) (header : Header) : Prop where
  severity : Severity.ofKeyword? p.keyword = some header.severity
  message : header.message = p.mark ++ trimEnd p.message

/-- The line and the column are written in digits `0` to `9` and are below `2 ^ 32`. -/
def LocationSplit.IsNumbered (l : LocationSplit) : Prop :=
  (∃ n < UInt32.size, Writes l.line n) ∧ ∃ n < UInt32.size, Writes l.column n

/-- The diagnostic that a header and a location stand for. -/
structure Says (base : Path) (h : HeaderSplit) (l : LocationSplit) (d : Diagnostic) : Prop where
  file : d.sourceFile = resolveSource l.file base
  line : Writes l.line d.line.toNat
  column : Writes l.column d.column.toNat
  severity : Severity.ofKeyword? h.keyword = some d.severity
  message : d.message = String.ofList (h.mark ++ trimEnd h.message)

/-! ### One line -/

/-- The header that waits for its location below a line. -/
def nextHeader (waiting : Option Header) (line : List Char) : Option Header :=
  match readHeader? line with
  | some header => some header
  | none => if (readLocation? line).isSome then none else waiting

/-- The diagnostic that a line completes, below the header that waits. -/
def foundAt (base : Path) (waiting : Option Header) (line : List Char) : List Diagnostic :=
  match readHeader? line, readLocation? line with
  | none, some location =>
    (waiting.bind fun header => diagnosticOf? base header location).toList
  | _, _ => []

theorem collect_cons (base : Path) (waiting : Option Header) (line : List Char)
    (rest : List (List Char)) :
    collect base waiting (line :: rest) =
      foundAt base waiting line ++ collect base (nextHeader waiting line) rest := by
  conv => lhs; unfold collect
  unfold foundAt nextHeader
  cases readHeader? line with
  | some header => rfl
  | none =>
    cases readLocation? line with
    | none => rfl
    | some location => cases waiting <;> rfl

variable {line : List Char} {h : HeaderSplit} {l : LocationSplit} {base : Path}

theorem readHeader?_of_location (plain : '\n' ∉ line) (location : IsLocation line) :
    readHeader? line = none := by
  cases read : readHeader? line with
  | none => rfl
  | some header =>
    have header : IsHeader line := (isSome_readHeader?_iff plain).mp (by rw [read]; rfl)
    exact absurd ⟨header, location⟩ (not_header_and_location line)

theorem nextHeader_of_header (plain : '\n' ∉ line) (greedy : h.IsGreedy line)
    (waiting : Option Header) :
    ∃ header, h.Gives header ∧ nextHeader waiting line = some header := by
  obtain ⟨severity, means⟩ := h.exists_severity
  let header : Header := ⟨severity, h.mark ++ trimEnd h.message⟩
  have read : readHeader? line = some header :=
    (readHeader?_eq_some_iff plain).mpr ⟨h, greedy, means, rfl⟩
  refine ⟨header, ⟨means, rfl⟩, ?_⟩
  rw [nextHeader, read]

theorem foundAt_of_header (plain : '\n' ∉ line) (header : IsHeader line)
    (waiting : Option Header) : foundAt base waiting line = [] := by
  obtain ⟨_, read⟩ := Option.isSome_iff_exists.mp ((isSome_readHeader?_iff plain).mpr header)
  unfold foundAt
  rw [read]

theorem nextHeader_of_location (plain : '\n' ∉ line) (location : IsLocation line)
    (waiting : Option Header) : nextHeader waiting line = none := by
  rw [nextHeader, readHeader?_of_location plain location]
  exact if_pos (isSome_readLocation?_iff.mpr location)

theorem foundAt_of_location (plain : '\n' ∉ line) (greedy : l.IsGreedy line)
    (waiting : Option Header) :
    foundAt base waiting line =
      (waiting.bind fun header => diagnosticOf? base header ⟨l.file, l.line, l.column⟩).toList := by
  unfold foundAt
  rw [readHeader?_of_location plain ⟨l, greedy.text_eq⟩,
    readLocation?_eq_some_iff.mpr ⟨l, greedy, rfl⟩]

theorem reads_nothing (plain : '\n' ∉ line) (insignificant : ¬ IsSignificant line) :
    readHeader? line = none ∧ readLocation? line = none := by
  have header := mt (isSome_readHeader?_iff plain).mp fun header => insignificant (.inl header)
  have location := mt isSome_readLocation?_iff.mp fun location => insignificant (.inr location)
  exact ⟨Option.not_isSome_iff_eq_none.mp header, Option.not_isSome_iff_eq_none.mp location⟩

theorem nextHeader_of_insignificant (plain : '\n' ∉ line) (insignificant : ¬ IsSignificant line)
    (waiting : Option Header) : nextHeader waiting line = waiting := by
  obtain ⟨header, location⟩ := reads_nothing plain insignificant
  rw [nextHeader, header, location]
  rfl

theorem foundAt_of_insignificant (plain : '\n' ∉ line) (insignificant : ¬ IsSignificant line)
    (waiting : Option Header) : foundAt base waiting line = [] := by
  obtain ⟨header, location⟩ := reads_nothing plain insignificant
  unfold foundAt
  rw [header, location]

theorem exists_header (header : IsHeader line) (plain : '\n' ∉ line) :
    ∃ h : HeaderSplit, h.IsGreedy line := by
  obtain ⟨_, read⟩ := Option.isSome_iff_exists.mp ((isSome_readHeader?_iff plain).mpr header)
  obtain ⟨h, greedy, -⟩ := (readHeader?_eq_some_iff plain).mp read
  exact ⟨h, greedy⟩

/-- A line is a header, a location or neither. -/
theorem line_cases (plain : '\n' ∉ line) :
    (∃ h : HeaderSplit, h.IsGreedy line) ∨ (∃ l : LocationSplit, l.IsGreedy line) ∨
      ¬ IsSignificant line := by
  by_cases header : IsHeader line
  · exact .inl (exists_header header plain)
  · by_cases location : IsLocation line
    · obtain ⟨l, text⟩ := location
      exact .inr (.inl (LocationSplit.exists_isGreedy text))
    · exact .inr (.inr (not_or.mpr ⟨header, location⟩))

/-- A header and a location give the diagnostic they stand for. -/
theorem diagnosticOf?_eq_some_iff {header : Header} (gives : h.Gives header) {d : Diagnostic} :
    diagnosticOf? base header ⟨l.file, l.line, l.column⟩ = some d ↔ Says base h l d := by
  unfold diagnosticOf?
  constructor
  · intro found
    split at found
    next line column readLine readColumn =>
      cases found
      refine ⟨rfl, readPosition?_eq_some_iff.mp readLine, readPosition?_eq_some_iff.mp readColumn,
        gives.severity, ?_⟩
      rw [← gives.message]
    next => cases found
  · rintro ⟨file, line, column, severity, message⟩
    have same : header.severity = d.severity :=
      Option.some.inj (gives.severity.symm.trans severity)
    rw [readPosition?_eq_some_iff.mpr line, readPosition?_eq_some_iff.mpr column, gives.message,
      same, ← file, ← message]

/-- There is such a diagnostic if the numbers fit. -/
theorem exists_says_iff : (∃ d, Says base h l d) ↔ l.IsNumbered := by
  constructor
  · rintro ⟨d, meant⟩
    exact ⟨⟨_, d.line.toNat_lt, meant.line⟩, ⟨_, d.column.toNat_lt, meant.column⟩⟩
  · rintro ⟨⟨n, small, line⟩, ⟨m, small', column⟩⟩
    obtain ⟨severity, means⟩ := h.exists_severity
    refine ⟨⟨resolveSource l.file base, .ofNat n, .ofNat m, severity, _⟩, rfl, ?_, ?_, means, rfl⟩
    · rwa [UInt32.toNat_ofNat_of_lt' small]
    · rwa [UInt32.toNat_ofNat_of_lt' small']

/-! ### A run of lines -/

/-- The header that waits below the lines. -/
def waitingAfter (lines : List (List Char)) (waiting : Option Header) : Option Header :=
  lines.foldl nextHeader waiting

theorem collect_append (base : Path) (waiting : Option Header) (xs ys : List (List Char)) :
    collect base waiting (xs ++ ys) =
      collect base waiting xs ++ collect base (waitingAfter xs waiting) ys := by
  induction xs generalizing waiting with
  | nil => rfl
  | cons line xs ih =>
    rw [List.cons_append, collect_cons, collect_cons, ih, List.append_assoc]
    rfl

theorem collect_concat (base : Path) (xs : List (List Char)) (line : List Char) :
    collect base none (xs ++ [line]) =
      collect base none xs ++ foundAt base (waitingAfter xs none) line := by
  rw [collect_append, collect_cons, collect, List.append_nil]

theorem waitingAfter_concat (xs : List (List Char)) (line : List Char) (waiting : Option Header) :
    waitingAfter (xs ++ [line]) waiting = nextHeader (waitingAfter xs waiting) line :=
  List.foldl_append

end BuildSupervisor.Rustc
