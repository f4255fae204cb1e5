import BuildSupervisor.Diagnostic.Rustc
import BuildSupervisor.Proofs.Text.Runs
import Mathlib.Data.List.TakeWhile
/-!
# Locations of diagnostics

A location is `--> file:line:column`, with blanks around it.  `Rustc.LocationSplit` is a line taken
apart in this way.  Its numbers are the last two groups of digits of the line, however many colons
and digits the file name holds, so that splits differ at most in the blanks behind the arrow, of
which the file gets as few as possible.  `Rustc.readLocation?_eq_some_iff` says that this split is
read.
-/

namespace BuildSupervisor

/-- The runs of digits in a text, each as long as it is. -/
def Text.digitGroups (s : List Char) : List (List Char) :=
  (s.splitOnP fun c => !isDecimalDigit c).filter (· ≠ [])

namespace Rustc

open Text

/-- A location taken apart. -/
structure LocationSplit where
  indent : List Char
  gap : List Char
  file : List Char
  line : List Char
  column : List Char
  trail : List Char
  indent_blank : ∀ c ∈ indent, isBlank c = true
  gap_blank : ∀ c ∈ gap, isBlank c = true
  file_ne_nil : file ≠ []
  file_plain : '\n' ∉ file
  line_run : IsRun isDecimalDigit line
  column_run : IsRun isDecimalDigit column
  trail_blank : ∀ c ∈ trail, isBlank c = true

namespace LocationSplit

/-- The line behind the file name. -/
def place (p : LocationSplit) : List Char :=
  ':' :: (p.line ++ ':' :: (p.column ++ p.trail))

/-- The whole line. -/
def text (p : LocationSplit) : List Char :=
  p.indent ++ (['-', '-', '>'] ++ (p.gap ++ (p.file ++ p.place)))

/-- The split is one of the line `s`, and none of its splits has more blanks before the file. -/
structure IsGreedy (p : LocationSplit) (s : List Char) : Prop where
  text_eq : p.text = s
  greedy : ∀ q : LocationSplit, q.text = s → q.gap.length ≤ p.gap.length

end LocationSplit

/-! ### The place -/

theorem stops_of_blank {s : List Char} (h : ∀ c ∈ s, isBlank c = true) :
    Stops isDecimalDigit s := by
  intro c first
  exact isDecimalDigit_of_blank (h c (List.mem_of_mem_head? first))

theorem readPlace?_eq_some_iff {s line column : List Char} :
    readPlace? s = some (line, column) ↔
      ∃ trail, s = ':' :: (line ++ ':' :: (column ++ trail)) ∧ IsRun isDecimalDigit line ∧
        IsRun isDecimalDigit column ∧ ∀ c ∈ trail, isBlank c = true := by
  constructor
  · intro h
    unfold readPlace? at h
    split at h
    next s =>
      split at h
      next line' s' first =>
        obtain ⟨rfl, line_run, -⟩ := takeDigits?_eq_some_iff.mp first
        split at h
        next column' rest second =>
          obtain ⟨rfl, column_run, -⟩ := takeDigits?_eq_some_iff.mp second
          split at h
          next blank =>
            cases h
            exact ⟨rest, rfl, line_run, column_run, List.all_eq_true.mp blank⟩
          next => cases h
        next => cases h
      next => cases h
    next => cases h
  · rintro ⟨trail, rfl, line_run, column_run, blank⟩
    have colon : Stops isDecimalDigit (':' :: (column ++ trail)) := stops_cons (by decide) _
    simp only [readPlace?, takeDigits?_eq_some_iff.mpr ⟨rfl, line_run, colon⟩,
      takeDigits?_eq_some_iff.mpr ⟨rfl, column_run, stops_of_blank blank⟩,
      List.all_eq_true.mpr blank, if_true]

/-- A run of digits or blanks has no colon. -/
theorem count_colon {p : Char → Bool} (colon : p ':' = false) {s : List Char}
    (h : ∀ c ∈ s, p c = true) : s.count ':' = 0 := by
  refine List.count_eq_zero.mpr fun mem => ?_
  rw [h ':' mem] at colon
  cases colon

theorem count_place (p : LocationSplit) : p.place.count ':' = 2 := by
  have line := count_colon (by decide) p.line_run.all
  have column := count_colon (by decide) p.column_run.all
  have trail := count_colon (by decide) p.trail_blank
  simp [LocationSplit.place, List.count_append, line, column, trail]

theorem exists_place {s line column : List Char} (h : readPlace? s = some (line, column)) :
    ∃ rest, s = ':' :: rest ∧ s.count ':' = 2 := by
  obtain ⟨trail, rfl, line_run, column_run, blank⟩ := readPlace?_eq_some_iff.mp h
  exact ⟨_, rfl, count_place ⟨[], [], ['x'], line, column, trail, by simp, by simp, by simp,
    by decide, line_run, column_run, blank⟩⟩

/-- A text has one place only at its end. -/
theorem place_unique {file rest file' rest' : List Char} (same : file ++ rest = file' ++ rest')
    (reads : (readPlace? rest).isSome) (reads' : (readPlace? rest').isSome) : file = file' := by
  obtain ⟨⟨_, _⟩, reads⟩ := Option.isSome_iff_exists.mp reads
  obtain ⟨⟨_, _⟩, reads'⟩ := Option.isSome_iff_exists.mp reads'
  obtain ⟨more, rfl, two⟩ := exists_place reads
  obtain ⟨more', rfl, two'⟩ := exists_place reads'
  rcases List.append_eq_append_iff.mp same with ⟨between, rfl, whole⟩ | ⟨between, rfl, whole⟩
  · cases between with
    | nil => rw [List.append_nil]
    | cons c between =>
      rw [whole, List.count_append, two', ← (List.cons.inj whole).1, List.count_cons_self] at two
      omega
  · cases between with
    | nil => rw [List.append_nil]
    | cons c between =>
      rw [whole, List.count_append, two, ← (List.cons.inj whole).1, List.count_cons_self] at two'
      omega

theorem splitPlace?_eq (s : List Char) :
    splitPlace? s = (splitBefore? readPlace? s).map fun (file, line, column) =>
      ⟨file, line, column⟩ := by
  induction s with
  | nil => rfl
  | cons c s ih =>
    rw [splitPlace?, splitBefore?, ih]
    split
    next => rfl
    next =>
      cases readPlace? s with
      | some found => rfl
      | none =>
        rw [Option.map_map, Option.map_map]
        rfl

/-- The one way to split a text before its place is found. -/
theorem splitPlace?_eq_some_iff {s : List Char} {l : Location} :
    splitPlace? s = some l ↔
      l.file ≠ [] ∧ '\n' ∉ l.file ∧ ∃ rest, s = l.file ++ rest ∧
        readPlace? rest = some (l.line, l.column) := by
  rw [splitPlace?_eq, Option.map_eq_some_iff]
  constructor
  · rintro ⟨⟨file, line, column⟩, found, rfl⟩
    obtain ⟨rest, ne_nil, plain, -⟩ := splitBefore?_eq_some_iff.mp found
    exact ⟨ne_nil, plain, rest⟩
  · rintro ⟨ne_nil, plain, rest, whole, reads⟩
    refine ⟨(l.file, l.line, l.column), splitBefore?_eq_some_iff.mpr ?_, rfl⟩
    refine ⟨⟨rest, whole, reads⟩, ne_nil, plain, fun other rest' whole' _ _ reads' => ?_⟩
    rw [place_unique (whole.symm.trans whole') (by rw [reads]; rfl) reads']

/-! ### Splits of a location -/

namespace LocationSplit

theorem readPlace?_place (p : LocationSplit) : readPlace? p.place = some (p.line, p.column) :=
  readPlace?_eq_some_iff.mpr ⟨p.trail, rfl, p.line_run, p.column_run, p.trail_blank⟩

/-- The splits of a line agree on all but how many blanks belong to the file. -/
theorem same_of_text {p q : LocationSplit} (h : p.text = q.text) :
    p.indent = q.indent ∧ p.gap ++ p.file = q.gap ++ q.file ∧ p.place = q.place := by
  obtain ⟨indent, rest⟩ := run_unique p.indent_blank (stops_cons (by decide) _) q.indent_blank
    (stops_cons (by decide) _) h
  have behind : (p.gap ++ p.file) ++ p.place = (q.gap ++ q.file) ++ q.place := by
    simpa using rest
  have before := place_unique behind (by rw [readPlace?_place]; rfl) (by rw [readPlace?_place]; rfl)
  rw [before] at behind
  exact ⟨indent, before, List.append_cancel_left behind⟩

theorem place_inj {p q : LocationSplit} (h : p.place = q.place) :
    p.line = q.line ∧ p.column = q.column ∧ p.trail = q.trail := by
  have read := p.readPlace?_place
  rw [h, q.readPlace?_place, Option.some.injEq, Prod.mk.injEq] at read
  obtain ⟨line, column⟩ := read
  refine ⟨line.symm, column.symm, ?_⟩
  rw [place, place, line, column] at h
  simpa using h

/-- The split that counts is unique. -/
theorem IsGreedy.eq {p q : LocationSplit} {s : List Char} (hp : p.IsGreedy s) (hq : q.IsGreedy s) :
    p = q := by
  obtain ⟨indent, before, place⟩ := same_of_text (hp.text_eq.trans hq.text_eq.symm)
  have length : p.gap.length = q.gap.length :=
    Nat.le_antisymm (hq.greedy p hp.text_eq) (hp.greedy q hq.text_eq)
  obtain ⟨gap, file⟩ := List.append_inj before length
  obtain ⟨line, column, trail⟩ := place_inj place
  cases p
  cases q
  simp only [LocationSplit.mk.injEq]
  exact ⟨indent, gap, file, line, column, trail⟩

/-- A location starts with a blank or with the arrow. -/
theorem exists_first (p : LocationSplit) :
    ∃ c rest, p.text = c :: rest ∧ (isBlank c = true ∨ c = '-') := by
  unfold text
  cases indent : p.indent with
  | nil => exact ⟨'-', _, rfl, .inr rfl⟩
  | cons c rest => exact ⟨c, _, rfl, .inl (p.indent_blank c (indent ▸ List.mem_cons_self))⟩

/-- The line and the column are the last two groups of digits. -/
theorem digitGroups_text (p : LocationSplit) :
    ∃ others, digitGroups p.text = others ++ [p.line, p.column] := by
  have noDigits {s : List Char} (h : ∀ c ∈ s, isBlank c = true) : digitGroups s = [] := by
    refine List.filter_eq_nil_iff.mpr ?_
    induction s with
    | nil => simp
    | cons c s ih =>
      have digit : isDecimalDigit c = false := isDecimalDigit_of_blank (h c List.mem_cons_self)
      have others := ih fun d mem => h d (List.mem_cons_of_mem c mem)
      rw [List.splitOnP_cons_eq_if_modifyHead, digit]
      simpa using others
  have last : digitGroups (p.column ++ p.trail) = [p.column] := by
    have digits : ∀ c ∈ p.column, (!isDecimalDigit c) = false := by
      intro c mem
      rw [p.column_run.all c mem]
      rfl
    cases trail : p.trail with
    | nil =>
      rw [List.append_nil, digitGroups, List.splitOnP_eq_singleton digits]
      simp [p.column_run.ne_nil]
    | cons c rest =>
      have blank : ∀ d ∈ c :: rest, isBlank d = true := trail ▸ p.trail_blank
      have digit := isDecimalDigit_of_blank (blank c List.mem_cons_self)
      have others := noDigits fun d mem => blank d (List.mem_cons_of_mem c mem)
      rw [digitGroups, List.splitOnP_append_cons_of_forall_mem digits c (by rw [digit]; rfl),
        List.filter_cons_of_pos (by simp [p.column_run.ne_nil])]
      exact congrArg _ others
  have digits : ∀ c ∈ p.line, (!isDecimalDigit c) = false := by
    intro c mem
    rw [p.line_run.all c mem]
    rfl
  let before := p.indent ++ (['-', '-', '>'] ++ (p.gap ++ p.file))
  have whole : p.text = before ++ ':' :: (p.line ++ ':' :: (p.column ++ p.trail)) := by
    simp [text, place, before]
  refine ⟨digitGroups before, ?_⟩
  rw [whole, digitGroups, List.splitOnP_append_cons _ _ (by decide),
    List.splitOnP_append_cons_of_forall_mem digits ':' (by decide), List.filter_append,
    List.filter_cons_of_pos (by simp [p.line_run.ne_nil])]
  exact congrArg (fun groups => digitGroups before ++ p.line :: groups) last

end LocationSplit

/-! ### Reading a location -/

theorem length_le_takeWhile {p : Char → Bool} {run : List Char} (all : ∀ c ∈ run, p c = true)
    (rest : List Char) : run.length ≤ ((run ++ rest).takeWhile p).length := by
  rw [List.takeWhile_append_of_pos all, List.length_append]
  exact Nat.le_add_right _ _

/-- What stands behind the arrow, in every split. -/
theorem behind_of_text {q : LocationSplit} {indent s : List Char}
    (indent_blank : ∀ c ∈ indent, isBlank c = true)
    (same : q.text = indent ++ (['-', '-', '>'] ++ s)) : q.gap ++ (q.file ++ q.place) = s := by
  have stops (s : List Char) : Stops isBlank (['-', '-', '>'] ++ s) := stops_cons (by decide) _
  obtain ⟨-, rest⟩ := run_unique q.indent_blank (stops _) indent_blank (stops _) same
  exact List.append_cancel_left rest

/-- A place that is found makes a split, with the blanks before it as its gap. -/
theorem exists_split {indent gap behind : List Char} {l : Location}
    (indent_blank : ∀ c ∈ indent, isBlank c = true) (gap_blank : ∀ c ∈ gap, isBlank c = true)
    (found : splitPlace? behind = some l) :
    ∃ p : LocationSplit, p.text = indent ++ (['-', '-', '>'] ++ (gap ++ behind)) ∧ p.gap = gap ∧
      l = ⟨p.file, p.line, p.column⟩ := by
  obtain ⟨ne_nil, plain, rest, rfl, reads⟩ := splitPlace?_eq_some_iff.mp found
  obtain ⟨trail, rfl, line_run, column_run, trail_blank⟩ := readPlace?_eq_some_iff.mp reads
  exact ⟨⟨indent, gap, l.file, l.line, l.column, trail, indent_blank, gap_blank, ne_nil, plain,
    line_run, column_run, trail_blank⟩, rfl, rfl, rfl⟩

/-- Where a place is found behind all blanks, they all belong to the gap. -/
theorem exists_isGreedy_of_behind {indent s : List Char} {l : Location}
    (indent_blank : ∀ c ∈ indent, isBlank c = true)
    (found : splitPlace? (s.dropWhile isBlank) = some l) :
    ∃ p : LocationSplit, p.IsGreedy (indent ++ (['-', '-', '>'] ++ s)) ∧
      l = ⟨p.file, p.line, p.column⟩ := by
  obtain ⟨p, text, gap, here⟩ := exists_split indent_blank (forall_mem_takeWhile isBlank s) found
  rw [List.takeWhile_append_dropWhile] at text
  refine ⟨p, ⟨text, fun q same => ?_⟩, here⟩
  have longest := length_le_takeWhile q.gap_blank (q.file ++ q.place)
  rwa [behind_of_text indent_blank same, ← gap] at longest

/-- Where nothing but blanks stands for the file, the last of them is the file. -/
theorem exists_isGreedy_of_blank {indent s : List Char} {l : Location} {blank : Char}
    (indent_blank : ∀ c ∈ indent, isBlank c = true)
    (unfound : splitPlace? (s.dropWhile isBlank) = none)
    (last : (s.takeWhile isBlank).getLast? = some blank)
    (found : splitPlace? (blank :: s.dropWhile isBlank) = some l) :
    ∃ p : LocationSplit, p.IsGreedy (indent ++ (['-', '-', '>'] ++ s)) ∧
      l = ⟨p.file, p.line, p.column⟩ := by
  obtain ⟨before, blanks⟩ := List.getLast?_eq_some_iff.mp last
  have all_blank : ∀ c ∈ before ++ [blank], isBlank c = true := blanks ▸ forall_mem_takeWhile _ _
  obtain ⟨p, text, gap, here⟩ :=
    exists_split indent_blank (fun c mem => all_blank c (List.mem_append_left _ mem)) found
  rw [List.append_cons, ← blanks, List.takeWhile_append_dropWhile] at text
  refine ⟨p, ⟨text, fun q same => Nat.le_of_not_lt fun more => ?_⟩, here⟩
  rw [gap] at more
  -- A longer gap would leave the place alone behind the blanks, where none is found.
  have behind := behind_of_text indent_blank same
  have atMost := length_le_takeWhile q.gap_blank (q.file ++ q.place)
  rw [behind, blanks, List.length_append, List.length_singleton] at atMost
  have whole : q.gap ++ (q.file ++ q.place) = (before ++ [blank]) ++ s.dropWhile isBlank := by
    rw [behind, ← blanks, List.takeWhile_append_dropWhile]
  obtain ⟨-, rest⟩ := List.append_inj whole (by
    rw [List.length_append, List.length_singleton]
    omega)
  have again : splitPlace? (s.dropWhile isBlank) = some ⟨q.file, q.line, q.column⟩ :=
    splitPlace?_eq_some_iff.mpr ⟨q.file_ne_nil, q.file_plain, q.place, rest.symm,
      q.readPlace?_place⟩
  rw [unfound] at again
  cases again

/-- The file of the split that counts starts with no blank, or is a single one. -/
theorem LocationSplit.IsGreedy.file_cases {p : LocationSplit} {s : List Char} (h : p.IsGreedy s) :
    Stops isBlank (p.file ++ p.place) ∨ ∃ blank, isBlank blank = true ∧ p.file = [blank] := by
  obtain ⟨c, more, file⟩ := List.exists_cons_of_ne_nil p.file_ne_nil
  cases blank : isBlank c with
  | false =>
    left
    rw [file]
    exact stops_cons blank _
  | true =>
    right
    refine ⟨c, blank, ?_⟩
    cases more with
    | nil => exact file
    | cons d more =>
      -- The blank could belong to the gap as well.
      let q : LocationSplit := { p with
        gap := p.gap ++ [c]
        file := d :: more
        gap_blank := List.forall_mem_append.mpr ⟨p.gap_blank, by simpa using blank⟩
        file_ne_nil := List.cons_ne_nil d more
        file_plain := fun mem => p.file_plain (file ▸ List.mem_cons_of_mem c mem) }
      have same : q.text = s := by
        rw [← h.text_eq, text, text, file]
        simp [q, place]
      have longer := h.greedy q same
      simp only [q, List.length_append, List.length_singleton] at longer
      omega

/-- What is read of a location is what its split says. -/
theorem readLocation?_eq_some_iff {line : List Char} {l : Location} :
    readLocation? line = some l ↔
      ∃ p : LocationSplit, p.IsGreedy line ∧ l = ⟨p.file, p.line, p.column⟩ := by
  constructor
  · intro h
    unfold readLocation? at h
    split at h
    next => cases h
    next s arrow =>
      have indent_blank : ∀ c ∈ line.takeWhile isBlank, isBlank c = true :=
        forall_mem_takeWhile _ _
      have whole : line.takeWhile isBlank ++ (['-', '-', '>'] ++ s) = line := by
        rw [← dropPrefix?_eq_some_iff.mp arrow]
        exact List.takeWhile_append_dropWhile
      rw [← whole]
      split at h
      next found =>
        cases h
        exact exists_isGreedy_of_behind indent_blank found
      next unfound =>
        split at h
        next blank last => exact exists_isGreedy_of_blank indent_blank unfound last h
        next => cases h
  · rintro ⟨p, greedy, rfl⟩
    have stops : Stops isBlank (['-', '-', '>'] ++ (p.gap ++ (p.file ++ p.place))) :=
      stops_cons (by decide) _
    have arrow : dropPrefix? ['-', '-', '>'] (line.dropWhile isBlank) =
        some (p.gap ++ (p.file ++ p.place)) := by
      rw [← greedy.text_eq, LocationSplit.text, dropWhile_run p.indent_blank stops]
      exact dropPrefix?_eq_some_iff.mpr rfl
    unfold readLocation?
    rw [arrow]
    have found {file : List Char} (same : file = p.file) :
        splitPlace? (file ++ p.place) = some ⟨p.file, p.line, p.column⟩ :=
      splitPlace?_eq_some_iff.mpr ⟨p.file_ne_nil, p.file_plain, p.place, by rw [same],
        p.readPlace?_place⟩
    rcases greedy.file_cases with stops | ⟨blank, isBlank_, file⟩
    · simp only [dropWhile_run p.gap_blank stops, found rfl]
    · have colon : Stops isBlank p.place := stops_cons (by decide) _
      have blanks : ∀ c ∈ p.gap ++ [blank], isBlank c = true :=
        List.forall_mem_append.mpr ⟨p.gap_blank, by simpa using isBlank_⟩
      have unfound : splitPlace? p.place = none := by
        cases split_ : splitPlace? p.place with
        | none => rfl
        | some l =>
          obtain ⟨ne_nil, -, rest, whole, reads⟩ := splitPlace?_eq_some_iff.mp split_
          have whole : [] ++ p.place = l.file ++ rest := whole
          have := place_unique whole (by rw [p.readPlace?_place]; rfl) (by rw [reads]; rfl)
          exact absurd this.symm ne_nil
      have again : splitPlace? (blank :: p.place) = some ⟨p.file, p.line, p.column⟩ :=
        found file.symm
      rw [file, ← List.append_assoc]
      simp only [dropWhile_run blanks colon, takeWhile_run blanks colon, unfound,
        List.getLast?_concat, again, file]

/-- Among the splits of a location is the one that counts. -/
theorem LocationSplit.exists_isGreedy {p : LocationSplit} {s : List Char} (h : p.text = s) :
    ∃ q : LocationSplit, q.IsGreedy s := by
  have short (q : LocationSplit) (same : q.text = s) : q.gap.length ≤ s.length := by
    rw [← same, text]
    simp only [List.length_append]
    omega
  induction left : s.length - p.gap.length using Nat.strongRecOn generalizing p with
  | ind left_ ih =>
    by_cases longer : ∃ q : LocationSplit, q.text = s ∧ p.gap.length < q.gap.length
    · obtain ⟨q, same, more⟩ := longer
      have := short q same
      exact ih (s.length - q.gap.length) (by omega) same rfl
    · refine ⟨p, h, fun q same => Nat.le_of_not_lt fun more => longer ⟨q, same, more⟩⟩

/-- A line that can be split is read as a location. -/
theorem isSome_readLocation?_iff {line : List Char} :
    (readLocation? line).isSome ↔ ∃ p : LocationSplit, p.text = line := by
  constructor
  · intro h
    obtain ⟨l, read⟩ := Option.isSome_iff_exists.mp h
    obtain ⟨p, greedy, -⟩ := readLocation?_eq_some_iff.mp read
    exact ⟨p, greedy.text_eq⟩
  · rintro ⟨p, text⟩
    obtain ⟨q, greedy⟩ := LocationSplit.exists_isGreedy text
    rw [readLocation?_eq_some_iff.mpr ⟨q, greedy, rfl⟩]
    rfl

end Rustc

end BuildSupervisor
