import BuildSupervisor.Diagnostic.Rustc
import BuildSupervisor.Proofs.Text.Runs
import Mathlib.Data.List.TakeWhile
/-!
# Headers of diagnostics

A header is `severity: message` or `severity[code]: message`.  `Rustc.HeaderSplit` is a line taken
apart in this way.  A message needs a character, so that a header which ends in blanks leaves one of
them to it: the split that counts is the one with the most blanks before the message.
`Rustc.readHeader?_eq_some_iff` says that this split is read.
-/

namespace BuildSupervisor.Rustc

open Text

/-- A header taken apart. -/
structure HeaderSplit where
  keyword : String
  code : Option (List Char)
  gap : List Char
  message : List Char
  keyword_mem : keyword ∈ ["error", "warning", "note", "help"]
  code_run : ∀ letters ∈ code, IsRun isCodeChar letters
  gap_blank : ∀ c ∈ gap, isBlank c = true
  message_ne_nil : message ≠ []
  message_plain : '\n' ∉ message

/-- An error code in its brackets. -/
def bracketed : Option (List Char) → List Char
  | none => []
  | some letters => '[' :: letters ++ [']']

/-- What a diagnostic says before the message: the code in its brackets, and a blank. -/
def codeMark : Option (List Char) → List Char
  | none => []
  | some letters => '[' :: letters ++ [']', ' ']

namespace HeaderSplit

/-- The code in its brackets. -/
def codeText (p : HeaderSplit) : List Char :=
  bracketed p.code

/-- The whole line. -/
def text (p : HeaderSplit) : List Char :=
  p.keyword.toList ++ (p.codeText ++ ':' :: (p.gap ++ p.message))

/-- The split is one of the line `s`, and none of its splits has more blanks before the message. -/
structure IsGreedy (p : HeaderSplit) (s : List Char) : Prop where
  text_eq : p.text = s
  greedy : ∀ q : HeaderSplit, q.text = s → q.gap.length ≤ p.gap.length

/-- What the diagnostic says before the message. -/
def mark (p : HeaderSplit) : List Char :=
  codeMark p.code

end HeaderSplit

/-! ### Words before the colon -/

theorem keywords_prefixFree : PrefixFree keywords := by
  decide

theorem keywords_vocabulary : IsVocabulary keywords := by
  decide

/-- The table of keywords holds four words, each with its severity. -/
theorem mem_keywords_iff {word : String} {severity : Severity} :
    (word, severity) ∈ keywords ↔
      word ∈ ["error", "warning", "note", "help"] ∧
        Severity.ofKeyword? word = some severity :=
  keywords_vocabulary.mem_iff

theorem isAsciiLetter_of_mem_keyword {word : String}
    (known : word ∈ ["error", "warning", "note", "help"]) :
    ∀ c ∈ word.toList, isAsciiLetter c = true := by
  have all : ∀ word ∈ ["error", "warning", "note", "help"],
      word.toList.all isAsciiLetter = true := by
    decide
  exact List.all_eq_true.mp (all word known)

namespace HeaderSplit

theorem exists_severity (p : HeaderSplit) :
    ∃ severity, Severity.ofKeyword? p.keyword = some severity :=
  keywords_vocabulary.exists_severity p.keyword_mem

/-- A header starts with a letter. -/
theorem exists_letter (p : HeaderSplit) :
    ∃ c rest, p.text = c :: rest ∧ isAsciiLetter c = true := by
  have some_ : ∀ word ∈ ["error", "warning", "note", "help"], word.toList ≠ [] := by
    decide
  obtain ⟨c, rest, spelt⟩ := List.exists_cons_of_ne_nil (some_ p.keyword p.keyword_mem)
  refine ⟨c, rest ++ (p.codeText ++ ':' :: (p.gap ++ p.message)), ?_, ?_⟩
  · rw [text, spelt]
    rfl
  · exact isAsciiLetter_of_mem_keyword p.keyword_mem c (spelt ▸ List.mem_cons_self)

/-- A code ends at its bracket. -/
theorem bracketed_unique {code code' : Option (List Char)} {rest rest' : List Char}
    (run : ∀ letters ∈ code, IsRun isCodeChar letters)
    (run' : ∀ letters ∈ code', IsRun isCodeChar letters)
    (same : bracketed code ++ ':' :: rest = bracketed code' ++ ':' :: rest') :
    code = code' ∧ rest = rest' := by
  cases code with
  | none =>
    cases code' with
    | none => exact ⟨rfl, (List.cons.inj same).2⟩
    | some letters => exact absurd (List.cons.inj same).1 (by decide)
  | some letters =>
    cases code' with
    | none => exact absurd (List.cons.inj same).1 (by decide)
    | some letters' =>
      have behind : letters ++ ']' :: ':' :: rest = letters' ++ ']' :: ':' :: rest' := by
        simpa [bracketed] using same
      obtain ⟨rfl, more⟩ := run_unique (run letters rfl).all (stops_cons (by decide) _)
        (run' letters' rfl).all (stops_cons (by decide) _) behind
      exact ⟨rfl, (List.cons.inj (List.cons.inj more).2).2⟩

/-- All splits of a header agree on all but how many blanks belong to the message. -/
theorem same_of_text {p q : HeaderSplit} (h : p.text = q.text) :
    p.keyword = q.keyword ∧ p.code = q.code ∧ p.gap ++ p.message = q.gap ++ q.message := by
  have stops (r : HeaderSplit) :
      Stops isAsciiLetter (r.codeText ++ ':' :: (r.gap ++ r.message)) := by
    unfold codeText
    cases r.code with
    | none => exact stops_cons (by decide) _
    | some letters => exact stops_cons (by decide) _
  obtain ⟨keyword, rest⟩ := run_unique (isAsciiLetter_of_mem_keyword p.keyword_mem) (stops p)
    (isAsciiLetter_of_mem_keyword q.keyword_mem) (stops q) h
  exact ⟨String.toList_injective keyword, bracketed_unique p.code_run q.code_run rest⟩

/-- The split that counts is unique. -/
theorem IsGreedy.eq {p q : HeaderSplit} {s : List Char} (hp : p.IsGreedy s) (hq : q.IsGreedy s) :
    p = q := by
  obtain ⟨keyword, code, rest⟩ := same_of_text (hp.text_eq.trans hq.text_eq.symm)
  have length : p.gap.length = q.gap.length :=
    Nat.le_antisymm (hq.greedy p hp.text_eq) (hp.greedy q hq.text_eq)
  obtain ⟨gap, message⟩ := List.append_inj rest length
  cases p
  cases q
  simp only [HeaderSplit.mk.injEq]
  exact ⟨keyword, code, gap, message⟩

end HeaderSplit

/-! ### The blanks before a message -/

/-- A text with a character has a start of blanks that leaves it one, and is the longest such. -/
theorem exists_greedy {s : List Char} (some_ : s ≠ []) :
    ∃ gap message, s = gap ++ message ∧ (∀ c ∈ gap, isBlank c = true) ∧ message ≠ [] ∧
      trimEnd message = trim s ∧
      ∀ gap' message', s = gap' ++ message' → (∀ c ∈ gap', isBlank c = true) → message' ≠ [] →
        gap'.length ≤ gap.length := by
  by_cases blank : ∀ c ∈ s, isBlank c = true
  · refine ⟨s.dropLast, [s.getLast some_], (List.dropLast_concat_getLast some_).symm, ?_,
      List.cons_ne_nil _ _, ?_, ?_⟩
    · exact fun c mem => blank c ((List.dropLast_sublist s).subset mem)
    · have last : isBlank (s.getLast some_) = true := blank _ (List.getLast_mem some_)
      have nothing : s.dropWhile isBlank = [] := List.dropWhile_eq_nil_iff.mpr blank
      rw [trim, trimStart, nothing, trimEnd, (dropEndWhile_eq_nil_iff _ _).mpr (by simp [last])]
      rfl
    · intro gap' message' whole _ some'
      have length := congrArg List.length whole
      have pos := List.length_pos_iff.mpr some'
      rw [List.length_append] at length
      rw [List.length_dropLast]
      omega
  · refine ⟨s.takeWhile isBlank, s.dropWhile isBlank, List.takeWhile_append_dropWhile.symm,
      forall_mem_takeWhile _ _, ?_, rfl, ?_⟩
    · exact fun nothing => blank (List.dropWhile_eq_nil_iff.mp nothing)
    · intro gap' message' whole blank' _
      rw [whole, List.takeWhile_append_of_pos blank', List.length_append]
      exact Nat.le_add_right _ _

theorem readMessage?_eq_some_iff {rest message : List Char} (plain : '\n' ∉ rest) :
    readMessage? rest = some message ↔ rest ≠ [] ∧ message = trim rest := by
  cases rest with
  | nil => simp [readMessage?]
  | cons c rest =>
    have plain' : '\n' ∉ (c :: rest).dropWhile isBlank :=
      fun mem => plain ((List.dropWhile_suffix _).subset mem)
    rw [readMessage?, if_neg plain']
    · simp [eq_comm]
    · exact List.cons_ne_nil c rest

/-! ### Reading a header -/

namespace HeaderSplit

/-- A header is read as it is split. -/
theorem readHeader?_text (p : HeaderSplit) {severity : Severity}
    (means : Severity.ofKeyword? p.keyword = some severity) (plain : '\n' ∉ p.text) :
    readHeader? p.text = some ⟨severity, p.mark ++ trim (p.gap ++ p.message)⟩ := by
  have known : (p.keyword, severity) ∈ keywords := mem_keywords_iff.mpr ⟨p.keyword_mem, means⟩
  have said : readMessage? (p.gap ++ p.message) = some (trim (p.gap ++ p.message)) := by
    refine (readMessage?_eq_some_iff fun mem => plain ?_).mpr ⟨?_, rfl⟩
    · exact List.mem_append_right _ (List.mem_append_right _ (List.mem_cons_of_mem _ mem))
    · exact fun nothing => p.message_ne_nil (List.append_eq_nil_iff.mp nothing).2
  unfold readHeader?
  cases code : p.code with
  | none =>
    have whole : p.text = p.keyword.toList ++ ':' :: (p.gap ++ p.message) := by
      rw [text, codeText, code]
      rfl
    have mark_eq : p.mark = [] := by rw [mark, code]; rfl
    rw [whole, (takeKeyword?_eq_some_iff keywords_prefixFree).mpr ⟨p.keyword, known, rfl⟩]
    simp only [said, Option.map_some, mark_eq, List.nil_append]
  | some letters =>
    have run := p.code_run letters code
    have whole : p.text =
        p.keyword.toList ++ '[' :: (letters ++ ']' :: ':' :: (p.gap ++ p.message)) := by
      rw [text, codeText, code]
      simp [bracketed]
    have mark_eq : p.mark = '[' :: letters ++ [']', ' '] := by rw [mark, code]; rfl
    have closes : Stops isCodeChar (']' :: ':' :: (p.gap ++ p.message)) :=
      stops_cons (by decide) _
    rw [whole, (takeKeyword?_eq_some_iff keywords_prefixFree).mpr ⟨p.keyword, known, rfl⟩]
    simp only [takeWhile_run run.all closes, dropWhile_run run.all closes]
    split
    next => exact absurd rfl run.ne_nil
    next rest _ same =>
      cases same
      simp only [said, Option.map_some, mark_eq, List.cons_append, List.append_assoc,
        List.nil_append]
    next other => exact absurd rfl (other _)

/-- The split with the most blanks before the message, of the parts of a header. -/
theorem exists_isGreedy {word : String} {code : Option (List Char)} {rest : List Char}
    (known : word ∈ ["error", "warning", "note", "help"])
    (code_run : ∀ letters ∈ code, IsRun isCodeChar letters) (some_ : rest ≠ [])
    (plain : '\n' ∉ rest) :
    ∃ p : HeaderSplit, p.keyword = word ∧ p.code = code ∧ p.gap ++ p.message = rest ∧
      p.IsGreedy p.text ∧ trimEnd p.message = trim rest := by
  obtain ⟨gap, message, rfl, gap_blank, message_ne_nil, trimmed, longest⟩ := exists_greedy some_
  let p : HeaderSplit := ⟨word, code, gap, message, known, code_run, gap_blank, message_ne_nil,
    fun mem => plain (List.mem_append_right gap mem)⟩
  refine ⟨p, rfl, rfl, rfl, ⟨rfl, fun q same => ?_⟩, trimmed⟩
  obtain ⟨-, -, rest⟩ := same_of_text same
  exact longest q.gap q.message rest.symm q.gap_blank q.message_ne_nil

end HeaderSplit

/-- The parts that a header is read from. -/
theorem exists_parts {line : List Char} {header : Header} (h : readHeader? line = some header) :
    ∃ word code rest message, (word, header.severity) ∈ keywords ∧
      (∀ letters ∈ code, IsRun isCodeChar letters) ∧
      line = word.toList ++ (bracketed code ++ ':' :: rest) ∧ readMessage? rest = some message ∧
      header.message = codeMark code ++ message := by
  unfold readHeader? at h
  split at h
  next severity rest taken =>
    obtain ⟨word, mem, rfl⟩ := (takeKeyword?_eq_some_iff keywords_prefixFree).mp taken
    obtain ⟨message, read, rfl⟩ := Option.map_eq_some_iff.mp h
    exact ⟨word, none, rest, message, mem, nofun, rfl, read, rfl⟩
  next severity rest taken =>
    obtain ⟨word, mem, rfl⟩ := (takeKeyword?_eq_some_iff keywords_prefixFree).mp taken
    split at h
    next => cases h
    next rest' closed some_code =>
      obtain ⟨message, read, rfl⟩ := Option.map_eq_some_iff.mp h
      refine ⟨word, some (rest.takeWhile isCodeChar), rest', message, mem, ?_, ?_, read, ?_⟩
      · rintro _ ⟨⟩
        exact ⟨some_code, forall_mem_takeWhile _ _⟩
      · have spelt : rest = rest.takeWhile isCodeChar ++ ']' :: ':' :: rest' := by
          rw [← closed, List.takeWhile_append_dropWhile]
        rw [bracketed, List.cons_append, List.cons_append, List.append_assoc]
        exact congrArg (fun rest => word.toList ++ '[' :: rest) spelt
      · simp [codeMark]
    next => cases h
  next => cases h

/-- What is read of a header is what its split says. -/
theorem readHeader?_eq_some_iff {line : List Char} (plain : '\n' ∉ line) {header : Header} :
    readHeader? line = some header ↔
      ∃ p : HeaderSplit, p.IsGreedy line ∧ Severity.ofKeyword? p.keyword = some header.severity ∧
        header.message = p.mark ++ trimEnd p.message := by
  constructor
  · intro h
    obtain ⟨word, code, rest, message, mem, code_run, rfl, read, spoken⟩ := exists_parts h
    obtain ⟨known, means⟩ := mem_keywords_iff.mp mem
    have plain' : '\n' ∉ rest := fun mem => plain
      (List.mem_append_right _ (List.mem_append_right _ (List.mem_cons_of_mem _ mem)))
    obtain ⟨some_, rfl⟩ := (readMessage?_eq_some_iff plain').mp read
    obtain ⟨p, keyword, code_, whole, greedy, trimmed⟩ :=
      HeaderSplit.exists_isGreedy known code_run some_ plain'
    rw [HeaderSplit.text, HeaderSplit.codeText, keyword, code_, whole] at greedy
    exact ⟨p, greedy, keyword ▸ means, by rw [spoken, HeaderSplit.mark, code_, trimmed]⟩
  · rintro ⟨p, greedy, means, message⟩
    have some_ : p.gap ++ p.message ≠ [] :=
      fun nothing => p.message_ne_nil (List.append_eq_nil_iff.mp nothing).2
    have plain' : '\n' ∉ p.gap ++ p.message := by
      intro mem
      refine plain ?_
      rw [← greedy.text_eq]
      exact List.mem_append_right _ (List.mem_append_right _ (List.mem_cons_of_mem _ mem))
    obtain ⟨q, keyword, code, whole, greedy', trimmed⟩ :=
      HeaderSplit.exists_isGreedy p.keyword_mem p.code_run some_ plain'
    have text : q.text = p.text := by
      rw [HeaderSplit.text, HeaderSplit.text, HeaderSplit.codeText, HeaderSplit.codeText, keyword,
        code, whole]
    rw [text, greedy.text_eq] at greedy'
    rw [greedy'.eq greedy] at trimmed
    have read := p.readHeader?_text means (by rw [greedy.text_eq]; exact plain)
    rw [greedy.text_eq] at read
    rw [read, ← trimmed, ← message]

/-- A line that can be split is read as a header. -/
theorem isSome_readHeader?_iff {line : List Char} (plain : '\n' ∉ line) :
    (readHeader? line).isSome ↔ ∃ p : HeaderSplit, p.text = line := by
  constructor
  · intro h
    obtain ⟨header, read⟩ := Option.isSome_iff_exists.mp h
    obtain ⟨p, greedy, -⟩ := (readHeader?_eq_some_iff plain).mp read
    exact ⟨p, greedy.text_eq⟩
  · rintro ⟨p, rfl⟩
    obtain ⟨severity, means⟩ := p.exists_severity
    rw [p.readHeader?_text means plain]
    rfl

end BuildSupervisor.Rustc
