import BuildSupervisor.CommandLine.Settings
import BuildSupervisor.Proofs.Text.Cut
/-!
# Words that are shown as they are typed

A command is shown without quotes, so that a command line can be read back from it only if no word
needs them.  The words that need none are named by `Words.IsPlain`.  `Words.splitFrom?_plain` takes
the splitter over one of them, whatever stands behind it; the rest follows word by word.

A number sign inside a word, a carriage return and a blank that is not one of ASCII are all plain.
-/

namespace BuildSupervisor

namespace Words

/-- A character that stands for itself inside a word. -/
def IsOrdinary (c : Char) : Prop :=
  c ≠ ' ' ∧ c ≠ '\t' ∧ c ≠ '\n' ∧ c ≠ '"' ∧ c ≠ '\'' ∧ c ≠ '\\'

instance : DecidablePred IsOrdinary := fun c =>
  inferInstanceAs (Decidable (c ≠ ' ' ∧ c ≠ '\t' ∧ c ≠ '\n' ∧ c ≠ '"' ∧ c ≠ '\'' ∧ c ≠ '\\'))

/-- A word that a command line holds as it is. -/
structure IsPlain (word : List Char) : Prop where
  some_ : word ≠ []
  ordinary : ∀ c ∈ word, IsOrdinary c
  /-- It would be a comment. -/
  head : word.head? ≠ some '#'

instance : DecidablePred IsPlain := fun word =>
  decidable_of_iff
    (word ≠ [] ∧ (word.all fun c => decide (IsOrdinary c)) = true ∧ word.head? ≠ some '#')
    ⟨fun ⟨some_, ordinary, head⟩ => ⟨some_, by simpa using ordinary, head⟩,
      fun h => ⟨h.some_, by simpa using h.ordinary, h.head⟩⟩

variable {c : Char} {read word : List Char}

/-! ### One character -/

theorem IsOrdinary.isGap (h : IsOrdinary c) : isGap c = false := by
  obtain ⟨blank, tab, feed, -⟩ := h
  simp [Words.isGap, blank, tab, feed]

theorem IsOrdinary.inWord (h : IsOrdinary c) (read : List Char) :
    inWord read c = .word (c :: read) := by
  obtain ⟨-, -, -, double, single, back⟩ := h
  rw [Words.inWord, if_neg double, if_neg single, if_neg back]

theorem splitFrom?_ordinary (h : IsOrdinary c) (read rest : List Char) :
    splitFrom? (.word read) (c :: rest) = splitFrom? (.word (c :: read)) rest := by
  simp only [splitFrom?, State.next, h.isGap, h.inWord, Bool.false_eq_true, if_false]

/-- The first character of a word, where it opens no comment. -/
theorem splitFrom?_gap_ordinary (h : IsOrdinary c) (opens : c ≠ '#') (rest : List Char) :
    splitFrom? .gap (c :: rest) = splitFrom? (.word [c]) rest := by
  simp only [splitFrom?, State.next, h.isGap, h.inWord, opens, Bool.false_eq_true, if_false]

theorem splitFrom?_word_gap (gap : isGap c = true) (read rest : List Char) :
    splitFrom? (.word read) (c :: rest) = (splitFrom? .gap rest).map (read.reverse :: ·) := by
  simp only [splitFrom?, State.next, gap, if_true]

/-! ### One word -/

theorem splitFrom?_ordinaries (ordinary : ∀ c ∈ word, IsOrdinary c) (read rest : List Char) :
    splitFrom? (.word read) (word ++ rest) = splitFrom? (.word (word.reverse ++ read)) rest := by
  induction word generalizing read with
  | nil => rfl
  | cons c word ih =>
    rw [List.cons_append, splitFrom?_ordinary (ordinary c List.mem_cons_self),
      ih fun c mem => ordinary c (List.mem_cons_of_mem _ mem), List.reverse_cons,
      List.append_assoc, List.singleton_append]

/-- The splitter reads a plain word to its end. -/
theorem splitFrom?_plain (plain : IsPlain word) (rest : List Char) :
    splitFrom? .gap (word ++ rest) = splitFrom? (.word word.reverse) rest := by
  cases word with
  | nil => exact absurd rfl plain.some_
  | cons c word =>
    have opens : c ≠ '#' := fun same => plain.head (same ▸ rfl)
    rw [List.cons_append, splitFrom?_gap_ordinary (plain.ordinary c List.mem_cons_self) opens,
      splitFrom?_ordinaries fun c mem => plain.ordinary c (List.mem_cons_of_mem _ mem),
      List.reverse_cons]

/-! ### Many words -/

/-- Plain words with a blank between neighbours are split where they were joined. -/
theorem split?_join {words : List (List Char)} (plain : ∀ word ∈ words, IsPlain word) :
    split? (Text.join [' '] words) = some words := by
  unfold split?
  induction words with
  | nil => rfl
  | cons word words ih =>
    have first := plain word List.mem_cons_self
    cases words with
    | nil =>
      have read := splitFrom?_plain first []
      rw [List.append_nil] at read
      rw [Text.join, read, splitFrom?, List.reverse_reverse]
    | cons next words =>
      have others := ih fun word mem => plain word (List.mem_cons_of_mem _ mem)
      rw [Text.join_cons _ _ (List.cons_ne_nil next words), List.append_assoc,
        splitFrom?_plain first, List.singleton_append, splitFrom?_word_gap (by decide), others,
        List.reverse_reverse, Option.map_some]

end Words

namespace ToolCommand

theorem toList_display (c : ToolCommand) :
    c.display.toList = Text.join [' '] (c.words.map String.toList) := by
  unfold display
  induction c.words with
  | nil => rfl
  | cons word words ih =>
    cases words with
    | nil => simp [Text.join]
    | cons next words =>
      have some_ : (next :: words).map String.toList ≠ [] := List.cons_ne_nil _ _
      rw [String.intercalate_cons_cons, String.toList_append, String.toList_append, ih,
        List.map_cons (l := next :: words), Text.join_cons _ _ some_]
      rfl

theorem ofWords?_words (c : ToolCommand) :
    ofWords? c.words = some { c with workingDir := none } :=
  rfl

/-- What is shown of a command with plain words is a command line for it. -/
theorem ofLine?_display {c : ToolCommand} (here : c.workingDir = none)
    (plain : ∀ word ∈ c.words, Words.IsPlain word.toList) : ofLine? c.display = some c := by
  have split : Words.split? c.display.toList = some (c.words.map String.toList) := by
    rw [toList_display]
    exact Words.split?_join (List.forall_mem_map.mpr plain)
  have back : (c.words.map String.toList).map String.ofList = c.words := by
    simp
  rw [ofLine?, split, Option.bind_some, back, ofWords?_words, ← here]

/-- A command of plain words is the same one by both ways in: its words, and the line that is shown
    of it. -/
theorem display_splits_back :
    (∀ c : ToolCommand, c.workingDir = none → (∀ word ∈ c.words, Words.IsPlain word.toList) →
      ofLine? c.display = some c) ∧
    (∀ words : List String, words ≠ [] → (∀ word ∈ words, Words.IsPlain word.toList) →
      ∃ c, ofWords? words = some c ∧ ofLine? c.display = some c) ∧
    ∀ a : Arguments, a.options.command = none → a.words ≠ [] →
      (∀ word ∈ a.words, Words.IsPlain word.toList) →
      ∃ c, ofWords? a.words = some c ∧ a.command = .ok (a.options.cwd.elim c c.inDirectory) ∧
        { a with options := { a.options with command := some c.display }, words := [] }.command =
          a.command := by
  refine ⟨fun c here plain => ofLine?_display here plain, fun words some_ plain => ?_,
    fun a without some_ plain => ?_⟩
  · obtain ⟨program, args, rfl⟩ := List.exists_cons_of_ne_nil some_
    exact ⟨_, rfl, ofLine?_display rfl plain⟩
  · obtain ⟨program, args, words⟩ := List.exists_cons_of_ne_nil some_
    have typed : ofWords? a.words = some ⟨program, args, none⟩ := by rw [words, ofWords?]
    have shown : ofLine? (display ⟨program, args, none⟩) = some ⟨program, args, none⟩ :=
      ofLine?_display rfl fun word mem => plain word (by rw [words]; exact mem)
    refine ⟨_, typed, ?_, ?_⟩
    · simp only [Arguments.command, Arguments.bareCommand, without, typed, Except.map]
    · simp only [Arguments.command, Arguments.bareCommand, without, typed, shown]

/-- A number sign inside a word, a carriage return, a blank that is not the one of ASCII, and what a
    shell would expand. -/
def oddWords : List String :=
  ["gcc", "-DTAG=a#b", "x\r", "caf\u00e9\u00a0*.c", "$HOME"]

/-- Arguments that give these words, and a directory. -/
def oddArguments : Arguments :=
  ⟨.ofText "a.c", { Options.none with cwd := some (.ofText "sub") }, oddWords⟩

theorem oddWords_split_back :
    (∀ word ∈ oddWords, Words.IsPlain word.toList) ∧
      ofLine? "gcc -DTAG=a#b x\r caf\u00e9\u00a0*.c $HOME" =
        some ⟨"gcc", oddWords.tail, none⟩ ∧
      (∃ c, ofWords? oddWords = some c ∧ ofLine? c.display = some c) ∧
      ∃ c, ofWords? oddArguments.words = some c ∧
        oddArguments.command = .ok (c.inDirectory (.ofText "sub")) ∧
        { oddArguments with
          options := { oddArguments.options with command := some c.display }
          words := [] }.command = oddArguments.command := by
  have plain : ∀ word ∈ oddWords, Words.IsPlain word.toList := by
    simp only [oddWords, List.forall_mem_cons, String.reduceToList]
    decide
  obtain ⟨shown, typed, given⟩ := display_splits_back
  have some_ : oddWords ≠ [] := List.cons_ne_nil _ _
  exact ⟨plain, shown ⟨"gcc", oddWords.tail, none⟩ rfl plain, typed oddWords some_ plain,
    given oddArguments rfl some_ plain⟩

end ToolCommand

end BuildSupervisor
