import BuildSupervisor.CommandLine.Settings
/-!
# Words behind the two dashes

Whatever stands behind `--` is the command and nothing else: no word of it is taken for an option,
and no option changes its meaning.

The reader hands the words behind `--` over as they are (`ArgumentDraft.read_append`), so that all
of this is a matter of the arguments in front.  Whether these give a command line themselves can be
told from their spelling (`GivesCommandLine`): `ArgumentDraft.NamesCommand` says of a draft that the
option for it has been read, with its value or still without, and each argument adds to it what its
own spelling says (`ArgumentDraft.readOne_namesCommand`).
-/

namespace BuildSupervisor

/-- An argument that is the option for a command line, its value attached or not. -/
def IsCommandOption (arg : String) : Prop :=
  arg = "--command" ∨ "--command=".toList <+: arg.toList

instance : DecidablePred IsCommandOption := fun arg =>
  inferInstanceAs (Decidable (arg = "--command" ∨ "--command=".toList <+: arg.toList))

/-- Arguments that give a command line. -/
def GivesCommandLine (args : List String) : Prop :=
  ∃ arg ∈ args, IsCommandOption arg

instance : DecidablePred GivesCommandLine := fun args =>
  inferInstanceAs (Decidable (∃ arg ∈ args, IsCommandOption arg))

theorem exists_of_map_eq_ok {ε α β : Type} {x : Except ε α} {f : α → β} {b : β}
    (h : x.map f = .ok b) : ∃ a, x = .ok a ∧ f a = b := by
  cases x with
  | error e => cases h
  | ok a => exact ⟨a, rfl, Except.ok.inj h⟩

theorem exists_of_bind_eq_ok {ε α β : Type} {x : Except ε α} {f : α → Except ε β} {b : β}
    (h : x.bind f = .ok b) : ∃ a, x = .ok a ∧ f a = .ok b := by
  cases x with
  | error e => cases h
  | ok a => exact ⟨a, rfl, h⟩

namespace ArgumentDraft

variable {d next : ArgumentDraft} {arg : String} {args : List String}

/-! ### The option for a command line -/

/-- The option for a command line has been read. -/
def NamesCommand (d : ArgumentDraft) : Prop :=
  d.options.command.isSome = true ∨ d.pending.map PendingOption.option = some .command

theorem namesCommand_of_settled (settled : d.pending = none) :
    d.NamesCommand ↔ d.options.command.isSome = true := by
  simp [NamesCommand, settled]

theorem assign_namesCommand {o : ValueOption} {value : String} (settled : d.pending = none)
    (h : d.assign o value = .ok next) :
    next.pending = none ∧ (next.NamesCommand ↔ d.NamesCommand ∨ o = .command) := by
  rw [namesCommand_of_settled settled]
  unfold assign at h
  split at h
  · cases h
  · cases o with
    | command =>
      cases h
      exact ⟨settled, by simp [NamesCommand]⟩
    | target | delayMs | watchdogSecs | dialect | config | cwd =>
      obtain ⟨value, -, rfl⟩ := exists_of_map_eq_ok h
      exact ⟨settled, by simp [NamesCommand, settled]⟩

theorem resolve_namesCommand (h : d.resolve = .ok next) :
    next.pending = none ∧ (next.NamesCommand ↔ d.NamesCommand) := by
  unfold resolve at h
  split at h
  · next settled =>
    cases h
    exact ⟨settled, Iff.rfl⟩
  · cases h
  · next o value waits =>
    obtain ⟨settled, names⟩ := assign_namesCommand rfl h
    exact ⟨settled, names.trans (by simp [NamesCommand, waits])⟩

theorem raise_namesCommand {f : Flag} (h : d.raise f = .ok next) :
    next.NamesCommand ↔ d.NamesCommand := by
  unfold raise at h
  split at h
  · cases h
  · cases f <;> cases h <;> exact Iff.rfl

theorem lookup_command {name : String} :
    valueOptions.lookup name = some .command ↔ name = "command" := by
  constructor
  · intro found
    obtain ⟨before, behind, split, -⟩ := List.lookup_eq_some_iff.mp found
    have mem : (name, ValueOption.command) ∈ valueOptions := by
      rw [split]
      exact List.mem_append_right _ List.mem_cons_self
    simpa [valueOptions] using mem
  · rintro rfl
    decide

/-- The name of an option ends where its value is attached. -/
theorem splitValue_name {rest name : List Char} (plain : '=' ∉ name) :
    (splitValue rest).1 = String.ofList name ↔
      rest = name ∨ ∃ value, rest = name ++ '=' :: value := by
  have cut : rest = rest.takeWhile (· ≠ '=') ++ rest.dropWhile (· ≠ '=') :=
    List.takeWhile_append_dropWhile.symm
  have own : ∀ c ∈ name, decide (c ≠ '=') = true := fun c mem =>
    decide_eq_true fun same => plain (same ▸ mem)
  rw [splitValue, String.ofList_inj]
  constructor
  · intro same
    rw [same] at cut
    have first := List.head?_dropWhile_not (· ≠ '=') rest
    cases behind : rest.dropWhile (· ≠ '=') with
    | nil => exact .inl (by rwa [behind, List.append_nil] at cut)
    | cons c value =>
      rw [behind] at first cut
      have equals : c = '=' := by simpa using first
      exact .inr ⟨value, equals ▸ cut⟩
  · rintro (rfl | ⟨value, rfl⟩)
    · rw [← List.append_nil rest, List.takeWhile_append_of_pos own, List.takeWhile_nil]
    · rw [List.takeWhile_append_of_pos own, List.takeWhile_cons_of_neg (by simp), List.append_nil]

theorem isCommandOption_iff {rest : List Char} (dashes : arg.toList = '-' :: '-' :: rest) :
    IsCommandOption arg ↔ (splitValue rest).1 = "command" := by
  have bare : arg = "--command" ↔ rest = "command".toList := by
    rw [← String.toList_inj, dashes]
    exact (List.cons_inj_right '-').trans (List.cons_inj_right '-')
  have attached : "--command=".toList <+: arg.toList ↔
      ∃ value, rest = "command".toList ++ '=' :: value := by
    rw [dashes]
    refine exists_congr fun value => ?_
    exact ((List.cons_inj_right '-').trans (List.cons_inj_right '-')).trans eq_comm
  rw [IsCommandOption, bare, attached]
  exact (splitValue_name (by decide)).symm

theorem not_isCommandOption (dashes : ∀ rest, arg.toList ≠ '-' :: '-' :: rest) :
    ¬ IsCommandOption arg := by
  rintro (rfl | ⟨line, same⟩)
  · exact dashes _ rfl
  · exact dashes _ same.symm

/-! ### One argument -/

theorem readOption_namesCommand {name : String} {attached : Option String}
    (h : d.readOption name attached = .ok next) :
    next.NamesCommand ↔ d.NamesCommand ∨ name = "command" := by
  unfold readOption at h
  rw [← lookup_command]
  split at h
  · next o _ value isOption =>
    obtain ⟨resolved, resolve, assign⟩ := exists_of_bind_eq_ok h
    obtain ⟨settled, known⟩ := resolve_namesCommand resolve
    rw [(assign_namesCommand settled assign).2, known, isOption, Option.some_inj]
  · next o isOption =>
    obtain ⟨resolved, resolve, rfl⟩ := exists_of_map_eq_ok h
    obtain ⟨settled, known⟩ := resolve_namesCommand resolve
    rw [← known, namesCommand_of_settled settled, isOption]
    simp [NamesCommand]
  · cases h
  · next other _ =>
    obtain ⟨resolved, resolve, raise⟩ := exists_of_bind_eq_ok h
    rw [raise_namesCommand raise, (resolve_namesCommand resolve).2, other]
    simp
  · cases h

/-- The options with one dash end the reading. -/
theorem readLetter_ne_ok {letter : Char} : d.readLetter letter ≠ .ok next := by
  intro h
  unfold readLetter at h
  split at h
  · obtain ⟨resolved, -, raise⟩ := exists_of_bind_eq_ok h
    cases raise
  · split at h
    · obtain ⟨resolved, -, raise⟩ := exists_of_bind_eq_ok h
      cases raise
    · cases h

theorem readValue_namesCommand (h : d.readValue arg = .ok next) :
    next.NamesCommand ↔ d.NamesCommand := by
  unfold readValue at h
  split at h
  · next o waits =>
    cases h
    simp [NamesCommand, waits]
  · cases h

/-- An argument names the command line if it is spelled like the option for it. -/
theorem readOne_namesCommand (h : d.readOne arg = .ok next) :
    next.NamesCommand ↔ d.NamesCommand ∨ IsCommandOption arg := by
  unfold readOne at h
  split at h
  · next rest dashes =>
    rw [readOption_namesCommand h, isCommandOption_iff dashes]
  · exact absurd h readLetter_ne_ok
  · next noDashes _ =>
    rw [readValue_namesCommand h, or_iff_left (not_isCommandOption noDashes)]

/-! ### All arguments -/

theorem read_append (front : "--" ∉ args) (words : List String) :
    d.read (args ++ "--" :: words) = (d.read args).map fun (d, _) => (d, words) := by
  induction args generalizing d with
  | nil => rfl
  | cons arg args ih =>
    rw [List.mem_cons, not_or] at front
    rw [List.cons_append, read, read, if_neg (Ne.symm front.1), if_neg (Ne.symm front.1)]
    cases d.readOne arg with
    | error e => rfl
    | ok d => exact ih front.2

theorem read_namesCommand {words : List String} (front : "--" ∉ args)
    (h : d.read args = .ok (next, words)) :
    words = [] ∧ (next.NamesCommand ↔ d.NamesCommand ∨ GivesCommandLine args) := by
  induction args generalizing d with
  | nil =>
    cases h
    exact ⟨rfl, by simp [GivesCommandLine]⟩
  | cons arg args ih =>
    rw [List.mem_cons, not_or] at front
    rw [read, if_neg (Ne.symm front.1)] at h
    cases one : d.readOne arg with
    | error e =>
      rw [one] at h
      cases h
    | ok first =>
      rw [one] at h
      obtain ⟨none_, names⟩ := ih front.2 h
      refine ⟨none_, ?_⟩
      rw [names, readOne_namesCommand one, or_assoc]
      simp [GivesCommandLine]

end ArgumentDraft

namespace Arguments

variable {a : Arguments} {opts : List String}

theorem ofDraft_words {d : ArgumentDraft} (h : ofDraft d [] = .ok a) :
    (a.options.command.isSome = true ↔ d.NamesCommand) ∧ a.words = [] ∧
      ∀ words, ofDraft d words =
        if a.options.command.isSome && !words.isEmpty then .error .conflict
        else .ok { a with words := words } := by
  unfold ofDraft at h
  split at h
  · cases h
  · next settled resolve =>
    rw [List.isEmpty_nil, Bool.not_true, Bool.and_false, if_neg Bool.false_ne_true] at h
    split at h
    · cases h
    · next target aim =>
      obtain ⟨none_, names⟩ := ArgumentDraft.resolve_namesCommand resolve
      cases h
      refine ⟨?_, rfl, fun words => ?_⟩
      · rw [← names, ArgumentDraft.namesCommand_of_settled none_]
      · rw [ofDraft, resolve]
        simp only [aim]

/-- What words behind `--` do to arguments that are read without them. -/
theorem parse_words (front : "--" ∉ opts) (parses : parse opts = .ok a) :
    (a.options.command.isSome = true ↔ GivesCommandLine opts) ∧ a.words = [] ∧
      ∀ words, parse (opts ++ "--" :: words) =
        if a.options.command.isSome && !words.isEmpty then .error .conflict
        else .ok { a with words := words } := by
  unfold parse at parses
  split at parses
  · cases parses
  · next d words read =>
    obtain ⟨rfl, names⟩ := ArgumentDraft.read_namesCommand front read
    obtain ⟨given, none_, behind⟩ := ofDraft_words parses
    refine ⟨?_, none_, fun words => ?_⟩
    · rw [given, names]
      simp [ArgumentDraft.NamesCommand, ArgumentDraft.empty, Options.none]
    · rw [parse, ArgumentDraft.read_append front, read]
      exact behind words

/-- Arguments that differ from others in the words of the command only. -/
structure OnlyCommands (a b : Arguments) (words : List String) : Prop where
  target : b.target = a.target
  options : b.options = a.options
  config : ∀ fs env, b.config fs env = a.config fs env
  request : b.request = a.request
  /-- The words are taken as they are. -/
  command : ∀ program args, words = program :: args →
    b.command = .ok ⟨program, args, a.options.cwd⟩
  missing : (∃ e, b.command = .error e) ↔ words = []

theorem onlyCommands_of_words (without : a.options.command = none) (words : List String) :
    OnlyCommands a { a with words := words } words := by
  have command : ∀ program args, words = program :: args →
      { a with words := words }.command = .ok ⟨program, args, a.options.cwd⟩ := by
    rintro program args rfl
    simp only [Arguments.command, bareCommand, without, ToolCommand.ofWords?, Except.map]
    cases a.options.cwd <;> rfl
  refine ⟨rfl, rfl, fun _ _ => rfl, rfl, command, ?_, ?_⟩
  · rintro ⟨e, failed⟩
    cases words with
    | nil => rfl
    | cons program args => cases failed.symm.trans (command program args rfl)
  · rintro rfl
    exact ⟨.missing, by simp only [Arguments.command, bareCommand, without, ToolCommand.ofWords?,
      Except.map]⟩

/-- Words behind `--` are the command and nothing else.  They are refused only where the arguments
    in front give a command line already. -/
theorem words_are_the_command (front : "--" ∉ opts) (parses : parse opts = .ok a) :
    (¬ GivesCommandLine opts → ∀ words, ∃ b, parse (opts ++ ["--"] ++ words) = .ok b ∧
      b.words = words ∧ OnlyCommands a b words) ∧
    (GivesCommandLine opts → ∀ words, words ≠ [] →
      parse (opts ++ ["--"] ++ words) = .error .conflict) := by
  obtain ⟨given, -, behind⟩ := parse_words front parses
  simp only [List.append_assoc, List.singleton_append, behind]
  constructor
  · intro without words
    have none_ : a.options.command = none := by
      rwa [← given, Bool.not_eq_true, Option.isSome_eq_false_iff, Option.isNone_iff_eq_none]
        at without
    exact ⟨{ a with words := words }, by simp [none_], rfl, onlyCommands_of_words none_ words⟩
  · intro gives words some_
    rw [given.mpr gives]
    simp [some_]

/-- Options in all their forms, a value among them that looks like the end of the options. -/
def busyOptions : List String :=
  ["--json", "--target", "sub/a.c", "--cwd=--", "--delay-ms", "+7", "--from-code"]

/-- Words that would be options, and the one that would end them. -/
def busyWords : List String :=
  ["gcc", "--target", "--json", "--", "", "--command=rm", "--help"]

/-- Options that give a command line. -/
def fullOptions : List String :=
  ["--command=make all", "--target=a.c"]

theorem busyWords_are_the_command :
    (∃ b, parse (busyOptions ++ ["--"] ++ busyWords) = .ok b ∧ b.words = busyWords ∧
        b.command = .ok ⟨"gcc", busyWords.tail, some (.ofText "--")⟩) ∧
      parse (fullOptions ++ ["--"] ++ busyWords) = .error .conflict := by
  have parses : parse busyOptions = .ok ⟨.ofText "sub/a.c",
      { Options.none with
        json := true, fromCode := true, delayMs := some 7, cwd := some (.ofText "--") }, []⟩ :=
    rfl
  have full : parse fullOptions =
      .ok ⟨.ofText "a.c", { Options.none with command := some "make all" }, []⟩ :=
    rfl
  obtain ⟨b, parsed, words, only⟩ :=
    (words_are_the_command (by decide +kernel) parses).1 (by decide +kernel) busyWords
  exact ⟨⟨b, parsed, words, only.command _ _ rfl⟩,
    (words_are_the_command (by decide +kernel) full).2 (by decide +kernel) busyWords
      (List.cons_ne_nil _ _)⟩

end Arguments

end BuildSupervisor
