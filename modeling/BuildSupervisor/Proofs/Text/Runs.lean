import BuildSupervisor.Diagnostic.Basic
/-!
# Runs of characters

Line formats are rows of runs: some characters of a class, and behind them one that is not of the
class.  Where a run ends is then settled, so that a text can be taken apart in one way only.  From
this come what the scanners of diagnostics take off the front of a text, each as an equivalence
between what it returns and how the text is put together, and the shortest start of a text behind
which a scanner succeeds.
-/

namespace BuildSupervisor.Text

variable {α : Type u}

/-- The text is at its end, or goes on with a character that is not of the class. -/
def Stops (p : α → Bool) (s : List α) : Prop :=
  ∀ c ∈ s.head?, p c = false

/-- One or more characters of a class. -/
structure IsRun (p : α → Bool) (s : List α) : Prop where
  ne_nil : s ≠ []
  all : ∀ c ∈ s, p c = true

theorem stops_cons {p : α → Bool} {c : α} (h : p c = false) (s : List α) : Stops p (c :: s) := by
  intro d first
  cases first
  exact h

theorem stops_dropWhile (p : α → Bool) (s : List α) : Stops p (s.dropWhile p) := by
  intro c first
  have := List.head?_dropWhile_not p s
  rw [Option.mem_def.mp first] at this
  exact this

theorem takeWhile_of_stops {p : α → Bool} {s : List α} (h : Stops p s) : s.takeWhile p = [] := by
  cases s with
  | nil => rfl
  | cons c s => rw [List.takeWhile_cons_of_neg (by simp [h c rfl])]

theorem dropWhile_of_stops {p : α → Bool} {s : List α} (h : Stops p s) : s.dropWhile p = s := by
  cases s with
  | nil => rfl
  | cons c s => rw [List.dropWhile_cons_of_neg (by simp [h c rfl])]

theorem takeWhile_run {p : α → Bool} {run rest : List α} (all : ∀ c ∈ run, p c = true)
    (stops : Stops p rest) : (run ++ rest).takeWhile p = run := by
  rw [List.takeWhile_append_of_pos all, takeWhile_of_stops stops, List.append_nil]

theorem dropWhile_run {p : α → Bool} {run rest : List α} (all : ∀ c ∈ run, p c = true)
    (stops : Stops p rest) : (run ++ rest).dropWhile p = rest := by
  rw [List.dropWhile_append_of_pos all, dropWhile_of_stops stops]

theorem forall_mem_takeWhile (p : α → Bool) (s : List α) : ∀ c ∈ s.takeWhile p, p c = true :=
  List.all_eq_true.mp List.all_takeWhile

/-- A run ends in one place only. -/
theorem run_unique {p : α → Bool} {run rest run' rest' : List α} (all : ∀ c ∈ run, p c = true)
    (stops : Stops p rest) (all' : ∀ c ∈ run', p c = true) (stops' : Stops p rest')
    (same : run ++ rest = run' ++ rest') : run = run' ∧ rest = rest' := by
  constructor
  · rw [← takeWhile_run all stops, same, takeWhile_run all' stops']
  · rw [← dropWhile_run all stops, same, dropWhile_run all' stops']

/-! ### Digits and blanks -/

/-- A digit is no blank: the runs of digits keep clear of the blanks. -/
theorem isBlank_of_digitRuns :
    ∀ start ∈ digitRuns, ∀ d < 10, isBlank (Char.ofNat (start + d)) = false := by
  decide +kernel

theorem isDecimalDigit_of_blank {c : Char} (blank : isBlank c = true) :
    isDecimalDigit c = false := by
  rw [Bool.eq_false_iff]
  intro digit
  obtain ⟨start, mem, range⟩ := List.any_eq_true.mp digit
  obtain ⟨low, high⟩ : start ≤ c.toNat ∧ c.toNat < start + 10 := by simpa using range
  have := isBlank_of_digitRuns start mem (c.toNat - start) (by omega)
  rw [show start + (c.toNat - start) = c.toNat by omega, Char.ofNat_toNat, blank] at this
  cases this

/-! ### The end of a text -/

theorem dropEndWhile_eq_nil_iff (p : α → Bool) (s : List α) :
    dropEndWhile p s = [] ↔ ∀ c ∈ s, p c = true := by
  induction s with
  | nil => simp [dropEndWhile]
  | cons c s ih =>
    rw [dropEndWhile]
    split
    next ended =>
      have all : ∀ d ∈ s, p d = true := ih.mp ended
      by_cases here : p c = true
      · simp only [here, if_true, List.mem_cons, forall_eq_or_imp, true_and, true_iff]
        exact all
      · simp [here]
    next kept more =>
      have : ¬ ∀ d ∈ s, p d = true := fun all => more (ih.mpr all)
      simp only [List.mem_cons, forall_eq_or_imp, reduceCtorEq, false_iff, not_and]
      exact fun _ => this

/-- What is dropped at the end of a text does not depend on what stands before it, unless all of
    the text is dropped. -/
theorem dropEndWhile_append (p : α → Bool) (s t : List α) :
    dropEndWhile p (s ++ t) =
      if dropEndWhile p t = [] then dropEndWhile p s else s ++ dropEndWhile p t := by
  induction s with
  | nil =>
    by_cases ended : dropEndWhile p t = []
    · rw [if_pos ended, List.nil_append, ended]
      rfl
    · rw [if_neg ended, List.nil_append, List.nil_append]
  | cons c s ih =>
    rw [List.cons_append, dropEndWhile, ih]
    by_cases ended : dropEndWhile p t = []
    · simp only [ended, if_true]
      rw [dropEndWhile]
    · simp only [ended, if_false]
      cases whole : s ++ dropEndWhile p t with
      | nil => exact absurd (List.append_eq_nil_iff.mp whole).2 ended
      | cons d rest => rw [List.cons_append, whole]

theorem dropEndWhile_append_of_pos {p : α → Bool} {t : List α} (all : ∀ c ∈ t, p c = true)
    (s : List α) : dropEndWhile p (s ++ t) = dropEndWhile p s := by
  rw [dropEndWhile_append, if_pos ((dropEndWhile_eq_nil_iff p t).mpr all)]

/-- A text whose last character is not of the class stays as it is. -/
theorem dropEndWhile_eq_self {p : α → Bool} {s : List α} (h : ∀ c ∈ s.getLast?, p c = false) :
    dropEndWhile p s = s := by
  rcases List.eq_nil_or_concat s with rfl | ⟨start, c, rfl⟩
  · rfl
  · have last : p c = false := h c (by simp)
    have one : dropEndWhile p [c] = [c] := by simp [dropEndWhile, last]
    rw [List.concat_eq_append, dropEndWhile_append, one, if_neg (List.cons_ne_nil c [])]

theorem dropEndWhile_prefix_self (p : α → Bool) (s : List α) : dropEndWhile p s <+: s := by
  induction s with
  | nil => exact List.prefix_rfl
  | cons c s ih =>
    rw [dropEndWhile]
    split
    next =>
      split
      · exact List.nil_prefix
      · exact List.cons_prefix_cons.mpr ⟨rfl, List.nil_prefix⟩
    next kept _ => exact List.cons_prefix_cons.mpr ⟨rfl, ih⟩

/-! ### Words and numbers -/

theorem dropPrefix?_eq_some_iff {start s rest : List Char} :
    dropPrefix? start s = some rest ↔ s = start ++ rest := by
  induction start generalizing s with
  | nil => simp [dropPrefix?]
  | cons a start ih =>
    cases s with
    | nil => simp [dropPrefix?]
    | cons b s =>
      by_cases same : a = b
      · simp [dropPrefix?, same, ih]
      · simp [dropPrefix?, same, Ne.symm same]

/-- No word of the table is the start of another one. -/
def PrefixFree (words : List (String × β)) : Prop :=
  words.Pairwise fun a b => ¬ a.1.toList <+: b.1.toList ∧ ¬ b.1.toList <+: a.1.toList

instance (words : List (String × β)) : Decidable (PrefixFree words) :=
  inferInstanceAs (Decidable (List.Pairwise _ _))

/-- A keyword is taken off the front of a text exactly if the text starts with it. -/
theorem takeKeyword?_eq_some_iff {words : List (String × β)} (free : PrefixFree words)
    {s rest : List Char} {meaning : β} :
    takeKeyword? s words = some (meaning, rest) ↔
      ∃ word, (word, meaning) ∈ words ∧ s = word.toList ++ rest := by
  induction words with
  | nil => simp [takeKeyword?]
  | cons entry others ih =>
    obtain ⟨apart, others_⟩ := List.pairwise_cons.mp free
    obtain ⟨word, meant⟩ := entry
    rw [takeKeyword?]
    cases taken : dropPrefix? word.toList s with
    | none =>
      have other : ∀ rest, s ≠ word.toList ++ rest := by
        intro rest same
        rw [dropPrefix?_eq_some_iff.mpr same] at taken
        cases taken
      rw [ih others_]
      constructor
      · rintro ⟨found, mem, same⟩
        exact ⟨found, List.mem_cons_of_mem _ mem, same⟩
      · rintro ⟨found, mem, same⟩
        rcases List.mem_cons.mp mem with first | mem
        · cases first
          exact absurd same (other rest)
        · exact ⟨found, mem, same⟩
    | some left =>
      have here := dropPrefix?_eq_some_iff.mp taken
      constructor
      · intro h
        cases h
        exact ⟨word, List.mem_cons_self, here⟩
      · rintro ⟨found, mem, same⟩
        rcases List.mem_cons.mp mem with first | mem
        · cases first
          rw [List.append_cancel_left (here.symm.trans same)]
        · have mine : word.toList <+: s := ⟨left, here.symm⟩
          have its : found.toList <+: s := ⟨rest, same.symm⟩
          rcases List.prefix_or_prefix_of_prefix mine its with before | before
          · exact absurd before (apart _ mem).1
          · exact absurd before (apart _ mem).2

/-- Each word of the table has the severity that it means where it stands alone. -/
def IsVocabulary (words : List (String × Severity)) : Prop :=
  ∀ entry ∈ words, Severity.ofKeyword? entry.1 = some entry.2

instance (words : List (String × Severity)) : Decidable (IsVocabulary words) :=
  inferInstanceAs (Decidable (∀ entry ∈ words, Severity.ofKeyword? entry.1 = some entry.2))

theorem IsVocabulary.exists_severity {words : List (String × Severity)} (h : IsVocabulary words)
    {word : String} (known : word ∈ words.map Prod.fst) :
    ∃ severity, Severity.ofKeyword? word = some severity := by
  obtain ⟨entry, mem, rfl⟩ := List.mem_map.mp known
  exact ⟨entry.2, h entry mem⟩

/-- An entry of the table is one of its words with the severity that it means. -/
theorem IsVocabulary.mem_iff {words : List (String × Severity)} (h : IsVocabulary words)
    {word : String} {severity : Severity} :
    (word, severity) ∈ words ↔
      word ∈ words.map Prod.fst ∧ Severity.ofKeyword? word = some severity := by
  constructor
  · exact fun mem => ⟨List.mem_map_of_mem mem, h (word, severity) mem⟩
  · rintro ⟨known, means⟩
    obtain ⟨entry, mem, rfl⟩ := List.mem_map.mp known
    have same : entry.2 = severity := Option.some.inj ((h entry mem).symm.trans means)
    rwa [← same]

theorem takeDigits?_eq_some_iff {s digits rest : List Char} :
    takeDigits? s = some (digits, rest) ↔
      s = digits ++ rest ∧ IsRun isDecimalDigit digits ∧ Stops isDecimalDigit rest := by
  unfold takeDigits?
  constructor
  · intro h
    split at h
    next => cases h
    next some_ =>
      cases h
      refine ⟨?_, ⟨some_, ?_⟩, stops_dropWhile _ s⟩
      · exact (List.takeWhile_append_dropWhile).symm
      · exact forall_mem_takeWhile _ _
  · rintro ⟨rfl, run, stops⟩
    rw [takeWhile_run run.all stops, dropWhile_run run.all stops]
    split
    next => exact absurd rfl run.ne_nil
    next => rfl

/-! ### Numbers -/

theorem digitValue?_eq_some_iff {c : Char} {n : Nat} :
    digitValue? c = some n ↔ isAsciiDigit c = true ∧ c.toNat - 48 = n := by
  unfold digitValue?
  split <;> simp_all

theorem readDigits_eq_some_iff {digits : List Char} {value n : Nat} :
    readDigits value digits = some n ↔
      (∀ c ∈ digits, isAsciiDigit c = true) ∧ Nat.ofDigitChars 10 digits value = n := by
  induction digits generalizing value with
  | nil => simp [readDigits]
  | cons c digits ih =>
    rw [readDigits]
    cases value_ : digitValue? c with
    | none =>
      have other : ¬ isAsciiDigit c = true := by
        intro digit
        rw [digitValue?, if_pos digit] at value_
        cases value_
      simp [other]
    | some d =>
      obtain ⟨digit, rfl⟩ := digitValue?_eq_some_iff.mp value_
      have zero : '0'.toNat = 48 := rfl
      simp [ih, Nat.ofDigitChars_cons, digit, zero, Nat.mul_comm]

/-- Digits `0` to `9`, at least one, that write the number in decimal. -/
structure Writes (digits : List Char) (n : Nat) : Prop where
  ne_nil : digits ≠ []
  ascii : ∀ c ∈ digits, isAsciiDigit c = true
  value : Nat.ofDigitChars 10 digits 0 = n

theorem readNat?_eq_some_iff {bound : Nat} {digits : List Char} {n : Nat} :
    readNat? bound digits = some n ↔ Writes digits n ∧ n < bound := by
  cases digits with
  | nil =>
    have : ¬ Writes [] n := fun h => h.ne_nil rfl
    simp [readNat?, this]
  | cons c digits =>
    rw [readNat?]
    · cases value : readDigits 0 (c :: digits) with
      | none =>
        have : ¬ Writes (c :: digits) n := by
          intro h
          rw [readDigits_eq_some_iff.mpr ⟨h.ascii, h.value⟩] at value
          cases value
        simp [this]
      | some m =>
        obtain ⟨ascii, value⟩ := readDigits_eq_some_iff.mp value
        have writes : Writes (c :: digits) n ↔ m = n :=
          ⟨fun h => value.symm.trans h.value,
            fun same => ⟨List.cons_ne_nil c digits, ascii, value.trans same⟩⟩
        by_cases small : m < bound
        · simp only [small, if_true, writes, Option.some.injEq]
          exact ⟨fun same => ⟨same, same ▸ small⟩, And.left⟩
        · simp only [small, if_false, writes, reduceCtorEq, false_iff, not_and]
          exact fun same => same ▸ small
    · exact List.cons_ne_nil c digits

/-- A line or column number is read exactly where its digits are `0` to `9` and write it. -/
theorem readPosition?_eq_some_iff {digits : List Char} {n : UInt32} :
    readPosition? digits = some n ↔ Writes digits n.toNat := by
  unfold readPosition?
  rw [Option.map_eq_some_iff]
  constructor
  · rintro ⟨m, read, rfl⟩
    obtain ⟨writes, small⟩ := readNat?_eq_some_iff.mp read
    rwa [UInt32.toNat_ofNat_of_lt' small]
  · intro writes
    exact ⟨n.toNat, readNat?_eq_some_iff.mpr ⟨writes, n.toNat_lt⟩, UInt32.ofNat_toNat⟩

theorem isDecimalDigit_of_ascii {c : Char} (h : isAsciiDigit c = true) :
    isDecimalDigit c = true := by
  have range : 48 ≤ c.toNat ∧ c.toNat ≤ 57 := by simpa [isAsciiDigit] using h
  refine List.any_eq_true.mpr ⟨0x30, List.mem_cons_self, ?_⟩
  simp only [Bool.and_eq_true, decide_eq_true_eq]
  omega

theorem isAsciiDigit_of_mem_toDigits {n : Nat} {c : Char} (mem : c ∈ Nat.toDigits 10 n) :
    isAsciiDigit c = true := by
  have digit := Nat.isDigit_of_mem_toDigits (by decide) (by decide) mem
  simp only [Char.isDigit, Bool.and_eq_true, decide_eq_true_eq, UInt32.le_iff_toNat_le] at digit
  change 48 ≤ c.toNat ∧ c.toNat ≤ 57 at digit
  simpa [isAsciiDigit] using digit

/-- The digits of a number write it. -/
theorem writes_toDigits (n : Nat) : Writes (Nat.toDigits 10 n) n :=
  ⟨Nat.toDigits_ne_nil, fun _ => isAsciiDigit_of_mem_toDigits, Nat.ofDigitChars_ten_toDigits⟩

theorem isRun_toDigits (n : Nat) : IsRun isDecimalDigit (Nat.toDigits 10 n) :=
  ⟨Nat.toDigits_ne_nil, fun _ mem => isDecimalDigit_of_ascii (isAsciiDigit_of_mem_toDigits mem)⟩

theorem toList_showNat (n : Nat) : (showNat n).toList = Nat.toDigits 10 n :=
  String.toList_ofList

/-! ### The shortest start -/

/-- Splits a text behind the shortest start from where `read` succeeds; a start has a character
    and no line feed. -/
def splitBefore? (read : List Char → Option β) : List Char → Option (List Char × β)
  | [] => none
  | c :: rest =>
    if c = '\n' then none
    else
      match read rest with
      | some b => some ([c], b)
      | none => (splitBefore? read rest).map fun (start, b) => (c :: start, b)

/-- `s` is `start` and a rest that `read` reads as `b`, and no shorter start will do. -/
structure IsShortestSplit (read : List Char → Option β) (s start : List Char) (b : β) : Prop where
  rest : ∃ rest, s = start ++ rest ∧ read rest = some b
  ne_nil : start ≠ []
  plain : '\n' ∉ start
  shortest : ∀ other rest, s = other ++ rest → other ≠ [] → '\n' ∉ other →
    (read rest).isSome → start.length ≤ other.length

theorem isShortestSplit_cons {read : List Char → Option β} {c : Char} {s start : List Char} {b : β}
    (plain : c ≠ '\n') (unread : read s = none) :
    IsShortestSplit read (c :: s) (c :: start) b ↔ IsShortestSplit read s start b := by
  constructor
  · rintro ⟨⟨rest, same, reads⟩, -, free, shortest⟩
    obtain rfl : s = start ++ rest := (List.cons.inj same).2
    refine ⟨⟨rest, rfl, reads⟩, ?_, fun mem => free (List.mem_cons_of_mem c mem), ?_⟩
    · rintro rfl
      rw [List.nil_append, reads] at unread
      cases unread
    · intro other rest' same' some_ free' reads'
      have := shortest (c :: other) rest' (by rw [List.cons_append, same'])
        (List.cons_ne_nil c other) (by simp [free', Ne.symm plain]) reads'
      simpa using this
  · rintro ⟨⟨rest, rfl, reads⟩, some_, free, shortest⟩
    refine ⟨⟨rest, rfl, reads⟩, List.cons_ne_nil c start, by simp [free, Ne.symm plain], ?_⟩
    intro other rest' same' other_ne free' reads'
    cases other with
    | nil => exact absurd rfl other_ne
    | cons d other =>
      have behind : start ++ rest = other ++ rest' := (List.cons.inj same').2
      have more : other ≠ [] := by
        rintro rfl
        rw [List.nil_append] at behind
        rw [← behind, unread] at reads'
        cases reads'
      have := shortest other rest' behind more (fun mem => free' (List.mem_cons_of_mem _ mem))
        reads'
      simpa using this

/-- The split that is found is the shortest one. -/
theorem splitBefore?_eq_some_iff {read : List Char → Option β} {s start : List Char} {b : β} :
    splitBefore? read s = some (start, b) ↔ IsShortestSplit read s start b := by
  induction s generalizing start with
  | nil =>
    have none_ : ¬ IsShortestSplit read [] start b := by
      rintro ⟨⟨rest, same, -⟩, some_, -, -⟩
      exact some_ (List.append_eq_nil_iff.mp same.symm).1
    simp [splitBefore?, none_]
  | cons c s ih =>
    have head (h : IsShortestSplit read (c :: s) start b) : ∃ more, start = c :: more := by
      obtain ⟨⟨rest, same, -⟩, some_, -, -⟩ := h
      cases start with
      | nil => exact absurd rfl some_
      | cons d more => exact ⟨more, by rw [(List.cons.inj same).1]⟩
    rw [splitBefore?]
    by_cases lineFeed : c = '\n'
    · rw [if_pos lineFeed]
      constructor
      · intro h
        cases h
      · intro h
        obtain ⟨more, rfl⟩ := head h
        exact absurd (lineFeed ▸ List.mem_cons_self) h.plain
    · rw [if_neg lineFeed]
      cases reads : read s with
      | some b' =>
        constructor
        · intro h
          cases h
          refine ⟨⟨s, rfl, reads⟩, List.cons_ne_nil c [], by simp [Ne.symm lineFeed], ?_⟩
          intro other rest _ some_ _ _
          exact List.length_pos_iff.mpr some_
        · intro h
          obtain ⟨more, rfl⟩ := head h
          have short : (c :: more).length ≤ [c].length :=
            h.shortest [c] s rfl (List.cons_ne_nil c []) (by simp [Ne.symm lineFeed])
              (by rw [reads]; rfl)
          obtain rfl : more = [] := List.eq_nil_of_length_eq_zero (by simpa using short)
          obtain ⟨rest, same, reads'⟩ := h.rest
          obtain rfl : s = rest := (List.cons.inj same).2
          rw [reads] at reads'
          cases reads'
          rfl
      | none =>
        simp only [Option.map_eq_some_iff, Prod.exists, Prod.mk.injEq]
        constructor
        · rintro ⟨more, _, found, rfl, rfl⟩
          exact (isShortestSplit_cons lineFeed reads).mpr (ih.mp found)
        · intro h
          obtain ⟨more, rfl⟩ := head h
          exact ⟨more, b, ih.mpr ((isShortestSplit_cons lineFeed reads).mp h), rfl, rfl⟩

/-- Where there is a split, one is found. -/
theorem exists_splitBefore? {read : List Char → Option β} {start rest : List Char}
    (ne_nil : start ≠ []) (plain : '\n' ∉ start) (reads : (read rest).isSome) :
    ∃ found b, splitBefore? read (start ++ rest) = some (found, b) := by
  induction start with
  | nil => exact absurd rfl ne_nil
  | cons c start ih =>
    have other : c ≠ '\n' := fun same => plain (same ▸ List.mem_cons_self)
    rw [List.cons_append, splitBefore?, if_neg other]
    cases now : read (start ++ rest) with
    | some b => exact ⟨[c], b, rfl⟩
    | none =>
      have some_ : start ≠ [] := by
        rintro rfl
        rw [List.nil_append] at now
        rw [now] at reads
        cases reads
      obtain ⟨found, b, split_⟩ := ih some_ fun mem => plain (List.mem_cons_of_mem c mem)
      rw [split_]
      exact ⟨c :: found, b, rfl⟩

end BuildSupervisor.Text
