import BuildSupervisor.Proofs.Text.Runs
/-!
# What stands between blanks

`Trims` says without an algorithm what is left of a text when the blanks around it are taken off;
there is one such core (`trim_eq_iff`).  Numbers and words are read off the core.
-/

namespace BuildSupervisor.Text

/-- Blanks stand around the core, which neither begins nor ends with one. -/
def Trims (s core : List Char) : Prop :=
  ∃ front back, s = front ++ core ++ back ∧ (∀ c ∈ front, isBlank c = true) ∧
    (∀ c ∈ back, isBlank c = true) ∧ (∀ c ∈ core.head?, isBlank c = false) ∧
    ∀ c ∈ core.getLast?, isBlank c = false

variable {α : Type u}

/-- What is dropped at the end of a text are elements of the class, and the one in front is none. -/
theorem dropEndWhile_spec (p : α → Bool) (s : List α) :
    ∃ back, s = dropEndWhile p s ++ back ∧ (∀ c ∈ back, p c = true) ∧
      ∀ c ∈ (dropEndWhile p s).getLast?, p c = false := by
  induction s with
  | nil => exact ⟨[], rfl, by simp, by simp [dropEndWhile]⟩
  | cons x s ih =>
    obtain ⟨back, split, all, last⟩ := ih
    rw [dropEndWhile]
    split
    next ended =>
      rw [ended, List.nil_append] at split
      subst split
      by_cases here : p x = true
      · rw [if_pos here]
        exact ⟨x :: s, rfl, List.forall_mem_cons.mpr ⟨here, all⟩, by simp⟩
      · rw [if_neg here]
        exact ⟨s, rfl, all, by simpa using here⟩
    next kept more =>
      refine ⟨back, congrArg (x :: ·) split, all, ?_⟩
      rwa [List.getLast?_cons_of_ne_nil more]

theorem head?_dropEndWhile {p : α → Bool} {s : List α} (first : ∀ c ∈ s.head?, p c = false) :
    ∀ c ∈ (dropEndWhile p s).head?, p c = false := by
  intro c mem
  cases dropEndWhile_prefix_self p s with
  | intro back split =>
    refine first c ?_
    rw [← split, List.head?_append, mem]
    rfl

theorem trim_eq_iff {s core : List Char} : trim s = core ↔ Trims s core := by
  constructor
  · rintro rfl
    obtain ⟨back, split, all, last⟩ := dropEndWhile_spec isBlank (trimStart s)
    refine ⟨s.takeWhile isBlank, back, ?_, forall_mem_takeWhile _ _, all,
      head?_dropEndWhile (stops_dropWhile _ _), last⟩
    rw [List.append_assoc]
    exact (List.takeWhile_append_dropWhile (p := isBlank)).symm.trans (congrArg _ split)
  · rintro ⟨front, back, rfl, blanks, all, first, last⟩
    rw [trim, trimStart, trimEnd, List.append_assoc, List.dropWhile_append_of_pos blanks]
    cases core with
    | nil =>
      rw [List.nil_append, dropEndWhile_eq_nil_iff]
      exact fun c mem => all c (List.dropWhile_subset _ mem)
    | cons c core =>
      rw [List.cons_append, List.dropWhile_cons_of_neg (by simp [first c rfl]), ← List.cons_append,
        dropEndWhile_append_of_pos all, dropEndWhile_eq_self last]

/-- The core has no blanks to be taken off. -/
theorem trim_trim (s : List Char) : trim (trim s) = trim s := by
  obtain ⟨-, -, -, -, -, first, last⟩ := trim_eq_iff.mp (rfl : trim s = trim s)
  exact trim_eq_iff.mpr ⟨[], [], by simp, by simp, by simp, first, last⟩

/-- The text is a number in digits, with an optional plus sign and blanks around it. -/
def IsNumber (s : List Char) (n : Nat) : Prop :=
  ∃ core digits, Trims s core ∧ (core = digits ∨ core = '+' :: digits) ∧ Writes digits n

theorem readUnsigned?_eq_some_iff {bound : Nat} {s : List Char} {n : Nat} :
    readUnsigned? bound s = some n ↔
      ∃ digits, (s = digits ∨ s = '+' :: digits) ∧ Writes digits n ∧ n < bound := by
  unfold readUnsigned?
  split
  · next digits =>
    rw [readNat?_eq_some_iff]
    constructor
    · exact fun read => ⟨digits, .inr rfl, read⟩
    · rintro ⟨_, rfl | same, writes, small⟩
      · exact absurd (writes.ascii '+' List.mem_cons_self) (by decide)
      · exact (List.cons_inj_right '+').mp same ▸ ⟨writes, small⟩
  · next unsigned =>
    rw [readNat?_eq_some_iff]
    constructor
    · exact fun read => ⟨s, .inl rfl, read⟩
    · rintro ⟨digits, rfl | rfl, read⟩
      · exact read
      · exact absurd rfl (unsigned digits)

theorem readUnsigned?_trim_eq_some_iff {bound : Nat} {s : List Char} {n : Nat} :
    readUnsigned? bound (trim s) = some n ↔ IsNumber s n ∧ n < bound := by
  rw [readUnsigned?_eq_some_iff]
  constructor
  · rintro ⟨digits, signed, writes, small⟩
    exact ⟨⟨trim s, digits, trim_eq_iff.mp rfl, signed, writes⟩, small⟩
  · rintro ⟨⟨core, digits, trims, signed, writes⟩, small⟩
    rw [trim_eq_iff.mpr trims]
    exact ⟨digits, signed, writes, small⟩

/-- The text is a word, its ASCII letters in any case and with blanks around it. -/
def IsWord (s : List Char) (word : String) : Prop :=
  ∃ core, Trims s core ∧ core.map asciiLower = word.toList

theorem keyword_trim_iff {s : List Char} {word : String} :
    String.ofList (keyword (trim s)) = word ↔ IsWord s word := by
  rw [keyword, trim_trim, ← String.toList_inj, String.toList_ofList]
  constructor
  · exact fun same => ⟨trim s, trim_eq_iff.mp rfl, same⟩
  · rintro ⟨core, trims, same⟩
    rw [trim_eq_iff.mpr trims, same]

end BuildSupervisor.Text
