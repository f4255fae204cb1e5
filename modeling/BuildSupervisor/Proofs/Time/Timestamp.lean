import BuildSupervisor.Proofs.Text.Runs
import BuildSupervisor.Time.Timestamp
import Mathlib.Data.List.TakeWhile
/-!
# Timestamps are read back

A timestamp in a year of four digits, other than in a leap second, is read back from its written
form, however many digits its fraction has: `Timestamp.ofText?_render`.
-/

namespace BuildSupervisor.Timestamp

open Text

/-- A date and a time of day in a year that is written with four digits, and in no leap second. -/
structure IsCommon (t : Timestamp) : Prop where
  valid : t.isValid = true
  year_nonneg : 0 ≤ t.year
  year_le : t.year ≤ 9999
  second_le : t.second ≤ 59

/-! ### Padded numbers -/

section Padded

variable {width n : Nat}

theorem isAsciiDigit_of_mem_padded {c : Char} (mem : c ∈ padded width n) :
    isAsciiDigit c = true := by
  rcases List.mem_append.mp mem with mem | mem
  · rw [List.eq_of_mem_replicate mem]
    rfl
  · exact isAsciiDigit_of_mem_toDigits mem

theorem padded_ne_nil (width n : Nat) : padded width n ≠ [] :=
  fun nothing => Nat.toDigits_ne_nil (List.append_eq_nil_iff.mp nothing).2

theorem length_padded (fits : (Nat.toDigits 10 n).length ≤ width) :
    (padded width n).length = width := by
  rw [padded, List.length_append, List.length_replicate]
  omega

/-- The zeros before a number do not change it. -/
theorem readDigits_padded (width n : Nat) : readDigits 0 (padded width n) = some n := by
  refine readDigits_eq_some_iff.mpr ⟨fun c mem => isAsciiDigit_of_mem_padded mem, ?_⟩
  rw [padded, Nat.ofDigitChars_append, Nat.ofDigitChars_replicate_zero, Nat.mul_zero]
  exact Nat.ofDigitChars_ten_toDigits

theorem exists_padded_append (width n : Nat) (rest : List Char) :
    ∃ c more, padded width n ++ rest = c :: more ∧ isAsciiDigit c = true := by
  obtain ⟨c, more, whole⟩ := List.exists_cons_of_ne_nil (padded_ne_nil width n)
  have mem : c ∈ padded width n := whole ▸ List.mem_cons_self
  exact ⟨c, more ++ rest, by rw [whole]; rfl, isAsciiDigit_of_mem_padded mem⟩

theorem isBlank_of_asciiDigit {c : Char} (digit : isAsciiDigit c = true) : isBlank c = false := by
  rw [Bool.eq_false_iff]
  intro blank
  have := isDecimalDigit_of_blank blank
  rw [isDecimalDigit_of_ascii digit] at this
  cases this

theorem trimStart_padded (width n : Nat) (rest : List Char) :
    trimStart (padded width n ++ rest) = padded width n ++ rest := by
  obtain ⟨c, more, whole, digit⟩ := exists_padded_append width n rest
  rw [whole]
  exact dropWhile_of_stops (stops_cons (isBlank_of_asciiDigit digit) more)

/-- A padded number is read, whatever follows. -/
theorem readNumber?_padded (fits : (Nat.toDigits 10 n).length ≤ width) (rest : List Char) :
    readNumber? width (padded width n ++ rest) = some (n, rest) := by
  have length := length_padded fits
  have first : (padded width n ++ rest).take width = padded width n :=
    List.take_left' length
  have digits : (padded width n).takeWhile isAsciiDigit = padded width n :=
    List.takeWhile_eq_self_iff.mpr fun c mem => isAsciiDigit_of_mem_padded mem
  unfold readNumber?
  simp only [trimStart_padded, first, digits]
  split
  next nothing => exact absurd nothing (padded_ne_nil width n)
  next =>
    rw [readDigits_padded, Option.map_some, length, List.drop_left' length]

/-- A year of four digits is read, whatever follows. -/
theorem readYear?_padded (fits : (Nat.toDigits 10 n).length ≤ 4) (rest : List Char) :
    readYear? (padded 4 n ++ rest) = some ((n : Int), rest) := by
  have number := readNumber?_padded fits rest
  obtain ⟨c, more, whole, digit⟩ := exists_padded_append 4 n rest
  unfold readYear?
  rw [trimStart_padded]
  split
  next minus =>
    rw [(List.cons.inj (minus.symm.trans whole)).1.symm] at digit
    cases digit
  next plus =>
    rw [(List.cons.inj (plus.symm.trans whole)).1.symm] at digit
    cases digit
  next => rw [number, Option.map_some]

/-- A fraction of up to nine digits is read as nanoseconds. -/
theorem readFraction?_padded (pos : 0 < width) (short : width ≤ 9)
    (fits : (Nat.toDigits 10 n).length ≤ width) {rest : List Char}
    (stops : Stops isAsciiDigit rest) :
    readFraction? ('.' :: (padded width n ++ rest)) = some (n * Nat.pow 10 (9 - width), rest) := by
  have ascii : ∀ c ∈ padded width n, isAsciiDigit c = true :=
    fun c mem => isAsciiDigit_of_mem_padded mem
  have length := length_padded fits
  have kept : (padded width n).take 9 = padded width n :=
    List.take_of_length_le (by omega)
  unfold readFraction?
  simp only [takeWhile_run ascii stops, dropWhile_run ascii stops]
  split
  next nothing => exact absurd nothing (padded_ne_nil width n)
  next => rw [kept, readDigits_padded, Option.map_some, length]

end Padded

/-! ### Timestamps -/

theorem readMark?_cons {mark : Char} (plain : isBlank mark = false) (rest : List Char) :
    readMark? mark (mark :: rest) = some rest := by
  rw [readMark?, trimStart, dropWhile_of_stops (stops_cons plain rest)]
  exact if_pos rfl

/-- The fraction is read from however many digits it has. -/
theorem readFraction?_fractionChars {nanos : Nat} (small : nanos < 1000000000) :
    readFraction? (fractionChars nanos ++ ['Z']) = some (nanos, ['Z']) := by
  have stops : Stops isAsciiDigit ['Z'] := stops_cons (by decide) []
  have fits {n k : Nat} (pos : 0 < k) (h : n < 10 ^ k) : (Nat.toDigits 10 n).length ≤ k :=
    (Nat.length_toDigits_le_iff (by decide) pos).mpr h
  unfold fractionChars
  split
  next zero => rw [zero]; rfl
  next =>
    split
    next millis =>
      rw [List.cons_append, readFraction?_padded (by decide) (by decide)
        (fits (by decide) (by omega)) stops]
      have : nanos / 1000000 * Nat.pow 10 (9 - 3) = nanos := by
        change nanos / 1000000 * 1000000 = nanos
        omega
      rw [this]
    next =>
      split
      next micros =>
        rw [List.cons_append, readFraction?_padded (by decide) (by decide)
          (fits (by decide) (by omega)) stops]
        have : nanos / 1000 * Nat.pow 10 (9 - 6) = nanos := by
          change nanos / 1000 * 1000 = nanos
          omega
        rw [this]
      next =>
        rw [List.cons_append, readFraction?_padded (by decide) (by decide)
          (fits (by decide) (by omega)) stops]
        have : nanos * Nat.pow 10 (9 - 9) = nanos := Nat.mul_one nanos
        rw [this]

/-- A time in UTC stays as it is. -/
theorem toUtc_zero {t : Timestamp} (hour : t.hour ≤ 23) (minute : t.minute ≤ 59) :
    t.toUtc 0 = t := by
  obtain ⟨year, month, day, hour', minute', second, nanos⟩ := t
  simp only at hour minute
  have late : ¬ (((hour' * 60 + minute' : Nat) : Int) - 0 < 0) := by omega
  have early : ¬ (1440 ≤ ((hour' * 60 + minute' : Nat) : Int) - 0) := by omega
  have whole : ((((hour' * 60 + minute' : Nat) : Int) - 0) % 1440).toNat =
      hour' * 60 + minute' := by
    omega
  simp only [toUtc, if_neg late, if_neg early, whole, Timestamp.mk.injEq, true_and, and_true]
  omega

/-- A timestamp is read back from its written form. -/
theorem ofChars?_chars {t : Timestamp} (common : t.IsCommon) : ofChars? t.chars = some t := by
  obtain ⟨valid, nonneg, year_le, second_le⟩ := common
  have parts := valid
  simp only [isValid, Bool.and_eq_true, decide_eq_true_eq] at parts
  obtain ⟨⟨⟨⟨⟨⟨⟨⟨⟨-, -⟩, -⟩, month⟩, -⟩, day⟩, hour⟩, minute⟩, -⟩, nanos⟩ := parts
  have day : t.day ≤ 31 := by
    refine Nat.le_trans day ?_
    unfold daysInMonth
    split
    · split <;> decide
    · split <;> decide
  have two {n : Nat} (h : n < 100) (rest : List Char) :
      readNumber? 2 (padded 2 n ++ rest) = some (n, rest) :=
    readNumber?_padded ((Nat.length_toDigits_le_iff (by decide) (by decide)).mpr h) rest
  have year : yearChars t.year = padded 4 t.year.toNat := if_pos ⟨nonneg, year_le⟩
  have spelt : t.chars = padded 4 t.year.toNat ++ '-' :: (padded 2 t.month ++ '-' ::
      (padded 2 t.day ++ 'T' :: (padded 2 t.hour ++ ':' :: (padded 2 t.minute ++ ':' ::
        (padded 2 t.second ++ (fractionChars t.nanos ++ ['Z'])))))) := by
    rw [chars, year]
    simp only [List.append_assoc, List.cons_append]
  have readYear (rest : List Char) :
      readYear? (padded 4 t.year.toNat ++ rest) = some (t.year, rest) := by
    have small : t.year.toNat < 10 ^ 4 := by omega
    rw [readYear?_padded ((Nat.length_toDigits_le_iff (by decide) (by decide)).mpr small) rest,
      Int.toNat_of_nonneg nonneg]
  have dash (rest : List Char) : readMark? '-' ('-' :: rest) = some rest :=
    readMark?_cons (by decide) rest
  have colon (rest : List Char) : readMark? ':' (':' :: rest) = some rest :=
    readMark?_cons (by decide) rest
  have readMonth := two (show t.month < 100 by omega)
  have readDay := two (show t.day < 100 by omega)
  have readHour := two (show t.hour < 100 by omega)
  have readMinute := two (show t.minute < 100 by omega)
  have readSecond := two (show t.second < 100 by omega)
  have offset : readOffset? (trimStart ['Z']) = some (0, []) := rfl
  rw [spelt, ofChars?]
  simp only [readYear, dash, readMonth, readDay, readHour, colon, readMinute, readSecond,
    readFraction?_fractionChars nanos, offset, Option.bind_eq_bind, Option.bind_some]
  change (if isDateEnd 'T' = true then
    if ((trimStart []).isEmpty && t.isValid) = true then
      if (t.toUtc 0).isValid = true then some (t.toUtc 0) else none
    else none
    else _) = some t
  rw [if_pos (by decide), toUtc_zero hour minute, valid]
  rfl

/-- A timestamp is read back from its text. -/
theorem ofText?_render {t : Timestamp} (common : t.IsCommon) : ofText? t.render = some t := by
  rw [ofText?, render, String.toList_ofList, ofChars?_chars common]

end BuildSupervisor.Timestamp
