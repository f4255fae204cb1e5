import BuildSupervisor.Json.Reader
import BuildSupervisor.Proofs.Text.Runs
import Mathlib.Data.List.TakeWhile
/-!
# The tokens of a written value

A value without broken texts and without numbers that are none but natural is `Json.IsSound`.
`Json.tokens` are the tokens it is written with, and `Json.tokensFrom?_chars` says that they are
read from its written form, whatever may stand behind a value.
-/

namespace BuildSupervisor.Json

open Text

/-- All numbers of the value are natural numbers, and all its texts are whole. -/
inductive IsSound : Json → Prop where
  | null : IsSound .null
  | bool (b : Bool) : IsSound (.bool b)
  | natural (n : Nat) : IsSound (.natural n)
  | text (s : String) : IsSound (.text s)
  | array {elements : List Json} (h : ∀ v ∈ elements, IsSound v) : IsSound (.array elements)
  | object {members : List (String × Json)} (h : ∀ m ∈ members, IsSound m.2) :
      IsSound (.object members)

mutual

/-- The tokens with which a value is written. -/
def tokens : Json → List Token
  | text s => [.quoted (some s)]
  | broken => [.quoted none]
  | array elements => .openArray :: elementTokens true elements ++ [.closeArray]
  | object members => .openObject :: memberTokens true members ++ [.closeObject]
  | v => [.scalar v]

/-- The tokens of the elements of an array; a comma stands before each but the first. -/
def elementTokens (first : Bool) : List Json → List Token
  | [] => []
  | v :: rest => (if first then [] else [.comma]) ++ tokens v ++ elementTokens false rest

/-- The tokens of the members of an object; a comma stands before each but the first. -/
def memberTokens (first : Bool) : List (String × Json) → List Token
  | [] => []
  | (key, v) :: rest =>
    (if first then [] else [.comma]) ++ [.quoted (some key), .colon] ++ tokens v
      ++ memberTokens false rest

end

/-- What may stand behind a value: nothing, or a comma or a closing bracket first. -/
def Ends (s : List Char) : Prop :=
  ∀ c ∈ s.head?, c = ',' ∨ c = ']' ∨ c = '\x7d'

theorem ends_nil : Ends [] := by
  intro c first
  cases first

theorem ends_comma (s : List Char) : Ends (',' :: s) := by
  rintro c ⟨⟩
  exact .inl rfl

theorem ends_bracket (s : List Char) : Ends (']' :: s) := by
  rintro c ⟨⟩
  exact .inr (.inl rfl)

theorem ends_brace (s : List Char) : Ends ('\x7d' :: s) := by
  rintro c ⟨⟩
  exact .inr (.inr rfl)

/-! ### Marks and words -/

/-- A mark is neither a blank nor a quote. -/
theorem plain_of_punctuation {c : Char} {mark : Token} (h : punctuation? c = some mark) :
    isSpace c = false ∧ c ≠ '"' := by
  unfold punctuation? at h
  split at h
  next same => exact same ▸ by decide
  split at h
  next same => exact same ▸ by decide
  split at h
  next same => exact same ▸ by decide
  split at h
  next same => exact same ▸ by decide
  split at h
  next same => exact same ▸ by decide
  split at h
  next same => exact same ▸ by decide
  next => cases h

theorem tokensFrom?_mark {c : Char} {mark : Token} (h : punctuation? c = some mark)
    (rest : List Char) :
    tokensFrom? .between (c :: rest) = (tokensFrom? .between rest).map (mark :: ·) := by
  obtain ⟨space, quote⟩ := plain_of_punctuation h
  rw [tokensFrom?, space, if_neg Bool.false_ne_true, if_neg quote, h]

/-- A character of a word: no blank, no quote and no mark. -/
def isWordChar (c : Char) : Bool :=
  !isSpace c && c ≠ '"' && (punctuation? c).isNone

theorem isWordChar_iff {c : Char} :
    isWordChar c = true ↔ isSpace c = false ∧ c ≠ '"' ∧ punctuation? c = none := by
  simp [isWordChar, and_assoc]

/-- A word is read up to its end. -/
theorem tokensFrom?_word {word : List Char} (plain : ∀ c ∈ word, isWordChar c = true)
    {rest : List Char} (ends : Ends rest) {read : List Char} {v : Json}
    (means : ofWord? (read.reverse ++ word) = some v) :
    tokensFrom? (.word read) (word ++ rest) = (tokensFrom? .between rest).map (.scalar v :: ·) := by
  induction word generalizing read with
  | nil =>
    have token : wordToken? read = some (.scalar v) := by
      rw [List.append_nil] at means
      rw [wordToken?, means]
      rfl
    cases rest with
    | nil =>
      rw [List.nil_append, tokensFrom?, tokensFrom?, token]
      rfl
    | cons c rest =>
      obtain ⟨mark, isMark⟩ : ∃ mark, punctuation? c = some mark := by
        rcases ends c rfl with rfl | rfl | rfl
        · exact ⟨.comma, rfl⟩
        · exact ⟨.closeArray, rfl⟩
        · exact ⟨.closeObject, rfl⟩
      obtain ⟨space, quote⟩ := plain_of_punctuation isMark
      rw [List.nil_append, tokensFrom?_mark isMark, tokensFrom?, space,
        if_neg Bool.false_ne_true, if_neg quote, isMark, token, Option.map_map]
      rfl
  | cons c word ih =>
    obtain ⟨space, quote, mark⟩ := isWordChar_iff.mp (plain c List.mem_cons_self)
    have means : ofWord? ((c :: read).reverse ++ word) = some v := by
      rw [List.reverse_cons, List.append_assoc]
      exact means
    rw [List.cons_append, tokensFrom?, space, if_neg Bool.false_ne_true, if_neg quote, mark]
    exact ih (fun d mem => plain d (List.mem_cons_of_mem c mem)) means

theorem tokensFrom?_scalar {word : List Char} (some_ : word ≠ [])
    (plain : ∀ c ∈ word, isWordChar c = true) {rest : List Char} (ends : Ends rest) {v : Json}
    (means : ofWord? word = some v) :
    tokensFrom? .between (word ++ rest) = (tokensFrom? .between rest).map (.scalar v :: ·) := by
  cases word with
  | nil => exact absurd rfl some_
  | cons c word =>
    obtain ⟨space, quote, mark⟩ := isWordChar_iff.mp (plain c List.mem_cons_self)
    rw [List.cons_append, tokensFrom?, space, if_neg Bool.false_ne_true, if_neg quote, mark]
    exact tokensFrom?_word (fun d mem => plain d (List.mem_cons_of_mem c mem)) ends means

/-! ### Numbers -/

theorem isWordChar_of_digit {c : Char} (h : isAsciiDigit c = true) : isWordChar c = true := by
  have all : ∀ d < 10, isWordChar (Char.ofNat (48 + d)) = true := by decide
  obtain ⟨low, high⟩ : 48 ≤ c.toNat ∧ c.toNat ≤ 57 := by simpa [isAsciiDigit] using h
  have this := all (c.toNat - 48) (by omega)
  rwa [show 48 + (c.toNat - 48) = c.toNat by omega, Char.ofNat_toNat] at this

/-- A written number has no needless zero at its start. -/
theorem toDigits_ne_zero_cons (n : Nat) (c : Char) (rest : List Char) :
    Nat.toDigits 10 n ≠ '0' :: c :: rest := by
  suffices more : ∀ rest, n ≠ 0 → Nat.toDigits 10 n ≠ '0' :: rest by
    by_cases zero : n = 0
    · rw [zero]
      exact fun same => by cases (List.cons.inj same).2
    · exact more (c :: rest) zero
  induction n using Nat.strongRecOn with
  | ind n ih =>
    intro rest pos
    rw [Nat.toDigits_eq_if (by decide)]
    split
    next small =>
      have all : ∀ d < 10, d ≠ 0 → d.digitChar ≠ '0' := by decide
      exact fun same => all n small pos (List.cons.inj same).1
    next large =>
      intro same
      cases first : Nat.toDigits 10 (n / 10) with
      | nil => exact Nat.toDigits_ne_nil first
      | cons d digits =>
        rw [first] at same
        have zero : d = '0' := (List.cons.inj same).1
        exact ih (n / 10) (by omega) digits (by omega) (zero ▸ first)

theorem ofWord?_toDigits (n : Nat) : ofWord? (Nat.toDigits 10 n) = some (.natural n) := by
  have ascii : ∀ c ∈ Nat.toDigits 10 n, isAsciiDigit c = true :=
    fun c mem => isAsciiDigit_of_mem_toDigits mem
  have noWord {word : String} (h : word.toList.any (!isAsciiDigit ·) = true) :
      Nat.toDigits 10 n ≠ word.toList := by
    intro same
    obtain ⟨c, mem, other⟩ := List.any_eq_true.mp h
    rw [ascii c (same ▸ mem)] at other
    cases other
  have unsigned : isUnsigned (Nat.toDigits 10 n) = true := by
    have taken : (Nat.toDigits 10 n).takeWhile isAsciiDigit = Nat.toDigits 10 n :=
      List.takeWhile_eq_self_iff.mpr ascii
    have left : (Nat.toDigits 10 n).dropWhile isAsciiDigit = [] :=
      List.dropWhile_eq_nil_iff.mpr ascii
    unfold isUnsigned
    rw [taken, left]
    split
    next nothing => exact absurd nothing Nat.toDigits_ne_nil
    next zero => exact absurd zero (toDigits_ne_zero_cons n _ _)
    next => rfl
  have value : readDigits 0 (Nat.toDigits 10 n) = some n :=
    readDigits_eq_some_iff.mpr ⟨ascii, (writes_toDigits n).value⟩
  unfold ofWord?
  rw [if_neg (noWord (by decide)), if_neg (noWord (by decide)), if_neg (noWord (by decide)),
    if_pos unsigned, value]

/-! ### Quoted texts -/

theorem hexValue?_hexDigit : ∀ n < 16, hexValue? (hexDigit n) = some n := by
  decide

/-- An escaped character is read as its code unit. -/
theorem tokensFrom?_escape (c : Char) (units : List Nat) (rest : List Char) :
    tokensFrom? (.quoted units) (escape c ++ rest) =
      tokensFrom? (.quoted (c.toNat :: units)) rest := by
  have named {n : Nat} (h : c.toNat = n) : c = Char.ofNat n := by rw [← h, Char.ofNat_toNat]
  unfold escape
  split
  next same => rw [same]; rfl
  split
  next same => rw [same]; rfl
  split
  next same => rw [named same]; rfl
  split
  next same => rw [named same]; rfl
  split
  next same => rw [same]; rfl
  split
  next same => rw [same]; rfl
  split
  next same => rw [same]; rfl
  split
  next control =>
    have high := hexValue?_hexDigit (c.toNat / 16) (by omega)
    have low := hexValue?_hexDigit (c.toNat % 16) (by omega)
    change tokensFrom? (.unit units 0 1)
      (hexDigit (c.toNat / 16) :: hexDigit (c.toNat % 16) :: rest) = _
    rw [tokensFrom?, high]
    change tokensFrom? (.unit units (0 * 16 + c.toNat / 16) 0) _ = _
    rw [tokensFrom?, low]
    change tokensFrom? (.quoted (((0 * 16 + c.toNat / 16) * 16 + c.toNat % 16) :: units)) rest = _
    rw [show (0 * 16 + c.toNat / 16) * 16 + c.toNat % 16 = c.toNat by omega]
  next quote backslash _ _ _ _ _ plain =>
    rw [List.singleton_append, tokensFrom?, if_neg quote, if_neg backslash, if_neg plain]

theorem tokensFrom?_escapes (cs : List Char) (units : List Nat) (rest : List Char) :
    tokensFrom? (.quoted units) (cs.flatMap escape ++ rest) =
      tokensFrom? (.quoted ((cs.map Char.toNat).reverse ++ units)) rest := by
  induction cs generalizing units with
  | nil => rfl
  | cons c cs ih =>
    rw [List.flatMap_cons, List.append_assoc, tokensFrom?_escape, ih, List.map_cons,
      List.reverse_cons, List.append_assoc]
    rfl

/-- No character is half a surrogate pair. -/
theorem not_surrogate (c : Char) :
    isHighSurrogate c.toNat = false ∧ isLowSurrogate c.toNat = false := by
  have valid : c.toNat < 0xD800 ∨ 0xDFFF < c.toNat ∧ c.toNat < 0x110000 := c.valid
  simp only [isHighSurrogate, isLowSurrogate, Bool.and_eq_false_iff, decide_eq_false_iff_not]
  omega

theorem ofUnits?_map (cs : List Char) : ofUnits? (cs.map Char.toNat) = some cs := by
  induction cs with
  | nil => rfl
  | cons c cs ih =>
    obtain ⟨high, low⟩ := not_surrogate c
    cases cs with
    | nil => 
      rw [List.map_singleton, ofUnits?, high, low, Char.ofNat_toNat]
      rfl
    | cons d cs =>
      rw [List.map_cons, List.map_cons, ofUnits?, high, low, if_neg Bool.false_ne_true,
        if_neg Bool.false_ne_true, ← List.map_cons, ih, Char.ofNat_toNat]
      rfl

/-- A quoted text is read as that text, whatever follows. -/
theorem tokensFrom?_quote (s : String) (rest : List Char) :
    tokensFrom? .between (quote s ++ rest) =
      (tokensFrom? .between rest).map (.quoted (some s) :: ·) := by
  have inside : tokensFrom? .between (quote s ++ rest) =
      tokensFrom? (.quoted []) (s.toList.flatMap escape ++ '"' :: rest) := by
    rw [quote, List.cons_append, List.cons_append, List.append_assoc]
    rfl
  rw [inside, tokensFrom?_escapes, List.append_nil, tokensFrom?, if_pos rfl, List.reverse_reverse,
    ofUnits?_map, Option.map_some, String.ofList_toList]

/-! ### Values -/

/-- The tokens of a value are read, whatever ends it. -/
def Lexes (v : Json) : Prop :=
  ∀ rest, Ends rest →
    tokensFrom? .between (chars v ++ rest) = (tokensFrom? .between rest).map (tokens v ++ ·)

theorem tokensFrom?_comma (first : Bool) (rest : List Char) :
    tokensFrom? .between ((if first then [] else [',']) ++ rest) =
      (tokensFrom? .between rest).map ((if first then [] else [Token.comma]) ++ ·) := by
  cases first with
  | true => exact Option.map_id'.symm
  | false => exact tokensFrom?_mark rfl rest

/-- Behind an element there is a comma or what ends the array. -/
theorem ends_elementChars (elements : List Json) {rest : List Char} (ends : Ends rest) :
    Ends (elementChars false elements ++ rest) := by
  cases elements with
  | nil => exact ends
  | cons v elements =>
    rw [elementChars]
    exact ends_comma _

theorem ends_memberChars (members : List (String × Json)) {rest : List Char} (ends : Ends rest) :
    Ends (memberChars false members ++ rest) := by
  cases members with
  | nil => exact ends
  | cons m members =>
    rw [memberChars]
    exact ends_comma _

theorem lexes_elements {elements : List Json} (each : ∀ v ∈ elements, Lexes v) (first : Bool)
    {rest : List Char} (ends : Ends rest) :
    tokensFrom? .between (elementChars first elements ++ rest) =
      (tokensFrom? .between rest).map (elementTokens first elements ++ ·) := by
  induction elements generalizing first with
  | nil => exact Option.map_id'.symm
  | cons v elements ih =>
    have one := each v List.mem_cons_self _ (ends_elementChars elements ends)
    have others := ih (fun w mem => each w (List.mem_cons_of_mem v mem)) false
    rw [elementChars, elementTokens, List.append_assoc, List.append_assoc, tokensFrom?_comma, one,
      others, Option.map_map, Option.map_map]
    congr 1
    funext more
    simp only [Function.comp_apply, List.append_assoc]

theorem lexes_members {members : List (String × Json)} (each : ∀ m ∈ members, Lexes m.2)
    (first : Bool) {rest : List Char} (ends : Ends rest) :
    tokensFrom? .between (memberChars first members ++ rest) =
      (tokensFrom? .between rest).map (memberTokens first members ++ ·) := by
  induction members generalizing first with
  | nil => exact Option.map_id'.symm
  | cons m members ih =>
    obtain ⟨key, v⟩ := m
    have one := each (key, v) List.mem_cons_self _ (ends_memberChars members ends)
    have others := ih (fun w mem => each w (List.mem_cons_of_mem _ mem)) false
    have spelt : memberChars first ((key, v) :: members) ++ rest =
        (if first then [] else [',']) ++
          (quote key ++ ':' :: (chars v ++ (memberChars false members ++ rest))) := by
      simp only [memberChars, List.append_assoc, List.cons_append]
    rw [spelt, memberTokens, tokensFrom?_comma, tokensFrom?_quote,
      tokensFrom?_mark (rfl : punctuation? ':' = some .colon), one, others, Option.map_map,
      Option.map_map, Option.map_map, Option.map_map]
    congr 1
    funext more
    simp only [Function.comp_apply, List.append_assoc, List.cons_append, List.nil_append]

theorem tokensFrom?_chars {v : Json} (sound : IsSound v) : Lexes v := by
  induction sound with
  | null =>
    exact fun rest ends => tokensFrom?_scalar (by decide) (List.all_eq_true.mp (by decide)) ends rfl
  | bool b =>
    intro rest ends
    cases b with
    | true => exact tokensFrom?_scalar (by decide) (List.all_eq_true.mp (by decide)) ends rfl
    | false => exact tokensFrom?_scalar (by decide) (List.all_eq_true.mp (by decide)) ends rfl
  | natural n =>
    intro rest ends
    rw [chars, toList_showNat]
    exact tokensFrom?_scalar Nat.toDigits_ne_nil
      (fun c mem => isWordChar_of_digit (isAsciiDigit_of_mem_toDigits mem)) ends
      (ofWord?_toDigits n)
  | text s => exact fun rest _ => tokensFrom?_quote s rest
  | array _ ih =>
    intro rest _
    rw [chars, tokens, List.cons_append, List.cons_append, List.append_assoc,
      tokensFrom?_mark (rfl : punctuation? '[' = some .openArray), List.singleton_append,
      lexes_elements ih true (ends_bracket rest),
      tokensFrom?_mark (rfl : punctuation? ']' = some .closeArray), Option.map_map, Option.map_map]
    congr 1
    funext more
    simp only [Function.comp_apply, List.append_assoc, List.cons_append, List.nil_append]
  | object _ ih =>
    intro rest _
    rw [chars, tokens, List.cons_append, List.cons_append, List.append_assoc,
      tokensFrom?_mark (rfl : punctuation? '\x7b' = some .openObject), List.singleton_append,
      lexes_members ih true (ends_brace rest),
      tokensFrom?_mark (rfl : punctuation? '\x7d' = some .closeObject), Option.map_map,
      Option.map_map]
    congr 1
    funext more
    simp only [Function.comp_apply, List.append_assoc, List.cons_append, List.nil_append]

/-- The tokens of a written value are those it is written with. -/
theorem tokens?_chars {v : Json} (sound : IsSound v) : tokens? v.chars = some v.tokens := by
  have whole := tokensFrom?_chars sound [] ends_nil
  rw [List.append_nil] at whole
  rw [tokens?, whole, tokensFrom?, Option.map_some, List.append_nil]

end BuildSupervisor.Json
