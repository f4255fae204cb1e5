import BuildSupervisor.Path.Basic
/-!
# Text survives its octets

The octets of a text are read as that text: no piece of them is ill-formed.  `Utf8.scan_encodeChar`
says so for one character, by the number of octets it takes, `Utf8.decodeLossy_encode` for texts,
and `Path.IsText.ofText_text` for the paths that are written as texts.
-/

namespace BuildSupervisor

namespace Utf8

/-! ### Classes of octets -/

theorem isContinuation_iff {b : UInt8} :
    isContinuation b = true ↔ 128 ≤ b.toNat ∧ b.toNat ≤ 191 := by
  simp [isContinuation, UInt8.le_iff_toNat_le]

theorem isLead2_iff {a : UInt8} : isLead2 a = true ↔ 194 ≤ a.toNat ∧ a.toNat ≤ 223 := by
  simp [isLead2, UInt8.le_iff_toNat_le]

theorem isLead3_iff {a b : UInt8} :
    isLead3 a b = true ↔
      (a.toNat = 224 ∧ 160 ≤ b.toNat ∧ b.toNat ≤ 191) ∨
        (a.toNat = 237 ∧ 128 ≤ b.toNat ∧ b.toNat ≤ 159) ∨
        (a.toNat ≠ 224 ∧ a.toNat ≠ 237 ∧ 225 ≤ a.toNat ∧ a.toNat ≤ 239 ∧ 128 ≤ b.toNat ∧
          b.toNat ≤ 191) := by
  simp only [isLead3, isContinuation, ← UInt8.toNat_inj, UInt8.le_iff_toNat_le,
    UInt8.reduceToNat]
  split
  · simp only [Bool.and_eq_true, decide_eq_true_eq]
    omega
  · split
    · simp only [Bool.and_eq_true, decide_eq_true_eq]
      omega
    · simp only [Bool.and_eq_true, decide_eq_true_eq]
      omega

theorem isLead4_iff {a b : UInt8} :
    isLead4 a b = true ↔
      (a.toNat = 240 ∧ 144 ≤ b.toNat ∧ b.toNat ≤ 191) ∨
        (a.toNat = 244 ∧ 128 ≤ b.toNat ∧ b.toNat ≤ 143) ∨
        (a.toNat ≠ 240 ∧ a.toNat ≠ 244 ∧ 241 ≤ a.toNat ∧ a.toNat ≤ 243 ∧ 128 ≤ b.toNat ∧
          b.toNat ≤ 191) := by
  simp only [isLead4, isContinuation, ← UInt8.toNat_inj, UInt8.le_iff_toNat_le,
    UInt8.reduceToNat]
  split
  · simp only [Bool.and_eq_true, decide_eq_true_eq]
    omega
  · split
    · simp only [Bool.and_eq_true, decide_eq_true_eq]
      omega
    · simp only [Bool.and_eq_true, decide_eq_true_eq]
      omega

/-! ### Reading one character -/

section

variable {a b c d : UInt8}

theorem scan_one (ascii : a.toNat < 128) (rest : Bytes) :
    scan (a :: rest) = some (Char.ofNat a.toNat) :: scan rest := by
  rw [scan.eq_def]
  exact if_pos ascii

theorem scan_two (lead : isLead2 a = true) (second : isContinuation b = true) (rest : Bytes) :
    scan (a :: b :: rest) = some (join2 a b) :: scan rest := by
  have high : ¬ a < 0x80 := by
    obtain ⟨low, -⟩ := isLead2_iff.mp lead
    change ¬ a.toNat < 128
    omega
  rw [scan.eq_def]
  simp only [if_neg high, lead, second, Bool.and_self, if_true]

theorem scan_three (lead : isLead3 a b = true) (third : isContinuation c = true) (rest : Bytes) :
    scan (a :: b :: c :: rest) = some (join3 a b c) :: scan rest := by
  have range := isLead3_iff.mp lead
  have high : ¬ a < 0x80 := by
    change ¬ a.toNat < 128
    omega
  have lead2 : isLead2 a = false := by
    rw [Bool.eq_false_iff, ne_eq, isLead2_iff]
    omega
  rw [scan.eq_def]
  simp only [if_neg high, lead2, lead, third, Bool.false_and, if_true, Bool.false_eq_true, if_false]

theorem scan_four (lead : isLead4 a b = true) (third : isContinuation c = true)
    (fourth : isContinuation d = true) (rest : Bytes) :
    scan (a :: b :: c :: d :: rest) = some (join4 a b c d) :: scan rest := by
  have range := isLead4_iff.mp lead
  have high : ¬ a < 0x80 := by
    change ¬ a.toNat < 128
    omega
  have lead2 : isLead2 a = false := by
    rw [Bool.eq_false_iff, ne_eq, isLead2_iff]
    omega
  have lead3 : isLead3 a b = false := by
    rw [Bool.eq_false_iff, ne_eq, isLead3_iff]
    omega
  rw [scan.eq_def]
  simp only [if_neg high, lead2, lead3, lead, third, fourth, Bool.false_and, if_true,
    Bool.false_eq_true, if_false]

end

/-- A character is read back behind its octets, whatever follows. -/
theorem scan_encodeChar (c : Char) (rest : Bytes) :
    scan (String.utf8EncodeChar c ++ rest) = some c :: scan rest := by
  have valid : c.toNat < 0xD800 ∨ 0xDFFF < c.toNat ∧ c.toNat < 0x110000 := c.valid
  have octet {n : Nat} (h : n < 256) : (UInt8.ofNat n).toNat = n := UInt8.toNat_ofNat_of_lt' h
  have ofNat {n : Nat} (h : n = c.toNat) : Char.ofNat n = c := by rw [h, Char.ofNat_toNat]
  have tail (n : Nat) : isContinuation (UInt8.ofNat (n % 64 + 128)) = true := by
    rw [isContinuation_iff, octet (by omega)]
    omega
  have low (n : Nat) : payload (UInt8.ofNat (n % 64 + 128)) = n % 64 := by
    rw [payload, octet (by omega)]
    omega
  rw [String.utf8EncodeChar.eq_1]
  generalize value : c.val.toNat = v
  change c.toNat = v at value
  rw [value] at valid
  split
  next small =>
    rw [List.singleton_append, scan_one (by rw [octet] <;> omega), octet (by omega),
      ofNat value.symm]
  next =>
    split
    next =>
      have lead : isLead2 (UInt8.ofNat (v / 64 % 32 + 192)) = true := by
        rw [isLead2_iff, octet (by omega)]
        omega
      have whole : join2 (UInt8.ofNat (v / 64 % 32 + 192)) (UInt8.ofNat (v % 64 + 128)) = c := by
        rw [join2, octet (by omega), low]
        exact ofNat (by omega)
      exact (scan_two lead (tail _) rest).trans (congrArg (some · :: scan rest) whole)
    next =>
      split
      next =>
        have lead : isLead3 (UInt8.ofNat (v / 4096 % 16 + 224)) (UInt8.ofNat (v / 64 % 64 + 128)) =
            true := by
          rw [isLead3_iff, octet (by omega), octet (by omega)]
          omega
        have whole : join3 (UInt8.ofNat (v / 4096 % 16 + 224)) (UInt8.ofNat (v / 64 % 64 + 128))
            (UInt8.ofNat (v % 64 + 128)) = c := by
          rw [join3, octet (by omega), low, low]
          exact ofNat (by omega)
        exact (scan_three lead (tail _) rest).trans (congrArg (some · :: scan rest) whole)
      next =>
        have lead : isLead4 (UInt8.ofNat (v / 262144 % 8 + 240))
            (UInt8.ofNat (v / 4096 % 64 + 128)) = true := by
          rw [isLead4_iff, octet (by omega), octet (by omega)]
          omega
        have whole : join4 (UInt8.ofNat (v / 262144 % 8 + 240)) (UInt8.ofNat (v / 4096 % 64 + 128))
            (UInt8.ofNat (v / 64 % 64 + 128)) (UInt8.ofNat (v % 64 + 128)) = c := by
          rw [join4, octet (by omega), low, low, low]
          exact ofNat (by omega)
        exact (scan_four lead (tail _) (tail _) rest).trans (congrArg (some · :: scan rest) whole)

/-! ### Texts and paths -/

theorem scan_encodeChars (cs : List Char) : scan (encodeChars cs) = cs.map some := by
  induction cs with
  | nil => rfl
  | cons c cs ih =>
    have spelt : encodeChars (c :: cs) = String.utf8EncodeChar c ++ encodeChars cs :=
      List.flatMap_cons
    rw [spelt, scan_encodeChar, ih, List.map_cons]

/-- The octets of a text are read as that text. -/
theorem decodeLossy_encode (s : String) : decodeLossy (encode s) = s := by
  rw [decodeLossy, decodeCharsLossy, encode, scan_encodeChars, List.map_map]
  have same : ((fun c => c.getD replacement) ∘ some : Char → Char) = id := rfl
  rw [same, List.map_id, String.ofList_toList]

end Utf8

namespace Path

/-- The octets of the path are those of a text. -/
def IsText (p : Path) : Prop :=
  ∃ s, p = ofText s

theorem text_ofText (s : String) : (ofText s).text = s :=
  Utf8.decodeLossy_encode s

/-- A path that is a text is the path of its text. -/
theorem IsText.ofText_text {p : Path} (h : p.IsText) : ofText p.text = p := by
  obtain ⟨s, rfl⟩ := h
  rw [text_ofText]

end Path

end BuildSupervisor
