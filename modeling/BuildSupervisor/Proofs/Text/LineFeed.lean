import BuildSupervisor.Proofs.Text.Utf8
/-!
# Octets below 128

An octet below 128 is a character of its own, whatever stands before it: it ends an ill-formed piece
and belongs to none.  So octets may be cut at their line feeds, or at their slashes, before they are
read as text (`Utf8.decodeLossy_append_ascii`), the octets of a text may be cut there into those of
two texts (`Utf8.encodeChars_eq_append_cons`), and what is read between two line feeds has none in
it (`Utf8.lineFeed_not_mem_decodeLossy`).
-/

namespace BuildSupervisor.Utf8

/-! ### What an octet below 128 is not part of -/

theorem isContinuation_ascii {b : UInt8} (ascii : b.toNat < 128) : isContinuation b = false := by
  rw [Bool.eq_false_iff, ne_eq, isContinuation_iff]
  omega

theorem isLead3_ascii (a : UInt8) {b : UInt8} (ascii : b.toNat < 128) : isLead3 a b = false := by
  rw [Bool.eq_false_iff, ne_eq, isLead3_iff]
  omega

theorem isLead4_ascii (a : UInt8) {b : UInt8} (ascii : b.toNat < 128) : isLead4 a b = false := by
  rw [Bool.eq_false_iff, ne_eq, isLead4_iff]
  omega

/-- Reading starts afresh at an octet below 128. -/
theorem scan_append_ascii (front : Bytes) {b : UInt8} (ascii : b.toNat < 128) (rest : Bytes) :
    scan (front ++ b :: rest) = scan front ++ scan (b :: rest) := by
  have apart := isContinuation_ascii ascii
  have apart3 (a : UInt8) := isLead3_ascii a ascii
  have apart4 (a : UInt8) := isLead4_ascii a ascii
  -- The cases are those of reading `front`; where it breaks off inside a character, `b` is what
  -- stands there and does not go on with it.
  fun_induction scan front
  all_goals
    simp only [List.cons_append, List.nil_append] at *
  all_goals
    conv => lhs; rw [scan.eq_def]
  all_goals
    simp only [*, Bool.and_false, Bool.false_eq_true, if_true, if_false]

/-- An octet below 128 is the character of its number, whatever stands around it. -/
theorem decodeLossy_append_ascii (front : Bytes) {b : UInt8} (ascii : b.toNat < 128)
    (rest : Bytes) :
    decodeLossy (front ++ b :: rest) =
      decodeLossy front ++ String.ofList [Char.ofNat b.toNat] ++ decodeLossy rest := by
  rw [decodeLossy, decodeLossy, decodeLossy, ← String.ofList_append, ← String.ofList_append]
  simp only [decodeCharsLossy, scan_append_ascii front ascii, scan_one ascii, List.map_append,
    List.map_cons, Option.getD_some, List.append_assoc, List.singleton_append]

theorem decodeLossy_append_lineFeed (front rest : Bytes) :
    decodeLossy (front ++ 10 :: rest) = decodeLossy front ++ "\n" ++ decodeLossy rest :=
  decodeLossy_append_ascii front (by decide) rest

theorem scan_eq_nil_iff {octets : Bytes} : scan octets = [] ↔ octets = [] := by
  fun_cases scan octets <;> simp

/-- Octets of a text may be cut at an octet below 128: there the text has the character of its
    number, and what stands on either side are texts again. -/
theorem encodeChars_eq_append_cons {s : List Char} {front rest : Bytes} {b : UInt8}
    (ascii : b.toNat < 128) (h : encodeChars s = front ++ b :: rest) :
    ∃ before after, s = before ++ Char.ofNat b.toNat :: after ∧ front = encodeChars before ∧
      rest = encodeChars after := by
  induction s generalizing front with
  | nil => exact absurd h.symm (List.append_ne_nil_of_right_ne_nil _ (List.cons_ne_nil _ _))
  | cons c s ih =>
    have first : encodeChars (c :: s) = String.utf8EncodeChar c ++ encodeChars s :=
      List.flatMap_cons
    rw [first] at h
    rcases List.append_eq_append_iff.mp h with ⟨others, rfl, behind⟩ | ⟨others, split, behind⟩
    · obtain ⟨before, after, rfl, rfl, rfl⟩ := ih behind
      exact ⟨c :: before, after, rfl, List.flatMap_cons.symm, rfl⟩
    · cases others with
      | nil =>
        have next : encodeChars s = [] ++ b :: rest := behind.symm
        obtain ⟨before, after, rfl, nothing, rfl⟩ := ih next
        refine ⟨c :: before, after, rfl, ?_, rfl⟩
        rw [List.append_nil] at split
        rw [encodeChars, List.flatMap_cons, split, ← encodeChars, ← nothing, List.append_nil]
      | cons d others =>
        obtain ⟨rfl, rfl⟩ := List.cons.inj behind
        -- The octet stands inside the character `c`, which must then be that octet alone.
        have read := scan_encodeChar c []
        rw [List.append_nil, split, scan_append_ascii _ ascii, scan_one ascii] at read
        rcases List.append_eq_singleton_iff.mp read with ⟨before, alone⟩ | ⟨-, none_⟩
        · obtain ⟨same, after⟩ := List.cons.inj alone
          obtain rfl := scan_eq_nil_iff.mp before
          obtain rfl := scan_eq_nil_iff.mp after
          exact ⟨[], s, by rw [Option.some.inj same]; rfl, rfl, rfl⟩
        · cases none_

/-! ### What is read as a line feed -/

theorem toNat_of_ofNat_eq {n : Nat} {c : Char} (some_ : c ≠ '\x00') (h : Char.ofNat n = c) :
    n = c.toNat := by
  by_cases valid : n.isValidChar
  · rw [Char.ofNat, dif_pos valid] at h
    rw [← h]
    rfl
  · rw [Char.ofNat, dif_neg valid] at h
    exact absurd h.symm some_

theorem ofNat_ne_lineFeed {a : UInt8} (other : a ≠ 10) : Char.ofNat a.toNat ≠ '\n' :=
  fun same => other (UInt8.toNat_inj.mp (toNat_of_ofNat_eq (by decide) same))

section

variable {a b : UInt8}

theorem join2_ne_lineFeed (lead : isLead2 a = true) : join2 a b ≠ '\n' := by
  intro same
  have value : a.toNat % 32 * 64 + b.toNat % 64 = 10 := toNat_of_ofNat_eq (by decide) same
  have range := isLead2_iff.mp lead
  omega

theorem join3_ne_lineFeed (lead : isLead3 a b = true) (c : UInt8) : join3 a b c ≠ '\n' := by
  intro same
  have value : a.toNat % 16 * 4096 + b.toNat % 64 * 64 + c.toNat % 64 = 10 :=
    toNat_of_ofNat_eq (by decide) same
  have range := isLead3_iff.mp lead
  omega

theorem join4_ne_lineFeed (lead : isLead4 a b = true) (c d : UInt8) : join4 a b c d ≠ '\n' := by
  intro same
  have value : a.toNat % 8 * 262144 + b.toNat % 64 * 4096 + c.toNat % 64 * 64 + d.toNat % 64 = 10 :=
    toNat_of_ofNat_eq (by decide) same
  have range := isLead4_iff.mp lead
  omega

end

/-- A line feed is read from its own octet only. -/
theorem lineFeed_not_mem_scan {octets : Bytes} (absent : 10 ∉ octets) :
    some '\n' ∉ scan octets := by
  fun_induction scan octets with
  | case1 => exact List.not_mem_nil
  | case2 a rest low ih =>
    simp only [List.mem_cons, not_or, Option.some.injEq] at absent ⊢
    exact ⟨(ofNat_ne_lineFeed (Ne.symm absent.1)).symm, ih absent.2⟩
  | case4 a _ b rest two ih =>
    have lead : isLead2 a = true := (Bool.and_eq_true_iff.mp two).1
    simp only [List.mem_cons, not_or, Option.some.injEq] at absent ⊢
    exact ⟨(join2_ne_lineFeed lead).symm, ih absent.2.2⟩
  | case6 a _ b _ three c rest _ ih =>
    simp only [List.mem_cons, not_or, Option.some.injEq] at absent ⊢
    exact ⟨(join3_ne_lineFeed three c).symm, ih absent.2.2.2⟩
  | case10 a _ b _ _ four c _ d rest _ ih =>
    simp only [List.mem_cons, not_or, Option.some.injEq] at absent ⊢
    exact ⟨(join4_ne_lineFeed four c d).symm, ih absent.2.2.2.2⟩
  | _ => simp_all

theorem lineFeed_not_mem_decodeLossy {octets : Bytes} (absent : 10 ∉ octets) :
    '\n' ∉ (decodeLossy octets).toList := by
  rw [decodeLossy, String.toList_ofList, decodeCharsLossy, List.mem_map]
  rintro ⟨c | c, mem, same⟩
  · exact absurd same (by decide)
  · rw [Option.getD_some] at same
    exact lineFeed_not_mem_scan absent (same ▸ mem)

end BuildSupervisor.Utf8
