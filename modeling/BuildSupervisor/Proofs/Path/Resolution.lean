import BuildSupervisor.Path.Display
import BuildSupervisor.Proofs.Text.LineFeed
/-!
# Paths seen from a base directory

A file is joined to the base directory unless it says itself where it starts: at a root, on a share
of the network or on a drive (`IsAbsolute`).  Whether it does is a matter of its first characters
(`IsAbsolute.append`), and what is joined begins with the text of the base (`Path.text_append`).  So
a path that was resolved against an absolute base has come to rest (`resolves_once`).
-/

namespace BuildSupervisor

/-- A path that says where it starts. -/
inductive IsAbsolute : List Char → Prop
  | root (rest : List Char) : IsAbsolute ('/' :: rest)
  | share (rest : List Char) : IsAbsolute ('\\' :: '\\' :: rest)
  | drive {letter mark : Char} (letter_ : isAsciiLetter letter = true)
    (mark_ : mark = '\\' ∨ mark = '/') (rest : List Char) :
    IsAbsolute (letter :: ':' :: mark :: rest)

variable {file s : List Char} {base : Path}

/-! ### Absolute paths -/

theorem isAbsoluteText_iff : isAbsoluteText s = true ↔ IsAbsolute s := by
  constructor
  · intro h
    unfold isAbsoluteText at h
    split at h
    · exact .root _
    · exact .share _
    · simp only [Bool.and_eq_true, Bool.or_eq_true, decide_eq_true_eq] at h
      exact .drive h.1 h.2 _
    · cases h
  · intro h
    cases h with
    | root => rfl
    | share => rfl
    | drive letter_ mark_ =>
      unfold isAbsoluteText
      split
      · rfl
      · rfl
      · next whole =>
        cases whole
        simpa [letter_] using mark_
      · next drive => exact absurd rfl (drive _ _ _)

instance : DecidablePred IsAbsolute := fun _ => decidable_of_iff _ isAbsoluteText_iff

/-- Only the first characters count. -/
theorem IsAbsolute.append (h : IsAbsolute s) (rest : List Char) : IsAbsolute (s ++ rest) := by
  cases h with
  | root => exact .root _
  | share => exact .share _
  | drive letter_ mark_ => exact .drive letter_ mark_ _

/-! ### Joining -/

theorem Path.decodeLossy_append_slash (front rest : Bytes) :
    Utf8.decodeLossy (front ++ slash :: rest) =
      Utf8.decodeLossy front ++ "/" ++ Utf8.decodeLossy rest :=
  Utf8.decodeLossy_append_ascii front (by decide) rest

/-- The text of what is joined is joined from the texts, even if the base is no text. -/
theorem Path.text_append (base : Path) (file : List Char) :
    (base.append (Utf8.encodeChars file)).text =
      base.text ++ (if base.octets.getLast? = some slash then "" else "/") ++
        String.ofList file := by
  have read : Utf8.decodeLossy (Utf8.encodeChars file) = String.ofList file := by
    have back := Utf8.decodeLossy_encode (String.ofList file)
    rwa [Utf8.encode, String.toList_ofList] at back
  unfold Path.append
  split
  · next ended =>
    obtain ⟨front, whole⟩ := List.getLast?_eq_some_iff.mp ended
    have nothing : Utf8.decodeLossy [] = "" := rfl
    rw [text, text, whole, List.append_assoc, List.singleton_append, decodeLossy_append_slash,
      decodeLossy_append_slash, read, nothing, String.append_empty, String.append_empty]
  · rw [text, decodeLossy_append_slash, read]
    rfl

/-! ### Resolving -/

theorem resolveSource_of_absolute (h : IsAbsolute file) (base : Path) :
    resolveSource file base = String.ofList file := by
  rw [resolveSource, isAbsoluteText_iff.mpr h, Bool.true_or, if_pos rfl]

theorem resolveSource_of_empty (none_ : base.octets = []) (file : List Char) :
    resolveSource file base = String.ofList file := by
  rw [resolveSource, Path.isEmpty, none_, List.isEmpty_nil, Bool.or_true, if_pos rfl]

theorem resolveSource_of_relative (relative : ¬ IsAbsolute file) (some_ : base.octets ≠ []) :
    resolveSource file base = base.text ++
      (if base.octets.getLast? = some Path.slash then "" else "/") ++ String.ofList file := by
  have other : isAbsoluteText file = false := by rwa [← Bool.not_eq_true, isAbsoluteText_iff]
  have some_' : base.isEmpty = false := List.isEmpty_eq_false_iff.mpr some_
  rw [resolveSource, other, some_', Bool.false_or, if_neg Bool.false_ne_true, Path.text_append]

/-- Below a base directory that is absolute, everything is. -/
theorem isAbsolute_resolveSource (h : IsAbsolute base.text.toList) (file : List Char) :
    IsAbsolute (resolveSource file base).toList := by
  by_cases absolute : IsAbsolute file
  · rw [resolveSource_of_absolute absolute, String.toList_ofList]
    exact absolute
  · have some_ : base.octets ≠ [] := by
      intro none_
      rw [Path.text, none_] at h
      cases h
    rw [resolveSource_of_relative absolute some_, String.toList_append, String.toList_append,
      List.append_assoc]
    exact h.append _

/-- What is said of a file seen from a base directory. -/
structure Resolves (file : List Char) (base : Path) : Prop where
  kept : IsAbsolute file ∨ base.octets = [] → resolveSource file base = String.ofList file
  joined : ¬ IsAbsolute file → base.octets ≠ [] → resolveSource file base = base.text ++
    (if base.octets.getLast? = some Path.slash then "" else "/") ++ String.ofList file
  absolute : IsAbsolute base.text.toList →
    isAbsoluteText (resolveSource file base).toList = true
  /-- What is absolute is not resolved again, neither against the same base nor another one. -/
  stable : IsAbsolute base.text.toList → ∀ other,
    resolveSource (resolveSource file base).toList other = resolveSource file base

theorem resolves_once (file : List Char) (base : Path) : Resolves file base where
  kept := by
    rintro (absolute | none_)
    · exact resolveSource_of_absolute absolute base
    · exact resolveSource_of_empty none_ file
  joined := resolveSource_of_relative
  absolute h := isAbsoluteText_iff.mpr (isAbsolute_resolveSource h file)
  stable h other := by
    rw [resolveSource_of_absolute (isAbsolute_resolveSource h file), String.ofList_toList]

/-- A directory on a share, with an octet that is no text. -/
def shareBase : Path :=
  ⟨[92, 92, 104, 92, 255]⟩

theorem shareBase_resolves_once :
    IsAbsolute shareBase.text.toList ∧
      resolveSource ['x', '.', 'c'] shareBase = "\\\\h\\\uFFFD/x.c" ∧
      resolveSource ['D', ':', '/', 'x'] shareBase = "D:/x" ∧
      ∀ other, resolveSource "\\\\h\\\uFFFD/x.c".toList other = "\\\\h\\\uFFFD/x.c" := by
  have absolute : IsAbsolute shareBase.text.toList := by decide +kernel
  have once := resolves_once ['x', '.', 'c'] shareBase
  have joined : resolveSource ['x', '.', 'c'] shareBase = "\\\\h\\\uFFFD/x.c" := by
    rw [once.joined (by decide) (by decide)]
    decide +kernel
  refine ⟨absolute, joined, ?_, ?_⟩
  · exact (resolves_once ['D', ':', '/', 'x'] shareBase).kept (.inl (by decide))
  · rw [← joined]
    exact once.stable absolute

end BuildSupervisor
