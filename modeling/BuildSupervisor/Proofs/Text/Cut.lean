import BuildSupervisor.Text.Lines
/-!
# Pieces between separators

`Text.cut` and `Text.join` undo each other (`join_cut`, `cut_join`): nothing is lost, and pieces
that hold no separator are found again.  What is cut from two lists with a separator between them is
what is cut from each (`cut_append_cons`), so that a list may be cut as it comes.
-/

namespace BuildSupervisor.Text

variable {α : Type u}

/-! ### Joining -/

theorem join_cons (sep piece : List α) {pieces : List (List α)} (some_ : pieces ≠ []) :
    join sep (piece :: pieces) = piece ++ sep ++ join sep pieces := by
  cases pieces with
  | nil => exact absurd rfl some_
  | cons second pieces => rfl

theorem join_append (sep : List α) {front back : List (List α)} (front_ : front ≠ [])
    (back_ : back ≠ []) : join sep (front ++ back) = join sep front ++ sep ++ join sep back := by
  induction front with
  | nil => exact absurd rfl front_
  | cons piece front ih =>
    cases front with
    | nil => exact join_cons sep piece back_
    | cons second front =>
      have more := List.cons_ne_nil second front
      rw [List.cons_append, join_cons _ _ (List.append_ne_nil_of_left_ne_nil more back), ih more,
        join_cons _ _ more]
      simp only [List.append_assoc]

/-- Pieces with a separator behind each are joined to a last piece. -/
theorem join_concat (sep : α) (pieces : List (List α)) (last : List α) :
    join [sep] (pieces ++ [last]) = (pieces.map (· ++ [sep])).flatten ++ last := by
  induction pieces with
  | nil => rfl
  | cons piece pieces ih =>
    have some_ : pieces ++ [last] ≠ [] :=
      List.append_ne_nil_of_right_ne_nil _ (List.cons_ne_nil _ _)
    rw [List.cons_append, join_cons _ _ some_, ih, List.map_cons, List.flatten_cons]
    simp only [List.append_assoc]

theorem terminated_append (f : List α → List α) (first : List (List α)) {second : List (List α)}
    (h : second ≠ []) :
    terminated f (first ++ second) = first.map f ++ terminated f second := by
  induction first with
  | nil => rfl
  | cons piece pieces ih =>
    cases rest : pieces ++ second with
    | nil => exact absurd (List.append_eq_nil_iff.mp rest).2 h
    | cons next others =>
      rw [rest] at ih
      rw [List.cons_append, rest, terminated, ih]
      · rfl
      · exact fun _ => List.cons_ne_nil _ _
      · exact List.cons_ne_nil _ _

/-- Lines that are ended each have one line feed more than lines that are only kept apart. -/
theorem join_map_endLine {lines : List String} (some_ : lines ≠ []) :
    String.join (lines.map (· ++ "\n")) = joinLines lines ++ "\n" := by
  induction lines with
  | nil => exact absurd rfl some_
  | cons line rest ih =>
    rw [List.map_cons, String.join_cons]
    cases rest with
    | nil => simp [joinLines, join]
    | cons next others =>
      rw [ih (List.cons_ne_nil next others)]
      simp [joinLines, join, String.ofList_append, String.append_assoc]

variable [DecidableEq α]

/-! ### Cutting -/

theorem cut_ne_nil (sep : α) (xs : List α) : cut sep xs ≠ [] := by
  cases xs with
  | nil => exact List.cons_ne_nil _ _
  | cons x xs =>
    unfold cut
    split
    · exact List.cons_ne_nil _ _
    · split <;> exact List.cons_ne_nil _ _

theorem cut_of_not_mem {sep : α} {xs : List α} (h : sep ∉ xs) : cut sep xs = [xs] := by
  induction xs with
  | nil => rfl
  | cons x xs ih =>
    have other : x ≠ sep := fun same => h (same ▸ List.mem_cons_self)
    simp only [cut, other, if_false, ih fun mem => h (List.mem_cons_of_mem x mem)]

theorem cut_of_first {sep : α} {piece : List α} (absent : sep ∉ piece) (rest : List α) :
    cut sep (piece ++ sep :: rest) = piece :: cut sep rest := by
  induction piece with
  | nil => rw [List.nil_append, cut, if_pos rfl]
  | cons x piece ih =>
    rw [List.mem_cons, not_or] at absent
    rw [List.cons_append, cut, if_neg (Ne.symm absent.1), ih absent.2]

/-- What stands behind the last separator. -/
def lastPiece (sep : α) (xs : List α) : List α :=
  (cut sep xs).getLast?.getD []

theorem not_mem_lastPiece (sep : α) (xs : List α) : sep ∉ lastPiece sep xs := by
  unfold lastPiece
  induction xs with
  | nil => exact List.not_mem_nil
  | cons x xs ih =>
    have some_ := cut_ne_nil sep xs
    by_cases there : x = sep
    · simp only [cut, there, if_true]
      cases first : cut sep xs with
      | nil => exact absurd first some_
      | cons piece pieces =>
        rw [first] at ih
        rwa [List.getLast?_cons_cons]
    · simp only [cut, there, if_false]
      cases first : cut sep xs with
      | nil => exact absurd first some_
      | cons piece pieces =>
        rw [first] at ih
        cases pieces with
        | nil =>
          intro mem
          rcases List.mem_cons.mp mem with same | mem
          · exact there same.symm
          · exact ih mem
        | cons second pieces =>
          rwa [List.getLast?_cons_cons] at ih ⊢

/-- Cutting goes on behind the last separator. -/
theorem cut_append (sep : α) (xs ys : List α) :
    cut sep (xs ++ ys) = (cut sep xs).dropLast ++ cut sep (lastPiece sep xs ++ ys) := by
  induction xs with
  | nil => rfl
  | cons x xs ih =>
    rw [List.cons_append]
    unfold lastPiece at ih ⊢
    have some_ := cut_ne_nil sep xs
    by_cases there : x = sep
    · simp only [cut, there, if_true]
      cases first : cut sep xs with
      | nil => exact absurd first some_
      | cons piece pieces =>
        rw [first] at ih
        rw [List.dropLast_cons_cons, List.getLast?_cons_cons, ih, List.cons_append]
    · simp only [cut, there, if_false]
      cases first : cut sep xs with
      | nil => exact absurd first some_
      | cons piece pieces =>
        rw [first] at ih
        rw [ih]
        cases pieces with
        | nil =>
          simp only [List.dropLast_singleton, List.nil_append, List.getLast?_singleton,
            Option.getD_some, List.cons_append, cut, there, if_false]
        | cons second pieces =>
          simp only [List.dropLast_cons_cons, List.getLast?_cons_cons, List.cons_append]

/-- Two texts with a separator between them are cut each on its own. -/
theorem cut_append_cons (sep : α) (xs ys : List α) :
    cut sep (xs ++ sep :: ys) = cut sep xs ++ cut sep ys := by
  rw [cut_append, cut_of_first (not_mem_lastPiece sep xs), List.append_cons]
  congr 1
  rw [lastPiece, List.getLast?_eq_some_getLast (cut_ne_nil sep xs), Option.getD_some]
  exact List.dropLast_concat_getLast _

theorem not_mem_of_mem_cut {sep : α} {xs piece : List α}
    (mem : piece ∈ cut sep xs) : sep ∉ piece := by
  induction xs generalizing piece with
  | nil =>
    rw [List.mem_singleton.mp mem]
    exact List.not_mem_nil
  | cons x xs ih =>
    unfold cut at mem
    split at mem
    next =>
      rcases List.mem_cons.mp mem with rfl | mem
      · exact List.not_mem_nil
      · exact ih mem
    next other =>
      split at mem
      next nothing => exact absurd nothing (cut_ne_nil sep xs)
      next first pieces whole =>
        rw [whole] at ih
        rcases List.mem_cons.mp mem with rfl | mem
        · intro mem
          rcases List.mem_cons.mp mem with same | mem
          · exact other same.symm
          · exact ih List.mem_cons_self mem
        · exact ih (List.mem_cons_of_mem _ mem)

/-- Putting the pieces together again loses nothing. -/
theorem join_cut (sep : α) (xs : List α) : join [sep] (cut sep xs) = xs := by
  induction xs with
  | nil => rfl
  | cons x xs ih =>
    have some_ := cut_ne_nil sep xs
    by_cases there : x = sep
    · rw [cut, if_pos there, join_cons _ _ some_, ih, there]
      rfl
    · rw [cut, if_neg there]
      cases first : cut sep xs with
      | nil => exact absurd first some_
      | cons piece pieces =>
        rw [first] at ih
        rw [← ih]
        cases pieces <;> rfl

/-- Pieces without the separator are what is cut again from the whole. -/
theorem cut_join {sep : α} {pieces : List (List α)} (some_ : pieces ≠ [])
    (absent : ∀ piece ∈ pieces, sep ∉ piece) : cut sep (join [sep] pieces) = pieces := by
  induction pieces with
  | nil => exact absurd rfl some_
  | cons piece pieces ih =>
    obtain ⟨first, others⟩ := List.forall_mem_cons.mp absent
    cases pieces with
    | nil => exact cut_of_not_mem first
    | cons second pieces =>
      have more := List.cons_ne_nil second pieces
      rw [join_cons _ _ more, List.append_assoc, List.singleton_append, cut_of_first first,
        ih more others]

/-! ### The end of a piece -/

theorem dropLastIf_concat (x : α) (s : List α) : dropLastIf x (s ++ [x]) = s := by
  induction s with
  | nil => exact if_pos rfl
  | cons y s ih =>
    rw [List.cons_append, dropLastIf, ih]
    exact fun h => List.cons_ne_nil _ _ (List.append_eq_nil_iff.mp h).2

theorem dropLastIf_eq_self {x : α} {s : List α} (h : s.getLast? ≠ some x) : dropLastIf x s = s := by
  induction s with
  | nil => rfl
  | cons y s ih =>
    cases s with
    | nil => exact if_neg fun same => h (congrArg some same)
    | cons z s =>
      rw [List.getLast?_cons_cons] at h
      rw [dropLastIf, ih h]
      exact List.cons_ne_nil _ _

/-- What is left is followed by `x`, or is all there was. -/
theorem dropLastIf_cases (x : α) (s : List α) :
    s = dropLastIf x s ++ [x] ∨ s = dropLastIf x s ∧ s.getLast? ≠ some x := by
  by_cases last : s.getLast? = some x
  · obtain ⟨front, rfl⟩ := List.getLast?_eq_some_iff.mp last
    exact .inl (by rw [dropLastIf_concat])
  · exact .inr ⟨(dropLastIf_eq_self last).symm, last⟩

end BuildSupervisor.Text
