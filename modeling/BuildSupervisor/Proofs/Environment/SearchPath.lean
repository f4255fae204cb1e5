import BuildSupervisor.Environment.SearchPath
import BuildSupervisor.Proofs.Text.Cut
import Mathlib.Logic.Basic
/-!
# The directories of a search path

The directories of a search path are compared as paths, while the search path itself is made of
octets.  `additions_eq_firsts` says which directories are added to those that are present, and
`entries_join` and `join_entries` that the octets and the directories say the same.
-/

namespace BuildSupervisor

theorem Path.same_iff {p q : Path} : p.same q = true ↔ p.components = q.components :=
  decide_eq_true_iff

namespace SearchPath

variable {present : List Path}

/-- The directories that are no spelling of a path which is present, or which comes before them
    among the directories. -/
def firsts (present dirs : List Path) : List Path :=
  (dirs.zipIdx.filter fun (dir, i) => (present ++ dirs.take i).all fun q => !dir.same q).map
    Prod.fst

theorem firsts_cons (present : List Path) (dir : Path) (dirs : List Path) :
    firsts present (dir :: dirs) =
      if present.any dir.same then firsts (dir :: present) dirs
      else dir :: firsts (dir :: present) dirs := by
  have others : (((dirs.zipIdx 1).filter fun (d, i) =>
      (present ++ (dir :: dirs).take i).all fun q => !d.same q).map Prod.fst) =
      firsts (dir :: present) dirs := by
    rw [List.zipIdx_succ, List.filter_map, List.map_map]
    refine congrArg₂ List.map rfl (List.filter_congr ?_)
    intro entry _
    simp only [Function.comp_apply, List.take_succ_cons, List.all_append, List.all_cons,
      Bool.and_left_comm, Bool.and_assoc]
  rw [firsts, List.zipIdx_cons, List.filter_cons]
  simp only [List.take_zero, List.append_nil, Nat.zero_add]
  cases known : present.any dir.same with
  | true =>
    have old : present.all (fun q => !dir.same q) = false := by
      rw [← List.not_any_eq_all_not, known]
      rfl
    rw [old, if_neg Bool.false_ne_true, if_pos rfl, others]
  | false =>
    have new : present.all (fun q => !dir.same q) = true := by
      rw [← List.not_any_eq_all_not, known]
      rfl
    rw [new, if_pos rfl, if_neg Bool.false_ne_true, List.map_cons, others]

/-- Of what is present, only the paths count. -/
theorem firsts_congr {present' : List Path}
    (h : ∀ dir : Path, present.any dir.same = present'.any dir.same) (dirs : List Path) :
    firsts present dirs = firsts present' dirs := by
  induction dirs generalizing present present' with
  | nil => rfl
  | cons dir dirs ih =>
    have more (other : Path) : (dir :: present).any other.same = (dir :: present').any other.same := by
      rw [List.any_cons, List.any_cons, h other]
    rw [firsts_cons, firsts_cons, h dir, ih more]

/-- What is added are the first spellings of the paths that are not there. -/
theorem additions_eq_firsts (present dirs : List Path) :
    additions present dirs = firsts present dirs := by
  induction dirs generalizing present with
  | nil => rfl
  | cons dir dirs ih =>
    rw [additions, firsts_cons, ih, ih]
    split
    · rename_i known
      refine firsts_congr (fun other => ?_) dirs
      obtain ⟨q, mem, same⟩ := List.any_eq_true.mp known
      rw [List.any_cons]
      cases again : other.same dir with
      | false => rfl
      | true =>
        rw [Bool.true_or]
        refine List.any_eq_true.mpr ⟨q, mem, ?_⟩
        exact Path.same_iff.mpr ((Path.same_iff.mp again).trans (Path.same_iff.mp same))
    · rfl

/-- Each directory is there once what is missing has been added. -/
theorem any_same_additions (present : List Path) {dirs : List Path} {dir : Path}
    (mem : dir ∈ dirs) : (additions present dirs ++ present).any dir.same = true := by
  induction dirs generalizing present with
  | nil => cases mem
  | cons first dirs ih =>
    unfold additions
    split
    · rename_i known
      rcases List.mem_cons.mp mem with rfl | mem
      · rw [List.any_append, known, Bool.or_true]
      · exact ih present mem
    · rcases List.mem_cons.mp mem with rfl | mem
      · rw [List.cons_append, List.any_cons, Path.same_iff.mpr rfl, Bool.true_or]
      · have there := ih (first :: present) mem
        simp only [List.any_append, List.cons_append, List.any_cons] at there ⊢
        rw [← there, Bool.or_left_comm]

theorem additions_eq_nil {dirs : List Path}
    (known : ∀ dir ∈ dirs, present.any dir.same = true) : additions present dirs = [] := by
  induction dirs with
  | nil => rfl
  | cons dir dirs ih =>
    obtain ⟨first, others⟩ := List.forall_mem_cons.mp known
    rw [additions, if_pos first, ih others]

/-- No directory of a search path has a colon in it. -/
theorem colon_not_mem_of_mem_entries {value : Bytes} {dir : Path} (mem : dir ∈ entries value) :
    colon ∉ dir.octets := by
  obtain ⟨piece, cut, rfl⟩ := List.mem_map.mp mem
  exact Text.not_mem_of_mem_cut cut

theorem entries_join {dirs : List Path} (some_ : dirs ≠ [])
    (absent : ∀ dir ∈ dirs, colon ∉ dir.octets) :
    entries (Text.join [colon] (dirs.map Path.octets)) = dirs := by
  have pieces : ∀ piece ∈ dirs.map Path.octets, colon ∉ piece := by
    intro piece mem
    obtain ⟨dir, there, rfl⟩ := List.mem_map.mp mem
    exact absent dir there
  rw [entries, Text.cut_join (mt List.map_eq_nil_iff.mp some_) pieces, List.map_map]
  exact List.map_id _

theorem join_entries (value : Bytes) :
    Text.join [colon] ((entries value).map Path.octets) = value := by
  have same : (entries value).map Path.octets = Text.cut colon value := by
    rw [entries, List.map_map]
    exact List.map_id _
  rw [same, Text.join_cut]

theorem join?_eq_none {dirs : List Path} :
    join? dirs = none ↔ ∃ dir ∈ dirs, colon ∈ dir.octets := by
  simp only [join?, List.any_eq_true, List.contains_iff_mem, ite_eq_left_iff, reduceCtorEq,
    imp_false, not_not]

theorem join?_eq_some {dirs : List Path} {value : Bytes} (h : join? dirs = some value) :
    value = Text.join [colon] (dirs.map Path.octets) ∧ ∀ dir ∈ dirs, colon ∉ dir.octets := by
  constructor
  · unfold join? at h
    split at h
    · cases h
    · exact (Option.some.inj h).symm
  · intro dir mem there
    rw [join?_eq_none.mpr ⟨dir, mem, there⟩] at h
    cases h

end SearchPath

end BuildSupervisor
