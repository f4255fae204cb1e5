import BuildSupervisor.Proofs.Diagnostic.BlankLine
import BuildSupervisor.Proofs.Diagnostic.Collecting
/-!
# The lines that matter

The diagnostics of a text are those of its headers and locations alone
(`Rustc.parse_eq_collect`), and these are, for two texts one below the other, those of both
(`Rustc.significantLines_append`).
-/

namespace BuildSupervisor

namespace Text

/-- What is dropped at the end anyway may be missing there. -/
theorem dropEndWhile_dropLastIf {α : Type u} [DecidableEq α] {p : α → Bool} {x : α}
    (h : p x = true) (s : List α) : dropEndWhile p (dropLastIf x s) = dropEndWhile p s := by
  rcases dropLastIf_cases x s with same | ⟨same, -⟩
  · conv => rhs; rw [same, dropEndWhile_append_of_pos (by simpa using h)]
  · rw [← same]

/-- At most an empty last piece is no line. -/
theorem exists_terminated (f : List Char → List Char) (pieces : List (List Char)) :
    ∃ kept last, (last = [] ∨ last = [[]]) ∧ pieces = kept ++ last ∧
      ∀ g : List Char → List Char, (∀ s, g (f s) = g s) →
        (terminated f pieces).map g = kept.map g := by
  induction pieces with
  | nil => exact ⟨[], [], .inl rfl, rfl, fun _ _ => rfl⟩
  | cons piece pieces ih =>
    cases pieces with
    | nil =>
      cases piece with
      | nil => exact ⟨[], [[]], .inr rfl, rfl, fun _ _ => rfl⟩
      | cons c piece => exact ⟨[c :: piece], [], .inl rfl, rfl, fun _ _ => rfl⟩
    | cons next pieces =>
      obtain ⟨kept, last, blank, whole, same⟩ := ih
      refine ⟨piece :: kept, last, blank, by rw [whole]; rfl, fun g once => ?_⟩
      rw [terminated, List.map_cons, List.map_cons, once, same g once]
      · exact fun _ => List.cons_ne_nil _ _
      · exact List.cons_ne_nil _ _

end Text

namespace Rustc

open Text

/-- The lines of a text without the carriage returns at their ends. -/
def linesOf (text : String) : List (List Char) :=
  (lines text.toList).map (dropEndWhile (· = '\r'))

open Classical in
/-- The headers and locations of a text. -/
noncomputable def significantLines (text : String) : List (List Char) :=
  (linesOf text).filter fun line => IsSignificant line

/-- The pieces of a text are its lines, and perhaps a blank one. -/
theorem exists_linesOf (text : String) :
    ∃ last, (last = [] ∨ last = [[]]) ∧
      (cut '\n' text.toList).map (dropEndWhile (· = '\r')) = linesOf text ++ last := by
  obtain ⟨kept, last, blank, whole, same⟩ :=
    exists_terminated (dropLastIf '\r') (cut '\n' text.toList)
  refine ⟨last, blank, ?_⟩
  rw [linesOf, lines, same _ (dropEndWhile_dropLastIf rfl), whole, List.map_append]
  congr 1
  rcases blank with rfl | rfl <;> rfl

theorem not_mem_linesOf (text : String) : ∀ line ∈ linesOf text, '\n' ∉ line := by
  intro line mem lineFeed
  obtain ⟨last, -, whole⟩ := exists_linesOf text
  have mem : line ∈ (cut '\n' text.toList).map (dropEndWhile (· = '\r')) :=
    whole ▸ List.mem_append_left last mem
  obtain ⟨piece, inside, rfl⟩ := List.mem_map.mp mem
  exact not_mem_of_mem_cut inside ((dropEndWhile_prefix_self _ piece).subset lineFeed)

theorem not_isSignificant_nil : ¬ IsSignificant [] := by
  rintro (⟨p, text⟩ | ⟨p, text⟩)
  · obtain ⟨c, rest, whole, -⟩ := p.exists_letter
    rw [text] at whole
    cases whole
  · obtain ⟨c, rest, whole, -⟩ := p.exists_first
    rw [text] at whole
    cases whole

open Classical in
/-- The lines that matter of two texts, one below the other. -/
theorem significantLines_append (first second : String) :
    significantLines (first ++ "\n" ++ second) =
      significantLines first ++ significantLines second := by
  obtain ⟨last, blank, whole⟩ := exists_linesOf first
  have both : linesOf (first ++ "\n" ++ second) = (linesOf first ++ last) ++ linesOf second := by
    have text : (first ++ "\n" ++ second).toList = first.toList ++ '\n' :: second.toList := by simp
    have once : (cut '\n' first.toList).map (dropEndWhile (· = '\r') ∘ dropLastIf '\r') =
        (cut '\n' first.toList).map (dropEndWhile (· = '\r')) :=
      List.map_congr_left fun piece _ => dropEndWhile_dropLastIf rfl piece
    rw [linesOf, text, lines_append_lineFeed, List.map_append, List.map_map, once, whole]
    rfl
  have nothing : ∀ line ∈ last, ¬ IsSignificant line := by
    rcases blank with rfl | rfl
    · exact fun line mem => absurd mem List.not_mem_nil
    · intro line mem
      rw [List.mem_singleton.mp mem]
      exact not_isSignificant_nil
  have none_ : last.filter (fun line => IsSignificant line) = [] :=
    List.filter_eq_nil_iff.mpr (by simpa using nothing)
  unfold significantLines
  rw [both, List.filter_append, List.filter_append, none_, List.append_nil]

open Classical in
/-- Other lines change nothing. -/
theorem collect_filter (base : Path) {xs : List (List Char)} (plain : ∀ line ∈ xs, '\n' ∉ line)
    (waiting : Option Header) :
    collect base waiting xs =
      collect base waiting (xs.filter fun line => IsSignificant line) := by
  induction xs generalizing waiting with
  | nil => rfl
  | cons line xs ih =>
    have ih := ih fun line mem => plain line (List.mem_cons_of_mem _ mem)
    rw [collect_cons]
    by_cases significant : IsSignificant line
    · rw [List.filter_cons_of_pos (by simpa using significant), collect_cons, ih]
    · have plain := plain line List.mem_cons_self
      rw [List.filter_cons_of_neg (by simpa using significant),
        nextHeader_of_insignificant plain significant, foundAt_of_insignificant plain significant,
        ih]
      rfl

theorem parse_eq_collect (text : String) (base : Path) :
    Dialect.rustc.parse text base = collect base none (significantLines text) :=
  collect_filter base (not_mem_linesOf text) none

theorem plain_of_mem_significantLines {text : String} {line : List Char}
    (mem : line ∈ significantLines text) : '\n' ∉ line ∧ IsSignificant line := by
  obtain ⟨mem, significant⟩ := List.mem_filter.mp mem
  exact ⟨not_mem_linesOf text line mem, by simpa using significant⟩

open Classical in
theorem head?_significantLines {text : String} {line : List Char} {rest : List (List Char)}
    (whole : linesOf text = line :: rest) (significant : IsSignificant line) :
    (significantLines text).head? = some line := by
  rw [significantLines, whole, List.filter_cons_of_pos (by simpa using significant)]
  rfl

/-- Below a location no header waits. -/
theorem waitingAfter_significantLines {text : String}
    (last : ∀ line ∈ (significantLines text).getLast?, ¬ IsHeader line) :
    waitingAfter (significantLines text) none = none := by
  rcases List.eq_nil_or_concat (significantLines text) with nothing | ⟨before, line, whole⟩
  · rw [nothing]
    rfl
  · have mem : line ∈ significantLines text := by
      rw [whole, List.concat_eq_append]
      exact List.mem_append_right _ List.mem_cons_self
    obtain ⟨plain, significant⟩ := plain_of_mem_significantLines mem
    rw [whole, List.concat_eq_append] at last ⊢
    have location := significant.resolve_left (last line List.getLast?_concat)
    rw [waitingAfter_concat, nextHeader_of_location plain location]

/-- Above a header it does not matter what waits. -/
theorem collect_significantLines {text : String}
    (first : ∀ line ∈ (significantLines text).head?, ¬ IsLocation line) (base : Path)
    (waiting : Option Header) :
    collect base waiting (significantLines text) = collect base none (significantLines text) := by
  cases whole : significantLines text with
  | nil => rfl
  | cons line rest =>
    obtain ⟨plain, significant⟩ :=
      plain_of_mem_significantLines (whole ▸ List.mem_cons_self : line ∈ significantLines text)
    have header := significant.resolve_right (first line (by rw [whole]; rfl))
    obtain ⟨header_, read⟩ :=
      Option.isSome_iff_exists.mp ((isSome_readHeader?_iff plain).mpr header)
    have next (waiting : Option Header) : nextHeader waiting line = some header_ := by
      rw [nextHeader, read]
    rw [collect_cons, collect_cons, foundAt_of_header plain header, foundAt_of_header plain header,
      next, next]

end Rustc

end BuildSupervisor
