import BuildSupervisor.Diagnostic.Dialect
import BuildSupervisor.Proofs.Text.Cut
/-!
# Blank lines among diagnostics

A blank line is no diagnostic, no header and no location, so that both dialects read the same out of
a text whether it is there or not; `Dialect.parse_blankLine` says so.
-/

namespace BuildSupervisor

namespace Text

/-- The lines of two texts with a line feed between them; all lines of the first one are ended. -/
theorem lines_append_lineFeed (xs ys : List Char) :
    lines (xs ++ '\n' :: ys) = (cut '\n' xs).map (dropLastIf '\r') ++ lines ys := by
  rw [lines, cut_append_cons, terminated_append _ _ (cut_ne_nil _ _), lines]

/-- A second line feed makes one line more, and that is blank. -/
theorem lines_blankLine (xs ys : List Char) :
    ∃ before after, lines (xs ++ '\n' :: ys) = before ++ after ∧
      lines (xs ++ '\n' :: '\n' :: ys) = before ++ [] :: after := by
  refine ⟨(cut '\n' xs).map (dropLastIf '\r'), lines ys, lines_append_lineFeed xs ys, ?_⟩
  rw [lines_append_lineFeed, show '\n' :: ys = [] ++ '\n' :: ys from rfl, lines_append_lineFeed]
  rfl

end Text

/-- A header goes on waiting for its location over a blank line. -/
theorem Rustc.collect_blank (base : Path) (waiting : Option Header) (before after : List (List Char)) :
    collect base waiting (before ++ [] :: after) = collect base waiting (before ++ after) := by
  induction before generalizing waiting with
  | nil => rfl
  | cons line before ih =>
    simp only [List.cons_append, collect, ih]

/-- Both dialects read the same out of two texts whether there is a blank line between them or
    not. -/
theorem Dialect.parse_blankLine (dialect : Dialect) (first second : String) (base : Path) :
    dialect.parse (first ++ "\n" ++ "\n" ++ second) base =
      dialect.parse (first ++ "\n" ++ second) base := by
  obtain ⟨before, after, without, with_⟩ :=
    Text.lines_blankLine first.toList second.toList
  have one : (first ++ "\n" ++ second).toList = first.toList ++ '\n' :: second.toList := by simp
  have two : (first ++ "\n" ++ "\n" ++ second).toList =
      first.toList ++ '\n' :: '\n' :: second.toList := by simp
  unfold parse
  rw [one, two, without, with_]
  cases dialect with
  | gcc => simp only [List.filterMap_append]; rfl
  | rustc =>
    simp only [List.map_append, List.map_cons]
    exact Rustc.collect_blank base none _ _

end BuildSupervisor
