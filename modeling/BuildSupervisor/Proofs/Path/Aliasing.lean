import BuildSupervisor.Path.Display
import BuildSupervisor.Proofs.Path.Remainder
import BuildSupervisor.Proofs.Text.LineFeed
/-!
# Paths below the home directory

A path is shown with `~` for the home directory if it takes all the steps of the home directory
first.  Whether it does is a matter of steps (`Path.standing`), so that no spelling changes it, while
what is shown behind `~` stands in the path as it is written.  `Path.aliased` says both, and that
nothing is lost: with the home directory for `~`, what is shown is a spelling of the path.
-/

namespace BuildSupervisor

namespace Path

/-- Where a path lies, seen from a home directory. -/
inductive Standing where
  | outside
  | home
  | below
  deriving DecidableEq, Repr

/-- A path lies below a home directory if it goes on behind the steps of that.  A directory without
    octets is no home directory. -/
def standing (p : Path) (home : Option Path) : Standing :=
  match home with
  | none => .outside
  | some dir =>
    if dir.octets = [] ∨ ¬ dir.components <+: p.components then .outside
    else if p.components = dir.components then .home
    else .below

variable {p q dir rest : Path} {home home' : Option Path} {more : List Component}

/-! ### Standings -/

theorem standing_of_append (some_ : dir.octets ≠ []) (whole : p.components = dir.components ++ more) :
    p.standing (some dir) = if more = [] then .home else .below := by
  have first : dir.components <+: p.components := ⟨more, whole.symm⟩
  have same : p.components = dir.components ↔ more = [] := by
    rw [whole, List.append_right_eq_self]
  simp only [standing, some_, first, not_true_eq_false, or_self, if_false, same]

theorem exists_of_inside (h : p.standing home ≠ .outside) :
    ∃ dir more, home = some dir ∧ dir.octets ≠ [] ∧ p.components = dir.components ++ more := by
  cases home with
  | none => exact absurd rfl h
  | some dir =>
    have inside : ¬ (dir.octets = [] ∨ ¬ dir.components <+: p.components) :=
      fun out => h (if_pos out)
    obtain ⟨some_, first⟩ := not_or.mp inside
    obtain ⟨more, whole⟩ := Classical.not_not.mp first
    exact ⟨dir, more, rfl, some_, whole.symm⟩

theorem standing_eq_outside_iff :
    p.standing home = .outside ↔
      ∀ dir, home = some dir → dir.octets = [] ∨ ¬ dir.components <+: p.components := by
  constructor
  · rintro h dir rfl
    refine Classical.byContradiction fun inside => ?_
    obtain ⟨some_, first⟩ := not_or.mp inside
    obtain ⟨more, whole⟩ := Classical.not_not.mp first
    rw [standing_of_append some_ whole.symm] at h
    split at h <;> cases h
  · intro h
    refine Classical.byContradiction fun inside => ?_
    obtain ⟨dir, more, rfl, some_, whole⟩ := exists_of_inside inside
    rcases h dir rfl with none_ | other
    · exact some_ none_
    · exact other ⟨more, whole.symm⟩

theorem exists_of_standing_home (h : p.standing home = .home) :
    ∃ dir, home = some dir ∧ dir.octets ≠ [] ∧ p.components = dir.components := by
  have inside : p.standing home ≠ .outside := by rw [h]; decide
  obtain ⟨dir, more, rfl, some_, whole⟩ := exists_of_inside inside
  rw [standing_of_append some_ whole] at h
  split at h
  · next none_ => exact ⟨dir, rfl, some_, by rw [whole, none_, List.append_nil]⟩
  · cases h

theorem exists_of_standing_below (h : p.standing home = .below) :
    ∃ dir more, home = some dir ∧ dir.octets ≠ [] ∧ more ≠ [] ∧
      p.components = dir.components ++ more := by
  have inside : p.standing home ≠ .outside := by rw [h]; decide
  obtain ⟨dir, more, rfl, some_, whole⟩ := exists_of_inside inside
  rw [standing_of_append some_ whole] at h
  split at h
  · cases h
  · next goes => exact ⟨dir, more, rfl, some_, goes, whole⟩

/-- Where a path lies is a matter of steps. -/
theorem standing_of_respelled (path : Respelled p q) (home_ : Option.Rel Respelled home home') :
    p.standing home = q.standing home' := by
  cases home_ with
  | none => rfl
  | @some dir dir' spelt =>
    have steps_ := respelled_iff.mp path
    have steps' := respelled_iff.mp spelt
    have empty : dir.octets = [] ↔ dir'.octets = [] := by
      rw [← components_eq_nil_iff, steps', components_eq_nil_iff]
    simp only [standing, empty, steps_, steps']

/-! ### What is shown -/

theorem shown_of_outside (h : p.standing home = .outside) : p.shown home = p.text := by
  cases home with
  | none => rfl
  | some dir =>
    simp only [shown, isEmpty, List.isEmpty_iff]
    by_cases none_ : dir.octets = []
    · rw [if_pos none_]
    · rw [if_neg none_]
      cases stripped : p.strip? dir with
      | none => rfl
      | some rest =>
        have inside := isPrefix_of_strip? stripped none_
        exact absurd inside ((standing_eq_outside_iff.mp h dir rfl).resolve_left none_)

theorem shown_of_strip? (some_ : dir.octets ≠ []) (h : p.strip? dir = some rest) :
    p.shown (some dir) = if rest.octets = [] then "~" else "~/" ++ forwardSlashes rest.text := by
  simp only [shown, isEmpty, List.isEmpty_iff, if_neg some_, h]

theorem shown_of_isRemainder (some_ : dir.octets ≠ []) (h : IsRemainder p dir rest) :
    p.shown (some dir) = "~/" ++ forwardSlashes rest.text := by
  rw [shown_of_strip? some_ (strip?_of_isRemainder h), if_neg h.tight.some_]

theorem forwardSlashes_of_not_mem {text : String} (absent : '\\' ∉ text.toList) :
    forwardSlashes text = text := by
  have same : ∀ c ∈ text.toList, (if c = '\\' then '/' else c) = id c :=
    fun c mem => if_neg fun (back : c = '\\') => absent (back ▸ mem)
  rw [forwardSlashes, List.map_congr_left same, List.map_id, String.ofList_toList]

/-! ### What is lost -/

/-- What is left of a text is a text. -/
theorem IsRemainder.exists_text {text : String} (h : IsRemainder (ofText text) dir rest) :
    ∃ part, rest = ofText part ∧ part.toList ⊆ text.toList := by
  have ascii : slash.toNat < 128 := by decide
  obtain ⟨front, back, whole, -, ends_⟩ := h.stands
  obtain ⟨before, after, split, -, behind⟩ := Utf8.encodeChars_eq_append_cons ascii whole
  have after_ : after ⊆ text.toList := by
    rw [split]
    exact fun c mem => List.mem_append_right _ (List.mem_cons_of_mem _ mem)
  rcases ends_ with rfl | ⟨back, rfl⟩
  · refine ⟨String.ofList after, ?_, by rwa [String.toList_ofList]⟩
    rw [List.append_nil] at behind
    rw [ofText, Utf8.encode, String.toList_ofList, ← behind]
  · obtain ⟨part, others, rfl, part_, -⟩ := Utf8.encodeChars_eq_append_cons ascii behind.symm
    refine ⟨String.ofList part, ?_, ?_⟩
    · rw [ofText, Utf8.encode, String.toList_ofList, ← part_]
    · rw [String.toList_ofList]
      exact fun c mem => after_ (List.mem_append_left _ mem)

theorem encode_slash_append (text : String) :
    Utf8.encode ("/" ++ text) = slash :: Utf8.encode text := by
  rw [Utf8.encode, String.toList_append]
  rfl

/-- A directory and what is left behind it take the steps of the path. -/
theorem IsRemainder.components_append (h : IsRemainder p dir rest) (some_ : dir.octets ≠ []) :
    components ⟨dir.octets ++ slash :: rest.octets⟩ = p.components := by
  rw [components_append_slash, components_append_lastSlash some_, h.steps, h.tight.components_eq]

/-! ### The whole of it -/

/-- What is said of a path that is shown beside a home directory. -/
structure Aliased (p : Path) (home : Option Path) : Prop where
  outside : p.standing home = .outside → p.shown home = p.text
  atHome : p.standing home = .home → p.shown home = "~"
  /-- What is left behind the home directory is shown as it is written. -/
  below : p.standing home = .below → ∃ dir rest, home = some dir ∧ IsRemainder p dir rest ∧
    (∀ other, IsRemainder p dir other → other = rest) ∧
    p.shown home = "~/" ++ forwardSlashes rest.text
  /-- With the home directory for `~`, what is shown takes the steps of the path again. -/
  lossless : p.standing home = .below → ∀ text, p = ofText text → '\\' ∉ text.toList →
    ∃ dir tail, home = some dir ∧ p.shown home = "~" ++ tail ∧
      components ⟨dir.octets ++ Utf8.encode tail⟩ = p.components
  respelled : ∀ q home', Respelled p q → Option.Rel Respelled home home' →
    p.standing home = q.standing home'
  /-- A name that only begins like the last component of the home directory is another one. -/
  sibling : ∀ dir around last extra more, home = some dir → dir.components = around ++ [last] →
    p.components = around ++ .name (last.octets ++ extra) :: more → extra ≠ [] →
    p.shown home = p.text

theorem aliased (p : Path) (home : Option Path) : Aliased p home where
  outside := shown_of_outside
  atHome h := by
    obtain ⟨dir, rfl, some_, same⟩ := exists_of_standing_home h
    rw [shown_of_strip? some_ (strip?_of_components_eq same), if_pos rfl]
  below h := by
    obtain ⟨dir, more, rfl, some_, goes, whole⟩ := exists_of_standing_below h
    obtain ⟨rest, left⟩ := exists_isRemainder whole some_ goes
    refine ⟨dir, rest, rfl, left, fun other left' => ?_, shown_of_isRemainder some_ left⟩
    have stripped := strip?_of_isRemainder left'
    rw [strip?_of_isRemainder left] at stripped
    exact (Option.some_inj.mp stripped).symm
  lossless h text textual plain := by
    subst textual
    obtain ⟨dir, more, rfl, some_, goes, whole⟩ := exists_of_standing_below h
    obtain ⟨rest, left⟩ := exists_isRemainder whole some_ goes
    obtain ⟨part, rfl, part_⟩ := left.exists_text
    refine ⟨dir, "/" ++ part, rfl, ?_, ?_⟩
    · rw [shown_of_isRemainder some_ left, text_ofText,
        forwardSlashes_of_not_mem fun mem => plain (part_ mem), ← String.append_assoc]
      rfl
    · rw [encode_slash_append]
      exact left.components_append some_
  respelled _ _ := standing_of_respelled
  sibling dir around last extra more some_ ends_ there longer := by
    subst some_
    refine shown_of_outside (standing_eq_outside_iff.mpr fun dir' same => .inr ?_)
    cases same
    rintro ⟨others, whole⟩
    rw [ends_, there, List.append_assoc, List.append_cancel_left_eq] at whole
    obtain ⟨same, -⟩ := List.cons.inj whole
    cases last with
    | name octets =>
      rw [Component.octets, Component.name.injEq] at same
      exact longer (List.append_right_eq_self.mp same.symm)
    | _ => cases same

/-- A home directory with more slashes than it needs. -/
def spelledHome : Path :=
  .ofText "/home//dev/"

/-- A target below it, in another spelling. -/
def spelledTarget : Path :=
  .ofText "/home/./dev//src//x.c/."

/-- A target beside it. -/
def siblingTarget : Path :=
  .ofText "/home/developer/x.c"

theorem spelledTarget_aliased :
    spelledTarget.standing (some spelledHome) = .below ∧
      IsRemainder spelledTarget spelledHome (.ofText "src//x.c") ∧
      spelledTarget.shown (some spelledHome) = "~/src//x.c" ∧
      components ⟨spelledHome.octets ++ Utf8.encode "/src//x.c"⟩ = spelledTarget.components ∧
      siblingTarget.shown (some spelledHome) = "/home/developer/x.c" := by
  have below : spelledTarget.standing (some spelledHome) = .below := by decide +kernel
  have left : IsRemainder spelledTarget spelledHome (.ofText "src//x.c") :=
    ⟨⟨Utf8.encode "/home/./dev/", Utf8.encode "/.", by decide +kernel, by decide +kernel,
        .inr (by decide +kernel)⟩,
      ⟨by decide +kernel, by decide +kernel, by decide +kernel, by decide +kernel,
        by decide +kernel, by decide +kernel⟩,
      by decide +kernel⟩
  have all := aliased spelledTarget (some spelledHome)
  obtain ⟨dir, rest, same, -, only, shown_⟩ := all.below below
  cases same
  obtain rfl := only _ left
  have shown : spelledTarget.shown (some spelledHome) = "~/src//x.c" := by
    rw [shown_]
    decide +kernel
  obtain ⟨dir, tail, same, shown', back⟩ :=
    all.lossless below "/home/./dev//src//x.c/." rfl (by decide +kernel)
  cases same
  have tail_ : tail = "/src//x.c" :=
    (String.append_right_inj "~").mp (shown'.symm.trans shown)
  rw [tail_] at back
  refine ⟨below, left, shown, back, ?_⟩
  have apart := (aliased siblingTarget (some spelledHome)).sibling spelledHome
    [.root, .name (Utf8.encode "home")] (.name (Utf8.encode "dev")) (Utf8.encode "eloper")
    [.name (Utf8.encode "x.c")] rfl (by decide +kernel) (by decide +kernel) (by decide +kernel)
  rw [apart]
  exact text_ofText _

end Path

end BuildSupervisor
