import BuildSupervisor.Path.Basic
import BuildSupervisor.Proofs.Text.Cut
/-!
# Spellings of a path

A path may be written with more slashes and with more pieces `.` than it needs.  `Path.Respelled`
says which octets may come and go; two paths are spellings of one another exactly if they take the
same steps (`respelled_iff`).

Every component but the anchor is a piece between slashes.  `Path.steps` reads the pieces of octets
wherever they stand, so that a path may be taken apart at any slash (`components_append_slash`).
-/

namespace BuildSupervisor.Path

open Text

/-- The steps that octets take, wherever they start from. -/
def steps (octets : Bytes) : List Component :=
  (cut slash octets).filterMap pieceComponent?

variable {p q : Path} {front rest piece : Bytes} {pieces : List Bytes}

/-! ### Pieces -/

theorem isIdle_iff : isIdle piece = true ↔ piece = [] ∨ piece = [dot] := by
  unfold isIdle pieceComponent?
  split
  · next idle => simp only [Option.isNone_none, idle]
  · next other => split <;> simp only [Option.isNone_some, Bool.false_eq_true, other]

theorem pieceComponent?_eq_none_iff : pieceComponent? piece = none ↔ isIdle piece = true :=
  Option.isNone_iff_eq_none.symm

theorem filterMap_idle (idle : ∀ piece ∈ pieces, isIdle piece = true) :
    pieces.filterMap pieceComponent? = [] :=
  List.filterMap_eq_nil_iff.mpr fun piece mem => pieceComponent?_eq_none_iff.mpr (idle piece mem)

theorem steps_append_slash (front rest : Bytes) :
    steps (front ++ slash :: rest) = steps front ++ steps rest := by
  rw [steps, cut_append_cons, List.filterMap_append]
  rfl

@[simp]
theorem steps_nil : steps [] = [] := rfl

@[simp]
theorem steps_dot : steps [dot] = [] := rfl

@[simp]
theorem steps_slash (rest : Bytes) : steps (slash :: rest) = steps rest :=
  steps_append_slash [] rest

theorem steps_dot_slash (rest : Bytes) : steps (dot :: slash :: rest) = steps rest :=
  steps_append_slash [dot] rest

/-! ### The anchor and the steps -/

/-- An anchor takes no step. -/
theorem filterMap_split (p : Path) : p.split.2.filterMap pieceComponent? = steps p.octets := by
  obtain ⟨octets⟩ := p
  match octets with
  | [] => rfl
  | [a] =>
    by_cases root : a = slash
    · rw [root]
      rfl
    · by_cases here : a = dot
      · rw [here]
        rfl
      · have whole : cut slash [a] = [[a]] := by simp only [cut, root, if_false]
        simp only [split, root, here, if_false, steps, whole]
  | a :: b :: octets =>
    by_cases root : a = slash
    · simp only [split, root, if_true, steps_slash]
      rfl
    · by_cases here : a = dot ∧ b = slash
      · simp only [split, here, and_self, if_true, steps_dot_slash]
        exact steps_slash octets
      · simp only [split, root, here, if_false]
        rfl

theorem components_eq (p : Path) : p.components = p.split.1.components ++ steps p.octets := by
  rw [components, filterMap_split]

/-- Behind a slash, nothing is said of where a path starts. -/
theorem anchor_append_slash (front rest : Bytes) :
    (split ⟨front ++ slash :: rest⟩).1 = (split ⟨front ++ [slash]⟩).1 := by
  match front with
  | [] =>
    cases rest with
    | nil => rfl
    | cons b rest => simp only [List.nil_append, split, if_true]
  | [a] =>
    simp only [List.singleton_append, split]
    split
    · rfl
    · split <;> rfl
  | a :: b :: front =>
    simp only [List.cons_append, split]
    split
    · rfl
    · split <;> rfl

/-- A path may be read on from any slash. -/
theorem components_append_slash (front rest : Bytes) :
    components ⟨front ++ slash :: rest⟩ = components ⟨front ++ [slash]⟩ ++ steps rest := by
  rw [components_eq, components_eq, anchor_append_slash]
  simp only [steps_append_slash, steps_nil, List.append_nil, List.append_assoc]

/-- A slash at the end takes no step, unless it is the root. -/
theorem components_append_lastSlash (some_ : front ≠ []) :
    components ⟨front ++ [slash]⟩ = components ⟨front⟩ := by
  have anchor : (split ⟨front ++ [slash]⟩).1 = (split ⟨front⟩).1 := by
    match front with
    | [] => exact absurd rfl some_
    | [a] =>
      simp only [List.singleton_append, split, and_true]
      split
      · rfl
      · split <;> rfl
    | a :: b :: front =>
      simp only [List.cons_append, split]
      split
      · rfl
      · split <;> rfl
  rw [components_eq, components_eq, anchor, steps_append_slash, steps_nil, List.append_nil]

/-! ### How a path starts -/

theorem components_root (rest : Bytes) : components ⟨slash :: rest⟩ = .root :: steps rest :=
  components_append_slash [] rest

theorem components_here (rest : Bytes) :
    components ⟨dot :: slash :: rest⟩ = .current :: steps rest :=
  components_append_slash [dot] rest

/-- A path that starts with a step has no anchor. -/
theorem components_of_step (whole : cut slash p.octets = piece :: pieces)
    (step : isIdle piece = false) : p.components = steps p.octets := by
  have none_ : p.split.1 = .none := by
    have first : isIdle ((cut slash p.octets).headD []) = false := by rw [whole]; exact step
    obtain ⟨octets⟩ := p
    match octets with
    | [] => rfl
    | [a] =>
      have root : a ≠ slash := by rintro rfl; cases first
      have here : a ≠ dot := by rintro rfl; cases first
      simp only [split, root, here, if_false]
    | a :: b :: octets =>
      have root : a ≠ slash := by rintro rfl; cases first
      have here : ¬ (a = dot ∧ b = slash) := by rintro ⟨rfl, rfl⟩; cases first
      simp only [split, root, here, if_false]
  rw [components_eq, none_]
  rfl

/-- Octets start at the root, here, or with a step. -/
theorem start_cases (octets : Bytes) :
    octets = [] ∨ (∃ rest, octets = slash :: rest) ∨ octets = [dot] ∨
      (∃ rest, octets = dot :: slash :: rest) ∨
      ∃ piece pieces, cut slash octets = piece :: pieces ∧ isIdle piece = false := by
  obtain ⟨piece, pieces, whole⟩ := List.exists_cons_of_ne_nil (cut_ne_nil slash octets)
  have spelt := join_cut slash octets
  rw [whole] at spelt
  cases idle : isIdle piece with
  | false => exact .inr (.inr (.inr (.inr ⟨piece, pieces, whole, idle⟩)))
  | true =>
    rcases isIdle_iff.mp idle with rfl | rfl
    · cases pieces with
      | nil => exact .inl spelt.symm
      | cons next pieces => exact .inr (.inl ⟨_, spelt.symm⟩)
    · cases pieces with
      | nil => exact .inr (.inr (.inl spelt.symm))
      | cons next pieces => exact .inr (.inr (.inr (.inl ⟨_, spelt.symm⟩)))

/-- Only a path without octets goes nowhere. -/
theorem components_eq_nil_iff : p.components = [] ↔ p.octets = [] := by
  obtain ⟨octets⟩ := p
  constructor
  · intro nowhere
    rcases start_cases octets with
      empty | ⟨rest, rfl⟩ | rfl | ⟨rest, rfl⟩ | ⟨piece, pieces, whole, step⟩
    · exact empty
    · rw [components_root] at nowhere
      cases nowhere
    · cases nowhere
    · rw [components_here] at nowhere
      cases nowhere
    · rw [components_of_step whole step, steps, List.filterMap_eq_nil_iff] at nowhere
      have idle := pieceComponent?_eq_none_iff.mp (nowhere piece (whole ▸ List.mem_cons_self))
      rw [step] at idle
      cases idle
  · rintro rfl
    rfl

/-! ### Spellings -/

/-- Two spellings of one path: a slash behind a slash says nothing, nor does a `.` between slashes
    or behind the last one, nor a slash at the end. -/
inductive Respelled : Path → Path → Prop
  | slash (front rest : Bytes) :
    Respelled ⟨front ++ slash :: slash :: rest⟩ ⟨front ++ slash :: rest⟩
  | here (front rest : Bytes) :
    Respelled ⟨front ++ slash :: dot :: slash :: rest⟩ ⟨front ++ slash :: rest⟩
  | lastHere (front : Bytes) : Respelled ⟨front ++ [slash, dot]⟩ ⟨front ++ [slash]⟩
  | lastSlash {front : Bytes} (some_ : front ≠ []) : Respelled ⟨front ++ [slash]⟩ ⟨front⟩
  | refl (p : Path) : Respelled p p
  | symm {p q : Path} : Respelled p q → Respelled q p
  | trans {p q r : Path} : Respelled p q → Respelled q r → Respelled p r

theorem Respelled.components_eq (h : Respelled p q) : p.components = q.components := by
  induction h with
  | slash front rest =>
    rw [components_append_slash, components_append_slash front rest, steps_slash]
  | here front rest =>
    rw [components_append_slash, components_append_slash front rest, steps_dot_slash]
  | lastHere front =>
    rw [components_append_slash, steps_dot, List.append_nil]
  | lastSlash some_ => exact components_append_lastSlash some_
  | refl p => rfl
  | symm _ ih => exact ih.symm
  | trans _ _ first second => exact first.trans second

/-! ### The plainest spelling -/

/-- The pieces, each behind a slash. -/
def behindSlashes (pieces : List Bytes) : Bytes :=
  (pieces.map (slash :: ·)).flatten

/-- The pieces that take a step. -/
def dropIdle (pieces : List Bytes) : List Bytes :=
  pieces.filter fun piece => !isIdle piece

theorem dropIdle_idle (idle : isIdle piece = true) (pieces : List Bytes) :
    dropIdle (piece :: pieces) = dropIdle pieces := by
  simp only [dropIdle, List.filter_cons, idle, Bool.not_true, Bool.false_eq_true, if_false]

theorem dropIdle_step (step : isIdle piece = false) (pieces : List Bytes) :
    dropIdle (piece :: pieces) = piece :: dropIdle pieces := by
  simp only [dropIdle, List.filter_cons, step, Bool.not_false, if_true]

theorem joinPieces_cons (piece : Bytes) (pieces : List Bytes) :
    joinPieces (piece :: pieces) = piece ++ behindSlashes pieces := by
  induction pieces generalizing piece with
  | nil => exact (List.append_nil piece).symm
  | cons next pieces ih =>
    have more : joinPieces (piece :: next :: pieces) = piece ++ [slash] ++ joinPieces (next :: pieces) :=
      rfl
    rw [more, ih, List.append_assoc]
    rfl

/-- An idle piece behind a slash may go. -/
theorem respelled_idle (some_ : front ≠ []) (idle : isIdle piece = true) (pieces : List Bytes) :
    Respelled ⟨front ++ behindSlashes (piece :: pieces)⟩ ⟨front ++ behindSlashes pieces⟩ := by
  cases pieces with
  | nil =>
    have last : Respelled ⟨front ++ [slash]⟩ ⟨front ++ behindSlashes []⟩ := by
      rw [behindSlashes, List.map_nil, List.flatten_nil, List.append_nil]
      exact .lastSlash some_
    rcases isIdle_iff.mp idle with rfl | rfl
    · exact last
    · exact (Respelled.lastHere front).trans last
  | cons next pieces =>
    rcases isIdle_iff.mp idle with rfl | rfl
    · exact .slash front (next ++ behindSlashes pieces)
    · exact .here front (next ++ behindSlashes pieces)

theorem respelled_dropIdle (some_ : front ≠ []) (pieces : List Bytes) :
    Respelled ⟨front ++ behindSlashes pieces⟩ ⟨front ++ behindSlashes (dropIdle pieces)⟩ := by
  -- A piece that stays becomes part of `front`.
  induction pieces generalizing front with
  | nil => exact .refl _
  | cons piece pieces ih =>
    cases idle : isIdle piece with
    | true =>
      rw [dropIdle_idle idle]
      exact (respelled_idle some_ idle pieces).trans (ih some_)
    | false =>
      have further := ih (List.append_ne_nil_of_left_ne_nil some_ (slash :: piece))
      rw [List.append_assoc, List.append_assoc] at further
      rw [dropIdle_step idle]
      exact further

/-- At the root, the slash before the first step stays. -/
theorem respelled_root (pieces : List Bytes) :
    Respelled ⟨slash :: joinPieces pieces⟩ ⟨slash :: joinPieces (dropIdle pieces)⟩ := by
  induction pieces with
  | nil => exact .refl _
  | cons piece pieces ih =>
    cases idle : isIdle piece with
    | true =>
      rw [dropIdle_idle idle]
      refine .trans ?_ ih
      cases pieces with
      | nil =>
        rcases isIdle_iff.mp idle with rfl | rfl
        · exact .refl _
        · exact .lastHere []
      | cons next pieces =>
        rcases isIdle_iff.mp idle with rfl | rfl
        · exact .slash [] (joinPieces (next :: pieces))
        · exact .here [] (joinPieces (next :: pieces))
    | false =>
      rw [dropIdle_step idle, joinPieces_cons, joinPieces_cons]
      exact respelled_dropIdle (List.cons_ne_nil slash piece) pieces

/-- The octets that a component is written with. -/
def Component.octets : Component → Bytes
  | .root => [slash]
  | .current => [dot]
  | .parent => [dot, dot]
  | .name octets => octets

theorem octets_of_pieceComponent? {c : Component} (h : pieceComponent? piece = some c) :
    c.octets = piece := by
  unfold pieceComponent? at h
  split at h
  · cases h
  · split at h
    · next parent =>
      cases h
      exact parent.symm
    · cases h
      rfl

/-- No piece is the root. -/
theorem ne_root_of_pieceComponent? {c : Component} (h : pieceComponent? piece = some c) :
    c ≠ .root := by
  rintro rfl
  unfold pieceComponent? at h
  split at h
  · cases h
  · split at h <;> cases h

theorem map_octets_filterMap (pieces : List Bytes) :
    (pieces.filterMap pieceComponent?).map Component.octets = dropIdle pieces := by
  induction pieces with
  | nil => rfl
  | cons piece pieces ih =>
    cases found : pieceComponent? piece with
    | none =>
      rw [List.filterMap_cons_none found, ih, dropIdle_idle (pieceComponent?_eq_none_iff.mp found)]
    | some c =>
      have step : isIdle piece = false := by rw [isIdle, found]; rfl
      rw [List.filterMap_cons_some found, List.map_cons, ih, octets_of_pieceComponent? found,
        dropIdle_step step]

/-- The octets of a path that takes these steps, and no more octets than it needs. -/
def written : List Component → Bytes
  | .root :: cs => slash :: joinPieces (cs.map Component.octets)
  | cs => joinPieces (cs.map Component.octets)

theorem written_of_ne_root {c : Component} (h : c ≠ .root) (cs : List Component) :
    written (c :: cs) = joinPieces ((c :: cs).map Component.octets) := by
  cases c with
  | root => exact absurd rfl h
  | _ => rfl

/-- The steps of a path, plainly written, are a spelling of it. -/
theorem respelled_written (p : Path) : Respelled p ⟨written p.components⟩ := by
  obtain ⟨octets⟩ := p
  rcases start_cases octets with
    rfl | ⟨rest, rfl⟩ | rfl | ⟨rest, rfl⟩ | ⟨piece, pieces, whole, step⟩
  · exact .refl _
  · have plain := respelled_root (cut slash rest)
    rw [joinPieces, join_cut, ← map_octets_filterMap] at plain
    rw [components_root]
    exact plain
  · exact .refl _
  · have plain := respelled_dropIdle (List.cons_ne_nil dot []) (cut slash rest)
    rw [← joinPieces_cons, ← joinPieces_cons, ← map_octets_filterMap] at plain
    have spelt : [dot] :: cut slash rest = cut slash (dot :: slash :: rest) := rfl
    rw [spelt, joinPieces, join_cut] at plain
    rw [components_here, written_of_ne_root (by decide)]
    exact plain
  · have some_ : piece ≠ [] := by rintro rfl; cases step
    have plain := respelled_dropIdle some_ pieces
    rw [← joinPieces_cons, ← joinPieces_cons, ← dropIdle_step step, ← map_octets_filterMap,
      ← whole, joinPieces, join_cut] at plain
    have stepped : isIdle piece ≠ true := by rw [step]; decide
    obtain ⟨c, found⟩ := Option.ne_none_iff_exists'.mp (mt pieceComponent?_eq_none_iff.mp stepped)
    rw [components_of_step whole step, steps, whole, List.filterMap_cons_some found,
      written_of_ne_root (ne_root_of_pieceComponent? found)]
    rw [whole, List.filterMap_cons_some found] at plain
    exact plain

/-- Two paths are spellings of one another exactly if they take the same steps. -/
theorem respelled_iff : Respelled p q ↔ p.components = q.components := by
  constructor
  · exact Respelled.components_eq
  · intro same
    have first := respelled_written p
    rw [same] at first
    exact first.trans (respelled_written q).symm

end BuildSupervisor.Path
