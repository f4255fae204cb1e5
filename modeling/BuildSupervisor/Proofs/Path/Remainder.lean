import BuildSupervisor.Proofs.Path.Spelling
import BuildSupervisor.Proofs.Text.Trimmed
/-!
# What is left of a path

`Path.IsRemainder` says without an algorithm what is left of a path behind a directory: the octets
from the first step behind those of the directory to the last one, as they are written.  There is
such a remainder as soon as there is such a step (`exists_isRemainder`), and it is what
`Path.strip?` returns (`strip?_of_isRemainder`).
-/

namespace BuildSupervisor.Path

open Text

/-- Octets with nothing to leave out at either end: no slash, and no `.` that is a piece. -/
structure IsTight (octets : Bytes) : Prop where
  some_ : octets ≠ []
  other : octets ≠ [dot]
  head : ¬ [slash] <+: octets
  headDot : ¬ [dot, slash] <+: octets
  last : ¬ [slash] <:+ octets
  lastDot : ¬ [slash, dot] <:+ octets

/-- What is left of `p` behind `base`. -/
structure IsRemainder (p base rest : Path) : Prop where
  /-- It stands in the path as it is, behind octets that take the steps of `base`. -/
  stands : ∃ front back, p.octets = front ++ slash :: (rest.octets ++ back) ∧
    components ⟨front ++ [slash]⟩ = base.components ∧ (back = [] ∨ [slash] <+: back)
  tight : IsTight rest.octets
  steps : p.components = base.components ++ rest.components

/-- Pieces that start with a step and end with one. -/
structure IsTrimmed (pieces : List Bytes) : Prop where
  some_ : pieces ≠ []
  head : ∀ piece ∈ pieces.head?, isIdle piece = false
  last : ∀ piece ∈ pieces.getLast?, isIdle piece = false

variable {p base rest : Path} {octets : Bytes} {front inner back pieces : List Bytes}
  {wanted more : List Component}

/-! ### Trimming -/

theorem trimPieces_idle_append (idle : ∀ piece ∈ front, isIdle piece = true)
    (pieces : List Bytes) : trimPieces (front ++ pieces) = trimPieces pieces := by
  rw [trimPieces, trimPieces, List.dropWhile_append_of_pos idle]

/-- Idle pieces behind trimmed ones are taken off. -/
theorem trimPieces_append_idle (trimmed : IsTrimmed inner)
    (idle : ∀ piece ∈ back, isIdle piece = true) : trimPieces (inner ++ back) = inner := by
  have starts : Stops isIdle (inner ++ back) := by
    intro piece first
    obtain ⟨next, inner, rfl⟩ := List.exists_cons_of_ne_nil trimmed.some_
    exact trimmed.head piece first
  have stops : Stops isIdle inner.reverse := by
    intro piece first
    rw [List.head?_reverse] at first
    exact trimmed.last piece first
  rw [trimPieces, dropWhile_of_stops starts, trimPiecesEnd, List.reverse_append,
    dropWhile_run (fun piece mem => idle piece (List.mem_reverse.mp mem)) stops,
    List.reverse_reverse]

/-- Where there are more steps than those wanted, trimmed pieces stand behind these. -/
theorem exists_isTrimmed (h : pieces.filterMap pieceComponent? = wanted ++ more)
    (some_ : more ≠ []) :
    ∃ front inner back, pieces = front ++ (inner ++ back) ∧
      front.filterMap pieceComponent? = wanted ∧ IsTrimmed inner ∧
      ∀ piece ∈ back, isIdle piece = true := by
  obtain ⟨taken, left, rfl, taken_, left_⟩ := List.filterMap_eq_append_iff.mp h
  obtain ⟨c, cs, rfl⟩ := List.exists_cons_of_ne_nil some_
  obtain ⟨idle, piece, others, rfl, idle_, found, -⟩ := List.filterMap_eq_cons_iff.mp left_
  have step : isIdle piece = false := by rw [isIdle, found]; rfl
  obtain ⟨back, split, back_, last⟩ := dropEndWhile_spec isIdle (piece :: others)
  have kept : dropEndWhile isIdle (piece :: others) ≠ [] := by
    intro nothing
    have all := (dropEndWhile_eq_nil_iff _ _).mp nothing piece List.mem_cons_self
    rw [step] at all
    cases all
  refine ⟨taken ++ idle, dropEndWhile isIdle (piece :: others), back, ?_, ?_,
    ⟨kept, head?_dropEndWhile (stops_cons step others), last⟩, back_⟩
  · rw [← split, List.append_assoc]
  · rw [List.filterMap_append, List.filterMap_eq_nil_iff.mpr idle_, List.append_nil, taken_]

/-! ### Tight octets -/

/-- Octets are tight if their pieces are trimmed. -/
theorem isTight_iff : IsTight octets ↔ IsTrimmed (cut slash octets) := by
  constructor
  · intro tight
    refine ⟨cut_ne_nil slash octets, ?_, ?_⟩
    · intro piece first
      rcases start_cases octets with
        empty | ⟨rest, rfl⟩ | here | ⟨rest, rfl⟩ | ⟨next, pieces, whole, step⟩
      · exact absurd empty tight.some_
      · exact absurd (List.prefix_append [slash] rest) tight.head
      · exact absurd here tight.other
      · exact absurd (List.prefix_append [dot, slash] rest) tight.headDot
      · rw [whole] at first
        cases first
        exact step
    · intro piece final
      obtain ⟨pieces, whole⟩ := List.getLast?_eq_some_iff.mp final
      have spelt := join_cut slash octets
      rw [whole] at spelt
      rw [← Bool.not_eq_true, isIdle_iff]
      cases pieces with
      | nil =>
        obtain rfl : piece = octets := spelt
        exact not_or.mpr ⟨tight.some_, tight.other⟩
      | cons next pieces =>
        rw [join_append _ (List.cons_ne_nil next pieces) (List.cons_ne_nil piece []),
          List.append_assoc] at spelt
        rintro (rfl | rfl)
        · exact tight.last ⟨_, spelt⟩
        · exact tight.lastDot ⟨_, spelt⟩
  · intro trimmed
    have last {front : Bytes} {piece : Bytes} (whole : cut slash octets = cut slash front ++ [piece]) :
        isIdle piece = false := by
      refine trimmed.last piece ?_
      rw [whole, List.getLast?_concat]
      rfl
    refine ⟨?_, ?_, ?_, ?_, ?_, ?_⟩
    · rintro rfl
      cases trimmed.head [] rfl
    · rintro rfl
      cases trimmed.head [dot] rfl
    · rintro ⟨rest, rfl⟩
      cases trimmed.head [] rfl
    · rintro ⟨rest, rfl⟩
      cases trimmed.head [dot] rfl
    · rintro ⟨front, rfl⟩
      cases last (cut_append_cons slash front [])
    · rintro ⟨front, rfl⟩
      cases last (cut_append_cons slash front [dot])

theorem IsTight.components_eq (tight : IsTight p.octets) : p.components = steps p.octets := by
  obtain ⟨piece, pieces, whole⟩ := List.exists_cons_of_ne_nil (cut_ne_nil slash p.octets)
  exact components_of_step whole ((isTight_iff.mp tight).head piece (by rw [whole]; rfl))

/-! ### Stripping -/

/-- Stripping goes over the pieces whose steps it is given, whatever is behind them. -/
theorem stripPieces_append (front pieces : List Bytes) :
    (stripPieces (front ++ pieces) (front.filterMap pieceComponent?)).map trimPieces =
      some (trimPieces pieces) := by
  induction front with
  | nil => rw [List.nil_append, List.filterMap_nil, stripPieces.eq_1, Option.map_some]
  | cons piece front ih =>
    cases found : pieceComponent? piece with
    | none =>
      rw [List.filterMap_cons_none found, List.cons_append]
      cases left : front.filterMap pieceComponent? with
      | nil =>
        have idle : ∀ other ∈ piece :: front, isIdle other = true := by
          intro other mem
          refine pieceComponent?_eq_none_iff.mp ?_
          rcases List.mem_cons.mp mem with rfl | mem
          · exact found
          · exact List.filterMap_eq_nil_iff.mp left other mem
        rw [stripPieces.eq_1, Option.map_some]
        exact congrArg some (trimPieces_idle_append idle pieces)
      | cons c wanted =>
        rw [left] at ih
        simp only [stripPieces, found]
        exact ih
    | some c =>
      rw [List.filterMap_cons_some found, List.cons_append]
      simp only [stripPieces, found, if_true]
      exact ih

/-- Only steps that come first are stripped. -/
theorem isPrefix_of_stripPieces (h : stripPieces pieces wanted = some inner) :
    wanted <+: pieces.filterMap pieceComponent? := by
  induction pieces generalizing wanted with
  | nil =>
    cases wanted with
    | nil => exact List.nil_prefix
    | cons c wanted => cases h
  | cons piece pieces ih =>
    cases wanted with
    | nil => exact List.nil_prefix
    | cons c wanted =>
      cases found : pieceComponent? piece with
      | none =>
        simp only [stripPieces, found] at h
        rw [List.filterMap_cons_none found]
        exact ih h
      | some d =>
        simp only [stripPieces, found] at h
        split at h
        · next same =>
          rw [List.filterMap_cons_some found, same]
          exact List.cons_prefix_cons.mpr ⟨rfl, ih h⟩
        · cases h

/-- Behind the anchor, stripping is a matter of pieces. -/
theorem strip?_eq (h : base.components = p.split.1.components ++ wanted) :
    p.strip? base =
      (stripPieces p.split.2 wanted).map fun left => ⟨joinPieces (trimPieces left)⟩ := by
  unfold strip?
  generalize p.split = s at h ⊢
  obtain ⟨anchor, pieces⟩ := s
  cases anchor with
  | none =>
    obtain rfl : base.components = wanted := h
    rfl
  | _ => simp only [h, Anchor.components, List.singleton_append, if_true]

/-- Nothing is stripped where the path starts from somewhere else. -/
theorem exists_of_strip? (h : p.strip? base = some rest) (some_ : base.octets ≠ []) :
    ∃ wanted, base.components = p.split.1.components ++ wanted := by
  have goes : base.components ≠ [] := mt components_eq_nil_iff.mp some_
  obtain ⟨c, wanted, whole⟩ := List.exists_cons_of_ne_nil goes
  unfold strip? at h
  generalize p.split = s at h ⊢
  obtain ⟨anchor, pieces⟩ := s
  cases anchor with
  | none => exact ⟨base.components, rfl⟩
  | _ =>
    simp only [whole, Anchor.components] at h
    split at h
    · next same => exact ⟨wanted, by rw [whole, ← same]; rfl⟩
    · cases h

/-- Only a path that starts with the steps of the directory is stripped of them. -/
theorem isPrefix_of_strip? (h : p.strip? base = some rest) (some_ : base.octets ≠ []) :
    base.components <+: p.components := by
  obtain ⟨wanted, whole⟩ := exists_of_strip? h some_
  rw [strip?_eq whole] at h
  obtain ⟨left, stripped, -⟩ := Option.map_eq_some_iff.mp h
  rw [whole]
  exact (List.prefix_append_right_inj _).mpr (isPrefix_of_stripPieces stripped)

/-- Nothing is left of a path behind itself, however it is spelt. -/
theorem strip?_of_components_eq (same : p.components = base.components) :
    p.strip? base = some ⟨[]⟩ := by
  have all := stripPieces_append p.split.2 []
  rw [List.append_nil] at all
  obtain ⟨left, stripped, nothing⟩ := Option.map_eq_some_iff.mp all
  rw [strip?_eq same.symm, stripped, Option.map_some, nothing]
  rfl

/-- What stands behind a slash are the last pieces of a path. -/
theorem split_append_slash (front : Bytes) : ∃ pieces,
    pieces.filterMap pieceComponent? = steps front ∧
      ∀ rest, rest ≠ [] → (split ⟨front ++ slash :: rest⟩).2 = pieces ++ cut slash rest := by
  match front with
  | [] =>
    refine ⟨[], rfl, fun rest some_ => ?_⟩
    obtain ⟨b, rest, rfl⟩ := List.exists_cons_of_ne_nil some_
    rfl
  | [a] =>
    by_cases root : a = slash
    · exact ⟨[[]], by rw [root]; rfl, fun rest _ => by rw [root]; rfl⟩
    · by_cases here : a = dot
      · exact ⟨[[]], by rw [here]; rfl, fun rest _ => by rw [here]; rfl⟩
      · refine ⟨cut slash [a], rfl, fun rest _ => ?_⟩
        simp only [List.singleton_append, split, root, here, false_and, if_false]
        exact cut_append_cons slash [a] rest
  | a :: b :: front =>
    by_cases root : a = slash
    · refine ⟨cut slash (b :: front), by rw [root]; exact (steps_slash _).symm, fun rest _ => ?_⟩
      simp only [List.cons_append, split, root, if_true]
      exact cut_append_cons slash (b :: front) rest
    · by_cases here : a = dot ∧ b = slash
      · refine ⟨cut slash (b :: front), ?_, fun rest _ => ?_⟩
        · rw [here.1, here.2, steps_dot_slash]
          exact steps_slash front
        · simp only [List.cons_append, split, here, and_self, if_true]
          exact cut_append_cons slash (slash :: front) rest
      · refine ⟨cut slash (a :: b :: front), rfl, fun rest _ => ?_⟩
        simp only [List.cons_append, split, root, here, if_false]
        exact cut_append_cons slash (a :: b :: front) rest

/-- Stripping leaves the remainder. -/
theorem strip?_of_isRemainder (h : IsRemainder p base rest) : p.strip? base = some rest := by
  obtain ⟨front, back, whole, starts, ends_⟩ := h.stands
  obtain ⟨octets⟩ := p
  obtain rfl : octets = front ++ slash :: (rest.octets ++ back) := whole
  obtain ⟨pieces, stepped, behind⟩ := split_append_slash front
  have wanted : base.components =
      (split ⟨front ++ slash :: (rest.octets ++ back)⟩).1.components ++
        pieces.filterMap pieceComponent? := by
    rw [← starts, components_eq, anchor_append_slash front (rest.octets ++ back),
      steps_append_slash, steps_nil, List.append_nil, stepped]
  have trimmed : trimPieces (cut slash (rest.octets ++ back)) = cut slash rest.octets := by
    rcases ends_ with rfl | ⟨back, rfl⟩
    · rw [List.append_nil]
      have all : trimPieces (cut slash rest.octets ++ []) = cut slash rest.octets :=
        trimPieces_append_idle (isTight_iff.mp h.tight) (by simp)
      rwa [List.append_nil] at all
    · have none_ : steps back = [] := by
        have same := h.steps
        rw [components_append_slash, starts, List.append_cancel_left_eq, List.singleton_append,
          steps_append_slash, h.tight.components_eq] at same
        exact List.append_right_eq_self.mp same
      have idle : ∀ piece ∈ cut slash back, isIdle piece = true := fun piece mem =>
        pieceComponent?_eq_none_iff.mp (List.filterMap_eq_nil_iff.mp none_ piece mem)
      rw [List.singleton_append, cut_append_cons]
      exact trimPieces_append_idle (isTight_iff.mp h.tight) idle
  have some_ : rest.octets ++ back ≠ [] := List.append_ne_nil_of_left_ne_nil h.tight.some_ back
  obtain ⟨left, stripped, left_⟩ :=
    Option.map_eq_some_iff.mp (stripPieces_append pieces (cut slash (rest.octets ++ back)))
  rw [strip?_eq wanted, behind _ some_, stripped, Option.map_some, left_, trimmed,
    joinPieces, join_cut]

/-- An anchor is all that there can be before the steps. -/
theorem exists_wanted (h : p.components = base.components ++ more) (some_ : base.octets ≠ []) :
    ∃ wanted, base.components = p.split.1.components ++ wanted ∧
      steps p.octets = wanted ++ more := by
  obtain ⟨c, others, goes⟩ := List.exists_cons_of_ne_nil (mt components_eq_nil_iff.mp some_)
  rw [components_eq, goes, List.cons_append] at h
  rw [goes]
  generalize p.split.1 = anchor at h ⊢
  cases anchor with
  | none => exact ⟨c :: others, rfl, h⟩
  | _ =>
    obtain ⟨same, behind⟩ := List.cons.inj h
    exact ⟨others, congrArg (· :: others) same.symm, behind⟩

/-- Pieces that were cut from octets are cut from them again once they are joined. -/
theorem cut_joinPieces (some_ : pieces ≠ []) (sub : pieces ⊆ cut slash octets) :
    cut slash (joinPieces pieces) = pieces :=
  cut_join some_ fun _ mem => not_mem_of_mem_cut (sub mem)

theorem joinPieces_append (front_ : front ≠ []) (back_ : back ≠ []) :
    joinPieces (front ++ back) = joinPieces front ++ slash :: joinPieces back := by
  rw [joinPieces, join_append _ front_ back_, List.append_assoc]
  rfl

/-- Trimmed pieces behind the steps of a directory are a remainder. -/
theorem isRemainder_of_cut (whole : cut slash p.octets = front ++ (inner ++ back))
    (starts : base.components = p.split.1.components ++ front.filterMap pieceComponent?)
    (front_ : front ≠ []) (trimmed : IsTrimmed inner) (idle : ∀ piece ∈ back, isIdle piece = true) :
    IsRemainder p base ⟨joinPieces inner⟩ := by
  have front_sub : front ⊆ cut slash p.octets := by simp [whole]
  have inner_sub : inner ⊆ cut slash p.octets := by simp [whole]
  have front_cut := cut_joinPieces front_ front_sub
  have inner_cut := cut_joinPieces trimmed.some_ inner_sub
  have tight : IsTight (joinPieces inner) := isTight_iff.mpr (by rwa [inner_cut])
  obtain ⟨tail, spelt, tail_⟩ : ∃ tail,
      joinPieces (inner ++ back) = joinPieces inner ++ tail ∧ (tail = [] ∨ [slash] <+: tail) := by
    cases back with
    | nil => exact ⟨[], by rw [List.append_nil, List.append_nil], .inl rfl⟩
    | cons piece back =>
      exact ⟨_, joinPieces_append trimmed.some_ (List.cons_ne_nil _ _),
        .inr (List.prefix_append [slash] _)⟩
  have octets : p.octets = joinPieces front ++ slash :: (joinPieces inner ++ tail) := by
    have inner_back : inner ++ back ≠ [] := List.append_ne_nil_of_left_ne_nil trimmed.some_ back
    rw [← spelt, ← joinPieces_append front_ inner_back, ← whole]
    exact (join_cut slash p.octets).symm
  refine ⟨⟨joinPieces front, tail, octets, ?_, tail_⟩, tight, ?_⟩
  · have anchor : (split ⟨joinPieces front ++ [slash]⟩).1 = p.split.1 := by
      rw [← anchor_append_slash, ← octets]
    rw [components_eq, anchor, starts, steps_append_slash, steps_nil, List.append_nil, steps,
      front_cut]
  · rw [IsTight.components_eq (p := ⟨joinPieces inner⟩) tight, components_eq, starts, steps, steps,
      whole, inner_cut, List.filterMap_append, List.filterMap_append, filterMap_idle idle,
      List.append_nil, List.append_assoc]

/-- A path that goes on behind a directory has a remainder. -/
theorem exists_isRemainder (h : p.components = base.components ++ more) (some_ : base.octets ≠ [])
    (goes : more ≠ []) : ∃ rest, IsRemainder p base rest := by
  obtain ⟨wanted, starts, stepped⟩ := exists_wanted h some_
  obtain ⟨front, inner, back, whole, rfl, trimmed, idle⟩ := exists_isTrimmed stepped goes
  -- The directory takes a step, or the path has an anchor: either is a piece before the remainder.
  have front_ : front ≠ [] := by
    rintro rfl
    obtain ⟨piece, pieces, rfl⟩ := List.exists_cons_of_ne_nil trimmed.some_
    have bare := components_of_step whole (trimmed.head piece rfl)
    rw [components_eq, List.append_left_eq_self] at bare
    rw [bare] at starts
    exact some_ (components_eq_nil_iff.mp starts)
  exact ⟨_, isRemainder_of_cut whole starts front_ trimmed idle⟩

end BuildSupervisor.Path
