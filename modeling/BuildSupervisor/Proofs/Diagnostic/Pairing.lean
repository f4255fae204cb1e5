import BuildSupervisor.Proofs.Diagnostic.Significant
import Mathlib.Data.List.Forall2
import Mathlib.Data.List.Induction
/-!
# Locations and their headers

The lines of a text that matter are its headers and its locations.  A location belongs to the
nearest of these lines above it, if that one is a header.  `Rustc.parse_eq_pairs` says that the
diagnostics of a text are those of its pairs, in the order of the lines, and what follows for texts
that are put together or differ in other lines.
-/

namespace BuildSupervisor

namespace Rustc

open Text

variable {line : List Char} {h : HeaderSplit} {l : LocationSplit} {base : Path}

/-- The line at `j` is the header `h`, and no line between it and the place `i` matters. -/
structure Awaits (lines : List (List Char)) (j i : Nat) (h : HeaderSplit) : Prop where
  before : j < i
  header : ∃ line, lines[j]? = some line ∧ h.IsGreedy line
  nearest : ∀ k line, j < k → k < i → lines[k]? = some line → ¬ IsSignificant line

/-- The line at `i` is the location `l`, and the nearest line above it that matters is the header
    `h` at `j`. -/
structure IsPair (lines : List (List Char)) (j i : Nat) (h : HeaderSplit) (l : LocationSplit) :
    Prop extends Awaits lines j i h where
  location : ∃ line, lines[i]? = some line ∧ l.IsGreedy line

/-! ### One line more -/

section Places

variable {xs : List (List Char)} {i j : Nat}

theorem getElem?_concat_of_lt (line : List Char) (small : i < xs.length) :
    (xs ++ [line])[i]? = xs[i]? :=
  List.getElem?_append_left small

/-- What awaits a place does not depend on the lines from there on. -/
theorem awaits_concat_of_le (line : List Char) (small : i ≤ xs.length) :
    Awaits (xs ++ [line]) j i h ↔ Awaits xs j i h := by
  constructor
  · rintro ⟨before, header, nearest⟩
    rw [getElem?_concat_of_lt line (by omega)] at header
    refine ⟨before, header, fun k other low high there => nearest k other low high ?_⟩
    rwa [getElem?_concat_of_lt line (by omega)]
  · rintro ⟨before, header, nearest⟩
    refine ⟨before, ?_, fun k other low high there => nearest k other low high ?_⟩
    · rwa [getElem?_concat_of_lt line (by omega)]
    · rwa [getElem?_concat_of_lt line (by omega)] at there

/-- A header at the end waits. -/
theorem awaits_concat_self (greedy : h.IsGreedy line) :
    Awaits (xs ++ [line]) xs.length (xs.length + 1) h where
  before := by omega
  header := ⟨line, List.getElem?_concat_length, greedy⟩
  nearest k _ low high := by omega

/-- Only a header at the end waits, or one that waited before over a line that does not matter. -/
theorem awaits_concat_cases (awaits : Awaits (xs ++ [line]) j (xs.length + 1) h) :
    (j = xs.length ∧ h.IsGreedy line) ∨ (¬ IsSignificant line ∧ Awaits xs j xs.length h) := by
  obtain ⟨before, ⟨header, there, greedy⟩, nearest⟩ := awaits
  by_cases last : j = xs.length
  · left
    rw [last, List.getElem?_concat_length] at there
    exact ⟨last, Option.some.inj there ▸ greedy⟩
  · right
    have small : j < xs.length := by omega
    refine ⟨nearest xs.length line small (by omega) List.getElem?_concat_length, ?_⟩
    rw [← awaits_concat_of_le line (Nat.le_refl _)]
    exact ⟨small, ⟨header, there, greedy⟩, fun k other low high => nearest k other low (by omega)⟩

/-- A header goes on waiting over a line that does not matter. -/
theorem Awaits.concat (awaits : Awaits xs j xs.length h) (insignificant : ¬ IsSignificant line) :
    Awaits (xs ++ [line]) j (xs.length + 1) h := by
  obtain ⟨before, header, nearest⟩ := (awaits_concat_of_le line (Nat.le_refl _)).mpr awaits
  refine ⟨by omega, header, fun k other low high there => ?_⟩
  by_cases last : k = xs.length
  · rw [last, List.getElem?_concat_length] at there
    exact Option.some.inj there ▸ insignificant
  · exact nearest k other low (by omega) there

/-- Only one header awaits a place. -/
theorem Awaits.eq {j' : Nat} {h' : HeaderSplit} (first : Awaits xs j i h)
    (second : Awaits xs j' i h') : j = j' ∧ h = h' := by
  obtain ⟨before, ⟨line, there, greedy⟩, nearest⟩ := first
  obtain ⟨before', ⟨line', there', greedy'⟩, nearest'⟩ := second
  have notBelow : ¬ j < j' := fun below =>
    nearest j' line' below before' there' (.inl ⟨h', greedy'.text_eq⟩)
  have notAbove : ¬ j' < j := fun above =>
    nearest' j line above before there (.inl ⟨h, greedy.text_eq⟩)
  have same : j = j' := by omega
  subst same
  rw [there] at there'
  cases there'
  exact ⟨rfl, greedy.eq greedy'⟩

/-- The pairs among one line more: those before, and the last line with the header that waits. -/
theorem isPair_concat_iff :
    IsPair (xs ++ [line]) j i h l ↔
      IsPair xs j i h l ∨ (i = xs.length ∧ Awaits xs j i h ∧ l.IsGreedy line) := by
  constructor
  · rintro ⟨awaits, location, there, greedy⟩
    by_cases last : i = xs.length
    · rw [last, List.getElem?_concat_length] at there
      refine .inr ⟨last, ?_, Option.some.inj there ▸ greedy⟩
      exact (awaits_concat_of_le line (Nat.le_of_eq last)).mp awaits
    · have inside := (List.getElem?_eq_some_iff.mp there).1
      have small : i < xs.length := by
        rw [List.length_append, List.length_singleton] at inside
        omega
      rw [getElem?_concat_of_lt line small] at there
      exact .inl ⟨(awaits_concat_of_le line (Nat.le_of_lt small)).mp awaits, location, there,
        greedy⟩
  · rintro (⟨awaits, location, there, greedy⟩ | ⟨rfl, awaits, greedy⟩)
    · have small := (List.getElem?_eq_some_iff.mp there).1
      refine ⟨(awaits_concat_of_le line (Nat.le_of_lt small)).mpr awaits, location, ?_, greedy⟩
      rwa [getElem?_concat_of_lt line small]
    · exact ⟨(awaits_concat_of_le line (Nat.le_refl _)).mpr awaits, line,
        List.getElem?_concat_length, greedy⟩

theorem IsPair.lt_length (pair : IsPair xs j i h l) : i < xs.length := by
  obtain ⟨_, there, -⟩ := pair.location
  exact (List.getElem?_eq_some_iff.mp there).1

/-- A header that waits stands below all locations. -/
theorem IsPair.lt_of_awaits {j' i' : Nat} {h' : HeaderSplit} (pair : IsPair xs j' i' h' l)
    (awaits : Awaits xs j i h) (below : i' < i) : i' < j := by
  obtain ⟨-, location, there, greedy⟩ := pair
  obtain ⟨header, there', greedy'⟩ := awaits.header
  rcases Nat.lt_trichotomy i' j with before | rfl | after
  · exact before
  · rw [there] at there'
    cases there'
    exact absurd ⟨⟨h, greedy'.text_eq⟩, ⟨l, greedy.text_eq⟩⟩ (not_header_and_location _)
  · exact absurd (.inr ⟨l, greedy.text_eq⟩) (awaits.nearest i' location after below there)

end Places

/-- The header that waits is the last of the lines that matter, if that one is a header. -/
theorem waitingAfter_cases {xs : List (List Char)} (plain : ∀ line ∈ xs, '\n' ∉ line) :
    (∃ j h header, Awaits xs j xs.length h ∧ h.Gives header ∧
        waitingAfter xs none = some header) ∨
      ((∀ j h, ¬ Awaits xs j xs.length h) ∧ waitingAfter xs none = none) := by
  induction xs using List.reverseRecOn with
  | nil => exact .inr ⟨fun j h awaits => Nat.not_lt_zero j awaits.before, rfl⟩
  | append_singleton xs line ih =>
    have ih := ih fun line mem => plain line (List.mem_append_left _ mem)
    have plain := plain line (List.mem_append_right _ List.mem_cons_self)
    rw [waitingAfter_concat, List.length_append, List.length_singleton]
    rcases line_cases plain with ⟨p, greedy⟩ | ⟨l, greedy⟩ | insignificant
    · obtain ⟨header, given, next⟩ := nextHeader_of_header plain greedy (waitingAfter xs none)
      exact .inl ⟨xs.length, p, header, awaits_concat_self greedy, given, next⟩
    · have location : IsLocation line := ⟨l, greedy.text_eq⟩
      refine .inr ⟨fun j h awaits => ?_, nextHeader_of_location plain location _⟩
      rcases awaits_concat_cases awaits with ⟨-, header⟩ | ⟨insignificant, -⟩
      · exact not_header_and_location line ⟨⟨h, header.text_eq⟩, location⟩
      · exact insignificant (.inr location)
    · rw [nextHeader_of_insignificant plain insignificant]
      rcases ih with ⟨j, h, header, awaits, given, waiting⟩ | ⟨nobody, waiting⟩
      · exact .inl ⟨j, h, header, awaits.concat insignificant, given, waiting⟩
      · refine .inr ⟨fun j h awaits => ?_, waiting⟩
        rcases awaits_concat_cases awaits with ⟨-, header⟩ | ⟨-, awaits⟩
        · exact insignificant (.inl ⟨h, header.text_eq⟩)
        · exact nobody j h awaits

/-- The diagnostic stands for a header and a location that are a pair. -/
def IsDiagnosticAt (base : Path) (lines : List (List Char)) (place : Nat × Nat) (d : Diagnostic) :
    Prop :=
  ∃ h l, IsPair lines place.1 place.2 h l ∧ Says base h l d

/-- The places of headers and locations that are pairs with numbers that fit. -/
structure ArePairs (lines : List (List Char)) (places : List (Nat × Nat)) : Prop where
  sorted : places.Pairwise fun first second => first.1 < second.1 ∧ first.2 < second.2
  mem_iff : ∀ j i, (j, i) ∈ places ↔ ∃ h l, IsPair lines j i h l ∧ l.IsNumbered

/-- Where the last line completes no pair, there are the pairs of the others. -/
theorem ArePairs.concat_of_none {xs : List (List Char)} {places : List (Nat × Nat)}
    (pairs : ArePairs xs places)
    (none_ : ∀ j h (l : LocationSplit), Awaits xs j xs.length h → l.IsGreedy line →
      ¬ l.IsNumbered) :
    ArePairs (xs ++ [line]) places := by
  refine ⟨pairs.sorted, fun j i => (pairs.mem_iff j i).trans ?_⟩
  constructor
  · rintro ⟨h, l, pair, numbered⟩
    exact ⟨h, l, isPair_concat_iff.mpr (.inl pair), numbered⟩
  · rintro ⟨h, l, pair, numbered⟩
    rcases isPair_concat_iff.mp pair with pair | ⟨rfl, awaits, greedy⟩
    · exact ⟨h, l, pair, numbered⟩
    · exact absurd numbered (none_ j h l awaits greedy)

/-- Where the last line completes a pair, this one comes last. -/
theorem ArePairs.concat {xs : List (List Char)} {places : List (Nat × Nat)} {j : Nat}
    (pairs : ArePairs xs places) (awaits : Awaits xs j xs.length h) (greedy : l.IsGreedy line)
    (numbered : l.IsNumbered) : ArePairs (xs ++ [line]) (places ++ [(j, xs.length)]) := by
  constructor
  · refine List.pairwise_append.mpr ⟨pairs.sorted, List.pairwise_singleton _ _, ?_⟩
    rintro ⟨j', i'⟩ mem last self
    rw [List.mem_singleton.mp self]
    obtain ⟨h', l', pair, -⟩ := (pairs.mem_iff j' i').mp mem
    have below : i' < j := pair.lt_of_awaits awaits pair.lt_length
    have before : j' < i' := pair.before
    exact ⟨Nat.lt_trans before below, pair.lt_length⟩
  · intro j' i'
    rw [List.mem_append, pairs.mem_iff, List.mem_singleton, Prod.mk.injEq]
    constructor
    · rintro (⟨h', l', pair, numbered'⟩ | ⟨rfl, rfl⟩)
      · exact ⟨h', l', isPair_concat_iff.mpr (.inl pair), numbered'⟩
      · exact ⟨h, l, isPair_concat_iff.mpr (.inr ⟨rfl, awaits, greedy⟩), numbered⟩
    · rintro ⟨h', l', pair, numbered'⟩
      rcases isPair_concat_iff.mp pair with pair | ⟨rfl, awaits', -⟩
      · exact .inl ⟨h', l', pair, numbered'⟩
      · exact .inr ⟨(awaits'.eq awaits).1, rfl⟩

theorem IsDiagnosticAt.concat {xs : List (List Char)} {place : Nat × Nat} {d : Diagnostic}
    (at_ : IsDiagnosticAt base xs place d) : IsDiagnosticAt base (xs ++ [line]) place d := by
  obtain ⟨h, l, pair, meant⟩ := at_
  exact ⟨h, l, isPair_concat_iff.mpr (.inl pair), meant⟩

/-- The diagnostics of lines are those of their pairs. -/
theorem exists_pairs {xs : List (List Char)} (plain : ∀ line ∈ xs, '\n' ∉ line) :
    ∃ places, ArePairs xs places ∧
      List.Forall₂ (IsDiagnosticAt base xs) places (collect base none xs) := by
  induction xs using List.reverseRecOn with
  | nil =>
    refine ⟨[], ⟨List.Pairwise.nil, fun j i => ?_⟩, List.Forall₂.nil⟩
    constructor
    · intro mem
      cases mem
    · rintro ⟨h, l, pair, -⟩
      exact absurd pair.lt_length (Nat.not_lt_zero i)
  | append_singleton xs line ih =>
    obtain ⟨places, pairs, each⟩ := ih fun line mem => plain line (List.mem_append_left _ mem)
    have waiting := waitingAfter_cases fun line mem => plain line (List.mem_append_left _ mem)
    have plain := plain line (List.mem_append_right _ List.mem_cons_self)
    rw [collect_concat]
    have each : List.Forall₂ (IsDiagnosticAt base (xs ++ [line])) places (collect base none xs) :=
      each.imp fun _ _ => IsDiagnosticAt.concat
    -- Nothing new is found where the line completes no pair.
    have same (nothing : foundAt base (waitingAfter xs none) line = [])
        (none_ : ∀ j h (l : LocationSplit), Awaits xs j xs.length h → l.IsGreedy line →
          ¬ l.IsNumbered) :
        ∃ places, ArePairs (xs ++ [line]) places ∧
          List.Forall₂ (IsDiagnosticAt base (xs ++ [line])) places
            (collect base none xs ++ foundAt base (waitingAfter xs none) line) := by
      refine ⟨places, pairs.concat_of_none none_, ?_⟩
      rwa [nothing, List.append_nil]
    by_cases location : IsLocation line
    · obtain ⟨l, greedy⟩ := LocationSplit.exists_isGreedy location.choose_spec
      rcases waiting with ⟨j, h, header, awaits, given, waiting⟩ | ⟨nobody, waiting⟩
      · have found : foundAt base (waitingAfter xs none) line =
            (diagnosticOf? base header ⟨l.file, l.line, l.column⟩).toList := by
          rw [foundAt_of_location plain greedy, waiting, Option.bind_some]
        cases read : diagnosticOf? base header ⟨l.file, l.line, l.column⟩ with
        | none =>
          rw [read] at found
          refine same found fun j' h' l' _ greedy' numbered => ?_
          rw [greedy'.eq greedy] at numbered
          obtain ⟨d, meant⟩ : ∃ d, Says base h l d := exists_says_iff.mpr numbered
          rw [(diagnosticOf?_eq_some_iff given).mpr meant] at read
          cases read
        | some d =>
          have meant := (diagnosticOf?_eq_some_iff given).mp read
          rw [read] at found
          rw [found]
          refine ⟨places ++ [(j, xs.length)],
            pairs.concat awaits greedy (exists_says_iff.mp ⟨d, meant⟩), ?_⟩
          have last : IsDiagnosticAt base (xs ++ [line]) (j, xs.length) d :=
            ⟨h, l, isPair_concat_iff.mpr (.inr ⟨rfl, awaits, greedy⟩), meant⟩
          exact List.rel_append each (List.Forall₂.cons last List.Forall₂.nil)
      · refine same ?_ fun j h _ awaits => absurd awaits (nobody j h)
        rw [foundAt_of_location plain greedy, waiting]
        rfl
    · refine same ?_ fun _ _ l _ greedy => absurd ⟨l, greedy.text_eq⟩ location
      by_cases header : IsHeader line
      · exact foundAt_of_header plain header _
      · exact foundAt_of_insignificant plain (not_or.mpr ⟨header, location⟩) _

/-- The diagnostics of a text are those of its pairs whose numbers fit, in the order of the lines,
    so that a header has at most one.  They are read from the one split of a line that counts.
    Lines that do not matter change nothing, and a text below adds diagnostics only at the end: its
    own, unless its first location belongs to the last header above. -/
theorem parse_eq_pairs (text : String) (base : Path) :
    (∀ line, ¬ (IsHeader line ∧ IsLocation line)) ∧
      (∀ line ∈ linesOf text, (IsHeader line ↔ ∃! h : HeaderSplit, h.IsGreedy line) ∧
        (IsLocation line ↔ ∃! l : LocationSplit, l.IsGreedy line)) ∧
      (∀ l : LocationSplit, ∃ others, digitGroups l.text = others ++ [l.line, l.column]) ∧
      (∃ places, ArePairs (linesOf text) places ∧
        List.Forall₂ (IsDiagnosticAt base (linesOf text)) places
          (Dialect.rustc.parse text base)) ∧
      (∀ other, significantLines other = significantLines text →
        Dialect.rustc.parse other base = Dialect.rustc.parse text base) ∧
      (∀ more, Dialect.rustc.parse text base <+:
        Dialect.rustc.parse (text ++ "\n" ++ more) base) ∧
      ∀ more, ((∀ line ∈ (significantLines text).getLast?, ¬ IsHeader line) ∨
          ∀ line ∈ (significantLines more).head?, ¬ IsLocation line) →
        Dialect.rustc.parse (text ++ "\n" ++ more) base =
          Dialect.rustc.parse text base ++ Dialect.rustc.parse more base := by
  have together (more : String) : Dialect.rustc.parse (text ++ "\n" ++ more) base =
      Dialect.rustc.parse text base ++
        collect base (waitingAfter (significantLines text) none) (significantLines more) := by
    rw [parse_eq_collect, significantLines_append, collect_append, ← parse_eq_collect]
  refine ⟨not_header_and_location, fun line mem => ⟨?_, ?_⟩, LocationSplit.digitGroups_text,
    exists_pairs (not_mem_linesOf text), fun other same => ?_, fun more => ?_, fun more apart => ?_⟩
  · constructor
    · intro header
      obtain ⟨h, greedy⟩ := exists_header header (not_mem_linesOf text line mem)
      exact ⟨h, greedy, fun other greedy' => greedy'.eq greedy⟩
    · rintro ⟨h, greedy, -⟩
      exact ⟨h, greedy.text_eq⟩
  · constructor
    · rintro ⟨l, same⟩
      obtain ⟨l, greedy⟩ := LocationSplit.exists_isGreedy same
      exact ⟨l, greedy, fun other greedy' => greedy'.eq greedy⟩
    · rintro ⟨l, greedy, -⟩
      exact ⟨l, greedy.text_eq⟩
  · rw [parse_eq_collect, parse_eq_collect, same]
  · rw [together]
    exact List.prefix_append _ _
  · rw [together, parse_eq_collect more]
    rcases apart with last | first
    · rw [waitingAfter_significantLines last]
    · rw [collect_significantLines first]

/-- A header above does not take the location of the header below. -/
theorem headers_stay_apart :
    (∀ line ∈ (significantLines "note: b\n--> h:5:6").head?, ¬ IsLocation line) ∧
      Dialect.rustc.parse ("error: a" ++ "\n" ++ "note: b\n--> h:5:6") ⟨[]⟩ =
        Dialect.rustc.parse "error: a" ⟨[]⟩ ++ Dialect.rustc.parse "note: b\n--> h:5:6" ⟨[]⟩ := by
  let note : HeaderSplit := ⟨"note", none, [' '], ['b'], by decide, nofun,
    List.all_eq_true.mp (by decide), by decide, by decide⟩
  have header : IsHeader "note: b".toList := ⟨note, by decide⟩
  have first : ∀ line ∈ (significantLines "note: b\n--> h:5:6").head?, ¬ IsLocation line := by
    have lines : linesOf "note: b\n--> h:5:6" = ["note: b".toList, "--> h:5:6".toList] := by
      decide
    rw [head?_significantLines lines (.inl header)]
    rintro _ ⟨⟩ location
    exact not_header_and_location _ ⟨header, location⟩
  obtain ⟨-, -, -, -, -, -, apart⟩ := parse_eq_pairs "error: a" ⟨[]⟩
  exact ⟨first, apart _ (.inr first)⟩

/-- The second location has no header left, and the third one takes the second header with it though
    its column is too large. -/
example : Dialect.rustc.parse
    "error[E1]: a\n --> f:1:2\n --> g:3:4\nnote: b\n  |\n--> h:5:4294967296\n--> i:6:7" ⟨[]⟩ =
      [⟨"f", 1, 2, .error, "[E1] a"⟩] := by
  decide +kernel

end Rustc

end BuildSupervisor
