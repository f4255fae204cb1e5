import BuildSupervisor.Proofs.Json.Reading
import BuildSupervisor.Wire.Codec
/-!
# Faithful codecs

A codec is faithful for some values if what it writes of them is sound JSON that it decodes to the
same values.  What a faithful codec writes is read back; the codecs of simple values are faithful,
and so are those that are put together from faithful ones.
-/

namespace BuildSupervisor.Codec

variable {α : Type}

/-- What the codec encodes is sound, and values that are `ok` are decoded again under all rules. -/
structure Faithful (c : Codec α) (ok : α → Prop) : Prop where
  sound : ∀ a, (c.encode a).IsSound
  decode_encode : ∀ rules a, ok a → c.decode rules (c.encode a) = some a

/-- What the codec writes of values that are `ok` is read back.  A text that is read as such a value
    is written anew in a form that does not change when it is read and written again. -/
structure ReadsBack (c : Codec α) (ok : α → Prop) : Prop where
  read_write : ∀ a, ok a → c.read? (c.write a) = some a
  stable : ∀ text a, c.read? text = some a → ok a →
    (c.read? (c.write a)).map c.write = some (c.write a)

namespace Faithful

variable {c : Codec α} {ok : α → Prop}

theorem readsBack (h : c.Faithful ok) : c.ReadsBack ok := by
  have read_write (a : α) (isOk : ok a) : c.read? (c.write a) = some a := by
    rw [read?, write, Json.ofText?_render (h.sound a), Option.bind_some,
      h.decode_encode Rules.json a isOk]
  refine ⟨read_write, fun _ a _ isOk => ?_⟩
  rw [read_write a isOk, Option.map_some]

/-! ### Fields -/

theorem required (h : c.Faithful ok) (rules : Rules) {a : α} (isOk : ok a) :
    c.required rules (some (c.encode a)) = some a :=
  h.decode_encode rules a isOk

theorem orElse (h : c.Faithful ok) (missing : α) (rules : Rules) {a : α} (isOk : ok a) :
    c.orElse missing rules (some (c.encode a)) = some a :=
  h.decode_encode rules a isOk

theorem orNull {c : Codec (Option α)} {ok : Option α → Prop} (h : c.Faithful ok) (rules : Rules)
    {a : Option α} (isOk : ok a) : c.orNull rules (some (c.encode a)) = some a :=
  h.decode_encode rules a isOk

/-! ### Simple values -/

theorem natural (bound : Nat) : (Codec.natural bound).Faithful (· < bound) :=
  ⟨.natural, fun _ _ small => if_pos small⟩

theorem word64 : Codec.word64.Faithful fun _ => True := by
  refine ⟨fun n => .natural n.toNat, fun rules n _ => ?_⟩
  have read := (natural UInt64.size).decode_encode rules n.toNat n.toNat_lt
  change ((Codec.natural UInt64.size).decode rules (.natural n.toNat)).map UInt64.ofNat = some n
  change (Codec.natural UInt64.size).decode rules (.natural n.toNat) = _ at read
  rw [read, Option.map_some, UInt64.ofNat_toNat]

theorem word32 : Codec.word32.Faithful fun _ => True := by
  refine ⟨fun n => .natural n.toNat, fun rules n _ => ?_⟩
  have read := (natural UInt32.size).decode_encode rules n.toNat n.toNat_lt
  change ((Codec.natural UInt32.size).decode rules (.natural n.toNat)).map UInt32.ofNat = some n
  change (Codec.natural UInt32.size).decode rules (.natural n.toNat) = _ at read
  rw [read, Option.map_some, UInt32.ofNat_toNat]

/-- Choices are decoded by their names, if no two have one name. -/
theorem choice {name : α → String} {all : List α}
    (distinct : ∀ a ∈ all, ∀ b ∈ all, name a = name b → a = b) :
    (Codec.choice name all).Faithful (· ∈ all) := by
  refine ⟨fun a => .text (name a), fun rules a mem => ?_⟩
  change (all.find? fun b => name b = name a) = some a
  cases found : all.find? fun b => name b = name a with
  | none =>
    have unlike := List.find?_eq_none.mp found a mem
    simp at unlike
  | some b =>
    have same : name b = name a := by simpa using List.find?_some found
    rw [distinct b (List.mem_of_find?_eq_some found) a mem same]

/-! ### Values put together -/

/-- A value that may be missing, unless it is encoded as nothing. -/
theorem nullable (h : c.Faithful ok) (some_ : ∀ a, c.encode a ≠ .null) :
    c.nullable.Faithful fun o => ∀ a ∈ o, ok a := by
  constructor
  · intro o
    cases o with
    | none => exact .null
    | some a => exact h.sound a
  · intro rules o isOk
    cases o with
    | none => rfl
    | some a =>
      have read := h.decode_encode rules a (isOk a rfl)
      change c.nullable.decode rules (c.encode a) = some (some a)
      unfold Codec.nullable
      simp only
      split
      next null => exact absurd null (some_ a)
      next => rw [read, Option.map_some]

theorem list (h : c.Faithful ok) : c.list.Faithful fun as => ∀ a ∈ as, ok a := by
  constructor
  · intro as
    refine .array fun v mem => ?_
    obtain ⟨a, -, rfl⟩ := List.mem_map.mp mem
    exact h.sound a
  · intro rules as isOk
    change decodeAll (c.decode rules) (as.map c.encode) = some as
    induction as with
    | nil => rfl
    | cons a as ih =>
      have first := h.decode_encode rules a (isOk a List.mem_cons_self)
      have others := ih fun b mem => isOk b (List.mem_cons_of_mem a mem)
      rw [List.map_cons, decodeAll, first, others]

end Faithful

/-! ### Members of objects -/

/-- A member is found by its name, if no other one has it. -/
theorem filter_name {members : List (String × Json)} (distinct : (members.map Prod.fst).Nodup)
    {m : String × Json} (mem : m ∈ members) : (members.filter fun n => n.1 = m.1) = [m] := by
  induction members with
  | nil => exact absurd mem List.not_mem_nil
  | cons n members ih =>
    rw [List.map_cons, List.nodup_cons] at distinct
    obtain ⟨fresh, distinct⟩ := distinct
    rcases List.mem_cons.mp mem with rfl | mem
    · have others : (members.filter fun n => n.1 = m.1) = [] := by
        refine List.filter_eq_nil_iff.mpr fun n mem same => fresh ?_
        have same : n.1 = m.1 := by simpa using same
        exact same ▸ List.mem_map_of_mem mem
      rw [List.filter_cons_of_pos (by simp), others]
    · have other : n.1 ≠ m.1 := fun same => fresh (same ▸ List.mem_map_of_mem mem)
      rw [List.filter_cons_of_neg (by simpa using other), ih distinct mem]

/-- The members of an object are found by their names, if no two have one name. -/
theorem membersNamed_eq {members : List (String × Json)} {names : List String}
    (named : members.map Prod.fst = names) (distinct : names.Nodup) :
    membersNamed members names = some (members.map fun m => some m.2) := by
  rw [← named] at distinct ⊢
  suffices all : ∀ some_ ⊆ members,
      membersNamed members (some_.map Prod.fst) = some (some_.map fun m => some m.2) from
    all members (List.Subset.refl members)
  intro some_ subset
  induction some_ with
  | nil => rfl
  | cons m some_ ih =>
    obtain ⟨first, others⟩ := List.cons_subset.mp subset
    rw [List.map_cons, membersNamed, filter_name distinct first, ih others]
    rfl

theorem optionalFields_object (rules : Rules) {members : List (String × Json)}
    {names : List String} (named : members.map Prod.fst = names) (distinct : names.Nodup) :
    optionalFields rules names (.object members) = some (members.map fun m => some m.2) :=
  membersNamed_eq named distinct

theorem fields_object (rules : Rules) {members : List (String × Json)} {names : List String}
    (named : members.map Prod.fst = names) (distinct : names.Nodup) :
    fields rules names (.object members) = some (members.map fun m => some m.2) :=
  membersNamed_eq named distinct

end BuildSupervisor.Codec
