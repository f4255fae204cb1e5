import BuildSupervisor.Proofs.Json.Lexing
/-!
# Written values are read back

The tokens of a sound value are read as that value, whatever stands on the stack and whatever
follows; `Json.ofText?_render` says so for whole texts.
-/

namespace BuildSupervisor.Json

/-- The value is read from its tokens, whatever is open around it and whatever follows. -/
structure Reads (v : Json) : Prop where
  value : ∀ stack rest, read? .value stack (tokens v ++ rest) = read? (.after v) stack rest
  /-- The same where the array around the value could be closed at once. -/
  firstElement : ∀ stack rest,
    read? .firstElement stack (tokens v ++ rest) = read? (.after v) stack rest

/-- A member as it is kept while its object is open. -/
def openMember (m : String × Json) : Option String × Json :=
  (some m.1, m.2)

/-- The members of an open object, last first, are those of the closed one. -/
theorem closeMembers_map (closed members : List (String × Json)) :
    closeMembers closed (members.map openMember) = .object (members.reverse ++ closed) := by
  induction members generalizing closed with
  | nil => rfl
  | cons m members ih =>
    rw [List.map_cons, openMember, closeMembers, ih, List.reverse_cons, List.append_assoc]
    rfl

/-- The elements behind the first one are read up to the closing bracket. -/
theorem read?_elements {elements : List Json} (each : ∀ v ∈ elements, Reads v) (before : List Json)
    (v : Json) (stack : List Frame) (rest : List Token) :
    read? (.after v) (.array before :: stack)
        (elementTokens false elements ++ .closeArray :: rest) =
      read? (.after (.array (before.reverse ++ v :: elements))) stack rest := by
  induction elements generalizing before v with
  | nil =>
    rw [elementTokens, List.nil_append, read?, List.reverse_cons]
  | cons w elements ih =>
    have others := ih (fun u mem => each u (List.mem_cons_of_mem w mem)) (v :: before) w
    rw [List.reverse_cons, List.append_assoc] at others
    have spelt : elementTokens false (w :: elements) ++ .closeArray :: rest =
        .comma :: (tokens w ++ (elementTokens false elements ++ .closeArray :: rest)) := by
      simp [elementTokens]
    rw [spelt, read?, (each w List.mem_cons_self).value, others]
    rfl

/-- The members behind the first one are read up to the closing brace. -/
theorem read?_members {members : List (String × Json)} (each : ∀ m ∈ members, Reads m.2)
    (before : List (String × Json)) (key : String) (v : Json) (stack : List Frame)
    (rest : List Token) :
    read? (.after v) (.object (before.map openMember) (some key) :: stack)
        (memberTokens false members ++ .closeObject :: rest) =
      read? (.after (.object (before.reverse ++ (key, v) :: members))) stack rest := by
  induction members generalizing before key v with
  | nil =>
    have closed := closeMembers_map [] ((key, v) :: before)
    rw [List.append_nil, List.reverse_cons] at closed
    rw [memberTokens, List.nil_append, read?, ← closed]
    rfl
  | cons m members ih =>
    obtain ⟨next, w⟩ := m
    have others := ih (fun u mem => each u (List.mem_cons_of_mem _ mem)) ((key, v) :: before) next w
    rw [List.reverse_cons, List.append_assoc] at others
    have spelt : memberTokens false ((next, w) :: members) ++ .closeObject :: rest =
        .comma :: .quoted (some next) :: .colon ::
          (tokens w ++ (memberTokens false members ++ .closeObject :: rest)) := by
      simp [memberTokens]
    rw [spelt, read?, read?, read?, (each (next, w) List.mem_cons_self).value]
    exact others

theorem reads_of_isSound {v : Json} (sound : IsSound v) : Reads v := by
  induction sound with
  | null => exact ⟨fun _ _ => rfl, fun _ _ => rfl⟩
  | bool b => exact ⟨fun _ _ => rfl, fun _ _ => rfl⟩
  | natural n => exact ⟨fun _ _ => rfl, fun _ _ => rfl⟩
  | text s => exact ⟨fun _ _ => rfl, fun _ _ => rfl⟩
  | @array elements _ ih =>
    -- Behind the bracket it does not matter from which phase it was read.
    have inside (stack : List Frame) (rest : List Token) :
        read? .firstElement (.array [] :: stack)
          (elementTokens true elements ++ .closeArray :: rest) =
            read? (.after (.array elements)) stack rest := by
      cases elements with
      | nil => rfl
      | cons v elements =>
        have first := (ih v List.mem_cons_self).firstElement (.array [] :: stack)
          (elementTokens false elements ++ .closeArray :: rest)
        have others :=
          read?_elements (fun w mem => ih w (List.mem_cons_of_mem v mem)) [] v stack rest
        rw [elementTokens, if_pos rfl, List.nil_append, List.append_assoc, first, others]
        rfl
    have spelt (rest : List Token) : tokens (.array elements) ++ rest =
        .openArray :: (elementTokens true elements ++ .closeArray :: rest) := by
      simp [tokens]
    constructor
    · intro stack rest
      rw [spelt]
      exact inside stack rest
    · intro stack rest
      rw [spelt]
      exact inside stack rest
  | @object members _ ih =>
    have inside (stack : List Frame) (rest : List Token) :
        read? (.firstKey []) stack (memberTokens true members ++ .closeObject :: rest) =
          read? (.after (.object members)) stack rest := by
      cases members with
      | nil => rfl
      | cons m members =>
        obtain ⟨key, v⟩ := m
        have first := (ih (key, v) List.mem_cons_self).value (.object [] (some key) :: stack)
          (memberTokens false members ++ .closeObject :: rest)
        have others :=
          read?_members (fun w mem => ih w (List.mem_cons_of_mem _ mem)) [] key v stack rest
        have spelt : memberTokens true ((key, v) :: members) ++ .closeObject :: rest =
            .quoted (some key) :: .colon ::
              (tokens v ++ (memberTokens false members ++ .closeObject :: rest)) := by
          simp [memberTokens]
        rw [spelt, read?, read?, first]
        exact others
    have spelt (rest : List Token) : tokens (.object members) ++ rest =
        .openObject :: (memberTokens true members ++ .closeObject :: rest) := by
      simp [tokens]
    constructor
    · intro stack rest
      rw [spelt]
      exact inside stack rest
    · intro stack rest
      rw [spelt]
      exact inside stack rest

/-- A sound value is read back from its written form. -/
theorem ofText?_render {v : Json} (sound : IsSound v) : ofText? v.render = some v := by
  have read := (reads_of_isSound sound).value [] []
  rw [List.append_nil] at read
  rw [ofText?, render, String.toList_ofList, tokens?_chars sound, Option.bind_some, read]
  rfl

end BuildSupervisor.Json
