import BuildSupervisor.Proofs.Schedule.Actions
/-!
# Schedules in order

The jobs of a schedule stand in the order in which they are due, so that a job that is due later
than a given time keeps none waiting that is due earlier.
-/

namespace BuildSupervisor

namespace Duration

theorem le_def {a b : Duration} : a ≤ b ↔ a.nanos ≤ b.nanos :=
  Iff.rfl

theorem lt_def {a b : Duration} : a < b ↔ a.nanos < b.nanos :=
  Iff.rfl

theorem nanos_add (a b : Duration) : (a.add b).nanos = min (a.nanos + b.nanos) maxNanos :=
  rfl

theorem le_trans {a b c : Duration} (h : a ≤ b) (h' : b ≤ c) : a ≤ c :=
  Nat.le_trans (le_def.mp h) (le_def.mp h')

theorem not_lt {a b : Duration} : ¬a < b ↔ b ≤ a :=
  Nat.not_lt

theorem le_add_right (a b : Duration) : a ≤ a.add b := by
  have bounded := a.bounded
  rw [le_def, nanos_add]
  omega

theorem add_assoc (a b c : Duration) : a.add (b.add c) = (a.add b).add c := by
  refine Duration.ext ?_
  simp only [nanos_add]
  omega

theorem add_le_add_left {b c : Duration} (h : b ≤ c) (a : Duration) : a.add b ≤ a.add c := by
  rw [le_def] at h ⊢
  rw [nanos_add, nanos_add]
  omega

end Duration

namespace Schedule

variable {α : Type u} {β : Type v} {s rest : Schedule α} {target : Duration} {t : ScheduledJob α}

/-- No job stands behind one that is due later. -/
def Ordered (s : Schedule α) : Prop :=
  s.pending.Pairwise fun a b => a.due ≤ b.due

theorem pairwise_insert (t : ScheduledJob α) {pending : List (ScheduledJob α)}
    (h : pending.Pairwise fun a b => a.due ≤ b.due) :
    (insert t pending).Pairwise fun a b => a.due ≤ b.due := by
  induction pending with
  | nil => exact List.pairwise_singleton _ t
  | cons other rest ih =>
    obtain ⟨first, behind⟩ := List.pairwise_cons.mp h
    unfold insert
    split
    · rename_i sooner
      refine List.pairwise_cons.mpr ⟨?_, h⟩
      intro later mem
      rw [Duration.lt_def] at sooner
      rw [Duration.le_def]
      rcases List.mem_cons.mp mem with rfl | mem
      · omega
      · have := Duration.le_def.mp (first later mem)
        omega
    · rename_i notSooner
      refine List.pairwise_cons.mpr ⟨?_, ih behind⟩
      intro later mem
      rcases mem_insert.mp mem with rfl | mem
      · rw [Duration.lt_def] at notSooner
        rw [Duration.le_def]
        omega
      · exact first later mem

theorem Ordered.schedule (h : s.Ordered) (delay : Duration) (job : Job α) :
    (s.schedule delay job).Ordered :=
  pairwise_insert _ h

theorem Ordered.pop? (h : s.Ordered) (popped : s.pop? target = some (t, rest)) :
    rest.Ordered := by
  unfold Ordered at h
  rw [(pop?_eq_some popped).1] at h
  exact h.of_cons

/-- Where the first job is not due yet, none is. -/
theorem Ordered.lt_due (h : s.Ordered) (none_ : s.pop? target = none)
    (mem : t ∈ s.pending) : target < t.due := by
  unfold Schedule.pop? at none_
  split at none_
  · rename_i empty
    rw [empty] at mem
    cases mem
  · rename_i first others split_
    split at none_
    · cases none_
    · rename_i late
      unfold Ordered at h
      rw [split_] at h mem
      rw [Duration.le_def] at late
      rw [Duration.lt_def]
      rcases List.mem_cons.mp mem with rfl | mem
      · omega
      · have := Duration.le_def.mp (List.rel_of_pairwise_cons h mem)
        omega

/-- What is looked for among jobs of which only the new one can be it. -/
theorem findSome?_insert (f : ScheduledJob α → Option β) (t : ScheduledJob α)
    {pending : List (ScheduledJob α)} (h : ∀ other ∈ pending, f other = none) :
    (insert t pending).findSome? f = f t := by
  have others : pending.findSome? f = none := List.findSome?_eq_none_iff.mpr h
  induction pending with
  | nil => simp [insert]
  | cons other rest ih =>
    have no : f other = none := h other List.mem_cons_self
    unfold insert
    split
    · rw [List.findSome?_cons, others]
      cases f t <;> rfl
    · rw [List.findSome?_cons, no] at others ⊢
      exact ih (fun other mem => h other (List.mem_cons_of_mem _ mem)) others

end Schedule

end BuildSupervisor
