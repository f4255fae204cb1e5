import BuildSupervisor.Invoker
import BuildSupervisor.Proofs.Service.Turn
import BuildSupervisor.Proofs.Session.Deadline
/-!
# Services that wait

A service that waits has turns until it can do nothing more, and then lets what is due arrive.  Its
turns take no time, and put nothing off any more once the inbox is empty: so as many arrivals as
there are scheduled tasks bring the clock to the time for which the service waits.
-/

namespace BuildSupervisor

/-- A service with another schedule. -/
def Service.withSchedule (v : Service) (schedule : Schedule Deferred) : Service :=
  { v with session := { v.session with schedule := schedule } }

theorem Invoker.step?_withSchedule (i : Invoker) (first : OutputKind) (v : Service)
    (schedule : Schedule Deferred) :
    i.step? first (v.withSchedule schedule) =
      (i.step? first v).map fun (j, w) => (j, w.withSchedule schedule) := by
  obtain ⟨command, launch, ticket, listener, phase⟩ := i
  cases phase with
  | asking =>
    have reply : (v.withSchedule schedule).reply? ticket = v.reply? ticket := rfl
    have stopped : (v.withSchedule schedule).stopped = v.stopped := rfl
    have environment : (v.withSchedule schedule).session.environment = v.session.environment := rfl
    simp only [step?, takeReply?, reply, stopped, startTool, environment]
    cases v.reply? ticket with
    | none => cases v.stopped <;> rfl
    | some r =>
      cases r with
      | started outcome =>
        cases outcome with
        | error failure => rfl
        | ok answer =>
          cases answer with
          | busy active => rfl
          | accepted id => cases launch v.session.environment <;> rfl
      | done => cases v.stopped <;> rfl
      | status s => cases v.stopped <;> rfl
  | running id tool =>
    simp only [step?, readTool]
    cases tool.read? first <;> rfl
  | reporting id ended =>
    have stopped : (v.withSchedule schedule).stopped = v.stopped := rfl
    simp only [step?, report, Service.send?, stopped]
    cases v.stopped <;> rfl
  | waiting id ended =>
    have events : (v.withSchedule schedule).session.events = v.session.events := rfl
    simp only [step?, takeResult?, events]
    cases v.session.events.completionOf id listener with
    | mk answer cursor =>
      cases answer with
      | error failure => rfl
      | ok found =>
        cases found with
        | none => rfl
        | some n =>
          dsimp only
          rw [Option.map_map]
          rfl
  | _ => rfl

/-- What the next turn of an invoker brings does not depend on what is scheduled. -/
theorem Invoker.nextOutcome?_withSchedule (i : Invoker) (v : Service)
    (schedule : Schedule Deferred) :
    i.nextOutcome? (v.withSchedule schedule) = i.nextOutcome? v := by
  rw [nextOutcome?, step?_withSchedule, nextOutcome?]
  cases i.step? .normal v with
  | none => rfl
  | some next =>
    obtain ⟨⟨command, launch, ticket, listener, phase⟩, w⟩ := next
    cases phase <;> rfl

namespace Service

/-- Whether the service has something to do does not depend on what is scheduled. -/
theorem isSome_step?_withSchedule (v : Service) (schedule : Schedule Deferred) :
    (v.withSchedule schedule).step?.isSome = v.step?.isSome := by
  have serve (s : Session) (schedule : Schedule Deferred) :
      ({ v with session := { s with schedule := schedule } } : Service).serve?.isSome =
        ({ v with session := s } : Service).serve?.isSome := by
    unfold serve?
    dsimp only
    split
    · rfl
    · split
      · rfl
      · split <;> rfl
  unfold step?
  have next : (v.withSchedule schedule).session.nextChunk =
      (v.session.nextChunk.1, { v.session.nextChunk.2 with schedule := schedule }) := rfl
  have stopped : (v.withSchedule schedule).stopped = v.stopped := rfl
  rw [next, stopped]
  cases v.session.nextChunk with
  | mk chunk s =>
    split
    · rfl
    · cases chunk with
      | chunk c => rfl
      | closed => rfl
      | pending => exact serve s schedule

variable {v w : Service} {target : Duration} {β : Type u} {found : Service → Option β}

/-! ## Turns take no time -/

theorem now_handle (v : Service) (ticket : Ticket) (command : Command) :
    (v.handle ticket command).session.schedule.now = v.session.schedule.now := by
  cases command with
  | start request =>
    have timing := v.session.timing_start v.located request
    change (v.session.start v.located request).2.schedule.now = _
    generalize (v.session.start v.located request).2 = t at timing
    cases timing with
    | kept _ schedule => rw [schedule]
    | rested _ schedule => rw [schedule]
    | armed _ _ _ _ schedule =>
      rw [schedule, Session.putOffAtStart]
      split <;> rfl
  | buildComplete succeeded said =>
    change (v.session.onBuildComplete succeeded said).2.schedule.now = _
    unfold Session.onBuildComplete
    split
    · rfl
    · split <;> rfl
  | reset => rfl
  | status => rfl
  | shutdown => rfl

theorem now_step (step : v.step? = some w) :
    w.session.schedule.now = v.session.schedule.now := by
  have turn := v.step_cases
  rw [step] at turn
  cases turn with
  | heard _ _ looked => rw [looked.schedule]
  | did _ _ _ looked => rw [Session.schedule_runDeferred, looked.schedule]
  | @took u ticket command rest _ _ _ _ looked =>
    rw [now_handle]
    exact congrArg Schedule.now looked.schedule
  | ended _ _ looked => exact congrArg Schedule.now looked.schedule

/-- No command waits that the service could take. -/
def IsServed (v : Service) : Prop :=
  v.stopped = true ∨ v.inbox = []

theorem isServed_of_waits (waits : v.step? = none) : IsServed v :=
  (waits_of_step waits).imp_right fun nothing => nothing.2.2.1

/-- Without commands, nothing is put off. -/
theorem schedule_step (served : IsServed v) (step : v.step? = some w) :
    IsServed w ∧ w.session.schedule = v.session.schedule := by
  rcases served with stopped | empty
  · cases stopped.symm.trans (enters_of_step step).1
  · have turn := v.step_cases
    rw [step] at turn
    cases turn with
    | heard _ _ looked => exact ⟨.inr (looked.inbox.trans empty), looked.schedule⟩
    | did _ _ _ looked =>
      refine ⟨.inr (looked.inbox.trans empty), ?_⟩
      rw [Session.schedule_runDeferred, looked.schedule]
    | took _ _ _ inbox _ => cases empty.symm.trans inbox
    | ended _ _ looked => exact ⟨.inr rfl, looked.schedule⟩

/-! ## Turns until the service waits -/

theorem step?_settle (v : Service) : v.settle.step? = none := by
  fun_induction settle v with
  | case1 v waits => exact waits
  | case2 v next _ ih => exact ih

theorem now_settle (v : Service) : v.settle.session.schedule.now = v.session.schedule.now := by
  fun_induction settle v with
  | case1 => rfl
  | case2 v next step ih => exact ih.trans (now_step step)

theorem schedule_settle (served : IsServed v) :
    v.settle.session.schedule = v.session.schedule := by
  fun_induction settle v with
  | case1 => rfl
  | case2 v next step ih =>
    obtain ⟨still, same⟩ := schedule_step served step
    exact (ih still).trans same

/-! ## Waiting -/

/-- Nothing is left to do up to a time that has not come yet. -/
structure Idles (v : Service) (target : Duration) : Prop where
  waits : v.step? = none
  due : v.session.schedule.pop? target = none
  now : v.session.schedule.now ≤ target

theorem step?_arriveUntil {n : Nat} (waits : v.step? = none) :
    (arriveUntil found target n v).2.step? = none := by
  fun_induction arriveUntil found target n v with
  | case1 => exact waits
  | case2 => exact waits
  | case3 => exact waits
  | case4 n v _ w _ ih => exact ih w.step?_settle

/-- What has been found is there in the end. -/
theorem found_arriveUntil {n : Nat} {b : β} (there : (arriveUntil found target n v).1 = some b) :
    found (arriveUntil found target n v).2 = some b := by
  fun_induction arriveUntil found target n v with
  | case1 => exact there
  | case2 _ _ _ now => exact now.trans there
  | case3 => cases there
  | case4 _ _ _ _ _ ih => exact ih there

/-- Where nothing is found, everything has arrived that is due, and nothing is there. -/
theorem idles_arriveUntil {n : Nat} (waits : v.step? = none)
    (early : v.session.schedule.now ≤ target) (few : v.session.schedule.pending.length ≤ n)
    (nothing : (arriveUntil found target n v).1 = none) :
    Idles (arriveUntil found target n v).2 target ∧
      found (arriveUntil found target n v).2 = none := by
  fun_induction arriveUntil found target n v with
  | case1 v =>
    refine ⟨⟨waits, ?_, early⟩, nothing⟩
    rw [Schedule.pop?, List.eq_nil_of_length_eq_zero (Nat.le_zero.mp few)]
  | case2 => cases nothing
  | case3 n v there none_ => exact ⟨⟨waits, Option.map_eq_none_iff.mp none_, early⟩, there⟩
  | case4 n v _ w arrives ih =>
    obtain ⟨⟨t, rest⟩, popped, rfl⟩ := Option.map_eq_some_iff.mp arrives
    obtain ⟨pending, due, moved⟩ := Schedule.pop?_eq_some popped
    have served : IsServed v := isServed_of_waits waits
    have same := schedule_settle (v := { v with
      session := { v.session with schedule := rest }
      arrived := if v.stopped then [] else v.arrived ++ [t.job.action] }) served
    refine ih (step?_settle _) ?_ ?_ nothing
    · rw [same, moved]
      exact due
    · rw [pending, List.length_cons] at few
      rw [same]
      exact Nat.le_of_succ_le_succ few

/-- The service when the clock shows another time. -/
def clockAt (v : Service) (now : Duration) : Service :=
  v.withSchedule { v.session.schedule with now := now }

theorem step?_clockAt (waits : v.step? = none) (now : Duration) :
    (v.clockAt now).step? = none := by
  have same := v.isSome_step?_withSchedule { v.session.schedule with now := now }
  rw [waits] at same
  exact Option.isSome_eq_false_iff.mp same |> Option.isNone_iff_eq_none.mp

/-- What comes of waiting. -/
inductive Waited (found : Service → Option β) (target : Duration) (v : Service) :
    Option β × Service → Prop where
  | atOnce {b : β} : found v = some b → Waited found target v (some b, v)
  | later {n : Nat} {b : β} {w : Service} : arriveUntil found target n v.settle = (some b, w) →
      Waited found target v (some b, w)
  | nothing {w : Service} :
      arriveUntil found target v.settle.session.schedule.pending.length v.settle = (none, w) →
      Waited found target v (none, w.clockAt target)

theorem wait_cases (found : Service → Option β) (target : Duration) (v : Service) :
    Waited found target v (v.wait found target) := by
  unfold wait
  split
  · rename_i there
    exact .atOnce there
  · dsimp only
    split
    · rename_i there
      exact .later there
    · rename_i nothing
      exact .nothing nothing

/-- What a service waits for lets it come to the end of its turns. -/
theorem step?_of_arriveUntil {n : Nat} {b : Option β}
    (there : arriveUntil found target n v.settle = (b, w)) : w.step? = none := by
  have arrives : (arriveUntil found target n v.settle).2.step? = none :=
    step?_arriveUntil v.step?_settle
  rw [there] at arrives
  exact arrives

/-- A service that had nothing to do has nothing to do when it has waited. -/
theorem step?_wait (waits : v.step? = none) : (v.wait found target).2.step? = none := by
  have waited := v.wait_cases found target
  generalize v.wait found target = answer at waited
  cases waited with
  | atOnce _ => exact waits
  | later there => exact step?_of_arriveUntil there
  | nothing there => exact step?_clockAt (step?_of_arriveUntil there) target

theorem found_wait {b : β} (there : (v.wait found target).1 = some b) :
    found (v.wait found target).2 = some b := by
  have waited := v.wait_cases found target
  generalize v.wait found target = answer at there waited
  cases waited with
  | atOnce now => exact now.trans there
  | later arrives =>
    have last := found_arriveUntil (congrArg Prod.fst arrives)
    rw [arrives] at last
    exact last.trans there
  | nothing _ => cases there

/-- Where nothing is found, nothing is left to do, and the clock has gone on as far as it can. -/
theorem idles_wait (early : v.session.schedule.now ≤ target)
    (nothing : (v.wait found target).1 = none) :
    ∃ w, (v.wait found target).2 = w.clockAt target ∧ Idles w target ∧ found w = none := by
  have waited := v.wait_cases found target
  generalize v.wait found target = answer at nothing waited
  cases waited with
  | atOnce _ => cases nothing
  | later _ => cases nothing
  | @nothing w there =>
    obtain ⟨idles, missing⟩ := idles_arriveUntil v.step?_settle (by rw [v.now_settle]; exact early)
      (Nat.le_refl _) (congrArg Prod.fst there)
    rw [there] at idles missing
    exact ⟨w, rfl, idles, missing⟩

/-- A service that rests has nothing to do, and the clock shows what it showed. -/
theorem rest_idles (v : Service) :
    v.rest.step? = none ∧ v.rest.session.schedule.now = v.session.schedule.now := by
  have waited := v.wait_cases (fun _ => (none : Option Unit)) v.session.schedule.now
  unfold rest waitUntil
  generalize v.wait _ v.session.schedule.now = answer at waited
  cases waited with
  | atOnce there => cases there
  | later there => cases found_arriveUntil (congrArg Prod.fst there)
  | nothing there => exact ⟨step?_clockAt (step?_of_arriveUntil there) _, rfl⟩

end Service

end BuildSupervisor
