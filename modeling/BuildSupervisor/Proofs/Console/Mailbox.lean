import BuildSupervisor.Proofs.Console.Hall
/-!
# Mailboxes

A mailbox is what a capture would be if every chunk were put before each subscriber on its own.
Nothing of it is shared: what is done to other captures does not enter into it.  A mailbox hands
out the newest chunks it has not handed out yet, at most as many as its size says; what it was
presented with and what it has handed out are kept in full, so that `Sound`, `no_loss` and
`all_before_end` can speak of all of it.
-/

namespace BuildSupervisor

/-- The last chunks, at most so many. -/
def newest (size : Nat) (chunks : List Chunk) : List Chunk :=
  chunks.drop (chunks.length - size)

theorem length_newest (size : Nat) (chunks : List Chunk) :
    (newest size chunks).length = min chunks.length size := by
  rw [newest, List.length_drop]
  omega

theorem newest_of_le {size : Nat} {chunks : List Chunk} (h : chunks.length ≤ size) :
    newest size chunks = chunks := by
  rw [newest, Nat.sub_eq_zero_of_le h, List.drop_zero]

theorem newest_sublist (size : Nat) (chunks : List Chunk) :
    (newest size chunks).Sublist chunks :=
  List.drop_sublist _ _

theorem newest_nil (size : Nat) : newest size [] = [] :=
  List.drop_nil

/-- What is left of the newest chunks is not more than fits. -/
theorem newest_of_newest_cons {size : Nat} {chunks rest : List Chunk} {c : Chunk}
    (h : newest size chunks = c :: rest) : newest size rest = rest := by
  have length := length_newest size chunks
  rw [h, List.length_cons] at length
  exact newest_of_le (by omega)

theorem newest_eq_nil {size : Nat} (positive : 0 < size) {chunks : List Chunk}
    (h : newest size chunks = []) : chunks = [] := by
  have length := length_newest size chunks
  rw [h, List.length_nil] at length
  exact List.length_eq_zero_iff.mp (by omega)

structure Mailbox where
  endLines : Bool
  /-- The console has been closed. -/
  closed : Bool
  subscribed : Bool
  /-- All chunks that were published while it was open. -/
  published : List Chunk
  /-- Those of them that were published while there was a subscription. -/
  presented : List Chunk
  /-- Those that are still to be handed out, lost ones among them. -/
  unread : List Chunk
  /-- Those that were handed out. -/
  delivered : List Chunk
  /-- Those that were handed out since the texts were last taken or forgotten. -/
  held : List Chunk

namespace Mailbox

open Capture (Use Reply)

def new (endLines : Bool) : Mailbox :=
  ⟨endLines, false, false, [], [], [], [], []⟩

/-- What one stream has shown since the texts were last taken or forgotten. -/
def text (m : Mailbox) (stream : OutputKind) : String :=
  transcript m.endLines stream m.held

def publish (m : Mailbox) (c : Chunk) : Mailbox :=
  if m.closed then m
  else if m.subscribed then
    { m with
      published := m.published ++ [c]
      presented := m.presented ++ [c]
      unread := m.unread ++ [c] }
  else { m with published := m.published ++ [c] }

def handOut (m : Mailbox) (chunks : List Chunk) : Mailbox :=
  { m with delivered := m.delivered ++ chunks, held := m.held ++ chunks }

/-- Without a subscription. -/
def leave (m : Mailbox) : Mailbox :=
  { m with subscribed := false, unread := [] }

/-- Subscribes, unless the console is closed. -/
def enrol (m : Mailbox) : Reply × Mailbox :=
  if m.subscribed then (.admitted true, m)
  else if m.closed then (.admitted false, m)
  else (.admitted true, { m with subscribed := true })

/-- Hands out the newest of what is unread, and forgets the rest. -/
def drain (size : Nat) (m : Mailbox) : Reply × Mailbox :=
  let all := { m.handOut (newest size m.unread) with unread := [] }
  (.counted (newest size m.unread).length, if m.closed then all.leave else all)

/-- Hands out the first of the newest of what is unread.  Where there is nothing, the end of a
    closed console is told, and ends the subscription. -/
def listen (size : Nat) (m : Mailbox) : Reply × Mailbox :=
  match newest size m.unread with
  | c :: rest => (.heard (.chunk c), { m.handOut [c] with unread := rest })
  | [] => if m.subscribed && m.closed then (.heard .closed, m.leave) else (.heard .pending, m)

/-- What is asked of a mailbox, and its reply. -/
def use (size : Nat) (m : Mailbox) : Use → Reply × Mailbox
  | .subscribe => m.enrol
  | .unsubscribe => (.wasSubscribed m.subscribed, m.leave)
  | .drain => m.drain size
  | .listen => m.listen size
  | .take => (.texts (m.text .normal) (m.text .error), { m with held := [] })
  | .reset => (.done, { m.leave with held := [] })

/-- What happens to the mailbox of number `i`. -/
def act (size i : Nat) (m : Mailbox) : Hall.Act → Mailbox
  | .publish c => m.publish c
  | .close => { m with closed := true }
  | .use j u => if j = i then (m.use size u).2 else m

def run (size i : Nat) (m : Mailbox) : List Hall.Act → Mailbox
  | [] => m
  | a :: acts => run size i (m.act size i a) acts

def replies (size i : Nat) (m : Mailbox) : List Hall.Act → List Reply
  | [] => []
  | .use j u :: acts =>
    if j = i then (m.use size u).1 :: replies size i (m.act size i (.use j u)) acts
    else replies size i (m.act size i (.use j u)) acts
  | a :: acts => replies size i (m.act size i a) acts

variable {size i : Nat} {m : Mailbox}

theorem act_mine (u : Use) : m.act size i (.use i u) = (m.use size u).2 :=
  if_pos rfl

theorem act_other {j : Nat} (other : j ≠ i) (u : Use) : m.act size i (.use j u) = m :=
  if_neg other

/-- Everything that can become of a mailbox of which something is asked. -/
inductive Used (size : Nat) (m : Mailbox) : Use → Mailbox → Prop where
  | same {u : Use} : u ≠ .unsubscribe → u ≠ .reset → Used size m u m
  | enrolled : Used size m .subscribe { m with subscribed := true }
  | left : Used size m .unsubscribe m.leave
  | drained : Used size m .drain { m.handOut (newest size m.unread) with unread := [] }
  | drainedToEnd :
      Used size m .drain { m.handOut (newest size m.unread) with unread := [] }.leave
  | heard (c : Chunk) (rest : List Chunk) : newest size m.unread = c :: rest →
      Used size m .listen { m.handOut [c] with unread := rest }
  | heardEnd : newest size m.unread = [] → Used size m .listen m.leave
  | taken : Used size m .take { m with held := [] }
  | reset : Used size m .reset { m.leave with held := [] }

theorem used_use (size : Nat) (m : Mailbox) (u : Use) : Used size m u (m.use size u).2 := by
  cases u with
  | subscribe =>
    change Used size m .subscribe m.enrol.2
    unfold enrol
    split
    · exact .same nofun nofun
    · split
      · exact .same nofun nofun
      · exact .enrolled
  | unsubscribe => exact .left
  | drain =>
    change Used size m .drain (m.drain size).2
    unfold drain
    dsimp only
    split
    · exact .drainedToEnd
    · exact .drained
  | listen =>
    change Used size m .listen (m.listen size).2
    unfold listen
    split
    · rename_i c rest first
      exact .heard c rest first
    · rename_i nothing
      split
      · exact .heardEnd nothing
      · exact .same nofun nofun
  | take => exact .taken
  | reset => exact .reset

/-- What has been published, and how, is the same. -/
structure Frame (m m' : Mailbox) : Prop where
  endLines : m'.endLines = m.endLines
  closed : m'.closed = m.closed
  presented : m'.presented = m.presented

/-- What is asked of a mailbox only bears on what it hands out. -/
theorem frame_use (size : Nat) (m : Mailbox) (u : Use) : Frame m (m.use size u).2 := by
  have used := used_use size m u
  generalize (m.use size u).2 = m' at used ⊢
  cases used <;> exact ⟨rfl, rfl, rfl⟩

theorem endLines_act (a : Hall.Act) : (m.act size i a).endLines = m.endLines := by
  cases a with
  | publish c =>
    change (m.publish c).endLines = m.endLines
    unfold publish
    split
    · rfl
    · split <;> rfl
  | close => rfl
  | use j u =>
    by_cases mine : j = i
    · rw [mine, act_mine, (frame_use size m u).endLines]
    · rw [act_other mine]

theorem endLines_run (acts : List Hall.Act) : (m.run size i acts).endLines = m.endLines := by
  induction acts generalizing m with
  | nil => rfl
  | cons a acts ih => exact ih.trans (endLines_act a)

/-- The act has to do with the mailbox of that number. -/
def Concerns (i : Nat) : Hall.Act → Bool
  | .publish _ => true
  | .close => true
  | .use j _ => j = i

/-- What does not concern a mailbox might as well not happen. -/
theorem run_filter (size i : Nat) (m : Mailbox) (acts : List Hall.Act) :
    m.run size i (acts.filter (Concerns i)) = m.run size i acts ∧
      m.replies size i (acts.filter (Concerns i)) = m.replies size i acts := by
  induction acts generalizing m with
  | nil => exact ⟨rfl, rfl⟩
  | cons a acts ih =>
    cases a with
    | publish c => exact ih _
    | close => exact ih _
    | use j u =>
      by_cases mine : j = i
      · have concerned : Concerns i (.use j u) = true := decide_eq_true mine
        rw [List.filter_cons_of_pos concerned]
        obtain ⟨state, replies⟩ := ih (m.act size i (.use j u))
        exact ⟨state, by simp only [Mailbox.replies, mine, if_true] at replies ⊢; rw [replies]⟩
      · have other : ¬Concerns i (.use j u) = true := fun concerned =>
          mine (of_decide_eq_true concerned)
        rw [List.filter_cons_of_neg other]
        simp only [run, Mailbox.replies, act_other mine, if_neg mine]
        exact ih m

/-! ## What a mailbox keeps -/

/-- What was handed out, and what is still to be, is some of what was presented, in its order. -/
structure Sound (m : Mailbox) : Prop where
  rest : m.subscribed = false → m.unread = []
  held : m.held <:+ m.delivered
  once : (m.delivered ++ m.unread).Sublist m.presented

theorem sound_new (endLines : Bool) : (new endLines).Sound :=
  ⟨fun _ => rfl, List.suffix_refl [], List.Sublist.refl []⟩

namespace Sound

variable (h : m.Sound)

include h

theorem publish (c : Chunk) : (m.publish c).Sound := by
  unfold Mailbox.publish
  split
  · exact h
  · split
    · rename_i subscribed
      refine ⟨fun rest => absurd (subscribed.symm.trans rest) Bool.true_eq_false.mp, h.held, ?_⟩
      rw [← List.append_assoc]
      exact h.once.append (.refl [c])
    · exact ⟨h.rest, h.held, h.once⟩

theorem leave : m.leave.Sound :=
  ⟨fun _ => rfl, h.held,
    ((List.Sublist.refl m.delivered).append (List.nil_sublist m.unread)).trans h.once⟩

/-- Handing out some of what is unread, and forgetting what comes before it. -/
theorem handOut {chunks rest : List Chunk} (among : (chunks ++ rest).Sublist m.unread) :
    Sound { m.handOut chunks with unread := rest } := by
  constructor
  case rest =>
    intro idle
    rw [h.rest idle, List.sublist_nil] at among
    exact (List.append_eq_nil_iff.mp among).2
  case held =>
    obtain ⟨before, whole⟩ := h.held
    refine ⟨before, ?_⟩
    change before ++ (m.held ++ chunks) = m.delivered ++ chunks
    rw [← List.append_assoc, whole]
  case once =>
    change (m.delivered ++ chunks ++ rest).Sublist m.presented
    rw [List.append_assoc]
    exact ((List.Sublist.refl _).append among).trans h.once

theorem forget : Sound { m with held := [] } :=
  ⟨h.rest, List.nil_suffix, h.once⟩

theorem drained (size : Nat) :
    Sound { m.handOut (newest size m.unread) with unread := [] } := by
  refine h.handOut ?_
  rw [List.append_nil]
  exact newest_sublist size m.unread

theorem use (size : Nat) (u : Use) : (m.use size u).2.Sound := by
  have used := used_use size m u
  generalize (m.use size u).2 = m' at used ⊢
  cases used with
  | same _ _ => exact h
  | enrolled => exact ⟨nofun, h.held, h.once⟩
  | left => exact h.leave
  | drained => exact h.drained size
  | drainedToEnd => exact (h.drained size).leave
  | heard c rest first =>
    refine h.handOut ?_
    rw [List.singleton_append, ← first]
    exact newest_sublist size m.unread
  | heardEnd _ => exact h.leave
  | taken => exact h.forget
  | reset => exact h.leave.forget

theorem act (size i : Nat) (a : Hall.Act) : (m.act size i a).Sound := by
  cases a with
  | publish c => exact h.publish c
  | close => exact ⟨h.rest, h.held, h.once⟩
  | use j u =>
    by_cases mine : j = i
    · rw [mine, act_mine]
      exact h.use size u
    · rw [act_other mine]
      exact h

end Sound

theorem Sound.run (h : m.Sound) (size i : Nat) (acts : List Hall.Act) :
    (m.run size i acts).Sound := by
  induction acts generalizing m with
  | nil => exact h
  | cons a acts ih => exact ih (h.act size i a)

/-- The subscription is not given up. -/
def Stays (i : Nat) (acts : List Hall.Act) : Prop :=
  .use i .unsubscribe ∉ acts ∧ .use i .reset ∉ acts

/-- What an act does to what a mailbox has before it, if the subscription is not given up: some
    chunk may be presented, or some of what is there is handed out. -/
inductive Passes (size : Nat) (m m' : Mailbox) : Prop where
  | waits (new : List Chunk) : m'.presented = m.presented ++ new → m'.delivered = m.delivered →
      m'.unread = m.unread ++ new → (m.closed = true → new = []) → Passes size m m'
  | reads (out : List Chunk) : m'.presented = m.presented → m'.delivered = m.delivered ++ out →
      out ++ m'.unread = newest size m.unread → newest size m'.unread = m'.unread →
      Passes size m m'

/-- Nothing is presented, and nothing handed out. -/
theorem passes_of_kept {m' : Mailbox} (presented : m'.presented = m.presented)
    (delivered : m'.delivered = m.delivered) (unread : m'.unread = m.unread) :
    Passes size m m' :=
  .waits [] (presented.trans (List.append_nil _).symm) delivered
    (unread.trans (List.append_nil _).symm) fun _ => rfl

theorem passes_use {u : Use} (stays : u ≠ .unsubscribe) (stays' : u ≠ .reset) :
    Passes size m (m.use size u).2 := by
  have out := List.append_nil (newest size m.unread)
  have used := used_use size m u
  generalize (m.use size u).2 = m' at used ⊢
  cases used with
  | same _ _ => exact passes_of_kept rfl rfl rfl
  | enrolled => exact passes_of_kept rfl rfl rfl
  | left => exact absurd rfl stays
  | drained => exact .reads _ rfl rfl out (newest_nil size)
  | drainedToEnd => exact .reads _ rfl rfl out (newest_nil size)
  | heard c rest first => exact .reads [c] rfl rfl first.symm (newest_of_newest_cons first)
  | heardEnd nothing => exact .reads [] rfl (List.append_nil _).symm nothing.symm (newest_nil size)
  | taken => exact passes_of_kept rfl rfl rfl
  | reset => exact absurd rfl stays'

theorem passes_act {a : Hall.Act} (stays : Stays i [a]) : Passes size m (m.act size i a) := by
  cases a with
  | publish c =>
    change Passes size m (m.publish c)
    unfold Mailbox.publish
    split
    · exact passes_of_kept rfl rfl rfl
    · rename_i running
      split
      · exact .waits [c] rfl rfl rfl fun closed => absurd closed running
      · exact passes_of_kept rfl rfl rfl
  | close => exact passes_of_kept rfl rfl rfl
  | use j u =>
    by_cases mine : j = i
    · subst mine
      rw [act_mine]
      refine passes_use ?_ ?_
      · rintro rfl
        exact stays.1 (List.mem_singleton_self _)
      · rintro rfl
        exact stays.2 (List.mem_singleton_self _)
    · rw [act_other mine]
      exact passes_of_kept rfl rfl rfl

theorem stays_cons {a : Hall.Act} {acts : List Hall.Act} :
    Stays i (a :: acts) ↔ Stays i [a] ∧ Stays i acts := by
  simp only [Stays, List.mem_cons, List.not_mem_nil, or_false, not_or]
  exact and_and_and_comm

theorem presented_publish (m : Mailbox) (c : Chunk) :
    (m.publish c).presented =
      m.presented ++ if m.subscribed && !m.closed then [c] else [] := by
  unfold publish
  cases m.closed <;> cases m.subscribed <;> simp

/-- There is never more to be handed out than fits. -/
def KeepsUp (size i : Nat) (m : Mailbox) : List Hall.Act → Prop
  | [] => m.unread.length ≤ size
  | a :: acts => m.unread.length ≤ size ∧ KeepsUp size i (m.act size i a) acts

instance decidableKeepsUp (size i : Nat) (m : Mailbox) :
    (acts : List Hall.Act) → Decidable (KeepsUp size i m acts)
  | [] => inferInstanceAs (Decidable (_ ≤ _))
  | a :: acts =>
    have := decidableKeepsUp size i (m.act size i a) acts
    inferInstanceAs (Decidable (_ ∧ _))

/-- A mailbox in which there is never more than fits loses nothing of what it is presented with. -/
theorem no_loss {acts : List Hall.Act} (stays : Stays i acts) (keepsUp : KeepsUp size i m acts) :
    ∃ new out, (m.run size i acts).presented = m.presented ++ new ∧
      (m.run size i acts).delivered = m.delivered ++ out ∧
      out ++ (m.run size i acts).unread = m.unread ++ new := by
  induction acts generalizing m with
  | nil => exact ⟨[], [], (List.append_nil _).symm, (List.append_nil _).symm,
      (List.append_nil _).symm⟩
  | cons a acts ih =>
    obtain ⟨first, others⟩ := stays_cons.mp stays
    obtain ⟨fits, keepsUp⟩ := keepsUp
    obtain ⟨new, out, presented, delivered, all⟩ := ih others keepsUp
    unfold Mailbox.run
    rw [presented, delivered]
    cases passes_act first with
    | waits more presented' delivered' unread _ =>
      refine ⟨more ++ new, out, ?_, ?_, ?_⟩
      · rw [presented', List.append_assoc]
      · rw [delivered']
      · rw [all, unread, List.append_assoc]
    | reads before presented' delivered' unread _ =>
      rw [newest_of_le fits] at unread
      refine ⟨new, before ++ out, ?_, ?_, ?_⟩
      · rw [presented']
      · rw [delivered', List.append_assoc]
      · rw [List.append_assoc, all, ← List.append_assoc, unread]

theorem closed_act (closed : m.closed = true) (a : Hall.Act) :
    (m.act size i a).closed = true := by
  cases a with
  | publish c =>
    change (m.publish c).closed = true
    rw [publish, if_pos closed]
    exact closed
  | close => rfl
  | use j u =>
    by_cases mine : j = i
    · rw [mine, act_mine, (frame_use size m u).closed]
      exact closed
    · rw [act_other mine]
      exact closed

/-- Once the console is closed, what is handed out is the newest of what was there, and all of it
    is before the subscription ends. -/
theorem all_before_end {acts : List Hall.Act} (closed : m.closed = true) (stays : Stays i acts) :
    (m.run size i acts).presented = m.presented ∧
      ∃ out, (m.run size i acts).delivered = m.delivered ++ out ∧
        out ++ newest size (m.run size i acts).unread = newest size m.unread := by
  induction acts generalizing m with
  | nil => exact ⟨rfl, [], (List.append_nil _).symm, rfl⟩
  | cons a acts ih =>
    obtain ⟨first, others⟩ := stays_cons.mp stays
    obtain ⟨presented, out, delivered, all⟩ := ih (closed_act closed a) others
    unfold Mailbox.run
    rw [presented, delivered]
    cases passes_act first with
    | waits more presented' delivered' unread none_ =>
      rw [none_ closed, List.append_nil] at presented' unread
      refine ⟨presented', out, ?_, ?_⟩
      · rw [delivered']
      · rw [all, unread]
    | reads before presented' delivered' unread few =>
      refine ⟨presented', before ++ out, ?_, ?_⟩
      · rw [delivered', List.append_assoc]
      · rw [List.append_assoc, all, few, unread]

/-- The end of a closed console is told behind all chunks that are left, and ends the
    subscription. -/
theorem listen_closed (size i : Nat) (closed : m.closed = true) (subscribed : m.subscribed = true) :
    m.replies size i (List.replicate ((newest size m.unread).length + 1) (.use i .listen)) =
        (newest size m.unread).map (fun c => .heard (.chunk c)) ++ [.heard .closed] ∧
      (m.run size i
        (List.replicate ((newest size m.unread).length + 1) (.use i .listen))).subscribed =
          false := by
  generalize left : newest size m.unread = chunks
  induction chunks generalizing m with
  | nil =>
    have ended : m.use size .listen = (.heard .closed, m.leave) := by
      simp only [use, listen, left, subscribed, closed, Bool.and_self, if_true]
    simp only [List.length_nil, Nat.zero_add, List.replicate_one, replies, run, act, if_true,
      ended, List.map_nil, List.nil_append]
    exact ⟨trivial, rfl⟩
  | cons c rest ih =>
    have heard : m.use size .listen =
        (.heard (.chunk c), { m.handOut [c] with unread := rest }) := by
      simp only [use, listen, left]
    have others := ih (m := { m.handOut [c] with unread := rest }) closed subscribed
      (newest_of_newest_cons left)
    rw [List.length_cons, List.replicate_succ]
    simp only [replies, run, act, if_true, heard, List.map_cons, List.cons_append]
    exact ⟨congrArg _ others.1, others.2⟩

end Mailbox

end BuildSupervisor
