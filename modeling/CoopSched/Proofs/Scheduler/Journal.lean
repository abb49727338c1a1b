import CoopSched.Proofs.Scheduler.Segments

/-!
# The journal — what each part of a move writes down

A strand is created and then refused, finishes or is cancelled: these are the milestones of its
life, and everything else that the journal says about it happens in between. The lemmas here say
which milestones each part of a move writes down; the other records are idle ones, and nothing
depends on them.
-/

namespace CoopSched

variable {V B : Type}

/-- Does a strand come or go? -/
def Happening.isMilestone : Happening → Bool
  | .created | .rejected | .finished _ | .cancelled => true
  | .dispatched | .parked | .resumed | .unhandled _ => false

/-- Does a strand go? -/
def Happening.isEnd : Happening → Bool
  | .rejected | .finished _ | .cancelled => true
  | .created | .dispatched | .parked | .resumed | .unhandled _ => false

/-- Is the record about something between two milestones? -/
def Record.isIdle : Record V → Bool
  | .event e => !e.happening.isMilestone
  | .answered .. => false

namespace Scheduler

variable {s s' s'' : Scheduler V B} {id : StrandId}

/-- The journal has grown by these records. -/
def Tells (s s' : Scheduler V B) (recs : List (Record V)) : Prop :=
  s'.journal.toList = s.journal.toList ++ recs

/-- The journal has grown by idle records. -/
def Hushed (s s' : Scheduler V B) : Prop :=
  ∃ recs, Tells s s' recs ∧ ∀ rec ∈ recs, rec.isIdle = true

theorem Tells.of_journal (h : s'.journal = s.journal) : Tells s s' [] := by
  rw [Tells, h, List.append_nil]

theorem Tells.trans {recs recs' : List (Record V)} (h : Tells s s' recs)
    (h' : Tells s' s'' recs') : Tells s s'' (recs ++ recs') := by
  rw [Tells, h', h, List.append_assoc]

theorem Tells.push {rec : Record V} (h : s'.journal = s.journal.push rec) : Tells s s' [rec] := by
  rw [Tells, h, Array.toList_push]

theorem Hushed.of_journal (h : s'.journal = s.journal) : Hushed s s' :=
  ⟨[], .of_journal h, fun _ hrec => absurd hrec List.not_mem_nil⟩

theorem Hushed.push {rec : Record V} (h : s'.journal = s.journal.push rec)
    (hidle : rec.isIdle = true) : Hushed s s' :=
  ⟨[rec], .push h, fun _ hrec => List.mem_singleton.mp hrec ▸ hidle⟩

theorem Hushed.trans (h : Hushed s s') (h' : Hushed s' s'') : Hushed s s'' := by
  obtain ⟨recs, htells, hidle⟩ := h
  obtain ⟨recs', htells', hidle'⟩ := h'
  refine ⟨recs ++ recs', htells.trans htells', ?_⟩
  intro rec hrec
  exact (List.mem_append.mp hrec).elim (hidle rec) (hidle' rec)

theorem hushed_reportUnhandled (s : Scheduler V B) (id : StrandId) (outcome : Outcome V) :
    Hushed s (s.reportUnhandled id outcome) := by
  cases outcome with
  | ok v => exact .of_journal rfl
  | err e => exact .push rfl rfl

theorem hushed_reports (s : Scheduler V B) (left : List (ChildOutcome V)) :
    Hushed s (left.foldl (fun s c => s.reportUnhandled c.id c.outcome) s) := by
  induction left generalizing s with
  | nil => exact .of_journal rfl
  | cons c rest ih => exact (hushed_reportUnhandled s c.id c.outcome).trans (ih _)

theorem hushed_releaseChildren (s : Scheduler V B) (id : StrandId) :
    Hushed s (s.releaseChildren id) := by
  unfold releaseChildren
  split
  · exact .of_journal rfl
  next st hst => exact hushed_reports (s.updateStrand id fun st' =>
      { st' with children := st.children.close.1 }) st.children.close.2

theorem hushed_wake (alive : s.terminated = false) (id : StrandId) : Hushed s (s.wake id) := by
  unfold wake wakeWith
  rw [if_neg (by simp [alive])]
  split
  · exact .of_journal rfl
  next st hst =>
    cases st.status with
    | blocked => exact .push rfl rfl
    | _ => exact .of_journal rfl

theorem hushed_block (s : Scheduler V B) (id : StrandId) : Hushed s (s.block id) := by
  have hparked : Hushed s ((s.count .parked).emit id .parked) := .push rfl rfl
  unfold block
  dsimp only
  split
  · exact hparked
  next status hstatus =>
    split
    · exact hparked.trans (.push rfl rfl)
    · exact hparked.trans (.of_journal rfl)

/-- A strand that is cut off has reports made about its children, and then it is cancelled. -/
theorem cut_tells (s : Scheduler V B) (id : StrandId) (slot : Option BridgeId) :
    ∃ idle, Tells s (s.cut id slot) (idle ++ [.event ⟨id, .cancelled⟩]) ∧
      ∀ rec ∈ idle, rec.isIdle = true := by
  have hclose : ((s.updateStrand id fun st =>
      { st with status := .doneError, body := none }).closeBridge id slot).journal = s.journal := by
    cases slot with
    | none => rfl
    | some b =>
      rw [closeBridge_some]
      rfl
  obtain ⟨idle, htells, hidle⟩ := (Hushed.of_journal hclose).trans (hushed_releaseChildren _ id)
  exact ⟨idle, htells.trans (.push rfl), hidle⟩

/-- A strand finishes, and then reports are made about its children. -/
theorem markFinished_tells (s : Scheduler V B) (id : StrandId) (ok : Bool) :
    ∃ idle, Tells s (s.markFinished id ok) (.event ⟨id, .finished ok⟩ :: idle) ∧
      ∀ rec ∈ idle, rec.isIdle = true := by
  have hfinished : Tells s (((s.updateStrand id fun st =>
      { st with status := .finished ok, bridge := none }).count
      (if ok then .finishedOk else .finishedErr)).emit id (.finished ok))
      [.event ⟨id, .finished ok⟩] := .push rfl
  obtain ⟨idle, htells, hidle⟩ := hushed_releaseChildren (((s.updateStrand id fun st =>
      { st with status := .finished ok, bridge := none }).count
      (if ok then .finishedOk else .finishedErr)).emit id (.finished ok)) id
  exact ⟨idle, hfinished.trans htells, hidle⟩

/-- A spawn is turned away at the door, or the strand is created, and admitted or refused then. -/
theorem spawn_told (s : Scheduler V B) (r : SpawnRequest B) :
    (r.admission = .external ∧ s.spawn r = (s, .error .shutDown)) ∨
    (∃ counters channel, s.spawn r =
      ({ s with
          strands := s.strands.add (Strand.create r.body r.name r.parent r.hook)
          queue := s.queue.push ⟨s.strands.next⟩
          live := s.live ++ [⟨s.strands.next⟩]
          counters := counters
          journal := s.journal.push (.event ⟨⟨s.strands.next⟩, .created⟩)
          channel := channel }, .ok ⟨s.strands.next⟩)) ∨
    ∃ counters channel, s.spawn r =
      ({ s with
          strands := (s.strands.add (Strand.create r.body r.name r.parent r.hook)).erase
            s.strands.next
          counters := counters
          journal := (s.journal.push (.event ⟨⟨s.strands.next⟩, .created⟩)).push
            (.event ⟨⟨s.strands.next⟩, .rejected⟩)
          channel := channel },
        .error (s.queueRefusal (r.admission.limit s.maxPending))) := by
  unfold spawn
  split
  next hstop => exact Or.inl ⟨hstop.1, rfl⟩
  · dsimp only
    cases hq : s.queue.admit? ⟨s.strands.next⟩ (r.admission.limit s.maxPending) with
    | some queue =>
      unfold ReadyQueue.admit? at hq
      split at hq
      · obtain rfl := Option.some.inj hq
        exact Or.inr (Or.inl ⟨_, _, rfl⟩)
      · cases hq
    | none => exact Or.inr (Or.inr ⟨_, _, rfl⟩)

end Scheduler
end CoopSched
