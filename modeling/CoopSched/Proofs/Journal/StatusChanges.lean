import CoopSched.Proofs.Outcome.MoveChange

/-!
# Status changes — a move as single changes, with all that each writes down

The observers are told of every change of a strand's status, and each thing that they are told is
counted. A `StatusChange` is one such change: it says whose status changes and how, what the journal
says about it word for word, and which counters go up with it (`Writes`). A move is any number of
them (`Stable.statusChanges`), unless it only announces that a shutdown comes further; so what every
such change keeps is kept by a run.

What a strand may go through in one change, and what is said of it, is `Status.Passes`. Two of the
passages depend on the shutdown: a strand blocks only while it has not cut anything off, and a
strand is resumed only while there are workers. And a strand finishes only in its own move
(`finishes`). Answers of jobs and reports are no passages. They come with any change, aside of it.
-/

namespace CoopSched

variable {V B : Type}

/-- The counter that goes up with a happening. -/
def Happening.counter? : Happening → Option Counter
  | .created => some .created
  | .rejected => some .rejected
  | .dispatched => some .dispatched
  | .parked => some .parked
  | .resumed => some .resumed
  | .finished ok => some (if ok then .finishedOk else .finishedErr)
  | .cancelled => some .cancelled
  | .unhandled _ => none

/-- The counter that goes up with a record. -/
def Record.counter? : Record V → Option Counter
  | .event e => e.happening.counter?
  | .answered .. => none

/-- Is the record an answer or a report, which no strand goes through? -/
def Record.isAside : Record V → Bool
  | .event ⟨_, .unhandled _⟩ | .answered .. => true
  | .event _ => false

theorem Record.counter?_of_isAside {rec : Record V} (h : rec.isAside = true) :
    rec.counter? = none := by
  match rec with
  | .answered .. => rfl
  | .event ⟨id, happening⟩ => cases happening <;> first | rfl | cases h

/-- What a strand goes through when its status changes, and what is said of it. The flags are
    whether it is too late for completions to be of use, whether the workers are gone, and whether
    this is the move in which the strand finishes. -/
inductive Status.Passes (late gone through : Bool) : Status → List Happening → Status → Prop
  /-- Its bridge is completed while it runs. -/
  | marked (notified : Bool) : Passes late gone through (.running notified) [] (.running true)
  | requeued (notified : Bool) : Passes late gone through (.running notified) [] .runnable
  | dispatched : Passes late gone through .runnable [.dispatched] (.running false)
  | blocked (hopen : late = false) : Passes late gone through (.running false) [.parked] .blocked
  /-- It parks on a bridge that was completed before. -/
  | unblocked : Passes late gone through (.running true) [.parked, .resumed] .runnable
  | resumed (alive : gone = false) : Passes late gone through .blocked [.resumed] .runnable
  | finished (notified ok : Bool) (hthrough : through = true) :
      Passes late gone through (.running notified) [.finished ok] (.finished ok)
  | cancelled {st : Status} (hend : st.isTerminal = false) (hover : late = true) :
      Passes late gone through st [.cancelled] .doneError

/-- How many strands are live moves no counter but the peak. -/
@[simp] theorem Counters.get_seeLive (c : Counters) (n : Nat) (k : Counter) :
    (c.seeLive n).get k = c.get k := by
  cases k <;> rfl

namespace Scheduler

variable {Ok : BridgeId → Wakeup V → Prop} {drained : Bool} {s s₁ s' s'' : Scheduler V B}
  {m : Move V B} {id k : StrandId} {f : Option StrandId} {st : Strand V B}

/-- The status of a strand, if it is there. -/
def status? (s : Scheduler V B) (k : StrandId) : Option Status := (s.strand? k).map (·.status)

theorem status?_eq (hst : s.strand? k = some st) : s.status? k = some st.status := by
  rw [status?, hst, Option.map_some]

theorem status?_eq_some {status : Status} (h : s.status? k = some status) :
    ∃ st, s.strand? k = some st ∧ st.status = status :=
  Option.map_eq_some_iff.mp h

/-- A change of a row is seen in the status of that strand only. -/
theorem status?_of_update {f : Strand V B → Strand V B}
    (hstrands : s'.strands = s.strands.update id.number f) (hst : s.strand? id = some st)
    (k : StrandId) : s'.status? k = if id = k then some (f st).status else s.status? k := by
  rw [status?, strand?_of_update_some hstrands hst]
  split <;> rfl

theorem status?_of_same (h : s'.strands = s.strands) (k : StrandId) :
    s'.status? k = s.status? k := by
  rw [status?, strand?, h]
  rfl

/-! ## Writing -/

/-- The journal has grown by these records, and they were counted. -/
structure Writes (s s' : Scheduler V B) (recs : List (Record V)) : Prop where
  journal : Tells s s' recs
  counters : ∀ c, s'.counters.get c = s.counters.get c + recs.countP (·.counter? == some c)

theorem Writes.nothing (hjournal : s'.journal = s.journal) (hcounters : s'.counters = s.counters) :
    Writes s s' [] where
  journal := .of_journal hjournal
  counters := fun c => by rw [hcounters]; rfl

theorem Writes.trans {recs recs' : List (Record V)} (h : Writes s s' recs)
    (h' : Writes s' s'' recs') : Writes s s'' (recs ++ recs') where
  journal := h.journal.trans h'.journal
  counters := fun c => by rw [h'.counters, h.counters, List.countP_append, Nat.add_assoc]

/-- A happening is told and counted. -/
theorem Writes.counted {h : Happening} {c : Counter} (hc : h.counter? = some c)
    (hjournal : s'.journal = s.journal.push (.event ⟨id, h⟩))
    (hcounters : ∀ a, s'.counters.get a = (s.counters.count c).get a) :
    Writes s s' [.event ⟨id, h⟩] where
  journal := .push hjournal
  counters := fun a => by
    rw [hcounters, Counters.count, Counters.get_add, List.countP_singleton]
    simp only [Record.counter?, hc, beq_iff_eq, Option.some.injEq]

/-- Answers and reports are written down, and not counted. -/
def Asides (s s' : Scheduler V B) : Prop :=
  ∃ recs, Writes s s' recs ∧ ∀ rec ∈ recs, rec.isAside = true

theorem Asides.nothing (hjournal : s'.journal = s.journal) (hcounters : s'.counters = s.counters) :
    Asides s s' :=
  ⟨[], .nothing hjournal hcounters, fun _ hrec => absurd hrec List.not_mem_nil⟩

theorem Asides.trans (h : Asides s s') (h' : Asides s' s'') : Asides s s'' := by
  obtain ⟨recs, hw, hrecs⟩ := h
  obtain ⟨recs', hw', hrecs'⟩ := h'
  exact ⟨recs ++ recs', hw.trans hw', fun rec hrec =>
    (List.mem_append.mp hrec).elim (hrecs rec) (hrecs' rec)⟩

theorem Asides.push (rec : Record V) (hjournal : s'.journal = s.journal.push rec)
    (haside : rec.isAside = true) (hcounters : s'.counters = s.counters) : Asides s s' := by
  refine ⟨[rec], ⟨.push hjournal, fun c => ?_⟩, fun rec' hrec => ?_⟩
  · rw [hcounters, List.countP_singleton, Record.counter?_of_isAside haside]
    rfl
  · rwa [List.mem_singleton.mp hrec]

theorem asides_report (s : Scheduler V B) (id : StrandId) (outcome : Outcome V) :
    Asides s (s.reportUnhandled id outcome) := by
  cases outcome with
  | ok v => exact .nothing rfl rfl
  | err e => exact .push (.event ⟨id, .unhandled e⟩) rfl rfl rfl

theorem asides_reports (s : Scheduler V B) (left : List (ChildOutcome V)) :
    Asides s (left.foldl (fun s c => s.reportUnhandled c.id c.outcome) s) := by
  induction left generalizing s with
  | nil => exact .nothing rfl rfl
  | cons c rest ih => exact (asides_report s c.id c.outcome).trans (ih _)

theorem asides_releaseChildren (s : Scheduler V B) (id : StrandId) :
    Asides s (s.releaseChildren id) := by
  unfold releaseChildren
  split
  · exact .nothing rfl rfl
  next st hst =>
    have hclosed : Asides s (s.updateStrand id fun st' =>
      { st' with children := st.children.close.1 }) := .nothing rfl rfl
    exact hclosed.trans (asides_reports _ _)

/-- While there are workers, a strand is reported as resumed if it was blocked. -/
theorem wake_writes (alive : s.terminated = false) (hst : s.strand? id = some st) :
    Writes s (s.wake id) (if st.status = .blocked then [.event ⟨id, .resumed⟩] else []) := by
  unfold wake wakeWith
  rw [if_neg (by simp [alive]), hst]
  dsimp only
  cases hs : st.status with
  | blocked => exact .counted (c := .resumed) rfl rfl fun _ => rfl
  | runnable => exact .nothing rfl rfl
  | running n => exact .nothing rfl rfl
  | doneOk => exact .nothing rfl rfl
  | doneError => exact .nothing rfl rfl

theorem block_writes {notified : Bool} (hst : s.strand? id = some st)
    (hs : st.status = .running notified) :
    Writes s (s.block id)
      (.event ⟨id, .parked⟩ :: if notified then [.event ⟨id, .resumed⟩] else []) := by
  have hparked : Writes s ((s.count .parked).emit id .parked) [.event ⟨id, .parked⟩] :=
    .counted (c := .parked) rfl rfl fun _ => rfl
  unfold block
  simp only [strand?_emit, strand?_count, hst, Option.bind_some, hs]
  cases notified with
  | true => exact hparked.trans (.counted (c := .resumed) rfl rfl fun _ => rfl)
  | false => exact hparked.trans (.nothing rfl rfl)

/-- A strand that is cut off has reports made about its children, and then it is cancelled. -/
theorem cut_writes (s : Scheduler V B) (id : StrandId) (slot : Option BridgeId) :
    ∃ asides, Writes s (s.cut id slot) (asides ++ [.event ⟨id, .cancelled⟩]) ∧
      ∀ rec ∈ asides, rec.isAside = true := by
  have hclose : Asides s ((s.updateStrand id fun st =>
      { st with status := .doneError, body := none }).closeBridge id slot) := by
    cases slot with
    | none => exact .nothing rfl rfl
    | some b =>
      rw [closeBridge_some]
      exact .nothing rfl rfl
  obtain ⟨asides, hwrites, hasides⟩ := hclose.trans (asides_releaseChildren _ id)
  exact ⟨asides, hwrites.trans (.counted (c := .cancelled) rfl rfl fun _ => rfl), hasides⟩

/-- A strand finishes, and then reports are made about its children. -/
theorem markFinished_writes (s : Scheduler V B) (id : StrandId) (ok : Bool) :
    ∃ asides, Writes s (s.markFinished id ok) (.event ⟨id, .finished ok⟩ :: asides) ∧
      ∀ rec ∈ asides, rec.isAside = true := by
  have hfinished : Writes s (((s.updateStrand id fun st =>
      { st with status := .finished ok, bridge := none }).count
      (if ok then .finishedOk else .finishedErr)).emit id (.finished ok))
      [.event ⟨id, .finished ok⟩] := .counted rfl rfl fun _ => rfl
  obtain ⟨asides, hwrites, hasides⟩ := asides_releaseChildren (((s.updateStrand id fun st =>
      { st with status := .finished ok, bridge := none }).count
      (if ok then .finishedOk else .finishedErr)).emit id (.finished ok)) id
  exact ⟨asides, hfinished.trans hwrites, hasides⟩

theorem takeWakeup_counters (s : Scheduler V B) (id : StrandId) (st : Strand V B) :
    (s.takeWakeup id st).1.counters = s.counters := by
  unfold takeWakeup
  split <;> rfl

/-- A worker that takes a strand with a body writes down that it was dispatched. -/
theorem beginSegment_writes (hst : s.strand? id = some st) (hs : st.status = .runnable)
    (hbody : st.body.isSome = true) :
    Writes s (s.beginSegment id).1 [.event ⟨id, .dispatched⟩] := by
  obtain ⟨body, hbody⟩ := Option.isSome_iff_exists.mp hbody
  unfold beginSegment
  simp only [hst, Option.bind_some, hs, Status.dispatch?, Option.map_some, hbody]
  refine .counted (c := .dispatched) rfl (takeWakeup_journal _ id st) fun a => ?_
  exact congrArg (fun c => Counters.get c a) (takeWakeup_counters _ id st)

/-! ## StatusChanges -/

/-- The strand that a move finishes. -/
def finisher? (s : Scheduler V B) (m : Move V B) : Option StrandId := (s.finishes m).map (·.1)

/-- The shutdown is where it was. -/
structure Abides (s s' : Scheduler V B) : Prop where
  phase : s'.phase = s.phase
  terminated : s'.terminated = s.terminated

theorem Abides.trans (h : Abides s s') (h' : Abides s' s'') : Abides s s'' :=
  ⟨h'.phase.trans h.phase, h'.terminated.trans h.terminated⟩

theorem Abides.isShutDown (h : Abides s s') : s'.isShutDown = s.isShutDown := by
  rw [Scheduler.isShutDown, isCancelling, h.phase, h.terminated]
  rfl

theorem Abides.of_steady (h : Steady s s') : Abides s s' := ⟨h.phase, h.terminated⟩

/-- One change, as the observers see it; `f` is the strand that may finish. -/
inductive StatusChange (f : Option StrandId) (s s' : Scheduler V B) : Prop
  /-- Nobody's status changes. -/
  | aside (habides : Abides s s') (hrows : ∀ k, s'.status? k = s.status? k)
      (hnext : s'.strands.next = s.strands.next) (hasides : Asides s s')
  /-- The status of one strand changes. -/
  | passes (id : StrandId) {st st' : Status} {w : List Happening} {l r : List (Record V)}
      (habides : Abides s s') (hst : s.status? id = some st)
      (hpasses : st.Passes s.isShutDown s.terminated (f == some id) w st')
      (hrows : ∀ k, s'.status? k = if id = k then some st' else s.status? k)
      (hnext : s'.strands.next = s.strands.next)
      (hwrites : Writes s s' (l ++ w.map (fun h => .event ⟨id, h⟩) ++ r))
      (hl : ∀ rec ∈ l, rec.isAside = true) (hr : ∀ rec ∈ r, rec.isAside = true)
  | admitted (habides : Abides s s')
      (hrows : ∀ k, s'.status? k = if ⟨s.strands.next⟩ = k then some .runnable else s.status? k)
      (hnext : s'.strands.next = s.strands.next + 1)
      (hwrites : Writes s s' [.event ⟨⟨s.strands.next⟩, .created⟩])
  | refused (habides : Abides s s') (hrows : ∀ k, s'.status? k = s.status? k)
      (hnext : s'.strands.next = s.strands.next + 1)
      (hwrites : Writes s s' [.event ⟨⟨s.strands.next⟩, .created⟩,
        .event ⟨⟨s.strands.next⟩, .rejected⟩])

/-- Any number of changes. -/
abbrev StatusChanges (f : Option StrandId) : Scheduler V B → Scheduler V B → Prop :=
  Relation.ReflTransGen (StatusChange f)

theorem StatusChange.abides (h : StatusChange f s s') : Abides s s' := by
  cases h <;> assumption

theorem StatusChanges.abides (h : StatusChanges f s s') : Abides s s' := by
  induction h with
  | refl => exact ⟨rfl, rfl⟩
  | tail _ hchange ih => exact ih.trans hchange.abides

/-- What has been written down stays. -/
theorem StatusChange.grows (h : StatusChange f s s') : s.journal.toList <+: s'.journal.toList := by
  cases h with
  | aside _ _ _ hasides =>
    obtain ⟨recs, hwrites, -⟩ := hasides
    exact ⟨recs, hwrites.journal.symm⟩
  | passes _ _ _ _ _ _ hwrites => exact ⟨_, hwrites.journal.symm⟩
  | admitted _ _ _ hwrites => exact ⟨_, hwrites.journal.symm⟩
  | refused _ _ _ hwrites => exact ⟨_, hwrites.journal.symm⟩

theorem StatusChanges.grows (h : StatusChanges f s s') :
    s.journal.toList <+: s'.journal.toList := by
  induction h with
  | refl => exact List.prefix_refl _
  | tail _ hlast ih => exact ih.trans hlast.grows

/-- A change that is seen in no row and in no record. -/
theorem StatusChange.still (hstrands : s'.strands = s.strands) (hphase : s'.phase = s.phase)
    (hterm : s'.terminated = s.terminated) (hjournal : s'.journal = s.journal)
    (hcounters : s'.counters = s.counters) : StatusChange f s s' :=
  .aside ⟨hphase, hterm⟩ (status?_of_same hstrands) (by rw [hstrands])
    (.nothing hjournal hcounters)

/-- A row changes, and not the status in it. -/
theorem StatusChange.row {g : Strand V B → Strand V B}
    (hstrands : s'.strands = s.strands.update id.number g) (hg : ∀ st, (g st).status = st.status)
    (hphase : s'.phase = s.phase) (hterm : s'.terminated = s.terminated)
    (hasides : Asides s s') : StatusChange f s s' := by
  refine .aside ⟨hphase, hterm⟩ (fun k => ?_) (by rw [hstrands, Table.next_update]) hasides
  rw [status?, strand?_of_update hstrands]
  split
  · cases hst : s.strand? k with
    | none => simp [status?, hst]
    | some st => simp [status?, hst, hg]
  · rfl

/-- A row changes, and the status in it. -/
theorem StatusChange.of_row {g : Strand V B → Strand V B} {w : List Happening}
    {l r : List (Record V)} (hst : s.strand? id = some st)
    (hstrands : s'.strands = s.strands.update id.number g) (habides : Abides s s')
    (hpasses : st.status.Passes s.isShutDown s.terminated (f == some id) w (g st).status)
    (hwrites : Writes s s' (l ++ w.map (fun h => .event ⟨id, h⟩) ++ r))
    (hl : ∀ rec ∈ l, rec.isAside = true) (hr : ∀ rec ∈ r, rec.isAside = true) :
    StatusChange f s s' :=
  .passes id habides (status?_eq hst) hpasses (status?_of_update hstrands hst)
    (by rw [hstrands, Table.next_update]) hwrites hl hr

private theorem none_aside : ∀ rec ∈ ([] : List (Record V)), rec.isAside = true :=
  fun _ hrec => absurd hrec List.not_mem_nil

theorem statusChange_wake (alive : s.terminated = false) (id : StrandId) :
    StatusChange f s (s.wake id) := by
  cases hst : s.strand? id with
  | none =>
    rw [wake_none hst]
    exact .still rfl rfl rfl rfl rfl
  | some st =>
    have hwrites := wake_writes alive hst
    obtain ⟨counters, journal, channel, heq⟩ := wake_eq alive hst
    have hstrands : (s.wake id).strands = s.strands.update id.number Strand.woken := by rw [heq]
    have habides : Abides s (s.wake id) := .of_steady (.wake alive id)
    have hsame : st.woken.status = st.status → st.status ≠ .blocked →
        StatusChange f s (s.wake id) := by
      intro hs hne
      rw [if_neg hne] at hwrites
      refine .aside habides (fun k => ?_) (by rw [hstrands, Table.next_update])
        ⟨[], hwrites, none_aside⟩
      rw [status?_of_update hstrands hst, hs]
      split
      next heq => rw [← heq, status?_eq hst]
      next => rfl
    cases hs : st.status with
    | runnable => exact hsame (by rw [Strand.woken, hs]; rfl) (by simp [hs])
    | doneOk => exact hsame (by rw [Strand.woken, hs]; rfl) (by simp [hs])
    | doneError => exact hsame (by rw [Strand.woken, hs]; rfl) (by simp [hs])
    | running n =>
      rw [if_neg (by simp [hs])] at hwrites
      refine .of_row hst hstrands habides ?_ (l := []) (w := []) (r := []) hwrites
        none_aside none_aside
      rw [Strand.woken, hs]
      exact .marked n
    | blocked =>
      rw [if_pos hs] at hwrites
      refine .of_row hst hstrands habides ?_ (l := []) (w := [.resumed]) (r := [])
        hwrites none_aside none_aside
      rw [Strand.woken, hs]
      exact .resumed alive

theorem statusChange_cut (hst : s.strand? id = some st) (hend : st.status.isTerminal = false)
    (hover : s.isShutDown = true) : StatusChange f s (s.cut id st.bridge) := by
  obtain ⟨asides, hwrites, hasides⟩ := cut_writes s id st.bridge
  have hsteady := Steady.cut hst
  obtain ⟨counters, journal, channel, heq⟩ := cut_eq hst
  refine .of_row (g := Strand.cut) (w := [.cancelled]) (r := []) hst (by rw [heq])
    (.of_steady hsteady) (.cancelled hend hover) ?_ hasides none_aside
  rwa [List.append_nil]

theorem statusChange_spawn (s : Scheduler V B) (r : SpawnRequest B) :
    StatusChange f s (s.spawn r).1 := by
  have hcreated : ∀ (s' : Scheduler V B) (live : Nat),
      s'.journal = s.journal.push (.event ⟨⟨s.strands.next⟩, .created⟩) →
      s'.counters = (s.counters.seeLive live).count .created →
      Writes s s' [.event ⟨⟨s.strands.next⟩, .created⟩] := by
    intro s' live hjournal hcounters
    refine .counted (c := .created) rfl hjournal fun a => ?_
    rw [hcounters, Counters.count, Counters.get_add, Counters.get_seeLive, Counters.count,
      Counters.get_add]
  unfold spawn
  split
  · exact .still rfl rfl rfl rfl rfl
  · dsimp only
    split
    next queue hadmit =>
      refine .admitted ⟨rfl, rfl⟩ (fun k => ?_) (Table.next_add _ _) (hcreated _ _ rfl rfl)
      show ((s.strands.add _).get? k.number).map _ = _
      rw [Table.get?_add]
      by_cases hk : (⟨s.strands.next⟩ : StrandId) = k
      · subst hk
        rw [if_pos rfl, if_pos rfl]
        rfl
      · rw [if_neg hk, if_neg fun h => hk (StrandId.number_inj.mp h.symm)]
        rfl
    next hadmit =>
      have hborn := hcreated { s with
        counters := (s.counters.seeLive (s.live.length + 1)).count .created
        journal := s.journal.push (.event ⟨⟨s.strands.next⟩, .created⟩) } _ rfl rfl
      refine .refused ⟨rfl, rfl⟩ (fun k => ?_) ?_
        (hborn.trans (.counted (c := .rejected) rfl rfl fun _ => rfl))
      · show (((s.strands.add _).erase s.strands.next).get? k.number).map _ = _
        rw [Table.get?_erase, Table.get?_add]
        by_cases hk : s.strands.next = k.number
        · rw [if_pos hk, status?, strand?, ← hk, Table.get?_next]
        · rw [if_neg hk, if_neg (Ne.symm hk)]
          rfl
      · exact (Table.next_erase _ _).trans (Table.next_add _ _)

theorem statusChange_retire (s : Scheduler V B) (id : StrandId) (kept : Option (Outcome V)) :
    StatusChange f s (s.retire id kept) :=
  .row (g := (·.publish kept)) rfl (fun _ => rfl) rfl rfl (.nothing rfl rfl)

/-- Whatever is set off is made of changes that the observers see. -/
theorem UnwatchedChange.statusChange {watched : JobId → Prop} {free : BridgeId → Prop}
    (hb : UnwatchedChange watched free s s') : StatusChange f s s' := by
  cases hb with
  | setBridge hb x => exact .still rfl rfl rfl rfl rfl
  | wake alive id => exact statusChange_wake alive id
  | answered hj hentry answer =>
    exact .aside ⟨rfl, rfl⟩ (fun _ => rfl) rfl (.push _ rfl rfl rfl)
  | job hj hf => exact .still rfl rfl rfl rfl rfl
  | addJob entry hj hok => exact .still rfl rfl rfl rfl rfl
  | launch body hook hj hentry => exact statusChange_spawn s _
  | cut hst hend hhook hover => exact statusChange_cut hst hend hover
  | retire id kept => exact statusChange_retire s id kept

theorem statusChange_markFinished (hst : s.strand? id = some st) (hrun : st.status.isRunning = true)
    (ok : Bool) (hf : f = some id) : StatusChange f s (s.markFinished id ok) := by
  obtain ⟨asides, hwrites, hasides⟩ := markFinished_writes s id ok
  obtain ⟨notified, hs⟩ := Status.exists_of_running hrun
  obtain ⟨counters, journal, channel, heq⟩ := markFinished_eq s id ok
  have habides : Abides s (s.markFinished id ok) := by
    rw [heq]
    exact ⟨rfl, rfl⟩
  refine .of_row (g := Strand.finished ok) (w := [.finished ok]) (l := []) hst
    (by rw [heq]) habides ?_ hwrites none_aside hasides
  rw [hs]
  exact .finished notified ok (by rw [hf, beq_self_eq_true])

/-- A strand parks only while nothing is cut off. -/
theorem statusChange_block (hst : s.strand? id = some st) (hrun : st.status.isRunning = true)
    (hopen : s.isShutDown = false) : StatusChange f s (s.block id) := by
  obtain ⟨notified, hs⟩ := Status.exists_of_running hrun
  have hwrites := block_writes hst hs
  obtain ⟨counters, journal, channel, heq⟩ := block_running hst hs
  have hstrands : (s.block id).strands = s.strands.update id.number (Strand.parked notified) := by
    rw [heq]
  have habides : Abides s (s.block id) := by
    rw [heq]
    exact ⟨rfl, rfl⟩
  cases notified with
  | true =>
    refine .of_row hst hstrands habides (w := [.parked, .resumed]) (l := []) (r := [])
      ?_ hwrites none_aside none_aside
    rw [hs]
    exact .unblocked
  | false =>
    refine .of_row hst hstrands habides (w := [.parked]) (l := []) (r := [])
      ?_ hwrites none_aside none_aside
    rw [hs]
    exact .blocked hopen

theorem statusChange_requeue (hst : s.strand? id = some st) (hrun : st.status.isRunning = true) :
    StatusChange f s (s.requeue id) := by
  obtain ⟨notified, hs⟩ := Status.exists_of_running hrun
  rw [requeue_running hst hs]
  refine .of_row (g := Strand.requeued) (w := []) (l := []) (r := []) hst rfl
    ⟨rfl, rfl⟩ ?_ (.nothing rfl rfl) none_aside none_aside
  rw [hs]
  exact .requeued notified

theorem statusChange_dispatch {busy : List StrandId} (hp : Placed busy s) :
    StatusChange f s s.dispatch.1 := by
  cases hcan : s.canDispatch with
  | false =>
    rw [dispatch_idle hcan]
    exact .still rfl rfl rfl rfl rfl
  | true =>
    have hd := hp.dispatched
    cases hq : s.queue.waiting with
    | nil =>
      rw [canDispatch, hq] at hcan
      simp at hcan
    | cons id rest =>
      obtain ⟨st, hst, hs⟩ := hp.waiting_runnable id (by rw [hq]; exact List.mem_cons_self)
      have hwrites : Writes s s.dispatch.1 [.event ⟨id, .dispatched⟩] := by
        rw [dispatch_front hcan hq]
        have hbegun := beginSegment_writes (s := { s with queue := { s.queue with
          waiting := rest, running := s.queue.running + 1 } }) hst hs
            (hp.body id st hst (Or.inl hs))
        exact ⟨hbegun.journal, hbegun.counters⟩
      have hpasses : Status.Passes s.isShutDown s.terminated (f == some id) st.status
          [.dispatched] (.running false) := by
        rw [hs]
        exact .dispatched
      -- The states are made variables, for the cases to name.
      generalize s.dispatch.1 = s' at hd hwrites ⊢
      generalize s.dispatch.2 = seg at hd
      cases hd with
      | idle hidle => cases hcan.symm.trans hidle
      | plain counters journal channel _ hq' hst' =>
        obtain ⟨rfl, -⟩ := List.cons.inj (hq.symm.trans hq')
        exact .of_row (g := Strand.begun false) (l := []) (r := []) hst rfl ⟨rfl, rfl⟩
          hpasses hwrites none_aside none_aside
      | resumed counters journal channel _ hq' hst' =>
        obtain ⟨rfl, -⟩ := List.cons.inj (hq.symm.trans hq')
        exact .of_row (g := Strand.begun true) (l := []) (r := []) hst rfl ⟨rfl, rfl⟩
          hpasses hwrites none_aside none_aside

/-! ## Parts of moves -/

/-- What is set off by a move is made of such changes only. -/
theorem guards_statusChanges (f : Option StrandId) (s : Scheduler V B) :
    Guards (fun _ => False) (fun _ => True) (StatusChanges f s) where
  change := fun hb h => h.tail hb.statusChange
  callbacks := fun _ _ _ => trivial
  cut_off := fun _ _ _ _ hwatched => absurd hwatched not_false

/-- The strand that makes the move is changed, and not its status. -/
theorem StatusChanges.row (h : StatusChanges f s s₁) (id : StrandId) {g : Strand V B → Strand V B}
    (hstrands : s'.strands = s₁.strands.update id.number g) (hg : ∀ st, (g st).status = st.status)
    (hphase : s'.phase = s₁.phase) (hterm : s'.terminated = s₁.terminated)
    (hjournal : s'.journal = s₁.journal) (hcounters : s'.counters = s₁.counters) :
    StatusChanges f s s' :=
  h.tail (.row hstrands hg hphase hterm (.nothing hjournal hcounters))

theorem StatusChanges.still (h : StatusChanges f s s₁) (hstrands : s'.strands = s₁.strands)
    (hphase : s'.phase = s₁.phase) (hterm : s'.terminated = s₁.terminated)
    (hjournal : s'.journal = s₁.journal) (hcounters : s'.counters = s₁.counters) :
    StatusChanges f s s' :=
  h.tail (.still hstrands hphase hterm hjournal hcounters)

theorem StatusChanges.release (h : StatusChanges f s s₁) (id : StrandId) :
    StatusChanges f s (s₁.release id) :=
  h.still rfl rfl rfl rfl rfl

theorem StatusChanges.issue (h : StatusChanges f s s₁) (id : StrandId) :
    StatusChanges f s (s₁.issueBridge id).1 :=
  h.row id (g := fun st => { st with bridge := some ⟨s₁.bridges.next⟩ }) rfl
    (fun _ => rfl) rfl rfl rfl rfl

theorem StatusChanges.keepBody (h : StatusChanges f s s₁) (id : StrandId) (body : B) :
    StatusChanges f s (s₁.keepBody id body) :=
  h.row id (g := fun st => { st with body := some body }) rfl (fun _ => rfl) rfl rfl rfl rfl

theorem StatusChanges.children (h : StatusChanges f s s₁) (id : StrandId)
    (g : Strand V B → Group V) :
    StatusChanges f s (s₁.updateStrand id fun st => { st with children := g st }) :=
  h.row id (g := fun st => { st with children := g st }) rfl (fun _ => rfl) rfl rfl rfl rfl

theorem StatusChanges.report (h : StatusChanges f s s₁) (id : StrandId) (outcome : Outcome V) :
    StatusChanges f s (s₁.reportUnhandled id outcome) := by
  refine h.tail ?_
  have hasides := asides_report s₁ id outcome
  obtain ⟨journal, channel, heq⟩ := s₁.reportUnhandled_eq id outcome
  rw [heq] at hasides ⊢
  exact .aside ⟨rfl, rfl⟩ (fun _ => rfl) rfl hasides

theorem StatusChanges.deliverFired (h : StatusChanges f s s₁) (fired : Option (Delivery V)) :
    StatusChanges f s (s₁.deliverFired fired) :=
  (guards_statusChanges f s).deliverFired h fun _ _ => trivial

/-- A strand that is marked finished hands over its outcome. -/
theorem StatusChanges.marked (hst : s₁.strand? id = some st) (hrun : st.status.isRunning = true)
    (outcome : Outcome V) (hmarked : StatusChanges f s (s₁.markFinished id outcome.isOk)) :
    StatusChanges f s (s₁.finish id outcome) := by
  obtain ⟨notified, hs⟩ := Status.exists_of_running hrun
  rw [finish_running hst hs]
  refine Relation.ReflTransGen.tail ?_ (statusChange_retire _ id _)
  unfold handOver
  cases st.hook with
  | some hook =>
    have hguards := guards_statusChanges f s
    exact hguards.resolveWith hguards.cancel hmarked not_false outcome
  | none =>
    dsimp only
    split
    next parent ps hp =>
      have hsettled := hmarked.children parent fun _ => (ps.children.settle id outcome).1
      split
      next fired hfired => exact hsettled.deliverFired fired
      · exact hsettled.report id _
    · exact hmarked.report id outcome

theorem StatusChanges.finish (h : StatusChanges f s s₁) (hst : s₁.strand? id = some st)
    (hrun : st.status.isRunning = true) (outcome : Outcome V) (hf : f = some id) :
    StatusChanges f s (s₁.finish id outcome) :=
  StatusChanges.marked hst hrun outcome
    (h.tail (statusChange_markFinished hst hrun outcome.isOk hf))

theorem StatusChanges.block (h : StatusChanges f s s₁) (hst : s₁.strand? id = some st)
    (hrun : st.status.isRunning = true) (hopen : s₁.isShutDown = false) :
    StatusChanges f s (s₁.block id) :=
  h.tail (statusChange_block hst hrun hopen)

theorem StatusChanges.blockOnChildren (h : StatusChanges f s s₁) (hst : s₁.strand? id = some st)
    (hrun : st.status.isRunning = true) (hopen : s₁.isShutDown = false) (mode : WaitMode) :
    StatusChanges f s (s₁.blockOnChildren id mode) := by
  have hrow := (issueBridge_strand? hst id).trans (if_pos rfl)
  have hblock := (h.issue id).block hrow hrun hopen
  unfold Scheduler.blockOnChildren
  dsimp only
  split
  · exact hblock
  next st' hst' => exact (hblock.children id fun _ => _).deliverFired _

/-- A body is followed: its strand finishes if that is what the body asks for, and otherwise nothing
    is cut off. -/
theorem StatusChanges.follow (h : StatusChanges f s s₁) (hst : s₁.strand? id = some st)
    (hrun : st.status.isRunning = true) (body : B) {step : Step V}
    (hopen : step.isDone = false → s₁.isShutDown = false)
    (hf : ∀ outcome, step.conclusion? ((s₁.strand? id).bind (·.bridge)).isSome = some outcome →
      f = some id) : StatusChanges f s (s₁.follow id body step) := by
  have hkeep := h.keepBody id body
  have hrow := (keepBody_strand? hst body id).trans (if_pos rfl)
  unfold Scheduler.follow
  dsimp only
  cases step with
  | done outcome => exact h.finish hst hrun outcome (hf _ rfl)
  | yield =>
    dsimp only
    split
    · exact hkeep.block hrow hrun (hopen rfl)
    · exact hkeep.tail (statusChange_requeue hrow hrun)
  | park =>
    dsimp only
    split
    · exact hkeep.block hrow hrun (hopen rfl)
    next hslot => exact h.finish hst hrun _ (hf _ (if_neg hslot))
  | await mode =>
    dsimp only
    split
    next hslot => exact h.finish hst hrun _ (hf _ (if_pos hslot))
    · exact hkeep.blockOnChildren hrow hrun (hopen rfl) mode

/-- A segment ends: its strand is cut off, or does what its body wants. -/
theorem StatusChanges.endSegment (hst : s.strand? id = some st) (hrun : st.status.isRunning = true)
    (alive : s.terminated = false) (body : B) (step : Step V) :
    StatusChanges (s.finisher? (.endSegment id body step)) s (s.endSegment id body step) := by
  unfold Scheduler.endSegment
  split
  next hcut =>
    rw [Bool.and_eq_true] at hcut
    refine StatusChanges.release
      ((guards_statusChanges _ s).cancel s id shutDownReason .refl ?_ rfl) id
    rw [isShutDown, hcut.1, Bool.true_or]
  next hnot =>
    refine StatusChanges.release (StatusChanges.follow .refl hst hrun body (fun hdone => ?_)
      fun outcome hconclusion => ?_) id
    · rw [isShutDown, alive, Bool.or_false]
      simpa [hdone] using hnot
    · rw [finisher?, finishes, if_neg hnot, hconclusion]
      rfl

theorem StatusChanges.spawnChild (s : Scheduler V B) (parent : StrandId) (body : B) :
    StatusChanges f s (s.spawnChild parent body).1 := by
  have hadd : StatusChanges f s
      (s.updateStrand parent fun st => { st with children := st.children.add }) :=
    StatusChanges.children .refl parent _
  have hspawn : StatusChanges f s (spawn _ _).1 :=
    hadd.tail (statusChange_spawn _ { body := body, admission := .internal, parent := some parent })
  unfold Scheduler.spawnChild
  dsimp only
  split
  next heq =>
    rw [heq] at hspawn
    exact hspawn
  next heq =>
    rw [heq] at hspawn
    exact hspawn.children parent fun st => st.children.remove

/-! ## Moves -/

theorem statusChanges_park (s : Scheduler V B) (id : StrandId) :
    StatusChanges f s (s.park id).1 := by
  rcases park_cases s id with ⟨e, heq⟩ | ⟨st, hst, hrun, hslot, heq⟩ <;> rw [heq]
  exact StatusChanges.issue .refl id

theorem statusChanges_invokeParked (s : Scheduler V B) (id : StrandId) (inputs : List V)
    (callable : Nat → V → Except Panic B) (concurrency : Concurrency) :
    StatusChanges f s (s.invokeParked id inputs callable concurrency).1 := by
  rcases invokeParked_cases s id inputs callable concurrency with
    ⟨-, heq⟩ | ⟨st, hst, hrun, hslot, hpark, heq⟩ <;> rw [heq]
  exact (guards_statusChanges f s).drive (StatusChanges.issue .refl id) not_false inputs callable
    concurrency fun _ _ _ _ => trivial

theorem statusChanges_expireTimer (s : Scheduler V B) (t : TimerId) :
    StatusChanges f s (s.expireTimer t) := by
  unfold Scheduler.expireTimer
  split
  · exact .refl
  next timer ht =>
    have hexpired : StatusChanges f s
        { s with timers := s.timers.update t.number fun _ => timer.expire.1 } :=
      StatusChanges.still .refl rfl rfl rfl rfl rfl
    dsimp only
    split
    · exact hexpired
    · exact (guards_statusChanges f s).tryComplete hexpired trivial _

theorem statusChanges_join (s : Scheduler V B) (id : StrandId) :
    StatusChanges f s (((s.join id).map (·.1)).getD s) := by
  rcases join_cases s id with heq | ⟨outcome, heq⟩ <;> rw [heq]
  exact StatusChanges.row .refl id (g := fun st => { st with outcome := outcome }) rfl
    (fun _ => rfl) rfl rfl rfl rfl

/-- **Every move is made of status changes**, unless it announces that a shutdown comes further. -/
theorem Stable.statusChanges (hs : Stable Ok drained s) (ha : s.Allows m)
    (hannounces : m.announces = false) : StatusChanges (s.finisher? m) s (s.after m) := by
  have g := guards_statusChanges (s.finisher? m) s
  have still : ∀ {s' : Scheduler V B}, s'.strands = s.strands → s'.phase = s.phase →
      s'.terminated = s.terminated → s'.journal = s.journal → s'.counters = s.counters →
      StatusChanges (s.finisher? m) s s' := fun hstrands hphase hterm hjournal hcounters =>
    StatusChanges.still .refl hstrands hphase hterm hjournal hcounters
  cases m with
  | spawn body name => exact .single (statusChange_spawn s _)
  | park id => exact statusChanges_park s id
  | complete b r => exact g.deliver .refl trivial _
  | tryComplete b r => exact g.tryComplete .refl trivial r
  | deliver b payload => exact g.deliver .refl trivial payload
  | invoke inputs callable concurrency callback =>
    exact g.invoke .refl not_false inputs callable concurrency fun _ _ _ _ => trivial
  | createJob length callback => exact g.addJob .refl not_false length none fun _ _ _ _ => trivial
  | submit j index r => exact g.submitWith g.cancel .refl not_false index r
  | claim j => exact g.claim .refl not_false
  | armTimer b d now =>
    obtain ⟨timers, heq⟩ := after_armTimer s b d now
    rw [heq]
    exact still rfl rfl rfl rfl rfl
  | disarmTimer t => exact still rfl rfl rfl rfl rfl
  | detachTimer t => exact still rfl rfl rfl rfl rfl
  | pollTimer t =>
    obtain ⟨timers, heq⟩ := after_pollTimer s t
    rw [heq]
    exact still rfl rfl rfl rfl rfl
  | expireTimer t => exact statusChanges_expireTimer s t
  | join id => exact statusChanges_join s id
  | drainChannel =>
    show StatusChanges _ s ((s.drainChannel.map (·.1)).getD s)
    unfold Scheduler.drainChannel
    cases s.channel with
    | none => exact .refl
    | some c => exact still rfl rfl rfl rfl rfl
  | spawnDetached id body => exact .single (statusChange_spawn s _)
  | spawnChild id body => exact StatusChanges.spawnChild s id body
  | invokeParked id inputs callable concurrency =>
    exact statusChanges_invokeParked s id inputs callable concurrency
  | dispatch => exact .single (statusChange_dispatch hs.placed)
  | endSegment id body step =>
    obtain ⟨st, hst, hrun⟩ := (hs.placed.busy_iff id).mp ha
    exact StatusChanges.endSegment hst hrun (hs.placed.alive hst hrun) body step
  | drain => exact still rfl rfl rfl rfl rfl
  | cancel id =>
    refine g.cancel s id s.cleanUpReason .refl ?_ ?_
    · rw [isShutDown, ha.1, Bool.or_true]
    · unfold cleanUpReason
      split <;> rfl
  | beginShutdown mode => cases hannounces
  | closeQueue => cases hannounces
  | terminate => cases hannounces

/-- A move that announces something changes no status and writes nothing down. -/
theorem after_announces (hannounces : m.announces = true) :
    (s.after m).strands = s.strands ∧ (s.after m).journal = s.journal ∧
      (s.after m).counters = s.counters := by
  cases m with
  | beginShutdown mode =>
    show ((s.beginShutdown mode).getD s).strands = _ ∧ ((s.beginShutdown mode).getD s).journal = _ ∧
      ((s.beginShutdown mode).getD s).counters = _
    unfold Scheduler.beginShutdown
    cases s.phase.enter? mode.phase <;> exact ⟨rfl, rfl, rfl⟩
  | closeQueue => exact ⟨rfl, rfl, rfl⟩
  | terminate => exact ⟨rfl, rfl, rfl⟩
  | _ => cases hannounces

/-! ## Runs -/

theorem Initial.counters (h : Initial s) : s.counters = {} := by
  obtain ⟨c, cores, h | h⟩ := h
  · unfold start at h
    split at h
    · cases h
    · obtain rfl := Except.ok.inj h
      rfl
  · unfold startWithChannel start at h
    split at h
    · cases h
    · obtain rfl := Except.ok.inj h
      rfl

/-- What the rows, the journal and the counters decide. -/
def Observable (P : Scheduler V B → Prop) : Prop :=
  ∀ {s s' : Scheduler V B}, s'.strands = s.strands → s'.journal = s.journal →
    s'.counters = s.counters → P s → P s'

/-- What status changes keep is kept by moves. -/
theorem Stable.observed {P : Scheduler V B → Prop} (hs : Stable Ok drained s) (ha : s.Allows m)
    (hseen : Observable P) (hchange : ∀ {f s s'}, StatusChange f s s' → P s → P s') (h : P s) :
    P (s.after m) := by
  cases hannounces : m.announces with
  | true =>
    obtain ⟨hstrands, hjournal, hcounters⟩ := after_announces (s := s) hannounces
    exact hseen hstrands hjournal hcounters h
  | false =>
    have hchanges := hs.statusChanges ha hannounces
    generalize s.after m = s' at hchanges
    induction hchanges with
    | refl => exact h
    | tail _ hlast ih => exact hchange hlast ih

/-- **What status changes keep is kept by runs.** -/
theorem Initial.observed_run {P : Scheduler V B → Prop} {before rest : List (Move V B)}
    (hs : Initial s) (ha : s.Admissible (before ++ rest)) (hseen : Observable P)
    (hchange : ∀ {f s s'}, StatusChange f s s' → P s → P s') (h : P (s.run before)) :
    P (s.run (before ++ rest)) := by
  induction rest using List.reverseRecOn with
  | nil => rwa [List.append_nil]
  | append_singleton rest m ih =>
    rw [← List.append_assoc] at ha ⊢
    obtain ⟨hbefore, hm⟩ := admissible_append.mp ha
    rw [run_snoc]
    exact (hs.stable_run hbefore).observed hm.1 hseen hchange (ih hbefore)

end Scheduler
end CoopSched
