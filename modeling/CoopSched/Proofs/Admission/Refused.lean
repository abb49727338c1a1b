import CoopSched.Proofs.Admission.Causes
import CoopSched.Proofs.Journal.Stories
import CoopSched.Script.Run

/-!
# Refusals — what a refused operation leaves behind

Most operations that are refused have not begun: parking, completing a bridge for the second time
and asking for a shutdown from a worker look before they act. A spawn acts first. The strand has a
number and is live, its parent counts it and the observers have heard of it when the queue turns it
down, and all that is taken back by hand. `Undone` says what that comes to: the two counters, the
high-water mark and the two events stay (`Traces`), and nothing else. The number is used up, and
whoever had it never runs.
-/

namespace CoopSched

/-- Why something was refused, if it was. -/
def refusalOf {α : Type} : Except Refusal α → Option Refusal
  | .ok _ => none
  | .error e => some e

theorem refusalOf_eq_some {α : Type} {answer : Except Refusal α} {e : Refusal} :
    refusalOf answer = some e ↔ answer = .error e := by
  cases answer <;> simp [refusalOf]

namespace Scheduler

variable {V B : Type} {Ok : BridgeId → Wakeup V → Prop} {drained : Bool}
  {s s₁ s' : Scheduler V B} {m : Move V B} {ms before rest : List (Move V B)} {k p : StrandId}
  {b : BridgeId} {x : Bridge V} {w : Wakeup V} {e : Refusal} {r : SpawnRequest B}

/-! ## Operations that look before they act -/

/-- A strand that may not park is told which of the three causes it is, and nothing happens. -/
theorem park_refused (h : (s.park k).2 = .error e) :
    s.park k = (s, .error e) ∧
      (e = .terminal k ∨ (∃ status, e = .notRunning k status) ∨ e = .alreadyParked k) := by
  unfold Scheduler.park at h ⊢
  cases hst : s.strand? k with
  | none =>
    rw [hst] at h
    cases h
    exact ⟨rfl, Or.inl rfl⟩
  | some st =>
    rw [hst] at h
    dsimp only at h ⊢
    split at h
    next hend =>
      cases h
      exact ⟨if_pos hend, Or.inl rfl⟩
    next hend =>
      rw [if_neg hend]
      split at h
      next hidle =>
        cases h
        exact ⟨if_pos hidle, Or.inr (Or.inl ⟨_, rfl⟩)⟩
      next hidle =>
        rw [if_neg hidle]
        split at h
        next hslot =>
          cases h
          exact ⟨if_pos hslot, Or.inr (Or.inr rfl)⟩
        next => cases h

/-- An invocation for a strand is refused if the strand may not park, and only then. -/
theorem invokeParked_refused (inputs : List V) (callable : Nat → V → Except Panic B)
    (concurrency : Concurrency) :
    (s.invokeParked k inputs callable concurrency).2 = .refused e ↔ (s.park k).2 = .error e := by
  unfold Scheduler.invokeParked
  generalize s.park k = parked
  obtain ⟨s₁, e' | b⟩ := parked
  · simp
  · dsimp only
    split <;> simp

theorem invokeParked_unchanged (h : (s.park k).2 = .error e) (inputs : List V)
    (callable : Nat → V → Except Panic B) (concurrency : Concurrency) :
    s.invokeParked k inputs callable concurrency = (s, .refused e) := by
  unfold Scheduler.invokeParked
  rw [(park_refused h).1]

/-- Whoever is told that a bridge was completed already has come too late. -/
theorem deliver_alreadyCompleted (h : (s.deliver b w).2 = .error (.alreadyCompleted k)) :
    ∃ x, s.bridge? b = some x ∧ x.isCompleted = true := by
  cases hb : s.bridge? b with
  | none =>
    unfold deliver deliverWith at h
    rw [hb] at h
    cases h
  | some x =>
    refine ⟨x, rfl, isCompleted_true.mpr fun hp => ?_⟩
    exact deliver_accepted hb hp w k h

/-! ## A spawn that is taken back -/

/-- Of the rows none is changed, of the counters only two and the high-water mark, and nothing else
    but what the observers were told. -/
structure Undone (s s' : Scheduler V B) : Prop where
  others : s' = { s with
    strands := s'.strands
    counters := s'.counters
    journal := s'.journal
    channel := s'.channel }
  /-- That goes for the parent too, for its count of children and for the outcomes it was given. -/
  rows : ∀ k, s'.strand? k = s.strand? k
  counted : ∀ c, c ≠ .created → c ≠ .rejected → s'.counters.get c = s.counters.get c

/-- What a strand leaves behind that was created and then refused. -/
structure Traces (s s' : Scheduler V B) (k : StrandId) : Prop where
  number : k.number = s.strands.next
  next : s'.strands.next = s.strands.next + 1
  created : s'.counters.created = s.counters.created + 1
  rejected : s'.counters.rejected = s.counters.rejected + 1
  peak : s'.counters.peakLive = max s.counters.peakLive (s.live.length + 1)
  told : Tells s s' [.event ⟨k, .created⟩, .event ⟨k, .rejected⟩]
  sent : s'.channel = s.channel.map fun c => (c.emit ⟨k, .created⟩).emit ⟨k, .rejected⟩

/-- The embedder may be turned away at the door, and then there is nothing to take back. -/
theorem spawn_undone (h : (s.spawn r).2 = .error e) :
    s.IsLate r.admission ∧ (s.spawn r).1 = s ∨
      Undone s (s.spawn r).1 ∧ Traces s (s.spawn r).1 ⟨s.strands.next⟩ := by
  unfold spawn at h ⊢
  split
  next hlate => exact Or.inl ⟨hlate, rfl⟩
  next hlate =>
    rw [if_neg hlate] at h
    right
    dsimp only at h ⊢
    split at h
    · cases h
    next =>
      refine ⟨⟨rfl, fun k => ?_, fun c hcreated hrejected => ?_⟩, ?_⟩
      · show ((s.strands.add _).erase s.strands.next).get? k.number = s.strands.get? k.number
        rw [Table.get?_erase, Table.get?_add]
        by_cases hk : s.strands.next = k.number
        · rw [if_pos hk, ← hk, s.strands.get?_next]
        · rw [if_neg hk, if_neg (Ne.symm hk)]
      · show (((s.counters.seeLive _).count .created).count .rejected).get c = _
        unfold Counters.count
        rw [Counters.get_add, Counters.get_add, if_neg (Ne.symm hrejected),
          if_neg (Ne.symm hcreated)]
        cases c <;> rfl
      · exact {
          number := rfl
          next := by
            show ((s.strands.add _).erase s.strands.next).next = _
            rw [Table.next_erase, Table.next_add]
          created := rfl
          rejected := rfl
          peak := by
            show max s.counters.peakLive (s.live ++ [_]).length = _
            rw [List.length_append]
            rfl
          told := by simp [Tells, emit, count]
          sent := by simp [emit, count, Option.map_map, Function.comp_def] }

/-- What was counted for a child that never came into being is taken back. -/
theorem spawnChild_undone {body : B} (h : (s.spawnChild p body).2 = .error e) :
    Undone s (s.spawnChild p body).1 ∧ Traces s (s.spawnChild p body).1 ⟨s.strands.next⟩ := by
  have hnext : (s.updateStrand p fun st => { st with children := st.children.add }).strands.next =
      s.strands.next := Table.next_update _ _ _
  have hundone : ∀ e', (Scheduler.spawn (s.updateStrand p fun st => { st with
      children := st.children.add }) { body := body, admission := .internal, parent := some p }).2 =
        .error e' → _ := fun e' he' => spawn_undone he'
  unfold Scheduler.spawnChild at h ⊢
  dsimp only at h ⊢
  generalize (s.updateStrand p fun st => { st with children := st.children.add }).spawn
    { body := body, admission := .internal, parent := some p } = result at h hundone ⊢
  obtain ⟨s₁, answer⟩ := result
  cases answer with
  | ok id => cases h
  | error e' =>
    rcases hundone e' rfl with ⟨hlate, -⟩ | ⟨hundone, htraces⟩
    · cases hlate.1
    rw [hnext] at htraces
    refine ⟨⟨?_, fun k => ?_, hundone.counted⟩, ?_⟩
    · exact congrArg (fun t => t.updateStrand p fun st =>
        { st with children := st.children.remove }) hundone.others
    · rw [strand?_updateStrand, hundone.rows, strand?_updateStrand]
      split
      · cases s.strand? k <;> rfl
      · rfl
    · refine ⟨rfl, ?_, htraces.created, htraces.rejected, htraces.peak, htraces.told,
        htraces.sent⟩
      rw [← hnext, ← htraces.next]
      exact Table.next_update _ _ _

/-! ## A number that is used up -/

/-- The number was given out, and nobody has it. -/
def Forgone (s : Scheduler V B) (k : StrandId) : Prop :=
  s.status? k = none ∧ k.number < s.strands.next

theorem StatusChange.forgone {f : Option StrandId} (h : StatusChange f s s') (hk : Forgone s k) :
    Forgone s' k := by
  obtain ⟨hnone, hlt⟩ := hk
  cases h with
  | aside habides hrows hnext hasides => exact ⟨(hrows k).trans hnone, by rwa [hnext]⟩
  | passes id habides hst hpasses hrows hnext hwrites hleft hright =>
    have hne : id ≠ k := by
      rintro rfl
      cases hst.symm.trans hnone
    exact ⟨by rw [hrows, if_neg hne, hnone], by rwa [hnext]⟩
  | admitted habides hrows hnext hwrites =>
    have hne : (⟨s.strands.next⟩ : StrandId) ≠ k := by
      rintro rfl
      exact absurd hlt (Nat.lt_irrefl _)
    exact ⟨by rw [hrows, if_neg hne, hnone], by omega⟩
  | refused habides hrows hnext hwrites => exact ⟨(hrows k).trans hnone, by omega⟩

/-- A number that is used up is not given out again. -/
theorem Initial.forgone_run (hs : Initial s) (ha : s.Admissible (before ++ rest))
    (hk : Forgone (s.run before) k) : Forgone (s.run (before ++ rest)) k := by
  refine hs.observed_run (P := fun s => Forgone s k) ha ?_ StatusChange.forgone hk
  intro s s' hstrands _ _ h
  exact ⟨(status?_of_same hstrands k).trans h.1, by rw [hstrands]; exact h.2⟩

/-- All that is ever told of it is that it was created and refused. -/
theorem Initial.history_forgone (hs : Initial s) (ha : s.Admissible ms) (hpos : 0 < k.number)
    (hk : Forgone (s.run ms) k) : (s.run ms).history k = [.created, .rejected] := by
  obtain ⟨stage, htold⟩ := hs.toldTo_run ha k
  have hborn : stage ≠ .unborn := by
    intro hstage
    have hnumber := htold.living.unborn.mp hstage
    have hlt := hk.2
    omega
  have hrefused : stage = .refused := by
    have hfits := htold.living.fits
    rw [hk.1] at hfits
    cases hfits with
    | unborn => exact absurd rfl hborn
    | refused => rfl
  subst hrefused
  have hshape := Stage.shape_of_after? htold.living.told
  rw [htold.history]
  rcases htold.reports with hnone | ⟨hstage, -⟩
  · rw [hnone]
    generalize (s.run ms).life k = life at hshape
    cases hshape
    rfl
  · cases hstage

/-- A segment is one of a strand that is there. -/
theorem segment_strand {seg : Segment V B} (h : s.segment? m = some seg) :
    ∃ st, s.strand? seg.strand = some st := by
  cases m with
  | dispatch =>
    have hseg : s.dispatch.2 = some seg := h
    unfold dispatch at hseg
    split at hseg
    · split at hseg
      next queue id hpop =>
        unfold beginSegment at hseg
        split at hseg
        · cases hseg
        next st status hst =>
          obtain ⟨st', hst', -⟩ := Option.bind_eq_some_iff.mp hst
          dsimp only at hseg
          split at hseg
          · cases hseg
          · cases hseg
            exact ⟨st', hst'⟩
      all_goals cases hseg
    · cases hseg
  | _ => cases h

/-! ## The law -/

/-- Why the strand is refused that a move asks for. -/
def refusedSpawn? (s : Scheduler V B) : Move V B → Option Refusal
  | .spawn body name => refusalOf (s.spawnExternal body name).2
  | .spawnDetached _ body => refusalOf (s.spawnDetached body).2
  | .spawnChild p body => refusalOf (s.spawnChild p body).2
  | _ => none

/-- The embedder asks for a strand, and is turned away because a shutdown has begun. -/
def AtTheDoor (s : Scheduler V B) (m : Move V B) : Prop :=
  (∃ body name, m = .spawn body name) ∧ s.isStopping = true

/-- Whatever is refused in this state leaves it as it was. -/
structure Unmoved (s : Scheduler V B) : Prop where
  park : ∀ k e, (s.park k).2 = .error e → s.park k = (s, .error e) ∧
    (e = .terminal k ∨ (∃ status, e = .notRunning k status) ∨ e = .alreadyParked k)
  invoked : ∀ k inputs callable concurrency e,
    (s.invokeParked k inputs callable concurrency).2 = .refused e →
      (s.invokeParked k inputs callable concurrency).1 = s ∧ (s.park k).2 = .error e
  /-- A bridge that was claimed is not completed again, in whichever way. -/
  claimed : ∀ b x, s.bridge? b = some x → x.isCompleted = true →
    (∀ w, s.deliver b w =
      (s, .error (if s.isShutDown then .shutDown else .alreadyCompleted x.strand))) ∧
    (∀ r, s.complete b r =
      (s, .error (if s.isShutDown then .shutDown else .alreadyCompleted x.strand))) ∧
    ∀ r, s.tryComplete b r = (s, false)
  /-- Nobody else is told that it was completed already. -/
  completed : ∀ b w k, (s.deliver b w).2 = .error (.alreadyCompleted k) → (s.deliver b w).1 = s
  /-- A strand that is refused is taken back, unless its caller was turned away before. -/
  spawned : ∀ m e, s.refusedSpawn? m = some e →
    s.AtTheDoor m ∧ s.after m = s ∨
      ¬ s.AtTheDoor m ∧ Undone s (s.after m) ∧ Traces s (s.after m) ⟨s.strands.next⟩

/-- A strand that was refused has a number that nobody had, leaves two events behind and never runs,
    whatever comes later. -/
structure Stillborn (s : Scheduler V B) (ms : List (Move V B)) (m : Move V B) (k : StrandId) :
    Prop where
  fresh : (s.run ms).history k = []
  absent : ∀ rest, s.Admissible (ms ++ [m] ++ rest) → (s.run (ms ++ [m] ++ rest)).strand? k = none
  told : ∀ rest, s.Admissible (ms ++ [m] ++ rest) →
    (s.run (ms ++ [m] ++ rest)).history k = [.created, .rejected]
  idle : ∀ rest, s.Admissible (ms ++ [m] ++ rest) → ∀ m' seg,
    (s.run (ms ++ [m] ++ rest)).segment? m' = some seg → seg.strand ≠ k

theorem refusedSpawn?_cases (h : s.refusedSpawn? m = some e) :
    s.AtTheDoor m ∧ s.after m = s ∨
      ¬ s.AtTheDoor m ∧ Undone s (s.after m) ∧ Traces s (s.after m) ⟨s.strands.next⟩ := by
  cases m with
  | spawn body name =>
    have hrefused : (s.spawn { body := body, admission := .external, name := name }).2 = .error e :=
      refusalOf_eq_some.mp h
    by_cases hstop : s.isStopping = true
    · refine Or.inl ⟨⟨⟨body, name, rfl⟩, hstop⟩, ?_⟩
      show (s.spawn { body := body, admission := .external, name := name }).1 = s
      unfold spawn
      rw [if_pos ⟨rfl, hstop⟩]
    · rcases spawn_undone hrefused with ⟨hlate, -⟩ | hundone
      · exact absurd hlate.2 hstop
      · exact Or.inr ⟨fun hdoor => hstop hdoor.2, hundone⟩
  | spawnDetached id body =>
    have hrefused : (s.spawn { body := body, admission := .internal }).2 = .error e :=
      refusalOf_eq_some.mp h
    have hdoor : ¬ s.AtTheDoor (.spawnDetached id body) := by
      rintro ⟨⟨body, name, hm⟩, -⟩
      cases hm
    rcases spawn_undone hrefused with ⟨hlate, -⟩ | hundone
    · cases hlate.1
    · exact Or.inr ⟨hdoor, hundone⟩
  | spawnChild p body =>
    have hdoor : ¬ s.AtTheDoor (.spawnChild p body) := by
      rintro ⟨⟨body, name, hm⟩, -⟩
      cases hm
    exact Or.inr ⟨hdoor, spawnChild_undone (refusalOf_eq_some.mp h)⟩
  | _ => cases h

theorem unmoved (s : Scheduler V B) : Unmoved s where
  park := fun k e h => park_refused h
  invoked := by
    intro k inputs callable concurrency e h
    have hpark := (invokeParked_refused inputs callable concurrency).mp h
    exact ⟨by rw [invokeParked_unchanged hpark], hpark⟩
  claimed := by
    intro b x hb hx
    have hlate := isCompleted_true.mp hx
    exact ⟨fun w => deliver_late hb hlate w, fun r => deliver_late hb hlate _,
      fun r => tryComplete_late hb hlate r⟩
  completed := by
    intro b w k h
    obtain ⟨x, hb, hx⟩ := deliver_alreadyCompleted h
    rw [deliver_late hb (isCompleted_true.mp hx)]
  spawned := fun m e h => refusedSpawn?_cases h

theorem Initial.stillborn (hs : Initial s) (ha : s.Admissible ms)
    (h : (s.run ms).refusedSpawn? m = some e) (hdoor : ¬ (s.run ms).AtTheDoor m) :
    Stillborn s ms m ⟨(s.run ms).strands.next⟩ := by
  obtain ⟨-, hundone, htraces⟩ := (refusedSpawn?_cases h).resolve_left fun h => hdoor h.1
  have hforgone : Forgone (s.run (ms ++ [m])) ⟨(s.run ms).strands.next⟩ := by
    rw [run_snoc]
    refine ⟨?_, ?_⟩
    · rw [status?, hundone.rows, strand?_next]
      rfl
    · rw [htraces.next]
      exact Nat.lt_succ_self _
  obtain ⟨stage, htold⟩ := hs.toldTo_run ha ⟨(s.run ms).strands.next⟩
  have hgone : ∀ rest, s.Admissible (ms ++ [m] ++ rest) →
      (s.run (ms ++ [m] ++ rest)).strand? ⟨(s.run ms).strands.next⟩ = none := by
    intro rest ha'
    exact Option.map_eq_none_iff.mp (hs.forgone_run ha' hforgone).1
  refine ⟨htold.narrated.stranger (Or.inr le_rfl), hgone, fun rest ha' => ?_, ?_⟩
  · exact hs.history_forgone ha' (Nat.succ_pos _) (hs.forgone_run ha' hforgone)
  · intro rest ha' m' seg hseg hk
    obtain ⟨st, hst⟩ := segment_strand hseg
    rw [hk] at hst
    cases (hgone rest ha').symm.trans hst

/-- **What is refused leaves everything as it was**, in whatever state a run leaves the scheduler;
    of a strand that was created and then refused there are the counts and two events, and no more
    than those, ever. And a worker that asks for a shutdown is refused, and nothing happens. -/
theorem refusals_harmless (hs : Initial s) (ha : s.Admissible ms) :
    Unmoved (s.run ms) ∧
    (∀ m e, (s.run ms).refusedSpawn? m = some e → ¬ (s.run ms).AtTheDoor m →
      Stillborn s ms m ⟨(s.run ms).strands.next⟩) ∧
    ∀ (machine : Script.Machine) (k : StrandId), (machine.perform k .shutdown).1 = machine ∧
      (machine.present = true →
        (machine.perform k .shutdown).2 = .answered (.refused .shutdownFromWorker)) := by
  refine ⟨unmoved _, fun m e h hdoor => hs.stillborn ha h hdoor, fun machine k => ⟨rfl, ?_⟩⟩
  intro hpresent
  simp only [Script.Machine.perform, hpresent, if_true]

/-- A body has a full queue refuse it a child. Its group is what it was, and the child that has a
    number never runs. -/
theorem refusals_harmless_child :
    let ms : List (Move Nat Unit) := [.spawn () none, .dispatch, .spawn () none]
    let rest : List (Move Nat Unit) := [.endSegment ⟨1⟩ () (.done (.ok 0)), .dispatch]
    (Unmoved (narrow.run ms) ∧ Stillborn narrow ms (.spawnChild ⟨1⟩ ()) ⟨3⟩) ∧
      (narrow.run ms).refusedSpawn? (.spawnChild ⟨1⟩ ()) = some (.overloaded 1) ∧
      (narrow.run (ms ++ [.spawnChild ⟨1⟩ ()] ++ rest)).history ⟨3⟩ = [.created, .rejected] ∧
      (narrow.run (ms ++ [.spawnChild ⟨1⟩ ()] ++ rest)).held = [⟨2⟩] := by
  intro ms rest
  have ha : narrow.Admissible (ms ++ [.spawnChild ⟨1⟩ ()] ++ rest) := by
    simp [ms, rest, Admissible, Allows]
    decide
  obtain ⟨hunmoved, hstillborn, -⟩ := refusals_harmless narrow_initial
    (admissible_append.mp (admissible_append.mp ha).1).1
  have hrefused : (narrow.run ms).refusedSpawn? (.spawnChild ⟨1⟩ ()) = some (.overloaded 1) := rfl
  have hdoor : ¬ (narrow.run ms).AtTheDoor (.spawnChild ⟨1⟩ ()) := by
    rintro ⟨⟨body, name, hm⟩, -⟩
    cases hm
  have hchild := hstillborn _ _ hrefused hdoor
  exact ⟨⟨hunmoved, hchild⟩, hrefused, hchild.told rest ha, by decide⟩

end Scheduler
end CoopSched
