import CoopSched.Proofs.Scheduler.Watch

/-!
# Reports — the failures that nobody received

An outcome that finds no receiver is reported if it is a failure. Reports are made in two places: a
strand that ends reports what its children had left with it, and one that finishes reports its own
failure if there is nobody to tell. Everything else that goes into the journal is no report
(`Mute`).
-/

namespace CoopSched

variable {V B : Type}

/-- The failure of a strand that a record reports. -/
def Record.report? (k : StrandId) : Record V → Option Failure
  | .event ⟨id, .unhandled e⟩ => if id = k then some e else none
  | _ => none

/-- The failure of a strand that would have to be reported with an outcome. -/
def ChildOutcome.report? (k : StrandId) (c : ChildOutcome V) : Option Failure :=
  if c.id = k then c.outcome.failure? else none

namespace Scheduler

variable {s s' s'' : Scheduler V B} {k id : StrandId} {st : Strand V B}

/-- The failures of a strand that were reported, the first one first. -/
def unhandled (s : Scheduler V B) (k : StrandId) : List Failure :=
  s.journal.toList.filterMap (Record.report? k)

theorem Tells.unhandled {recs : List (Record V)} (h : Tells s s' recs) (k : StrandId) :
    s'.unhandled k = s.unhandled k ++ recs.filterMap (Record.report? k) := by
  rw [Scheduler.unhandled, h, List.filterMap_append]
  rfl

/-- Nothing has been reported. -/
def Mute (s s' : Scheduler V B) : Prop := ∀ k, s'.unhandled k = s.unhandled k

theorem Mute.trans (h : Mute s s') (h' : Mute s' s'') : Mute s s'' :=
  fun k => (h' k).trans (h k)

theorem Mute.of_tells {recs : List (Record V)} (h : Tells s s' recs)
    (hrecs : ∀ k, ∀ rec ∈ recs, rec.report? k = none) : Mute s s' := by
  intro k
  rw [h.unhandled k, List.filterMap_eq_nil_iff.mpr (hrecs k), List.append_nil]

theorem Mute.of_journal (h : s'.journal = s.journal) : Mute s s' :=
  .of_tells (.of_journal h) fun _ _ hrec => absurd hrec List.not_mem_nil

theorem Mute.push {rec : Record V} (h : s'.journal = s.journal.push rec)
    (hrec : ∀ k, rec.report? k = none) : Mute s s' :=
  .of_tells (.push h) fun k _ hmem => List.mem_singleton.mp hmem ▸ hrec k

/-! ## What is no report -/

theorem mute_wake (alive : s.terminated = false) (id : StrandId) : Mute s (s.wake id) := by
  unfold wake wakeWith
  rw [if_neg (by simp [alive])]
  split
  · exact .of_journal rfl
  next st hst =>
    cases st.status with
    | blocked => exact .push rfl fun _ => rfl
    | _ => exact .of_journal rfl

theorem mute_spawn (s : Scheduler V B) (r : SpawnRequest B) : Mute s (s.spawn r).1 := by
  rcases spawn_told s r with ⟨-, heq⟩ | ⟨counters, channel, heq⟩ | ⟨counters, channel, heq⟩ <;>
    rw [heq]
  · exact .of_journal rfl
  · exact .push rfl fun _ => rfl
  · refine .of_tells (show Tells s _ [.event ⟨⟨s.strands.next⟩, .created⟩,
      .event ⟨⟨s.strands.next⟩, .rejected⟩] by simp [Tells]) fun k rec hrec => ?_
    simp only [List.mem_cons, List.not_mem_nil, or_false] at hrec
    rcases hrec with rfl | rfl <;> rfl

theorem mute_block (s : Scheduler V B) (id : StrandId) : Mute s (s.block id) := by
  have hparked : Mute s ((s.count .parked).emit id .parked) := .push rfl fun _ => rfl
  unfold block
  dsimp only
  split
  · exact hparked
  next status hstatus =>
    split
    · exact hparked.trans (.push rfl fun _ => rfl)
    · exact hparked.trans (.of_journal rfl)

/-- A worker that takes a strand reports nothing, since the strand has a body. -/
theorem mute_beginSegment
    (hbody : ∀ st, s.strand? id = some st → st.status = .runnable → st.body.isSome = true) :
    Mute s (s.beginSegment id).1 := by
  unfold beginSegment
  split
  · exact .of_journal rfl
  next st status hbind =>
    obtain ⟨st', hst, hmap⟩ := Option.bind_eq_some_iff.mp hbind
    obtain ⟨status', hdispatch, heq⟩ := Option.map_eq_some_iff.mp hmap
    obtain ⟨rfl, rfl⟩ := Prod.mk.inj heq
    have hs : st'.status = .runnable := by
      cases hs : st'.status <;> rw [hs] at hdispatch <;> first | rfl | cases hdispatch
    dsimp only
    split
    next hnone =>
      have hsome := hbody st' hst hs
      rw [hnone] at hsome
      cases hsome
    next body _ =>
      exact .push (takeWakeup_journal _ id st')
        (show ∀ k, Record.report? k (.event ⟨id, .dispatched⟩ : Record V) = none from fun _ => rfl)

theorem mute_dispatch {busy : List StrandId} (h : Placed busy s) : Mute s s.dispatch.1 := by
  cases hcan : s.canDispatch with
  | false =>
    rw [dispatch_idle hcan]
    exact .of_journal rfl
  | true =>
    cases hq : s.queue.waiting with
    | nil =>
      rw [canDispatch, hq] at hcan
      simp at hcan
    | cons id rest =>
      rw [dispatch_front hcan hq]
      exact mute_beginSegment (s := { s with
        queue := { s.queue with waiting := rest, running := s.queue.running + 1 } })
        fun st hst hs => h.body id st hst (Or.inl hs)

/-! ## What is one -/

theorem unhandled_report (s : Scheduler V B) (id : StrandId) (outcome : Outcome V) (k : StrandId) :
    (s.reportUnhandled id outcome).unhandled k =
      s.unhandled k ++ (ChildOutcome.report? k ⟨id, outcome⟩).toList := by
  cases outcome with
  | ok v =>
    rw [Mute.of_journal (show (s.reportUnhandled id (.ok v)).journal = s.journal from rfl)]
    simp [ChildOutcome.report?, Outcome.failure?]
  | err e =>
    rw [(Tells.push rfl : Tells s (s.reportUnhandled id (.err e)) _).unhandled k]
    simp only [List.filterMap_cons, Record.report?, ChildOutcome.report?, Outcome.failure?]
    by_cases hid : id = k <;> simp [hid]

theorem unhandled_reports (s : Scheduler V B) (left : List (ChildOutcome V)) (k : StrandId) :
    (left.foldl (fun s c => s.reportUnhandled c.id c.outcome) s).unhandled k =
      s.unhandled k ++ left.filterMap (·.report? k) := by
  induction left generalizing s with
  | nil => exact (List.append_nil _).symm
  | cons c rest ih =>
    rw [List.foldl_cons, ih, unhandled_report, List.append_assoc]
    congr 1
    rw [List.filterMap_cons]
    cases c.report? k <;> rfl

theorem unhandled_releaseChildren (hst : s.strand? id = some st) (k : StrandId) :
    (s.releaseChildren id).unhandled k =
      s.unhandled k ++ st.children.settled.filterMap (·.report? k) := by
  unfold releaseChildren
  rw [hst]
  exact unhandled_reports
    (s.updateStrand id fun st' => { st' with children := st.children.close.1 })
    st.children.settled k

/-- A strand that is cut off reports what its children had left with it. -/
theorem unhandled_cut (hst : s.strand? id = some st) (slot : Option BridgeId) (k : StrandId) :
    (s.cut id slot).unhandled k =
      s.unhandled k ++ st.children.settled.filterMap (·.report? k) := by
  generalize hs₁ : (s.updateStrand id fun st =>
    { st with status := .doneError, body := none }).closeBridge id slot = s₁
  have hcut : s.cut id slot = ((s₁.releaseChildren id).count .cancelled).emit id .cancelled := by
    rw [← hs₁]
    rfl
  have hdone : (s.updateStrand id fun st =>
      { st with status := .doneError, body := none }).strand? id =
        some { st with status := .doneError, body := none } := by
    rw [strand?_updateStrand_self, hst, Option.map_some]
  obtain ⟨hjournal, st₁, hst₁, hchildren⟩ : s₁.journal = s.journal ∧
      ∃ st₁, s₁.strand? id = some st₁ ∧ st₁.children = st.children := by
    rw [← hs₁]
    cases slot with
    | none => exact ⟨rfl, _, hdone, rfl⟩
    | some b =>
      rw [closeBridge_some]
      exact ⟨rfl, _, (strand?_of_update_some (f := fun st => { st with bridge := none }) rfl hdone
        id).trans (if_pos rfl), rfl⟩
  have hcancelled : Mute (s₁.releaseChildren id) (s.cut id slot) := by
    rw [hcut]
    exact .push rfl fun _ => rfl
  rw [hcancelled k, unhandled_releaseChildren hst₁, hchildren, Mute.of_journal hjournal]

/-- So does a strand that finishes. -/
theorem unhandled_markFinished (hst : s.strand? id = some st) (ok : Bool) (k : StrandId) :
    (s.markFinished id ok).unhandled k =
      s.unhandled k ++ st.children.settled.filterMap (·.report? k) := by
  have hfinished : Mute s (((s.updateStrand id fun st =>
      { st with status := .finished ok, bridge := none }).count
      (if ok then .finishedOk else .finishedErr)).emit id (.finished ok)) := .push rfl fun _ => rfl
  have hrow : (((s.updateStrand id fun st =>
      { st with status := .finished ok, bridge := none }).count
      (if ok then .finishedOk else .finishedErr)).emit id (.finished ok)).strand? id =
        some { st with status := .finished ok, bridge := none } := by
    rw [strand?_emit, strand?_count, strand?_updateStrand_self, hst, Option.map_some]
  rw [← hfinished k]
  exact unhandled_releaseChildren hrow k

end Scheduler
end CoopSched
