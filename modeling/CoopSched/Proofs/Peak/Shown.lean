import CoopSched.Proofs.Peak.Crowd

/-!
# What the counter of the peak is shown

The counter of the peak is shown the live list each time that a strand is created, with the new
strand on it, and before the ready queue decides. So it is shown strands that are then refused. And
a strand that ends is on the live list until everything that its end sets off is done, so the
counter is shown that one as well when the next strand of its job is launched.

As long as there are workers, what is set off ends nobody, and in one move the queue admits either
everybody whom a job launches or nobody (`NoneGone`). When the workers are gone the queue admits
nobody, and the live list only becomes shorter (`NoneAdmitted`).
-/

namespace CoopSched

variable {V B : Type} {recs recs' : List (Record V)}

/-- Does the record tell that a strand comes or goes? -/
abbrev Record.isMilestone (rec : Record V) : Bool := rec.tells Happening.isMilestone

theorem Record.not_milestone_of_isIdle {rec : Record V} (h : rec.isIdle = true) :
    rec.isMilestone = false := by
  match rec with
  | .answered .. => rfl
  | .event e => exact Bool.not_eq_true' _ |>.mp h

/-- Nobody comes or goes. -/
structure NoMilestone (recs : List (Record V)) : Prop where
  born : bornIn recs = []
  refused : refusedIn recs = []
  gone : goneIn recs = []

theorem NoMilestone.of_all (h : ∀ rec ∈ recs, rec.isMilestone = false) : NoMilestone recs where
  born := List.filterMap_eq_nil_iff.mpr fun rec hrec => by
    have hnot := h rec hrec
    unfold Record.birth?
    split
    · cases hnot
    · rfl
  refused := List.filterMap_eq_nil_iff.mpr fun rec hrec => by
    have hnot := h rec hrec
    unfold Record.refusal?
    split
    · cases hnot
    · rfl
  gone := List.filterMap_eq_nil_iff.mpr fun rec hrec => by
    have hnot := h rec hrec
    unfold Record.end?
    split
    · cases hnot
    · cases hnot
    · rfl

namespace Scheduler

variable {drained : Bool} {s s₁ s' s'' : Scheduler V B} {m : Move V B} {id : StrandId}
  {st : Strand V B} {pre post : List (Record V)}

/-! ## Parts that create nobody -/

/-- The live list and the counter of the peak stay, and so does what the queue would admit. -/
structure Rests (s s' : Scheduler V B) : Prop where
  live : s'.live = s.live
  peak : s'.counters.peakLive = s.counters.peakLive
  terminated : s'.terminated = s.terminated
  admits : s'.queue.admits none = s.queue.admits none

theorem Rests.refl (s : Scheduler V B) : Rests s s := ⟨rfl, rfl, rfl, rfl⟩

theorem Rests.trans (h : Rests s s') (h' : Rests s' s'') : Rests s s'' where
  live := h'.live.trans h.live
  peak := h'.peak.trans h.peak
  terminated := h'.terminated.trans h.terminated
  admits := h'.admits.trans h.admits

theorem rests_wake (alive : s.terminated = false) (id : StrandId) : Rests s (s.wake id) := by
  unfold wake wakeWith
  rw [if_neg (by simp [alive])]
  split
  · exact .refl s
  next st hst => cases st.status <;> exact ⟨rfl, rfl, rfl, rfl⟩

theorem rests_block (s : Scheduler V B) (id : StrandId) : Rests s (s.block id) := by
  unfold block
  dsimp only
  split
  · exact ⟨rfl, rfl, rfl, rfl⟩
  · split <;> exact ⟨rfl, rfl, rfl, rfl⟩

theorem rests_releaseChildren (s : Scheduler V B) (id : StrandId) :
    Rests s (s.releaseChildren id) := by
  obtain ⟨journal, channel, heq⟩ := releaseChildren_eq s id
  rw [heq]
  exact ⟨rfl, rfl, rfl, rfl⟩

theorem rests_cut (s : Scheduler V B) (id : StrandId) (slot : Option BridgeId) :
    Rests s (s.cut id slot) := by
  have hclose : Rests s ((s.updateStrand id fun st =>
      { st with status := .doneError, body := none }).closeBridge id slot) := by
    cases slot with
    | none => exact ⟨rfl, rfl, rfl, rfl⟩
    | some b =>
      rw [closeBridge_some]
      exact ⟨rfl, rfl, rfl, rfl⟩
  obtain ⟨hlive, hpeak, hterm, hadmits⟩ := hclose.trans (rests_releaseChildren _ id)
  exact ⟨hlive, hpeak, hterm, hadmits⟩

theorem rests_markFinished (s : Scheduler V B) (id : StrandId) (ok : Bool) :
    Rests s (s.markFinished id ok) := by
  have hfinished : Rests s (((s.updateStrand id fun st =>
      { st with status := .finished ok, bridge := none }).count
      (if ok then .finishedOk else .finishedErr)).emit id (.finished ok)) := by
    cases ok <;> exact ⟨rfl, rfl, rfl, rfl⟩
  exact hfinished.trans (rests_releaseChildren _ id)

theorem rests_dispatch (h : Placed s.held s) : Rests s s.dispatch.1 := by
  have hd := h.dispatched
  have hpeak : s.dispatch.1.counters.peakLive = s.counters.peakLive := by
    cases hcan : s.canDispatch with
    | false => rw [dispatch_idle hcan]
    | true =>
      obtain ⟨id, rest, hq⟩ : ∃ id rest, s.queue.waiting = id :: rest := by
        cases hw : s.queue.waiting with
        | nil =>
          rw [canDispatch, hw] at hcan
          simp at hcan
        | cons id rest => exact ⟨id, rest, rfl⟩
      obtain ⟨st, hst, hs⟩ := h.waiting_runnable id (by rw [hq]; exact List.mem_cons_self)
      obtain ⟨body, hbody⟩ := Option.isSome_iff_exists.mp (h.body id st hst (Or.inl hs))
      have hst' : Scheduler.strand? { s with queue :=
          { s.queue with waiting := rest, running := s.queue.running + 1 } } id = some st := hst
      rw [dispatch_front hcan hq]
      unfold beginSegment
      simp only [hst', Option.bind_some, hs, Status.dispatch?, Option.map_some, hbody]
      rw [takeWakeup_counters]
      rfl
  generalize s.dispatch.1 = s', s.dispatch.2 = seg at hd hpeak
  cases hd with
  | idle _ => exact .refl s
  | plain => exact ⟨rfl, hpeak, rfl, rfl⟩
  | resumed => exact ⟨rfl, hpeak, rfl, rfl⟩

/-- Nobody comes or goes. -/
structure LiveKept (s s' : Scheduler V B) : Prop extends Rests s s' where
  told : ∃ recs, Tells s s' recs ∧ ∀ rec ∈ recs, rec.isMilestone = false

theorem LiveKept.of_hushed (h : Rests s s') (hhushed : Hushed s s') : LiveKept s s' := by
  obtain ⟨recs, htells, hidle⟩ := hhushed
  exact ⟨h, recs, htells, fun rec hrec => Record.not_milestone_of_isIdle (hidle rec hrec)⟩

theorem LiveKept.of_journal (h : Rests s s') (hjournal : s'.journal = s.journal) : LiveKept s s' :=
  .of_hushed h (.of_journal hjournal)

theorem LiveKept.refl (s : Scheduler V B) : LiveKept s s := .of_journal (.refl s) rfl

theorem LiveKept.trans (h : LiveKept s s') (h' : LiveKept s' s'') : LiveKept s s'' := by
  obtain ⟨recs, htells, hquiet⟩ := h.told
  obtain ⟨recs', htells', hquiet'⟩ := h'.told
  exact ⟨h.toRests.trans h'.toRests, recs ++ recs', htells.trans htells', fun rec hrec =>
    (List.mem_append.mp hrec).elim (hquiet rec) (hquiet' rec)⟩

theorem LiveKept.block (s : Scheduler V B) (id : StrandId) : LiveKept s (s.block id) :=
  .of_hushed (rests_block s id) (hushed_block s id)

theorem LiveKept.report (s : Scheduler V B) (id : StrandId) (outcome : Outcome V) :
    LiveKept s (s.reportUnhandled id outcome) := by
  have hhushed := hushed_reportUnhandled s id outcome
  obtain ⟨journal, channel, heq⟩ := s.reportUnhandled_eq id outcome
  rw [heq] at hhushed ⊢
  exact .of_hushed ⟨rfl, rfl, rfl, rfl⟩ hhushed

/-- A strand is cut off, and nobody comes. -/
theorem cut_departs (s : Scheduler V B) (id : StrandId) (slot : Option BridgeId) :
    ∃ recs, Tells s (s.cut id slot) recs ∧ bornIn recs = [] ∧ refusedIn recs = [] := by
  obtain ⟨idle, htells, hidle⟩ := cut_tells s id slot
  obtain ⟨hborn, hrefused, -⟩ := NoMilestone.of_all fun rec hrec =>
    Record.not_milestone_of_isIdle (hidle rec hrec)
  refine ⟨_, htells, ?_, ?_⟩
  · rw [bornIn_append, hborn]
    rfl
  · rw [refusedIn_append, hrefused]
    rfl

/-- A strand finishes, and nobody comes. -/
theorem markFinished_departs (s : Scheduler V B) (id : StrandId) (ok : Bool) :
    ∃ recs, Tells s (s.markFinished id ok) recs ∧ bornIn recs = [] ∧ refusedIn recs = [] := by
  obtain ⟨idle, htells, hidle⟩ := markFinished_tells s id ok
  obtain ⟨hborn, hrefused, -⟩ := NoMilestone.of_all fun rec hrec =>
    Record.not_milestone_of_isIdle (hidle rec hrec)
  exact ⟨_, htells, hborn, hrefused⟩

/-! ## The creation of a strand -/

/-- What is written down when a strand is created and the queue has decided. -/
def creation (id : StrandId) (admitted : Bool) : List (Record V) :=
  .event ⟨id, .created⟩ :: if admitted then [] else [.event ⟨id, .rejected⟩]

@[simp] theorem bornIn_creation (id : StrandId) (admitted : Bool) :
    bornIn (creation (V := V) id admitted) = [id] := by
  cases admitted <;> rfl

@[simp] theorem goneIn_creation (id : StrandId) (admitted : Bool) :
    goneIn (creation (V := V) id admitted) = [] := by
  cases admitted <;> rfl

@[simp] theorem refusedIn_creation (id : StrandId) (admitted : Bool) :
    refusedIn (creation (V := V) id admitted) = if admitted then [] else [id] := by
  cases admitted <;> rfl

/-- A strand is created, and the counter of the peak is shown the live list with it. -/
structure Asked (s s' : Scheduler V B) (id : StrandId) (admitted : Bool) : Prop where
  tells : Tells s s' (creation id admitted)
  live : s'.live = if admitted then s.live ++ [id] else s.live
  peak : s'.counters.peakLive = max s.counters.peakLive (s.live.length + 1)
  terminated : s'.terminated = s.terminated
  admits : s'.queue.admits none = s.queue.admits none

/-- The embedder may be turned away before; everybody else gets a strand, and the queue decides. -/
theorem spawn_asked (s : Scheduler V B) (r : SpawnRequest B) :
    r.admission = .external ∧ (s.spawn r).1 = s ∨
      Asked s (s.spawn r).1 ⟨s.strands.next⟩
        (s.queue.admits (r.admission.limit s.maxPending)) := by
  unfold spawn
  split
  next hstop => exact Or.inl ⟨hstop.1, rfl⟩
  next =>
    refine Or.inr ?_
    have hpeak : (s.counters.seeLive
        (s.live ++ [(⟨s.strands.next⟩ : StrandId)]).length).peakLive =
          max s.counters.peakLive (s.live.length + 1) := by
      rw [List.length_append]
      rfl
    unfold ReadyQueue.admit?
    dsimp only
    cases s.queue.admits (r.admission.limit s.maxPending) with
    | true =>
      exact
        { tells := .push rfl
          live := rfl
          peak := hpeak
          terminated := rfl
          admits := rfl }
    | false =>
      have hcreated : Tells s
          { s with journal := s.journal.push (.event ⟨⟨s.strands.next⟩, .created⟩) } _ := .push rfl
      exact
        { tells := hcreated.trans (.push rfl)
          live := rfl
          peak := hpeak
          terminated := rfl
          admits := rfl }

/-! ## What is set off while there are workers -/

/-- Whatever has come since, everybody was admitted or nobody, and nobody has gone. -/
structure NoneGone (s s' : Scheduler V B) (recs : List (Record V)) : Prop where
  tells : Tells s s' recs
  stay : goneIn recs = []
  refused : ∀ k ∈ refusedIn recs, k ∈ bornIn recs
  live : s'.live = s.live ++ if s.queue.admits none then bornIn recs else []
  peak : s'.counters.peakLive = if bornIn recs = [] then s.counters.peakLive
    else max s.counters.peakLive
      (s.live.length + if s.queue.admits none then (bornIn recs).length else 1)
  terminated : s'.terminated = s.terminated
  admits : s'.queue.admits none = s.queue.admits none

theorem NoneGone.refl (s : Scheduler V B) : NoneGone s s [] where
  tells := .of_journal rfl
  stay := rfl
  refused := fun _ hk => hk
  live := by cases s.queue.admits none <;> exact (List.append_nil _).symm
  peak := rfl
  terminated := rfl
  admits := rfl

theorem NoneGone.length_live (h : NoneGone s s' recs) : s'.live.length =
    s.live.length + if s.queue.admits none then (bornIn recs).length else 0 := by
  rw [h.live, List.length_append]
  split <;> rfl

/-- While nobody goes, the live list is shown before anybody is taken off it. -/
theorem NoneGone.peak_eq (h : NoneGone s s' recs) : s'.counters.peakLive =
    if (bornIn recs).length = 0 then s.counters.peakLive
    else max s.counters.peakLive
      (s.live.length + if s.queue.admits none then (bornIn recs).length else 1) := by
  simp only [h.peak, List.length_eq_zero_iff]

theorem NoneGone.liveKept (h : NoneGone s s₁ recs) (hl : LiveKept s₁ s') :
    ∃ recs', NoneGone s s' recs' := by
  obtain ⟨quiet, htells, hquiet⟩ := hl.told
  obtain ⟨hborn, hrefused, hgone⟩ := NoMilestone.of_all hquiet
  have hborn' : bornIn (recs ++ quiet) = bornIn recs := by
    rw [bornIn_append, hborn, List.append_nil]
  exact ⟨recs ++ quiet,
    { tells := h.tells.trans htells
      stay := by rw [goneIn_append, h.stay, hgone, List.append_nil]
      refused := by
        rw [hborn', refusedIn_append, hrefused, List.append_nil]
        exact h.refused
      live := by rw [hborn', hl.live, h.live]
      peak := by rw [hborn', hl.peak, h.peak]
      terminated := hl.terminated.trans h.terminated
      admits := hl.admits.trans h.admits }⟩

/-- A job launches another strand. -/
theorem NoneGone.asked (h : NoneGone s s₁ recs) (ha : Asked s₁ s' id (s₁.queue.admits none)) :
    ∃ recs', NoneGone s s' recs' := by
  rw [h.admits] at ha
  have hborn : bornIn (recs ++ creation id (s.queue.admits none)) = bornIn recs ++ [id] := by
    rw [bornIn_append, bornIn_creation]
  refine ⟨recs ++ creation id (s.queue.admits none),
    { tells := h.tells.trans ha.tells
      stay := by rw [goneIn_append, h.stay, goneIn_creation]; rfl
      refused := fun k hk => ?_
      live := ?_
      peak := ?_
      terminated := ha.terminated.trans h.terminated
      admits := ha.admits.trans h.admits }⟩
  · rw [refusedIn_append, List.mem_append, refusedIn_creation] at hk
    rw [hborn]
    refine List.mem_append.mpr (hk.imp (h.refused k) fun hk => ?_)
    split at hk
    · exact absurd hk List.not_mem_nil
    · exact hk
  · rw [ha.live, h.live, hborn]
    split
    · exact List.append_assoc _ _ _
    · rfl
  · -- Whoever came before was shown as well.
    rw [hborn, if_neg (List.append_ne_nil_of_right_ne_nil _ (List.cons_ne_nil _ _)), ha.peak,
      h.peak_eq, h.length_live, List.length_append, List.length_singleton]
    split_ifs <;> omega

/-- Nobody goes by what is set off while there are workers. -/
theorem bears_noneGone (s : Scheduler V B) :
    Bears (fun _ => False) (fun _ => True) fun s' => ∃ recs, NoneGone s s' recs where
  update := by
    rintro s₁ s' hupdate ⟨recs, h⟩
    cases hupdate with
    | setBridge hb x => exact h.liveKept (.of_journal ⟨rfl, rfl, rfl, rfl⟩ rfl)
    | wake alive id => exact h.liveKept (.of_hushed (rests_wake alive id) (hushed_wake alive id))
    | answered hj hentry answer =>
      exact h.liveKept ⟨⟨rfl, rfl, rfl, rfl⟩, _, .push rfl, fun rec hrec => by
        rw [List.mem_singleton.mp hrec]
        rfl⟩
    | job hj hf hslots => exact h.liveKept (.of_journal ⟨rfl, rfl, rfl, rfl⟩ rfl)
    | addJob entry hj hok => exact h.liveKept (.of_journal ⟨rfl, rfl, rfl, rfl⟩ rfl)
    | launch body hook hj hentry =>
      rcases spawn_asked s₁ { body := body, admission := .invocation, hook := some hook } with
        ⟨hexternal, -⟩ | hasked
      · cases hexternal
      · exact h.asked hasked
  callbacks := fun _ _ _ => trivial

theorem absorbs_noneGone (alive : s.terminated = false) (nested : Cancel V B) :
    Absorbs (fun s' => ∃ recs, NoneGone s s' recs) nested := by
  rintro s₁ id ⟨recs, h⟩ gone
  rw [h.terminated, alive] at gone
  cases gone

/-! ## What is set off when the workers are gone -/

/-- Whoever has come since was refused, and the live list has not become longer. -/
structure NoneAdmitted (s s' : Scheduler V B) (recs : List (Record V)) : Prop where
  gone : s'.terminated = true
  shut : s'.queue.admits none = false
  tells : Tells s s' recs
  refused : ∀ k, k ∈ refusedIn recs ↔ k ∈ bornIn recs
  live : s'.live.length ≤ s.live.length
  mono : s.counters.peakLive ≤ s'.counters.peakLive
  peak : s'.counters.peakLive ≤ if bornIn recs = [] then s.counters.peakLive
    else max s.counters.peakLive (s.live.length + 1)

theorem NoneAdmitted.refl (gone : s.terminated = true) (shut : s.queue.admits none = false) :
    NoneAdmitted s s [] :=
  ⟨gone, shut, .of_journal rfl, fun _ => Iff.rfl, le_rfl, le_rfl, le_rfl⟩

/-- Nobody comes. -/
theorem NoneAdmitted.nobody (h : NoneAdmitted s s₁ recs) (hterm : s'.terminated = s₁.terminated)
    (hadmits : s'.queue.admits none = s₁.queue.admits none)
    (hlive : s'.live.length ≤ s₁.live.length)
    (hpeak : s'.counters.peakLive = s₁.counters.peakLive) (htells : Tells s₁ s' recs')
    (hborn : bornIn recs' = []) (hrefused : refusedIn recs' = []) :
    ∃ recs', NoneAdmitted s s' recs' := by
  have hborn' : bornIn (recs ++ recs') = bornIn recs := by
    rw [bornIn_append, hborn, List.append_nil]
  exact ⟨recs ++ recs',
    { gone := hterm.trans h.gone
      shut := hadmits.trans h.shut
      tells := h.tells.trans htells
      refused := by
        rw [hborn', refusedIn_append, hrefused, List.append_nil]
        exact h.refused
      live := hlive.trans h.live
      mono := hpeak ▸ h.mono
      peak := by rw [hborn', hpeak]; exact h.peak }⟩

theorem NoneAdmitted.liveKept (h : NoneAdmitted s s₁ recs) (hl : LiveKept s₁ s') :
    ∃ recs', NoneAdmitted s s' recs' := by
  obtain ⟨quiet, htells, hquiet⟩ := hl.told
  obtain ⟨hborn, hrefused, -⟩ := NoMilestone.of_all hquiet
  exact h.nobody hl.terminated hl.admits (le_of_eq (congrArg _ hl.live)) hl.peak htells hborn
    hrefused

theorem NoneAdmitted.asked (h : NoneAdmitted s s₁ recs) (ha : Asked s₁ s' id false) :
    ∃ recs', NoneAdmitted s s' recs' := by
  have hborn : bornIn (recs ++ creation id false) = bornIn recs ++ [id] := bornIn_append recs _
  have hlive : s'.live = s₁.live := ha.live
  have hpeak := h.peak
  refine ⟨recs ++ creation id false,
    { gone := ha.terminated.trans h.gone
      shut := ha.admits.trans h.shut
      tells := h.tells.trans ha.tells
      refused := fun k => ?_
      live := (congrArg List.length hlive).trans_le h.live
      mono := by rw [ha.peak]; exact h.mono.trans (le_max_left _ _)
      peak := ?_ }⟩
  · rw [hborn, refusedIn_append, List.mem_append, List.mem_append]
    exact or_congr (h.refused k) Iff.rfl
  · have hnarrow := h.live
    rw [hborn, if_neg (List.append_ne_nil_of_right_ne_nil _ (List.cons_ne_nil _ _)), ha.peak]
    split at hpeak <;> omega

/-- When the workers are gone, everything only wanes. -/
theorem guards_noneAdmitted (s : Scheduler V B) :
    Guards (fun _ => False) (fun _ => True) fun s' => ∃ recs, NoneAdmitted s s' recs where
  change := by
    rintro s₁ s' hchange ⟨recs, h⟩
    cases hchange with
    | setBridge hb x => exact h.liveKept (.of_journal ⟨rfl, rfl, rfl, rfl⟩ rfl)
    | wake alive id => exact h.liveKept (.of_hushed (rests_wake alive id) (hushed_wake alive id))
    | answered hj hentry answer =>
      exact h.liveKept ⟨⟨rfl, rfl, rfl, rfl⟩, _, .push rfl, fun rec hrec => by
        rw [List.mem_singleton.mp hrec]
        rfl⟩
    | job hj hf => exact h.liveKept (.of_journal ⟨rfl, rfl, rfl, rfl⟩ rfl)
    | addJob entry hj hok => exact h.liveKept (.of_journal ⟨rfl, rfl, rfl, rfl⟩ rfl)
    | launch body hook hj hentry =>
      rcases spawn_asked s₁ { body := body, admission := .invocation, hook := some hook } with
        ⟨hexternal, -⟩ | hasked
      · cases hexternal
      · have hshut : s₁.queue.admits (Admission.limit .invocation s₁.maxPending) = false := h.shut
        rw [hshut] at hasked
        exact h.asked hasked
    | @cut id st hst hend hhook hover =>
      obtain ⟨recs', htells, hborn, hrefused⟩ := cut_departs s₁ id st.bridge
      have hrests := rests_cut s₁ id st.bridge
      exact h.nobody hrests.terminated hrests.admits (le_of_eq (congrArg _ hrests.live))
        hrests.peak htells hborn hrefused
    | retire id kept =>
      exact h.nobody rfl rfl List.erase_sublist.length_le rfl (.of_journal rfl) rfl rfl
  callbacks := fun _ _ _ => trivial
  cut_off := fun _ _ _ _ hwatched => absurd hwatched not_false

end Scheduler
end CoopSched
