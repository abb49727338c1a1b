import CoopSched.Proofs.Admission.Causes
import CoopSched.Proofs.Children.Waits
import CoopSched.Proofs.Outcome.Whereabouts
import CoopSched.Proofs.Shutdown.Cutters
import CoopSched.Proofs.Shutdown.Immediate

/-!
# Unheard — the failures that nobody hears of

The failure of a child is meant for its parent. A wait of the parent takes it, together with what
else has settled, and the parent is told the batch when it is resumed. What no wait has taken when
the parent ends is reported by the group that is closed then.

Between the two a failure can get lost. A batch that was taken lies in the bridge of the wait until
the strand is resumed, and it is in no group any more. A strand that is cancelled in the meantime
has its bridge closed with everything in it. That is the only way (`failure_reported`): who is
resumed from a wait is told what the wait took (`Initial.heard_batch`), and who is not, and has
ended, was cancelled while he waited (`Initial.waits_of_bridge`).
-/

namespace CoopSched

variable {V B : Type}

/-- The bridge of a batch, and what it took. -/
def Batch.taken (x : Batch V) : BridgeId × List (ChildOutcome V) := (x.bridge, x.outcomes)

theorem Ledger.close_cases (l : Ledger V) (s : Scheduler V B) : l.close s = l ∨
    ∃ mode b, l.wait = some (mode, b) ∧
      l.close s = { batches := l.batches ++ [⟨mode, b, l.fresh⟩] } := by
  unfold Ledger.close
  split
  next mode b hwait =>
    split
    · exact Or.inr ⟨mode, b, hwait, rfl⟩
    · exact Or.inl rfl
  next => exact Or.inl rfl

/-- A group with the wait of a ledger fires just when the ledger closes its batch. -/
theorem Ledger.close_taken {l : Ledger V} {g : Group V} {s : Scheduler V B}
    (hwaiter : g.waiter = l.wait) (hafter : g.fire.1.waiter = (l.close s).wait) :
    (l.close s).batches.map Batch.taken =
      l.batches.map Batch.taken ++ (g.fire.2.map fun d => (d.bridge, l.fresh)).toList := by
  rcases l.close_cases s with hclose | ⟨mode, b, hwait, hclose⟩ <;> rw [hclose] at hafter ⊢
  · rcases g.fire_cases with ⟨hnone, -⟩ | ⟨d, mode, -, hon, -, hgone⟩
    · simp [hnone]
    · cases (hwaiter.symm.trans hon).symm.trans (hafter.symm.trans hgone)
  · rcases g.fire_cases with ⟨-, hsame⟩ | ⟨d, mode', hfired, hon, -, -⟩
    · rw [hsame, hwaiter, hwait] at hafter
      cases hafter
    · rw [hwaiter, hwait] at hon
      obtain ⟨-, rfl⟩ := Prod.mk.inj (Option.some.inj hon)
      simp [hfired, Batch.taken]

namespace Scheduler

variable {s : Scheduler V B} {m : Move V B} {ms before rest : List (Move V B)}
  {p k : StrandId} {st : Strand V B} {c : Chronicle V} {l : Ledger V} {leg last : Leg V}
  {newer older legs : List (Leg V)} {b : BridgeId} {e : Failure}

/-! ## Segments -/

/-- Only the last segment of a strand is changed, and not what it was told. -/
def Retouches (legs legs' : List (Leg V)) : Prop :=
  ∃ f : Leg V → Leg V, (∀ leg, (f leg).told = leg.told) ∧ legs' = legs.modifyHead f

theorem Retouches.refl (legs : List (Leg V)) : Retouches legs legs :=
  ⟨id, fun _ => rfl, by cases legs <;> rfl⟩

theorem Retouches.trans {legs legs₁ legs₂ : List (Leg V)} (h : Retouches legs legs₁)
    (h' : Retouches legs₁ legs₂) : Retouches legs legs₂ := by
  obtain ⟨f, hf, rfl⟩ := h
  obtain ⟨g, hg, rfl⟩ := h'
  exact ⟨g ∘ f, fun leg => (hg _).trans (hf leg), List.modifyHead_modifyHead⟩

theorem retouches_handBridge (bridge? : Option (StrandId × Origin × BridgeId)) (p : StrandId)
    (legs : List (Leg V)) : Retouches legs (handBridge bridge? p legs) := by
  unfold handBridge
  split
  · split
    · refine ⟨_, ?_, rfl⟩
      exact fun _ => rfl
    · exact .refl legs
  · exact .refl legs

theorem retouches_endLeg (conclusion? : Option (StrandId × Step V)) (p : StrandId)
    (legs : List (Leg V)) : Retouches legs (endLeg conclusion? p legs) := by
  unfold endLeg
  split
  · split
    · refine ⟨_, ?_, rfl⟩
      exact fun _ => rfl
    · exact .refl legs
  · exact .refl legs

/-- A move begins a segment of the strand, or it changes at most how the last one ended. -/
theorem nextLegs_cases (s : Scheduler V B) (m : Move V B) (p : StrandId) (legs : List (Leg V)) :
    (∃ seg, m = .dispatch ∧ s.dispatch.2 = some seg ∧ seg.strand = p ∧
      nextLegs s m p legs = { told := seg.wakeup } :: legs) ∨
    Retouches legs (nextLegs s m p legs) := by
  cases hseg : s.segment? m with
  | some seg =>
    cases m with
    | dispatch =>
      rw [nextLegs_dispatch hseg]
      split
      next hp => exact Or.inl ⟨seg, rfl, hseg, hp, rfl⟩
      next => exact Or.inr (.refl legs)
    | _ => cases hseg
  | none =>
    rw [nextLegs, hseg]
    exact Or.inr ((retouches_handBridge _ p legs).trans (retouches_endLeg _ p _))

/-- Behind each segment of a strand is a dispatch, and the segments before it were there then. -/
theorem exists_dispatch (hlegs : (chronicle s ms).legs p = newer ++ leg :: older) :
    ∃ before rest seg, ms = before ++ .dispatch :: rest ∧
      (s.run before).dispatch.2 = some seg ∧ seg.strand = p ∧ seg.wakeup = leg.told ∧
      (chronicle s before).legs p = older := by
  induction ms using List.reverseRecOn generalizing newer leg with
  | nil => cases newer <;> cases hlegs
  | append_singleton ms m ih =>
    have hearlier : ∀ (newer : List (Leg V)) (leg : Leg V),
        (chronicle s ms).legs p = newer ++ leg :: older →
        ∃ before rest seg, ms ++ [m] = before ++ .dispatch :: rest ∧
          (s.run before).dispatch.2 = some seg ∧ seg.strand = p ∧ seg.wakeup = leg.told ∧
          (chronicle s before).legs p = older := by
      intro newer leg h
      obtain ⟨before, rest, seg, heq, hseg⟩ := ih h
      exact ⟨before, rest ++ [m], seg, by rw [heq]; simp, hseg⟩
    rw [chronicle_snoc] at hlegs
    rcases nextLegs_cases (s.run ms) m p ((chronicle s ms).legs p) with
      ⟨seg, rfl, hseg, hp, hnext⟩ | ⟨f, hf, hnext⟩
    · cases newer with
      | nil =>
        obtain ⟨rfl, rfl⟩ := List.cons.inj (hnext.symm.trans hlegs)
        exact ⟨ms, [], seg, rfl, hseg, hp, rfl, rfl⟩
      | cons latest newer => exact hearlier newer leg (List.cons.inj (hnext.symm.trans hlegs)).2
    · have hsame := hnext.symm.trans hlegs
      cases hold : (chronicle s ms).legs p with
      | nil =>
        rw [hold] at hsame
        cases newer <;> cases hsame
      | cons last tail =>
        rw [hold] at hsame
        cases newer with
        | nil =>
          obtain ⟨rfl, rfl⟩ := List.cons.inj hsame
          rw [hf]
          exact hearlier [] last hold
        | cons latest newer =>
          obtain ⟨-, rfl⟩ := List.cons.inj hsame
          exact hearlier (last :: newer) leg hold

/-- The strand rests after a segment that ended with a wait for its children. -/
def Leg.WaitsOn (leg : Leg V) (mode : WaitMode) (b : BridgeId) : Prop :=
  leg.bridge = some (.children, b) ∧ leg.ended = some (.await mode)

/-- **A strand whose last segment obtained a bridge for its children waits for them**, and it has
    not finished. -/
theorem Initial.waits_of_bridge (hs : Initial s) (ha : s.Admissible ms)
    (hlegs : (chronicle s ms).legs p = leg :: older) (hbridge : leg.bridge = some (.children, b)) :
    (∃ mode, leg.WaitsOn mode b) ∧ ∀ r, ¬ EndedIn s ms p r := by
  induction ms using List.reverseRecOn generalizing leg older with
  | nil => cases hlegs
  | append_singleton ms m ih =>
    obtain ⟨hprev, hm, -⟩ := admissible_append.mp ha
    have htracks := hs.tracks_run hprev fun _ m _ _ => respects_all _ m
    have hstable := hs.stable_run hprev
    -- A segment that ends was open, and an open one has no bridge for children.
    have hopen : ∀ body step, m = .endSegment p body step → ∃ last tail,
        (chronicle s ms).legs p = last :: tail ∧ last.ended = none ∧
          last.bridge ≠ some (.children, b) := by
      rintro body step rfl
      obtain ⟨last, tail, hlast, hended⟩ := htracks.open hstable.placed hm
      exact ⟨last, tail, hlast, hended, bare_run s ms p last tail hlast hended b⟩
    have hadds := adds (s.run ms) m p ((chronicle s ms).legs p)
    rw [chronicle_snoc] at hlegs
    change nextLegs (s.run ms) m p ((chronicle s ms).legs p) = _ at hlegs
    generalize nextLegs (s.run ms) m p ((chronicle s ms).legs p) = legs' at hlegs hadds
    subst hlegs
    generalize hnext : leg :: older = legs' at hadds
    cases hadds with
    | nothing =>
      obtain ⟨⟨mode, hwaits⟩, hnot⟩ := ih hprev hnext.symm hbridge
      refine ⟨⟨mode, hwaits⟩, fun r hr => ?_⟩
      rcases endedIn_snoc.mp hr with hold | hnew
      · exact hnot r hold
      · obtain ⟨body, step, rfl, -⟩ := finishes_eq hnew
        obtain ⟨last, tail, hlast, -, hbare⟩ := hopen body step rfl
        obtain ⟨rfl, -⟩ := List.cons.inj (hnext.trans hlast)
        exact hbare hbridge
    | segment told =>
      obtain ⟨rfl, -⟩ := List.cons.inj hnext
      cases hbridge
    | bridge b' ho =>
      cases hold : (chronicle s ms).legs p with
      | nil =>
        rw [hold] at hnext
        cases hnext
      | cons last tail =>
        rw [hold] at hnext
        obtain ⟨rfl, -⟩ := List.cons.inj hnext
        exact absurd (Prod.mk.inj (Option.some.inj hbridge)).1 ho
    | ending hend =>
      obtain ⟨last, tail, hlast, -, hbare⟩ := hopen _ _ hend
      rw [hlast] at hnext
      obtain ⟨rfl, -⟩ := List.cons.inj hnext
      exact absurd hbridge hbare
    | @wait mode b' hw =>
      obtain ⟨hissued, body, rfl⟩ := awaits_iff.mp hw
      obtain ⟨last, tail, hlast, -⟩ := hopen _ _ rfl
      rw [hlast] at hnext
      obtain ⟨rfl, -⟩ := List.cons.inj hnext
      obtain ⟨st, hst, hrun⟩ := (hstable.placed.busy_iff p).mp hm
      refine ⟨⟨mode, hbridge, rfl⟩, fun r hr => ?_⟩
      rcases endedIn_snoc.mp hr with hold | hnew
      · have hend := (hs.hasEnded_of_endedIn hprev hold).all st hst
        cases (Status.not_terminal_of_running hrun).symm.trans hend
      · cases hissued.symm.trans (issued_of_finishes hnew)

/-! ## Batches -/

/-- While the strand is alive, the ledger closes a batch with a move just when its group fires. -/
theorem Kept.taken_after {c' : Chronicle V} (hk : Kept c p l s)
    (hk' : Kept c' p (l.note s p m) (s.after m))
    (hregroups : Regroups s m p (s.household p).1 ((s.after m).household p).1)
    (halive : (s.household p).2 = false) (halive' : ((s.after m).household p).2 = false)
    (hlast : ∀ r, s.finishes m ≠ some (p, r)) :
    (l.note s p m).batches.map Batch.taken = l.batches.map Batch.taken ++ (s.takes p m).toList := by
  have hgroup := hk.group halive
  have hgroup' := hk'.group halive'
  have hwaiter : (s.household p).1.waiter = l.wait := by rw [hgroup]; rfl
  have hwaiter' : ((s.after m).household p).1.waiter = (l.note s p m).wait := by rw [hgroup']; rfl
  have hrecorded : s.recorded p = l.fresh := by rw [recorded, hgroup]; rfl
  have henter : (l.enter s p m).wait = (s.awaits p m <|> l.wait) := by
    simp [Ledger.enter, Ledger.finishes_ne hlast]
  have hclosing : ∀ {g : Group V}, g.waiter = (l.enter s p m).wait →
      g.fire.1.waiter = (l.note s p m).wait → (l.note s p m).batches.map Batch.taken =
        l.batches.map Batch.taken ++
          (g.fire.2.map fun d => (d.bridge, l.fresh ++ (s.settles p m).toList)).toList :=
    fun hon hafter => Ledger.close_taken hon hafter
  generalize ((s.after m).household p).1 = g' at hregroups hwaiter' hgroup'
  cases hregroups with
  | still hsettles hawaits hsettled hsame hclosed =>
    have hidle : l.note s p m = l.close (s.after m) := by
      rw [Ledger.note, Ledger.enter_idle hsettles hawaits hlast]
    rw [takes_idle hsettles hawaits, hidle]
    rcases l.close_cases (s.after m) with hclose | ⟨mode, b, hwait, hclose⟩
    · rw [hclose]
      exact (List.append_nil _).symm
    · rw [hidle, hclose, hsame, hwaiter, hwait] at hwaiter'
      cases hwaiter'
  | @settled x hsettles hawaits =>
    have hopen : (s.household p).1.closed = false := by rw [hgroup]; rfl
    rw [Group.settle_open hopen] at hwaiter'
    have hon : ((s.household p).1.noted x.id x.outcome).waiter = (l.enter s p m).wait := by
      rw [henter, hawaits]
      exact hwaiter
    rw [hclosing hon hwaiter']
    simp only [takes, hsettles, Group.settle_open hopen, Settlement.fired?, hrecorded,
      Option.toList_some]
  | @armed mode b hsettles hawaits hopen =>
    have hon : ({ (s.household p).1 with waiter := some (mode, b) } : Group V).waiter =
        (l.enter s p m).wait := by
      rw [henter, hawaits]
      rfl
    rw [hclosing hon hwaiter']
    simp only [takes, hsettles, hawaits, Option.bind_some, hrecorded, Option.toList_none,
      List.append_nil, Group.arm]
  | closed hsettles hawaits hopen hsettled hsame hclosed =>
    rw [hgroup'] at hclosed
    cases hclosed

/-- **The batches of the ledger are those that the waits of the strand took**, as long as the strand
    has not ended and a shutdown has cancelled nobody. -/
theorem Initial.batches_kept (hs : Initial s) (ha : s.Admissible (before ++ rest))
    (hd : Discreet s (before ++ rest)) (hcalm : ¬ Cancelled (s.run before))
    (halive : ((s.run before).household p).2 = false) :
    (s.ledger p before).batches.map Batch.taken = s.batchesIn p before := by
  induction before using List.reverseRecOn generalizing rest with
  | nil => rfl
  | append_singleton before m ih =>
    have hnext := (admissible_append.mp ha).1
    obtain ⟨hprev, hm, -⟩ := admissible_append.mp hnext
    have hk' := hs.kept_run ha hd hcalm p
    rw [List.append_assoc] at ha hd
    have hcalm' : ¬ Cancelled (s.run before) := fun hc => hcalm (hs.cancelled_run hnext hc)
    have hk := hs.kept_run ha hd hcalm' p
    have hended : ¬ (s.run (before ++ [m])).HasEnded p := fun h => by
      obtain ⟨st, hst, hend⟩ := h
      rw [household_eq hst, hend] at halive
      cases halive
    have halive' : ((s.run before).household p).2 = false := by
      cases hst : (s.run before).strand? p with
      | none => rw [household_none hst]
      | some st =>
        rw [household_eq hst]
        exact Bool.eq_false_of_not_eq_true fun hend =>
          hended (hs.hasEnded_run hnext ⟨st, hst, hend⟩)
    have hregroups := (hs.moveChange hnext).regroups (hs.kin_run hprev) (hs.tidy_run hprev) p
    rw [run_snoc] at hregroups halive hended hk'
    rw [ledger_snoc] at hk' ⊢
    rw [batchesIn, gather_snoc, ← batchesIn, ← ih ha hd hcalm' halive']
    exact hk.taken_after hk' hregroups halive' halive fun r hfin =>
      hended ((hs.stable_run hprev).hasEnded hm hfin)

/-! ## Segments begin before anybody is cancelled -/

/-- Only an immediate shutdown cuts off what goes on. -/
theorem Stable.begins_cancelling {drained : Bool} {Ok : BridgeId → Wakeup V → Prop}
    (hs : Stable Ok drained s) (ha : s.Allows m) (hkin : Kin s) (haccepting : s.phase = .accepting)
    (hcancelling : (s.after m).isCancelling = true) : m = .beginShutdown .immediate := by
  have hsame : (s.after m).phase ≠ s.phase := by
    intro hphase
    rw [isCancelling, hphase, haccepting] at hcancelling
    cases hcancelling
  cases hannounces : m.announces with
  | false => exact absurd (hs.lasts ha hkin hannounces).phase hsame
  | true =>
    cases m with
    | beginShutdown mode =>
      cases mode with
      | immediate => rfl
      | graceful =>
        have hafter : s.after (.beginShutdown .graceful) = { s with phase := .draining } := by
          show (s.beginShutdown .graceful).getD s = _
          unfold Scheduler.beginShutdown
          rw [haccepting]
          rfl
        rw [hafter] at hcancelling
        cases hcancelling
    | closeQueue => exact absurd rfl hsame
    | terminate => exact absurd rfl hsame
    | _ => cases hannounces

/-- **An immediate shutdown that has begun has aborted the scheduler.** -/
theorem Initial.aborted_run (hs : Initial s) (ha : s.Admissible ms)
    (hcancelling : (s.run ms).isCancelling = true) : Aborted (s.run ms) := by
  induction ms using List.reverseRecOn with
  | nil =>
    obtain ⟨-, -, -, -, -, -, -, -, hphase⟩ := hs.empty
    rw [run_nil, isCancelling, hphase] at hcancelling
    cases hcancelling
  | append_singleton ms m ih =>
    obtain ⟨hprev, hm, -⟩ := admissible_append.mp ha
    have hadvances := (hs.moveChange ha).advances
    rcases hadvances.phase with haccepting | hphase
    · rw [run_snoc] at hcancelling ⊢
      obtain rfl := (hs.stable_run hprev).begins_cancelling hm (hs.kin_run hprev) haccepting
        hcancelling
      exact aborted_after (by rw [isStopping, haccepting]; rfl)
    · rw [isCancelling, hphase] at hcancelling
      exact (ih hprev hcancelling).advances hadvances

/-- Whoever begins a segment does so before a shutdown has cancelled anybody. -/
theorem Initial.calm_dispatch (hs : Initial s) (ha : s.Admissible (ms ++ [.dispatch]))
    {seg : Segment V B} (hseg : (s.run ms).dispatch.2 = some seg) :
    ¬ Cancelled (s.run (ms ++ [.dispatch])) := by
  rintro ⟨id, hcut⟩
  have hprev := (admissible_append.mp ha).1
  have hover := (hs.wasCut_run ha hcut).1
  have hlasts := (hs.stable_run hprev).lasts (m := .dispatch) trivial (hs.kin_run hprev) rfl
  rw [run_snoc, isShutDown, hlasts.terminated, isCancelling, hlasts.phase, Bool.or_eq_true] at hover
  rcases hover with hcancelling | hterm
  · have hnone := (hs.aborted_run hprev hcancelling).segment_none .dispatch
    cases hnone.symm.trans hseg
  · have halive := segment_alive (s := s.run ms) (m := .dispatch) hseg
    cases hterm.symm.trans halive

/-! ## The law -/

/-- A wait of the strand has taken the outcome of the child, in this batch. -/
def TookIn (s : Scheduler V B) (ms : List (Move V B)) (p k : StrandId) (b : BridgeId)
    (outcomes : List (ChildOutcome V)) : Prop :=
  (b, outcomes) ∈ s.batchesIn p ms ∧ ∃ r, ⟨k, r⟩ ∈ outcomes

/-- A wait of the strand has taken the outcome of the child. -/
def Took (s : Scheduler V B) (ms : List (Move V B)) (p k : StrandId) : Prop :=
  ∃ b outcomes, TookIn s ms p k b outcomes

/-- The strand was resumed from the wait that took the outcome, and told what the wait brings. -/
def Heard (s : Scheduler V B) (ms : List (Move V B)) (p k : StrandId) : Prop :=
  ∃ b outcomes mode answer newer leg last older, TookIn s ms p k b outcomes ∧
    (chronicle s ms).legs p = newer ++ leg :: last :: older ∧ last.WaitsOn mode b ∧
    leg.told = .children answer ∧ mode.Brings outcomes answer

/-- The strand was cancelled after a wait that took the outcome, before it was resumed from it. -/
def CutWith (s : Scheduler V B) (ms : List (Move V B)) (p k : StrandId) : Prop :=
  (s.run ms).WasCut p ∧ ∃ b outcomes mode last older, TookIn s ms p k b outcomes ∧
    (chronicle s ms).legs p = last :: older ∧ last.WaitsOn mode b

/-- A strand that is resumed from a wait is told the batch that the wait took. -/
theorem Initial.heard_batch (hs : Initial s) (ha : s.Admissible ms) (hd : Discreet s ms)
    {outcomes : List (ChildOutcome V)} (hbatch : (b, outcomes) ∈ s.batchesIn p ms)
    (hlegs : (chronicle s ms).legs p = newer ++ leg :: last :: older)
    (hbridge : last.bridge = some (.children, b)) :
    ∃ mode answer, last.WaitsOn mode b ∧ leg.told = .children answer ∧
      mode.Brings outcomes answer := by
  obtain ⟨before, rest, seg, rfl, hseg, hp, hwakeup, hbefore⟩ := exists_dispatch hlegs
  have hnext : s.Admissible (before ++ [.dispatch]) := by
    rw [List.append_cons] at ha
    exact (admissible_append.mp ha).1
  have hprev := (admissible_append.mp hnext).1
  obtain ⟨⟨mode, hwaits⟩, -⟩ := hs.waits_of_bridge hprev hbefore hbridge
  have hcalm := hs.calm_dispatch hnext hseg
  have hcalm' : ¬ Cancelled (s.run before) := fun hc => hcalm (hs.cancelled_run hnext hc)
  have hk := hs.kept_run ha hd hcalm' p
  obtain ⟨b', outcomes', answer, hbridge', hkept, hanswer, hbrings, -⟩ :=
    hs.resumed hprev hcalm hk hseg hp hbefore hwaits.2
  obtain ⟨-, rfl⟩ := Prod.mk.inj (Option.some.inj (hbridge.symm.trans hbridge'))
  have halive : ((s.run before).household p).2 = false := by
    obtain ⟨st, -, hst, hready, -⟩ :=
      dispatched_row (hseg ▸ (hs.stable_run hprev).placed.dispatched)
    rw [hp] at hst
    rw [household_eq hst, hready]
    rfl
  have htaken : (b, outcomes') ∈ s.batchesIn p (before ++ .dispatch :: rest) := by
    rw [batchesIn, gather_append, ← batchesIn, ← hs.batches_kept ha hd hcalm' halive]
    exact List.mem_append_left _ (List.mem_map.mpr ⟨_, hkept, rfl⟩)
  obtain rfl : outcomes = outcomes' :=
    congrArg Prod.snd (List.inj_on_of_nodup_map (hs.batches_nodup ha p) hbatch htaken rfl)
  exact ⟨mode, answer, hwaits, hwakeup.symm.trans hanswer, hbrings⟩

/-- **A strand that has ended heard of what its waits took**, unless it was cancelled just then. -/
theorem Initial.heard_or_cut (hs : Initial s) (ha : s.Admissible ms) (hd : Discreet s ms)
    (hover : (s.run ms).HasEnded p) (htook : Took s ms p k) :
    Heard s ms p k ∨ CutWith s ms p k := by
  obtain ⟨b, outcomes, hbatch, hin⟩ := htook
  have hissued := hs.batches_issued ha hbatch
  -- The bridge of the wait was obtained by one of the segments of the strand.
  obtain ⟨last, hlast, hbridge⟩ : ∃ last ∈ (chronicle s ms).legs p,
      last.bridge = some (.children, b) := by
    have hhanded : (Origin.children, b) ∈ handed ((chronicle s ms).legs p) := by
      rw [(hs.lawful ha).handed p]
      exact List.mem_map.mpr ⟨_, List.mem_filter.mpr ⟨hissued, by simp⟩, rfl⟩
    obtain ⟨last, hlast, hbridge⟩ := List.mem_filterMap.mp hhanded
    exact ⟨last, List.mem_reverse.mp hlast, hbridge⟩
  obtain ⟨newer, older, hlegs⟩ := List.append_of_mem hlast
  rcases List.eq_nil_or_concat newer with rfl | ⟨newer, leg, rfl⟩
  · obtain ⟨⟨mode, hwaits⟩, hnot⟩ := hs.waits_of_bridge ha hlegs hbridge
    exact Or.inr ⟨hs.wasCut_of_unfinished ha hover hnot, b, outcomes, mode, last, older,
      ⟨hbatch, hin⟩, hlegs, hwaits⟩
  · have hlegs' : (chronicle s ms).legs p = newer ++ leg :: last :: older := by
      rw [hlegs]
      simp
    obtain ⟨mode, answer, hwaits, htold, hbrings⟩ := hs.heard_batch ha hd hbatch hlegs' hbridge
    exact Or.inl ⟨b, outcomes, mode, answer, newer, leg, last, older, ⟨hbatch, hin⟩, hlegs',
      hwaits, htold, hbrings⟩

/-- The failure of a child whose parent has ended was taken by a wait, or it was given up. -/
theorem Initial.took_or_forsaken (hs : Initial s) (ha : s.Admissible ms) {r : Outcome V}
    (hst : (s.run ms).strand? k = some st) (hp : st.parent = some p) (hr : EndedIn s ms k r)
    (hover : (s.run ms).HasEnded p) : ⟨k, r⟩ ∈ s.forsakenIn p ms ↔ ¬ Took s ms p k := by
  have hend := (hs.hasEnded_of_endedIn ha hr).all st hst
  have hmem : ⟨k, r⟩ ∈ s.settledIn p ms :=
    (hs.mem_settledIn ha).mpr ⟨hr, by rw [kid?_eq hst, if_pos hp, hend]⟩
  have hnodup := hs.settledIn_nodup ha p
  have hrecorded : (s.run ms).recorded p = [] := by
    obtain ⟨ps, hps, hend⟩ := hover
    have htidy := hs.tidy_run ha
    refine htidy.recorded_nil ?_
    rw [household_eq hps, (htidy.rows p ps hps).closed, hend]
  rw [← (hs.order_run ha p).1, hrecorded, List.append_nil] at hmem hnodup
  rw [List.map_append] at hnodup
  obtain ⟨-, -, hapart⟩ := List.nodup_append.mp hnodup
  constructor
  · rintro hgiven ⟨b, outcomes, hbatch, r', hin⟩
    exact hapart k (List.mem_map.mpr ⟨_, List.mem_flatMap.mpr ⟨_, hbatch, hin⟩, rfl⟩) k
      (List.mem_map.mpr ⟨_, hgiven, rfl⟩) rfl
  · intro hnot
    refine (List.mem_append.mp hmem).resolve_left fun htaken => hnot ?_
    obtain ⟨⟨b, outcomes⟩, hbatch, hin⟩ := List.mem_flatMap.mp htaken
    exact ⟨b, outcomes, hbatch, r, hin⟩

/-- **A failure that no wait took is reported once, and one that a wait took is not reported.** -/
theorem Initial.unhandled_took (hs : Initial s) (ha : s.Admissible ms)
    (hst : (s.run ms).strand? k = some st) (hp : st.parent = some p)
    (hfail : EndedIn s ms k (.err e)) (hover : (s.run ms).HasEnded p) :
    (¬ Took s ms p k → (s.run ms).unhandled k = [e]) ∧
      (Took s ms p k → (s.run ms).unhandled k = []) := by
  have hforsaken := hs.took_or_forsaken ha hst hp hfail hover
  rw [hs.unhandled_child ha hst hp]
  refine ⟨fun hnot => ?_, fun htook => ?_⟩
  · exact ChildOutcome.reports_of_mem (hs.forsakenIn_nodup ha p) (hforsaken.mpr hnot)
  · refine ChildOutcome.reports_nil fun c hc heq => ?_
    obtain ⟨i, r⟩ := c
    obtain rfl : i = k := heq
    obtain rfl := hs.endedIn_unique ha (hs.forsaken_kid ha hc).1 hfail
    exact hforsaken.mp hc htook

/-- **A failure of a child reaches its parent or is reported once**, when the parent has ended. What
    is reported is what no wait of the parent took; what a wait took is told to the parent, unless
    it is cancelled before it is resumed: then nobody hears of it. -/
theorem failure_reported (hs : Initial s) (ha : s.Admissible ms)
    (hst : (s.run ms).strand? k = some st) (hp : st.parent = some p)
    (hfail : EndedIn s ms k (.err e)) (hover : (s.run ms).HasEnded p) :
    (¬ Took s ms p k → (s.run ms).unhandled k = [e]) ∧
    (Discreet s ms → ¬ Heard s ms p k →
      (¬ CutWith s ms p k → (s.run ms).unhandled k = [e]) ∧
      (CutWith s ms p k → (s.run ms).unhandled k = [])) := by
  obtain ⟨hreported, hsilent⟩ := hs.unhandled_took ha hst hp hfail hover
  refine ⟨hreported, fun hd hheard => ⟨fun hcut => hreported fun htook => ?_, ?_⟩⟩
  · exact (hs.heard_or_cut ha hd hover htook).elim hheard hcut
  · rintro ⟨-, b, outcomes, mode, last, older, htook, -⟩
    exact hsilent ⟨b, outcomes, htook⟩

/-- A strand waits for any of two children, and both fail. The wait takes the first failure, and
    before the strand is resumed an immediate shutdown cuts it off. -/
def cutWaiting : List (Move Nat Unit) :=
  [.spawn () none, .dispatch, .spawnChild ⟨1⟩ (), .spawnChild ⟨1⟩ (),
    .endSegment ⟨1⟩ () (.await .any), .dispatch,
    .endSegment ⟨2⟩ () (.done (.err ⟨.failed, "early"⟩)), .dispatch,
    .endSegment ⟨3⟩ () (.done (.err ⟨.failed, "late"⟩)), .beginShutdown .immediate, .terminate,
    .drain, .cancel ⟨1⟩]

theorem cutWaiting_admissible : single.Admissible cutWaiting := by
  simp only [cutWaiting, Admissible, Allows, true_and, and_true]
  decide

theorem cutWaiting_discreet : Discreet single cutWaiting := by
  intro m hm b w ht
  simp only [cutWaiting, List.mem_cons, List.not_mem_nil, or_false] at hm
  rcases hm with rfl | rfl | rfl | rfl | rfl | rfl | rfl | rfl | rfl | rfl | rfl | rfl | rfl <;>
    exact ht.elim

theorem cutWaiting_legs : (chronicle single cutWaiting).legs ⟨1⟩ =
    [{ told := .start, bridge := some (.children, ⟨1⟩), ended := some (.await .any) }] := rfl

theorem cutWaiting_unheard (k : StrandId) : ¬ Heard single cutWaiting ⟨1⟩ k := by
  rintro ⟨b, outcomes, mode, answer, newer, leg, last, older, -, hlegs, -⟩
  have hone := congrArg List.length (cutWaiting_legs.symm.trans hlegs)
  simp only [List.length_append, List.length_cons, List.length_nil] at hone
  omega

theorem cutWaiting_failed : EndedIn single cutWaiting ⟨2⟩ (.err ⟨.failed, "early"⟩) ∧
    EndedIn single cutWaiting ⟨3⟩ (.err ⟨.failed, "late"⟩) :=
  ⟨⟨cutWaiting.take 6, _, cutWaiting.drop 7, rfl, rfl⟩,
    ⟨cutWaiting.take 8, _, cutWaiting.drop 9, rfl, rfl⟩⟩

/-- The failure that is still recorded is reported. The one in the bridge is not. -/
theorem failure_reported_cut_waiting :
    (¬ Took single cutWaiting ⟨1⟩ ⟨3⟩ ∧
      (single.run cutWaiting).unhandled ⟨3⟩ = [⟨.failed, "late"⟩]) ∧
    CutWith single cutWaiting ⟨1⟩ ⟨2⟩ ∧ (single.run cutWaiting).unhandled ⟨2⟩ = [] := by
  have hbatches : single.batchesIn ⟨1⟩ cutWaiting =
    [(⟨1⟩, [⟨⟨2⟩, .err ⟨.failed, "early"⟩⟩])] := rfl
  have hnot : ¬ Took single cutWaiting ⟨1⟩ ⟨3⟩ := by
    rintro ⟨b, outcomes, hbatch, r, hin⟩
    rw [hbatches, List.mem_singleton] at hbatch
    obtain ⟨rfl, rfl⟩ := Prod.mk.inj hbatch
    simp at hin
  have hcut : CutWith single cutWaiting ⟨1⟩ ⟨2⟩ := by
    refine ⟨by unfold WasCut; decide, ⟨1⟩, [⟨⟨2⟩, .err ⟨.failed, "early"⟩⟩], .any, _, _, ?_,
      cutWaiting_legs, rfl, rfl⟩
    exact ⟨by rw [hbatches]; exact List.mem_singleton.mpr rfl, _,
      List.mem_singleton.mpr rfl⟩
  have hover : (single.run cutWaiting).HasEnded ⟨1⟩ := ⟨_, rfl, rfl⟩
  have hlate := failure_reported single_initial cutWaiting_admissible (k := ⟨3⟩) rfl rfl
    cutWaiting_failed.2 hover
  have hearly := failure_reported single_initial cutWaiting_admissible (k := ⟨2⟩) rfl rfl
    cutWaiting_failed.1 hover
  exact ⟨⟨hnot, hlate.1 hnot⟩, hcut,
    (hearly.2 cutWaiting_discreet (cutWaiting_unheard ⟨2⟩)).2 hcut⟩

/-- So it is not so that every failure that the parent did not hear of is reported. -/
theorem not_reported_cut_waiting :
    ¬ ∀ (s : Scheduler Nat Unit) (ms : List (Move Nat Unit)) (p k : StrandId)
      (st : Strand Nat Unit) (e : Failure), Initial s → s.Admissible ms → Discreet s ms →
      (s.run ms).strand? k = some st → st.parent = some p → EndedIn s ms k (.err e) →
      (s.run ms).HasEnded p → ¬ Heard s ms p k → (s.run ms).unhandled k = [e] := by
  intro h
  have hreported := h single cutWaiting ⟨1⟩ ⟨2⟩ _ _ single_initial cutWaiting_admissible
    cutWaiting_discreet rfl rfl cutWaiting_failed.1 ⟨_, rfl, rfl⟩ (cutWaiting_unheard ⟨2⟩)
  have hnone : (single.run cutWaiting).unhandled ⟨2⟩ = [] := rfl
  cases hnone.symm.trans hreported

end Scheduler
end CoopSched
