import CoopSched.Proofs.Scheduler.Early
import CoopSched.Proofs.Scheduler.Finishing
import CoopSched.Proofs.Scheduler.Handoff

/-!
# Parking — for whom a parked strand is resumed

A strand that has parked on a bridge stays where it is until somebody completes the bridge, unless
it is cancelled (`Initial.parked_run`). So whoever comes first before that has it resumed
(`Initial.resumed_for_first`), and it is told what he brought (`Initial.told_first`); and where
nobody comes it is not resumed at all (`Initial.never_resumed`, `Initial.never_taken`).
-/

namespace CoopSched
namespace Scheduler

variable {V B : Type} {drained : Bool} {s : Scheduler V B} {m : Move V B}
  {ms before rest : List (Move V B)} {k : StrandId} {b : BridgeId} {x : Bridge V} {w : Wakeup V}

/-! ## To park -/

/-- The move ends the segment of a strand so that it parks on a bridge. -/
structure ParksBy (s : Scheduler V B) (m : Move V B) (k : StrandId) (b : BridgeId) : Prop where
  ends : ∃ body step, m = .endSegment k body step ∧ (step = .yield ∨ step = .park)
  uncut : s.isCancelling = false
  slot : ∃ st, s.strand? k = some st ∧ st.bridge = some b

/-- A strand parks on a bridge in the course of the moves. -/
def Parks (s : Scheduler V B) (ms : List (Move V B)) (k : StrandId) (b : BridgeId) : Prop :=
  ∃ before m rest, ms = before ++ m :: rest ∧ (s.run before).ParksBy m k b

/-- A strand is blocked on a bridge. -/
def IsParked (s : Scheduler V B) (k : StrandId) (b : BridgeId) : Prop :=
  ∃ st, s.strand? k = some st ∧ st.status = .blocked ∧ st.bridge = some b

/-- The bridge in the slot of a strand is a bridge of that strand. -/
theorem Placed.slot_bridge {busy : List StrandId} (h : Placed busy s) {st : Strand V B}
    (hst : s.strand? k = some st) (hslot : st.bridge = some b) :
    ∃ stage, s.bridge? b = some ⟨k, stage⟩ := by
  have hfits := h.slot k st hst
  unfold SlotFits at hfits
  rw [hslot] at hfits
  cases hs : st.status with
  | runnable | blocked =>
    rw [hs] at hfits
    first
    | exact ⟨_, hfits.choose_spec⟩
    | exact ⟨_, hfits⟩
  | running mark =>
    rw [hs] at hfits
    cases mark with
    | true => exact ⟨_, hfits.choose_spec⟩
    | false => exact ⟨_, hfits⟩
  | doneOk | doneError =>
    rw [hs] at hfits
    exact hfits.elim

/-- Parking leaves the bridges alone, and the strand with its bridge. -/
theorem ParksBy.after (h : s.ParksBy m k b) (hs : Stable (fun _ _ => True) drained s)
    (ha : s.Allows m) :
    (∃ st', (s.after m).strand? k = some st' ∧ st'.bridge = some b ∧
      (st'.status = .runnable ∨ st'.status = .blocked)) ∧
      ∀ a, (s.after m).bridge? a = s.bridge? a := by
  obtain ⟨⟨body, step, rfl, hstep⟩, huncut, st, hst, hslot⟩ := h
  have hrun := (hs.placed.busy_iff_running hst).mp ha
  obtain ⟨mark, hmark⟩ := Status.exists_of_running hrun
  have hkeep := Own.keepBody hst body
  have hown := hkeep.trans (.block hkeep.self hmark)
  have hend : s.after (.endSegment k body step) = ((s.keepBody k body).block k).release k :=
    endSegment_parks hst hslot huncut hstep body
  rw [hend]
  exact ⟨⟨_, hown.self, hslot, parked_status mark _⟩, block_bridge? hkeep.self hmark⟩

/-- A strand with a pending bridge in its slot, on no worker, is blocked. -/
theorem Placed.blocked {busy : List StrandId} (h : Placed busy s) (hu : Unclaimed s b)
    {st : Strand V B} (hst : s.strand? k = some st) (hslot : st.bridge = some b)
    (hs : st.status = .runnable ∨ st.status = .blocked) : st.status = .blocked := by
  refine hs.resolve_left fun hready => ?_
  obtain ⟨w, hw⟩ := (h.slot k st hst).holding hslot (Or.inl hready)
  cases hu _ hw

/-- **A parked strand stays so** while nobody claims its bridge, unless it is ended. -/
theorem Stable.parked_after (h : Stable (fun _ _ => True) drained s) (ha : s.Allows m)
    (hp : s.IsParked k b) (hu : Unclaimed (s.after m) b) :
    (s.after m).IsParked k b ∨ (s.after m).HasEnded k := by
  obtain ⟨st, hst, hs, hslot⟩ := hp
  have hmove := h.apart ha (respects_all s m)
  have hplaced := (h.after ha (respects_all s m)).placed
  cases hterm : s.terminated with
  | false =>
    obtain ⟨s₁, hturn, hrows⟩ := hmove.rows hterm
    obtain ⟨st', hst', hlater⟩ := hrows.old k st (hturn.blocked hterm hst hs)
    have hslot' := hlater.bridge.trans hslot
    have hwhere : st'.status = .runnable ∨ st'.status = .blocked := by
      rcases hlater.status with heq | heq <;> rw [heq, hs]
      · exact Or.inr rfl
      · exact Or.inl rfl
    exact Or.inl ⟨st', hst', hplaced.blocked hu hst' hslot' hwhere, hslot'⟩
  | true =>
    obtain ⟨st', hst', ⟨hs', hslot'⟩ | hdone⟩ := hmove.gone hterm hst (by rw [hs]; rfl)
    · exact Or.inl ⟨st', hst', hs'.trans hs, hslot'.trans hslot⟩
    · exact Or.inr ⟨st', hst', by rw [hdone]; rfl⟩

theorem Initial.parked_run (hs : Initial s) (ha : s.Admissible (before ++ rest))
    (hp : (s.run before).IsParked k b) (hu : Unclaimed (s.run (before ++ rest)) b) :
    (s.run (before ++ rest)).IsParked k b ∨ (s.run (before ++ rest)).HasEnded k := by
  induction rest using List.reverseRecOn with
  | nil =>
    rw [List.append_nil]
    exact Or.inl hp
  | append_singleton rest m ih =>
    rw [← List.append_assoc] at ha hu ⊢
    obtain ⟨hprev, hm, -⟩ := admissible_append.mp ha
    have hstable := hs.stable_run hprev
    rw [run_snoc] at hu
    have hmove := hstable.apart hm (respects_all _ m)
    rcases ih hprev (hmove.fates.unclaimed hu) with hparked | hended
    · rw [run_snoc]
      exact hstable.parked_after hm hparked hu
    · exact Or.inr (hs.hasEnded_run ha hended)

/-! ## Who comes first -/

/-- Somebody completes a bridge as the first one, and its strand has not ended. -/
structure Acts (s : Scheduler V B) (m : Move V B) (k : StrandId) (b : BridgeId)
    (w : Wakeup V) : Prop where
  unclaimed : Unclaimed s b
  claims : (s.after m).lying b = some w
  unended : ¬ s.HasEnded k

/-- Of two places in a run one comes first, if they are not the same. -/
theorem compare_splits {α : Type} {before before' rest rest' : List α} {a a' : α}
    (h : before ++ a :: rest = before' ++ a' :: rest') :
    (∃ mid, before' = before ++ a :: mid) ∨ (before = before' ∧ a = a') ∨
      ∃ mid, before = before' ++ a' :: mid := by
  rcases List.append_eq_append_iff.mp h with ⟨mid, hbefore, htail⟩ | ⟨mid, hbefore, htail⟩
  · cases mid with
    | nil => exact Or.inr (Or.inl ⟨by simpa using hbefore.symm, (List.cons.inj htail).1⟩)
    | cons c mid =>
      obtain ⟨rfl, -⟩ := List.cons.inj htail
      exact Or.inl ⟨mid, hbefore⟩
  · cases mid with
    | nil => exact Or.inr (Or.inl ⟨by simpa using hbefore, (List.cons.inj htail).1.symm⟩)
    | cons c mid =>
      obtain ⟨rfl, -⟩ := List.cons.inj htail
      exact Or.inr (Or.inr ⟨mid, hbefore⟩)

/-- What a completer left in a bridge lies there as long as its strand has the bridge in its
    slot. -/
theorem Stable.still_lying (h : Stable (fun _ _ => True) drained s) (ha : s.Admissible ms)
    (hw : s.lying b = some w) {st : Strand V B} (hst : (s.run ms).strand? k = some st)
    (hslot : st.bridge = some b) : (s.run ms).lying b = some w := by
  obtain ⟨x, hb, hx⟩ := lying_eq_some.mp hw
  obtain ⟨x', hb', hfate⟩ := (h.fates_run ha).old b x hb
  have hplaced := (h.run ha fun _ m _ _ => respects_all _ m).placed
  rcases hfate.holding hx with hx' | hx'
  · exact lying_eq_some.mpr ⟨x', hb', hx'⟩
  · -- The bridge in a slot is never spent.
    have hfits := hplaced.slot k st hst
    have hspent : (s.run ms).bridge? b = some ⟨x'.strand, .spent⟩ := by rw [hb', ← hx']
    unfold SlotFits at hfits
    rw [hslot] at hfits
    cases hs : st.status with
    | runnable =>
      rw [hs] at hfits
      obtain ⟨w', hw'⟩ := hfits
      cases hspent.symm.trans hw'
    | running mark =>
      rw [hs] at hfits
      cases mark with
      | true =>
        obtain ⟨w', hw'⟩ := hfits
        cases hspent.symm.trans hw'
      | false => cases hspent.symm.trans hfits
    | blocked =>
      rw [hs] at hfits
      cases hspent.symm.trans hfits
    | doneOk | doneError =>
      rw [hs] at hfits
      exact hfits.elim

/-- Whoever completes the bridge first and before its strand parks is heard when it does. -/
theorem Initial.entries_of_early (hs : Initial s) {e : Move V B} {mid : List (Move V B)}
    (ha : s.Admissible (before ++ m :: mid ++ e :: rest))
    (hparks : (s.run (before ++ m :: mid)).ParksBy e k b)
    (hw : ((s.run before).after m).lying b = some w) :
    entries s k b (before ++ m :: mid ++ e :: rest) = 1 := by
  obtain ⟨⟨body, step, rfl, hstep⟩, huncut, st, hst, hslot⟩ := hparks
  obtain ⟨hstable, he, hq⟩ := hs.split ha
  obtain ⟨hbefore, hm, hmid⟩ := admissible_append.mp (admissible_append.mp ha).1
  have hlies : (s.run (before ++ m :: mid)).lying b = some w := by
    rw [run_append, run_cons] at hst ⊢
    exact ((hs.stable_run hbefore).after hm (respects_all _ m)).still_lying hmid hw hst hslot
  exact hs.entries_once ha (hstable.enters_of_park he hq hstep huncut hst hslot hlies)

/-- A strand that has parked is still parked when its bridge is claimed, unless it was cancelled. -/
theorem Initial.parked_until (hs : Initial s) {e : Move V B} {mid : List (Move V B)}
    (ha : s.Admissible (before ++ e :: mid)) (hparks : (s.run before).ParksBy e k b)
    (hu : Unclaimed (s.run (before ++ e :: mid)) b)
    (hunended : ¬ (s.run (before ++ e :: mid)).HasEnded k) :
    (s.run (before ++ e :: mid)).IsParked k b := by
  rw [List.append_cons] at ha hu hunended ⊢
  obtain ⟨hprev, hmid⟩ := admissible_append.mp ha
  obtain ⟨hbefore, he, -⟩ := admissible_append.mp hprev
  have hstable := hs.stable_run hbefore
  obtain ⟨⟨st, hst, hslot, hwhere⟩, -⟩ := hparks.after hstable he
  have hfirst : Unclaimed (s.run (before ++ [e])) b := by
    rw [run_append] at hu
    exact ((hs.stable_run hprev).fates_run hmid).unclaimed hu
  have hparked : (s.run (before ++ [e])).IsParked k b := by
    rw [run_snoc] at hfirst ⊢
    have hplaced := (hstable.after he (respects_all _ e)).placed
    exact ⟨st, hst, hplaced.blocked hfirst hst hslot hwhere, hslot⟩
  exact (hs.parked_run ha hparked hu).resolve_right hunended

/-- **Whoever comes first has the strand resumed**: it comes into the queue once, or, with the
    workers gone, it is cancelled and never comes into the queue. -/
theorem Initial.resumed_for_first (hs : Initial s) (ha : s.Admissible (before ++ m :: rest))
    (hparks : Parks s (before ++ m :: rest) k b) (hacts : (s.run before).Acts m k b w) :
    ((s.run before).terminated = false → entries s k b (before ++ m :: rest) = 1) ∧
      ((s.run before).terminated = true → entries s k b (before ++ m :: rest) = 0 ∧
        ∃ st', ((s.run before).after m).strand? k = some st' ∧ st'.status = .doneError) := by
  obtain ⟨before', e, rest', heq, hparks⟩ := hparks
  rcases compare_splits heq with ⟨mid, rfl⟩ | ⟨rfl, rfl⟩ | ⟨mid, rfl⟩
  · rw [heq] at ha ⊢
    have hentries := hs.entries_of_early ha hparks hacts.claims
    refine ⟨fun _ => hentries, fun gone => ?_⟩
    -- A strand that parks later has a worker then, so the workers are there now.
    obtain ⟨⟨body, step, rfl, -⟩, -, st, hst, -⟩ := hparks
    obtain ⟨hprev, he, -⟩ := admissible_append.mp ha
    have hlater := hs.stable_run hprev
    have alive := hlater.placed.alive hst ((hlater.placed.busy_iff_running hst).mp he)
    rw [run_append] at alive
    obtain ⟨hbefore, hmid⟩ := admissible_append.mp hprev
    have hnow := ((hs.stable_run hbefore).alive_run hmid (fun _ m _ _ => respects_all _ m) alive).1
    exact absurd (hnow.symm.trans gone) (by decide)
  · -- Parking claims nothing.
    obtain ⟨hstable, hm, -⟩ := hs.split ha
    have hlies := hacts.claims
    rw [lying_congr ((hparks.after hstable hm).2 b), hacts.unclaimed.lying] at hlies
    cases hlies
  · obtain ⟨hbefore, -⟩ := admissible_append.mp ha
    obtain ⟨st, hst, hblocked, hslot⟩ :=
      hs.parked_until hbefore hparks hacts.unclaimed hacts.unended
    obtain ⟨hstable, hm, hq⟩ := hs.split ha
    refine ⟨fun alive => ?_, fun gone => ?_⟩
    · refine hs.entries_once ha ((hstable.enters_of_blocked hm hq hst hblocked hslot
        hacts.claims).resolve_right fun hgone => ?_)
      exact absurd (alive.symm.trans hgone.1) (by decide)
    · refine ⟨hs.entries_of_gone ha hacts.unclaimed gone, ?_⟩
      rcases hstable.enters_of_blocked hm hq hst hblocked hslot hacts.claims with he | hgone
      · -- Nobody comes into the queue any more.
        have hwaiting := ((hstable.apart hm (respects_all _ m)).queueShrinks hstable gone).waiting k
          (enters_ne_zero (by rw [he]; decide))
        exact absurd hwaiting (hstable.placed.not_waiting hst (by rw [hblocked]; decide))
      · exact hgone.2

/-- What is claimed at the end was claimed by one of the moves. -/
theorem exists_claim (hs : Unclaimed s b) (hend : ¬ Unclaimed (s.run ms) b) :
    ∃ before m rest, ms = before ++ m :: rest ∧ Unclaimed (s.run before) b ∧
      ¬ Unclaimed ((s.run before).after m) b := by
  induction ms using List.reverseRecOn with
  | nil => exact absurd hs hend
  | append_singleton ms m ih =>
    by_cases hu : Unclaimed (s.run ms) b
    · rw [run_snoc] at hend
      exact ⟨ms, m, [], rfl, hu, hend⟩
    · obtain ⟨before, m', rest, rfl, hclaim⟩ := ih hu
      exact ⟨before, m', rest ++ [m], by simp, hclaim⟩

theorem Initial.unclaimed (hs : Initial s) (b : BridgeId) : Unclaimed s b := by
  intro x hb
  rw [bridge?, hs.empty.2.1, get?_empty] at hb
  cases hb

/-- A payload that lies in a bridge, while its strand has not ended, was left by whoever came
    first. -/
theorem Initial.exists_acts (hs : Initial s) (ha : s.Admissible (before ++ rest))
    (hw : (s.run before).lying b = some w) (hunended : ¬ (s.run before).HasEnded k) :
    ∃ early m late, before ++ rest = early ++ m :: late ∧ (s.run early).Acts m k b w := by
  obtain ⟨hbefore, -⟩ := admissible_append.mp ha
  have hclaimed : ¬ Unclaimed (s.run before) b := fun hu => by
    rw [hu.lying] at hw
    cases hw
  obtain ⟨early, m, late, rfl, hu, hnot⟩ := exists_claim (hs.unclaimed b) hclaimed
  refine ⟨early, m, late ++ rest, by simp, hu, ?_, fun hend => ?_⟩
  swap
  · exact hunended (hs.hasEnded_run hbefore hend)
  obtain ⟨hearly, hm, hlate⟩ := admissible_append.mp hbefore
  have hafter := (hs.stable_run hearly).after hm (respects_all _ m)
  obtain ⟨x, hb, hx⟩ : ∃ x, ((s.run early).after m).bridge? b = some x ∧ x.stage ≠ .pending := by
    simpa [Unclaimed] using hnot
  obtain ⟨x', hb', hfate⟩ := (hafter.fates_run hlate).old b x hb
  rw [run_append, run_cons] at hw
  obtain ⟨x'', hb'', hw⟩ := lying_eq_some.mp hw
  obtain rfl := Option.some.inj (hb'.symm.trans hb'')
  exact lying_eq_some.mpr ⟨x, hb, hfate.held hx hw⟩

/-- Where nobody comes first the strand is not resumed. -/
theorem Initial.never_resumed (hs : Initial s) (ha : s.Admissible ms)
    (hnobody : ∀ before m rest w, ms = before ++ m :: rest → ¬ (s.run before).Acts m k b w) :
    entries s k b ms = 0 := by
  induction ms using List.reverseRecOn with
  | nil => rfl
  | append_singleton ms m ih =>
    obtain ⟨hprev, hm, -⟩ := admissible_append.mp ha
    rw [entries_append, ih hprev fun before m' rest w heq hacts =>
      hnobody before m' (rest ++ [m]) w (by rw [heq]; simp) hacts]
    refine (Nat.zero_add _).trans (Classical.byContradiction fun hne => ?_)
    have he : enters (s.run ms) ((s.run ms).after m) k b ≠ 0 := hne
    have hplaced := ((hs.stable_run hprev).after hm (respects_all _ m)).placed
    obtain ⟨-, -, st, w, hst, hready, -, hb⟩ := entered hplaced he
    rw [← run_snoc] at hst hb
    have hunended : ¬ (s.run (ms ++ [m])).HasEnded k := by
      rintro ⟨st', hst', hend⟩
      rw [← Option.some.inj (hst.symm.trans hst'), hready] at hend
      cases hend
    have hall : s.Admissible (ms ++ [m] ++ []) := by rwa [List.append_nil]
    obtain ⟨early, m', late, heq, hacts⟩ :=
      hs.exists_acts hall (lying_eq_some.mpr ⟨_, hb, rfl⟩) hunended
    rw [List.append_nil] at heq
    exact hnobody early m' late w heq hacts

/-! ## What the strand is told -/

/-- A strand that begins a segment was ready, and if there was a bridge in its slot it is told what
    lay in it. -/
theorem Turn.begins {s₁ : Scheduler V B} {segment : Segment V B} (h : Turn s m s₁)
    (hseg : s.segment? m = some segment) : ∃ st, s.strand? segment.strand = some st ∧
      st.status = .runnable ∧
      ∀ b, st.bridge = some b → s.bridge? b = some ⟨segment.strand, .holding segment.wakeup⟩ := by
  cases h with
  | quiet _ hnone => cases hseg.symm.trans hnone
  | issue _ hnone => cases hseg.symm.trans hnone
  | begun hdispatch hs hslot hown =>
    obtain rfl := Option.some.inj (hdispatch.symm.trans hseg)
    refine ⟨_, hown.row, hs, fun b hb => ?_⟩
    cases hslot.symm.trans hb
  | resumed hdispatch hs hslot hb hown =>
    obtain rfl := Option.some.inj (hdispatch.symm.trans hseg)
    refine ⟨_, hown.row, hs, fun b hb' => ?_⟩
    rw [← Option.some.inj (hslot.symm.trans hb')]
    exact hb
  | ended _ hnone => cases hseg.symm.trans hnone
  | requeued | parked | awaiting => cases hseg

/-- The strand of a bridge is told what the first completer brought. -/
theorem Initial.told_first (hs : Initial s) {early late : List (Move V B)} {m' : Move V B}
    {segment : Segment V B} {st : Strand V B} (ha : s.Admissible (before ++ m :: rest))
    (hacts : (s.run before).Acts m k b w) (heq : before ++ m :: rest = early ++ m' :: late)
    (hseg : (s.run early).segment? m' = some segment) (hk : segment.strand = k)
    (hst : (s.run early).strand? k = some st) (hslot : st.bridge = some b) :
    segment.wakeup = w := by
  have ha' := ha
  rw [heq] at ha'
  obtain ⟨hstable, hm', -⟩ := hs.split ha'
  obtain ⟨s₁, -, hturn, -⟩ := hstable.apart hm' (respects_all _ m')
  obtain ⟨st', hst', -, hholding⟩ := hturn.begins hseg
  rw [hk] at hst'
  obtain rfl := Option.some.inj (hst.symm.trans hst')
  have hlies : (s.run early).lying b = some segment.wakeup :=
    lying_eq_some.mpr ⟨_, hholding b hslot, rfl⟩
  rcases compare_splits heq with ⟨mid, rfl⟩ | ⟨rfl, -⟩ | ⟨mid, rfl⟩
  · obtain ⟨hbefore, hm, hmid⟩ := admissible_append.mp (admissible_append.mp ha').1
    rw [run_append, run_cons] at hst hlies
    have hstill := ((hs.stable_run hbefore).after hm (respects_all _ m)).still_lying hmid
      hacts.claims hst hslot
    exact Option.some.inj (hlies.symm.trans hstill)
  -- Nothing lies in the bridge before somebody comes.
  · rw [hacts.unclaimed.lying] at hlies
    cases hlies
  · obtain ⟨hearly, hlater⟩ := admissible_append.mp (admissible_append.mp ha).1
    have hunclaimed := hacts.unclaimed
    rw [run_append] at hunclaimed
    rw [(((hs.stable_run hearly).fates_run hlater).unclaimed hunclaimed).lying] at hlies
    cases hlies

theorem mem_takings (h : w ∈ takings s b ms) : ∃ before m rest, ms = before ++ m :: rest ∧
    w ∈ taken (s.run before) ((s.run before).after m) b := by
  induction ms generalizing s with
  | nil => cases h
  | cons m ms ih =>
    rcases List.mem_append.mp h with hnow | hlater
    · exact ⟨[], m, ms, rfl, hnow⟩
    · obtain ⟨before, m', rest, rfl, htaken⟩ := ih hlater
      exact ⟨m :: before, m', rest, rfl, htaken⟩

/-- A bridge is of one strand throughout a run. -/
theorem Initial.same_strand (hs : Initial s) {before' rest' : List (Move V B)} {x' : Bridge V}
    (ha : s.Admissible ms) (heq : ms = before ++ rest) (heq' : ms = before' ++ rest')
    (hb : (s.run before).bridge? b = some x) (hb' : (s.run before').bridge? b = some x') :
    x.strand = x'.strand := by
  have hend : ∀ {first later : List (Move V B)} {y : Bridge V}, ms = first ++ later →
      (s.run first).bridge? b = some y →
      ∃ z, (s.run ms).bridge? b = some z ∧ z.strand = y.strand := by
    rintro first later y rfl hy
    obtain ⟨hfirst, hlater⟩ := admissible_append.mp ha
    obtain ⟨z, hz, hfate⟩ := ((hs.stable_run hfirst).fates_run hlater).old b y hy
    exact ⟨z, by rw [run_append]; exact hz, hfate.strand⟩
  obtain ⟨z, hz, hstrand⟩ := hend heq hb
  obtain ⟨z', hz', hstrand'⟩ := hend heq' hb'
  rw [← hstrand, ← hstrand', Option.some.inj (hz.symm.trans hz')]

/-- Nor is anything taken where nobody comes first. -/
theorem Initial.never_taken (hs : Initial s) (ha : s.Admissible ms) (hparks : Parks s ms k b)
    (hnobody : ∀ before m rest w, ms = before ++ m :: rest → ¬ (s.run before).Acts m k b w) :
    takings s b ms = [] := by
  refine List.eq_nil_iff_forall_not_mem.mpr fun w hw => ?_
  obtain ⟨before, m, rest, heq, htaken⟩ := mem_takings hw
  have ha' := ha
  rw [heq] at ha'
  obtain ⟨hstable, hm, -⟩ := hs.split ha'
  have hmove := hstable.apart hm (respects_all _ m)
  obtain ⟨segment, hseg, rfl, hb⟩ := hmove.taken htaken
  obtain ⟨s₁, -, hturn, -⟩ := hmove
  obtain ⟨st, hst, hready, -⟩ := hturn.begins hseg
  -- The strand that takes it is the one that parks, and it has not ended.
  obtain ⟨before', e, rest', heq', hparks⟩ := hparks
  have ha'' := ha
  rw [heq'] at ha''
  obtain ⟨st', hst', hslot'⟩ := hparks.slot
  obtain ⟨stage, hb'⟩ := (hs.split ha'').1.placed.slot_bridge hst' hslot'
  have hk : segment.strand = k := hs.same_strand ha heq heq' hb hb'
  have hunended : ¬ (s.run before).HasEnded k := by
    rintro ⟨old, hold, hend⟩
    rw [← hk, hst] at hold
    rw [← Option.some.inj hold, hready] at hend
    cases hend
  obtain ⟨early, m', late, hsplit, hacts⟩ :=
    hs.exists_acts ha' (lying_eq_some.mpr ⟨_, hb, rfl⟩) hunended
  exact hnobody early m' late _ (heq.trans hsplit) hacts

end Scheduler
end CoopSched
