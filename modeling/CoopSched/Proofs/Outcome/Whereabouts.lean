import CoopSched.Proofs.Outcome.Blame
import CoopSched.Proofs.Shutdown.Cutting

/-!
# Whereabouts — where the outcome of a child is, and who hears of its failure

When a child has finished, its outcome is recorded in its parent's open group, or it is in a batch
that a wait of the parent took, or it was given up because the parent had ended: it is in one of
these places, in no other, and there once (`outcomes_accounted`). A failure that was given up was
reported once, and so was that of a strand that had nobody to tell; nothing else is ever reported.
That holds after every run, whoever ends first and however far a shutdown has come.
-/

namespace CoopSched

variable {V B : Type}

/-- In a list in which each strand stands once, a strand has the reports of its one outcome. -/
theorem ChildOutcome.reports_of_mem {l : List (ChildOutcome V)} {k : StrandId} {r : Outcome V}
    (hnodup : (l.map (·.id)).Nodup) (hmem : ⟨k, r⟩ ∈ l) :
    l.filterMap (·.report? k) = r.failure?.toList := by
  induction l with
  | nil => cases hmem
  | cons c l ih =>
    obtain ⟨hnot, hrest⟩ := List.nodup_cons.mp hnodup
    rcases List.mem_cons.mp hmem with rfl | hmem
    · have hnone : l.filterMap (·.report? k) = [] := List.filterMap_eq_nil_iff.mpr fun c hc =>
        if_neg fun heq => hnot (List.mem_map.mpr ⟨c, hc, heq⟩)
      rw [List.filterMap_cons, hnone]
      cases hr : r.failure? <;> simp [report?, hr]
    · have hne : c.id ≠ k := fun heq => hnot (List.mem_map.mpr ⟨_, hmem, heq.symm⟩)
      rw [List.filterMap_cons, show c.report? k = none from if_neg hne]
      exact ih hrest hmem

theorem ChildOutcome.reports_nil {l : List (ChildOutcome V)} {k : StrandId}
    (h : ∀ c ∈ l, c.id ≠ k) : l.filterMap (·.report? k) = [] :=
  List.filterMap_eq_nil_iff.mpr fun c hc => if_neg (h c hc)

namespace Scheduler

variable {s : Scheduler V B} {m : Move V B} {ms before rest : List (Move V B)}
  {p q k : StrandId} {r : Outcome V} {st : Strand V B} {c : ChildOutcome V}

/-! ## Places -/

/-- Where the outcome of a child can be. -/
inductive Whereabouts where
  | recorded
  | batch (n : Nat)
  | forsaken
deriving DecidableEq, Repr

/-- Is the outcome of a child of `p` there, after these moves? -/
def Whereabouts.Holds (s : Scheduler V B) (ms : List (Move V B)) (p : StrandId)
    (c : ChildOutcome V) : Whereabouts → Prop
  | .recorded => ((s.run ms).household p).1.closed = false ∧ c ∈ (s.run ms).recorded p
  | .batch n => ∃ b outcomes, (s.batchesIn p ms)[n]? = some (b, outcomes) ∧ c ∈ outcomes
  | .forsaken => (s.run ms).HasEnded p ∧ c ∈ s.forsakenIn p ms

theorem Whereabouts.mem_batches {n : Nat} (h : Holds s ms p c (.batch n)) :
    c ∈ (s.batchesIn p ms).flatMap (·.2) := by
  obtain ⟨b, outcomes, hbatch, hc⟩ := h
  exact List.mem_flatMap.mpr ⟨_, List.mem_of_getElem? hbatch, hc⟩

/-- What has been given up was given up because the strand had ended. -/
theorem Initial.forsaken_ended (hs : Initial s) (ha : s.Admissible ms)
    (hc : c ∈ s.forsakenIn p ms) : (s.run ms).HasEnded p := by
  have hclosed : ((s.run ms).household p).1.closed = true := by
    by_contra hopen
    rw [(hs.order_run ha p).2 (Bool.eq_false_of_not_eq_true hopen)] at hc
    cases hc
  cases hst : (s.run ms).strand? p with
  | none =>
    rw [household_none hst] at hclosed
    cases hclosed
  | some st =>
    rw [household_eq hst] at hclosed
    exact ⟨st, hst, ((hs.tidy_run ha).rows p st hst).closed.symm.trans hclosed⟩

/-- Two batches with an outcome in common are one batch. -/
theorem batch_unique {batches : List (BridgeId × List (ChildOutcome V))}
    (hnodup : (batches.flatMap (·.2)).Nodup) {i j : Nat}
    {x y : BridgeId × List (ChildOutcome V)} (hi : batches[i]? = some x)
    (hj : batches[j]? = some y) (hx : c ∈ x.2) (hy : c ∈ y.2) : i = j := by
  induction batches generalizing i j with
  | nil => cases hi
  | cons z batches ih =>
    obtain ⟨-, hrest, hdisjoint⟩ := List.nodup_append.mp hnodup
    have hlater : ∀ {n} {w : BridgeId × List (ChildOutcome V)}, batches[n]? = some w →
        c ∈ w.2 → c ∈ batches.flatMap (·.2) :=
      fun hn hw => List.mem_flatMap.mpr ⟨_, List.mem_of_getElem? hn, hw⟩
    cases i with
    | zero =>
      cases j with
      | zero => rfl
      | succ j =>
        obtain rfl := Option.some.inj hi
        exact absurd rfl (hdisjoint c hx c (hlater hj hy))
    | succ i =>
      cases j with
      | zero =>
        obtain rfl := Option.some.inj hj
        exact absurd rfl (hdisjoint c hy c (hlater hi hx))
      | succ j => rw [ih hrest hi hj]

/-- The places of an outcome are parts of a list, and in this list it stands once. -/
theorem Whereabouts.unique {w w' : Whereabouts}
    (hnodup : ((s.batchesIn p ms).flatMap (·.2) ++ s.forsakenIn p ms ++
      (s.run ms).recorded p).Nodup) (hw : Holds s ms p c w) (hw' : Holds s ms p c w') :
    w = w' := by
  obtain ⟨hleft, -, hrecorded⟩ := List.nodup_append.mp hnodup
  obtain ⟨hbatches, -, hforsaken⟩ := List.nodup_append.mp hleft
  have hbatchForsaken : ∀ {n}, Holds s ms p c (.batch n) → ¬ Holds s ms p c .forsaken :=
    fun h h' => hforsaken c (mem_batches h) c h'.2 rfl
  have hbatchRecorded : ∀ {n}, Holds s ms p c (.batch n) → ¬ Holds s ms p c .recorded :=
    fun h h' => hrecorded c (List.mem_append_left _ (mem_batches h)) c h'.2 rfl
  have hforsakenRecorded : Holds s ms p c .forsaken → ¬ Holds s ms p c .recorded :=
    fun h h' => hrecorded c (List.mem_append_right _ h.2) c h'.2 rfl
  cases w with
  | recorded =>
    cases w' with
    | recorded => rfl
    | batch n => exact absurd hw (hbatchRecorded hw')
    | forsaken => exact absurd hw (hforsakenRecorded hw')
  | batch n =>
    cases w' with
    | recorded => exact absurd hw' (hbatchRecorded hw)
    | batch n' =>
      obtain ⟨b, outcomes, hn, hin⟩ := hw
      obtain ⟨b', outcomes', hn', hin'⟩ := hw'
      rw [batch_unique hbatches hn hn' hin hin']
    | forsaken => exact absurd hw' (hbatchForsaken hw)
  | forsaken =>
    cases w' with
    | recorded => exact absurd hw' (hforsakenRecorded hw)
    | batch n => exact absurd hw (hbatchForsaken hw')
    | forsaken => rfl

/-- **What has settled is in one place.** -/
theorem Initial.whereabouts_run (hs : Initial s) (ha : s.Admissible ms)
    (hc : c ∈ s.settledIn p ms) : ∃! w, Whereabouts.Holds s ms p c w := by
  have horder := (hs.order_run ha p).1
  have hthere : ∃ w, Whereabouts.Holds s ms p c w := by
    rw [← horder, List.mem_append, List.mem_append] at hc
    rcases hc with (hbatch | hgiven) | hkept
    · obtain ⟨⟨b, outcomes⟩, hmem, hin⟩ := List.mem_flatMap.mp hbatch
      obtain ⟨n, hn⟩ := List.mem_iff_getElem?.mp hmem
      exact ⟨.batch n, b, outcomes, hn, hin⟩
    · exact ⟨.forsaken, hs.forsaken_ended ha hgiven, hgiven⟩
    · refine ⟨.recorded, ?_, hkept⟩
      by_contra hclosed
      rw [(hs.tidy_run ha).recorded_nil (Bool.eq_true_of_not_eq_false hclosed)] at hkept
      cases hkept
  refine existsUnique_of_exists_of_unique hthere fun w w' => Whereabouts.unique ?_
  rw [horder]
  exact (hs.settledIn_nodup ha p).of_map

/-! ## Reports -/

/-- What is recorded in a group has settled. -/
theorem Initial.recorded_kid (hs : Initial s) (ha : s.Admissible ms)
    (hc : c ∈ (s.run ms).recorded p) : (s.run ms).kid? p c.id = some true := by
  have hmem : c ∈ s.settledIn p ms := by
    rw [← (hs.order_run ha p).1]
    exact List.mem_append_right _ hc
  exact ((hs.mem_settledIn ha).mp hmem).2

/-- Only the group of its parent can have the outcome of a strand. -/
theorem Initial.sole_run (hs : Initial s) (ha : s.Admissible ms)
    (hq : ∀ st p, (s.run ms).strand? k = some st → st.parent = some p → p = q) (hne : p ≠ q) :
    (s.run ms).owed p k = [] := by
  refine ChildOutcome.reports_nil fun c hc heq => ?_
  obtain ⟨st, hst, hparent, -⟩ := kid?_eq_some.mp (hs.recorded_kid ha hc)
  exact hne (hq st p (heq ▸ hst) hparent)

/-- What was reported of a strand is what each move reported. -/
theorem Initial.unhandled_run (hs : Initial s) (ha : s.Admissible ms)
    (hq : ∀ st p, (s.run ms).strand? k = some st → st.parent = some p → p = q) :
    (s.run ms).unhandled k =
      s.gather (fun s m => (s.forsakes q m).filterMap (·.report? k) ++ s.laments k m) ms := by
  induction ms using List.reverseRecOn with
  | nil => rw [run_nil, Scheduler.unhandled, hs.journal]; rfl
  | append_singleton ms m ih =>
    have hprev := (admissible_append.mp ha).1
    have hq' : ∀ st p, (s.run ms).strand? k = some st → st.parent = some p → p = q := by
      intro st p hst hp
      obtain ⟨st', hst', -, hparent⟩ := hs.row_run ha hst
      exact hq st' p hst' (hparent.trans hp)
    rw [gather_snoc, ← ih hprev hq', ← List.append_assoc]
    exact (hs.moveChange ha).unhandled (run_snoc s ms m).symm (hs.kin_run hprev) (hs.tidy_run hprev)
      (fun p hp => hs.sole_run hprev hq' hp) hq'

/-- What is given up in a run with a strand are outcomes of its children. -/
theorem Initial.forsaken_kid (hs : Initial s) (ha : s.Admissible ms)
    (hc : c ∈ s.forsakenIn p ms) :
    EndedIn s ms c.id c.outcome ∧ (s.run ms).kid? p c.id = some true := by
  refine (hs.mem_settledIn ha).mp ?_
  rw [← (hs.order_run ha p).1]
  exact List.mem_append_left _ (List.mem_append_right _ hc)

/-- A strand with a parent or a job says nothing itself. -/
theorem Initial.laments_nil (hs : Initial s) (ha : s.Admissible (before ++ m :: rest))
    (hnot : ∀ st, (s.run (before ++ m :: rest)).strand? k = some st →
      st.parent ≠ none ∨ st.hook ≠ none) : (s.run before).laments k m = [] := by
  rw [laments]
  split
  next halone =>
    obtain ⟨st, hst, hnone⟩ := (Option.any_eq_true _ _).mp halone
    rw [Bool.and_eq_true, Option.isNone_iff_eq_none, Option.isNone_iff_eq_none] at hnone
    obtain ⟨st', hst', hhook, hparent⟩ := hs.row_run ha hst
    rcases hnot st' hst' with hp | hh
    · exact absurd (hparent.trans hnone.1) hp
    · exact absurd (hhook.trans hnone.2) hh
  next => rfl

/-- What was reported of a child is what its parent's group gave up of it. -/
theorem Initial.unhandled_child (hs : Initial s) (ha : s.Admissible ms)
    (hst : (s.run ms).strand? k = some st) (hp : st.parent = some p) :
    (s.run ms).unhandled k = (s.forsakenIn p ms).filterMap (·.report? k) := by
  have hq : ∀ st' q, (s.run ms).strand? k = some st' → st'.parent = some q → q = p := by
    intro st' q hst' hq
    obtain rfl := Option.some.inj (hst.symm.trans hst')
    exact Option.some.inj (hq.symm.trans hp)
  rw [hs.unhandled_run ha hq, forsakenIn, gather_filterMap]
  refine gather_congr fun before m rest heq => ?_
  subst heq
  rw [hs.laments_nil ha, List.append_nil]
  intro st' hst'
  obtain rfl := Option.some.inj (hst.symm.trans hst')
  exact Or.inl (by rw [hp]; exact Option.some_ne_none p)

/-- Of a strand that is nobody's child no group gives up anything. -/
theorem Initial.forsakes_stranger (hs : Initial s) (ha : s.Admissible (before ++ m :: rest))
    (hnone : ∀ st, (s.run (before ++ m :: rest)).strand? k = some st → st.parent = none) :
    ((s.run before).forsakes p m).filterMap (·.report? k) = [] := by
  refine ChildOutcome.reports_nil fun c hc heq => ?_
  have hgiven : c ∈ s.forsakenIn p (before ++ m :: rest) :=
    mem_gather.mpr ⟨before, m, rest, rfl, hc⟩
  obtain ⟨st, hst, hparent, -⟩ := kid?_eq_some.mp (hs.forsaken_kid ha hgiven).2
  cases (hnone st (heq ▸ hst)).symm.trans hparent

/-- What was reported of a strand with neither a parent nor a job is its failure. -/
theorem Initial.unhandled_alone (hs : Initial s) (ha : s.Admissible ms)
    (hst : (s.run ms).strand? k = some st) (hp : st.parent = none) (hhook : st.hook = none) :
    (s.run ms).unhandled k = (s.finishedIn ms).filterMap (·.report? k) := by
  have hnone : ∀ st', (s.run ms).strand? k = some st' → st'.parent = none := fun st' hst' => by
    rwa [← Option.some.inj (hst.symm.trans hst')]
  have hq : ∀ st' q, (s.run ms).strand? k = some st' → st'.parent = some q → q = k :=
    fun st' q hst' hq => by cases (hnone st' hst').symm.trans hq
  rw [hs.unhandled_run ha hq, finishedIn, gather_filterMap]
  refine gather_congr fun before m rest heq => ?_
  subst heq
  rw [hs.forsakes_stranger ha hnone, List.nil_append, laments]
  split
  next => rfl
  next halone =>
    -- It is there when it finishes, and alone as it is at the end.
    refine (ChildOutcome.reports_nil fun c hc heq => halone ?_).symm
    obtain ⟨⟨k', r⟩, hfin, rfl⟩ := Option.map_eq_some_iff.mp (Option.mem_toList.mp hc)
    obtain rfl : k' = k := heq
    obtain ⟨st₀, st', hst₀, hst', hhook', hparent'⟩ := hs.finishes_row ha hfin
    obtain rfl := Option.some.inj (hst.symm.trans hst')
    rw [isAlone, hst₀, Option.any_some, ← hhook', ← hparent', hp, hhook]
    rfl

/-- Of a strand that is not there, or that has a job, nothing was reported. -/
theorem Initial.unhandled_hooked (hs : Initial s) (ha : s.Admissible ms)
    (hhook : ∀ st, (s.run ms).strand? k = some st → st.hook ≠ none) :
    (s.run ms).unhandled k = [] := by
  have hnone : ∀ st, (s.run ms).strand? k = some st → st.parent = none := by
    intro st hst
    cases hp : st.parent with
    | none => rfl
    | some p => exact absurd (hs.kin_run ha k st p hst hp).1 (hhook st hst)
  have hq : ∀ st q, (s.run ms).strand? k = some st → st.parent = some q → q = k :=
    fun st q hst hq => by cases (hnone st hst).symm.trans hq
  rw [hs.unhandled_run ha hq, List.eq_nil_iff_forall_not_mem]
  intro e he
  obtain ⟨before, m, rest, rfl, hmem⟩ := mem_gather.mp he
  rw [hs.forsakes_stranger ha hnone,
    hs.laments_nil ha fun st hst => Or.inr (hhook st hst)] at hmem
  cases hmem

/-! ## The law -/

/-- The account of the outcomes of a run. -/
structure Accounted (s : Scheduler V B) (ms : List (Move V B)) : Prop where
  /-- What has settled with a strand was taken by its waits, was given up or is still recorded, in
      this order. -/
  order : ∀ p, (s.batchesIn p ms).flatMap (·.2) ++ s.forsakenIn p ms ++ (s.run ms).recorded p =
    s.settledIn p ms
  /-- It is there once. -/
  once : ∀ p, ((s.settledIn p ms).map (·.id)).Nodup
  /-- Every batch was taken by a wait of the strand, and no two by one. -/
  waits : ∀ p, ((s.batchesIn p ms).map (·.1)).Nodup ∧
    ∀ batch ∈ s.batchesIn p ms, (p, .children, batch.1) ∈ (chronicle s ms).issued
  /-- The outcome of a child that has finished is in one place. -/
  placed : ∀ k st p r, (s.run ms).strand? k = some st → st.parent = some p → EndedIn s ms k r →
    ∃! w, Whereabouts.Holds s ms p ⟨k, r⟩ w
  /-- If it is a failure and was given up, it was reported once. -/
  given : ∀ k st p r, (s.run ms).strand? k = some st → st.parent = some p → EndedIn s ms k r →
    Whereabouts.Holds s ms p ⟨k, r⟩ .forsaken → (s.run ms).unhandled k = r.failure?.toList
  /-- As long as it is in another place, nothing was reported. -/
  spared : ∀ k st p r, (s.run ms).strand? k = some st → st.parent = some p → EndedIn s ms k r →
    ¬ Whereabouts.Holds s ms p ⟨k, r⟩ .forsaken → (s.run ms).unhandled k = []
  /-- A strand with neither a parent nor a job reports the failure that it finishes with. -/
  alone : ∀ k st r, (s.run ms).strand? k = some st → st.parent = none → st.hook = none →
    EndedIn s ms k r → (s.run ms).unhandled k = r.failure?.toList
  /-- Nothing is reported of the strands of a job. -/
  hooked : ∀ k st, (s.run ms).strand? k = some st → st.hook ≠ none →
    (s.run ms).unhandled k = []
  /-- Nothing is reported of a strand that has not finished, -/
  unfinished : ∀ k, (∀ r, ¬ EndedIn s ms k r) → (s.run ms).unhandled k = []
  /-- and a strand that is cancelled has not. -/
  cancelled : ∀ k, (s.run ms).WasCut k →
    (∀ r, ¬ EndedIn s ms k r) ∧ (s.run ms).unhandled k = []

/-- Nothing is reported of a strand that has not finished. -/
theorem Initial.unhandled_unfinished (hs : Initial s) (ha : s.Admissible ms)
    (hnot : ∀ r, ¬ EndedIn s ms k r) : (s.run ms).unhandled k = [] := by
  cases hst : (s.run ms).strand? k with
  | none =>
    refine hs.unhandled_hooked ha fun st hst' => ?_
    cases hst.symm.trans hst'
  | some st =>
    cases hp : st.parent with
    | some p =>
      rw [hs.unhandled_child ha hst hp]
      refine ChildOutcome.reports_nil fun c hc heq => ?_
      exact hnot c.outcome (heq ▸ (hs.forsaken_kid ha hc).1)
    | none =>
      cases hhook : st.hook with
      | some hook =>
        refine hs.unhandled_hooked ha fun st' hst' => ?_
        rw [← Option.some.inj (hst.symm.trans hst'), hhook]
        exact Option.some_ne_none hook
      | none =>
        rw [hs.unhandled_alone ha hst hp hhook]
        refine ChildOutcome.reports_nil fun c hc heq => ?_
        exact hnot c.outcome (heq ▸ mem_finishedIn.mp hc)

/-- **Every outcome is accounted for, and every failure that nobody received is reported once.** -/
theorem outcomes_accounted (hs : Initial s) (ha : s.Admissible ms) : Accounted s ms := by
  have hkid : ∀ {k st p}, (s.run ms).strand? k = some st → st.parent = some p →
      ∀ {r}, EndedIn s ms k r → (s.run ms).kid? p k = some true := by
    intro k st p hst hp r hended
    rw [kid?_eq hst, if_pos hp, (hs.hasEnded_of_endedIn ha hended).all st hst]
  refine
    { order := fun p => (hs.order_run ha p).1
      once := hs.settledIn_nodup ha
      waits := fun p => ⟨hs.batches_nodup ha p, fun batch hb => hs.batches_issued ha hb⟩
      placed := fun k st p r hst hp hended =>
        hs.whereabouts_run ha ((hs.mem_settledIn ha).mpr ⟨hended, hkid hst hp hended⟩)
      given := fun k st p r hst hp hended hgiven => ?_
      spared := fun k st p r hst hp hended hnot => ?_
      alone := fun k st r hst hp hhook hended => ?_
      hooked := fun k st hst hhook => hs.unhandled_hooked ha fun st' hst' => ?_
      unfinished := fun k hnot => hs.unhandled_unfinished ha hnot
      cancelled := fun k hcut => ?_ }
  · rw [hs.unhandled_child ha hst hp]
    have hnodup : ((s.forsakenIn p ms).map (·.id)).Nodup := by
      have hall := hs.settledIn_nodup ha p
      rw [← (hs.order_run ha p).1] at hall
      exact hall.sublist (((List.sublist_append_right _ _).trans
        (List.sublist_append_left _ _)).map _)
    exact ChildOutcome.reports_of_mem hnodup hgiven.2
  · rw [hs.unhandled_child ha hst hp]
    refine ChildOutcome.reports_nil fun c hc heq => hnot ?_
    have hsame := hs.endedIn_unique ha hended (heq ▸ (hs.forsaken_kid ha hc).1)
    obtain ⟨i, o⟩ := c
    obtain rfl : i = k := heq
    obtain rfl : r = o := hsame
    exact ⟨hs.forsaken_ended ha hc, hc⟩
  · rw [hs.unhandled_alone ha hst hp hhook]
    exact ChildOutcome.reports_of_mem (hs.finishedIn_nodup ha) (mem_finishedIn.mpr hended)
  · rwa [← Option.some.inj (hst.symm.trans hst')]
  · have hnot : ∀ r, ¬ EndedIn s ms k r := fun r hended => hs.uncut_endedIn ha hended hcut
    exact ⟨hnot, hs.unhandled_unfinished ha hnot⟩

/-- Three children fail: one while its parent waits, one when the parent has been woken, and one
    when the parent has finished. The first failure is in a batch, and the other two are
    reported. -/
theorem outcomes_accounted_left_behind :
    let failure : String → Failure := fun message => ⟨.failed, message⟩
    let ms : List (Move Nat Unit) := [.spawn () none, .dispatch, .spawnChild ⟨1⟩ (),
      .spawnChild ⟨1⟩ (), .spawnChild ⟨1⟩ (), .endSegment ⟨1⟩ () (.await .any), .dispatch,
      .endSegment ⟨2⟩ () (.done (.err (failure "early"))), .dispatch,
      .endSegment ⟨3⟩ () (.done (.err (failure "late"))), .dispatch, .endSegment ⟨4⟩ () .yield,
      .dispatch, .endSegment ⟨1⟩ () (.done (.ok 0)), .dispatch,
      .endSegment ⟨4⟩ () (.done (.err (failure "later")))]
    Accounted single ms ∧
      (single.batchesIn ⟨1⟩ ms).map (·.2) = [[⟨⟨2⟩, .err (failure "early")⟩]] ∧
      single.forsakenIn ⟨1⟩ ms = [⟨⟨3⟩, .err (failure "late")⟩, ⟨⟨4⟩, .err (failure "later")⟩] ∧
      (single.run ms).journal.toList.filterMap (fun rec => match rec with
        | .event ⟨k, .unhandled e⟩ => some (k.number, e.message)
        | _ => none) = [(3, "late"), (4, "later")] := by
  intro failure ms
  have ha : single.Admissible ms := by simp [ms, Admissible, Allows]; decide
  refine ⟨outcomes_accounted single_initial ha, ?_, ?_, ?_⟩ <;> simp only [ms, failure] <;> rfl

end Scheduler
end CoopSched
