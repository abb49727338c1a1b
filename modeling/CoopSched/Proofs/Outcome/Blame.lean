import CoopSched.Proofs.Outcome.Gathered

/-!
# Blame — which failures a move reports

A failure is reported when it is given up: the outcome of a child with its parent's group, and the
outcome of a strand that has neither a parent nor a job when it finishes. Nothing else is a report
(`MoveChange.unhandled`).

A cascade may cut off any number of strands, one inside the other, and each reports what its group
had. Only the group of its parent can have the outcome of a strand, so what is reported of the
strand and what is recorded of it are the same together before and after (`Square`).
-/

namespace CoopSched
namespace Scheduler

variable {V B : Type} {stop grows : Prop} {s s₁ s₂ s' : Scheduler V B} {m : Move V B}
  {p q k f id : StrandId} {st st' fst : Strand V B} {r : Outcome V} {kept : Option (Outcome V)}

/-! ## What is mute -/

theorem recorded_of_rows
    (hold : ∀ st, s.strand? p = some st →
      ∃ st', s'.strand? p = some st' ∧ st'.children.settled = st.children.settled)
    (hnew : ∀ st', s.strand? p = none → s'.strand? p = some st' → st'.children.settled = []) :
    s'.recorded p = s.recorded p := by
  cases hst : s.strand? p with
  | some st =>
    obtain ⟨st', hst', hsettled⟩ := hold st hst
    rw [recorded, recorded, household_eq hst, household_eq hst', hsettled]
  | none =>
    rw [recorded, recorded, household_none hst]
    cases hst' : s'.strand? p with
    | none => rw [household_none hst']
    | some st' => rw [household_eq hst', hnew st' hst hst']

theorem recorded_congr (h : s'.strand? p = s.strand? p) : s'.recorded p = s.recorded p := by
  rw [recorded, recorded, household, household, h]

theorem UnwatchedUpdate.mute {watched : JobId → Prop} {free : BridgeId → Prop}
    (hr : UnwatchedUpdate watched free s s') : Mute s s' := by
  cases hr with
  | wake alive id => exact mute_wake alive id
  | answered hj hentry answer => exact .push rfl fun _ => rfl
  | launch body hook hj hentry => exact mute_spawn s _
  | _ => exact .of_journal rfl

theorem UnwatchedUpdate.recorded {watched : JobId → Prop} {free : BridgeId → Prop}
    (hr : UnwatchedUpdate watched free s s') (p : StrandId) : s'.recorded p = s.recorded p := by
  refine recorded_of_rows (fun st hst => ?_) fun st' hnone hst' => (hr.new hnone hst').2.settled
  obtain ⟨st', hst', hlike⟩ := hr.row hst
  exact ⟨st', hst', by rw [hlike.children]⟩

/-- Where nobody is cancelled, nothing is reported. -/
theorem Cascade.mute (h : Cascade False s s') : Mute s s' := by
  induction h with
  | refl => exact fun _ => rfl
  | update _ hr ih => exact ih.trans hr.mute
  | cancelled _ hstop => exact hstop.elim

theorem Mute.updateStrand (s : Scheduler V B) (id : StrandId) (f : Strand V B → Strand V B) :
    Mute s (s.updateStrand id f) := .of_journal rfl

theorem Mute.retire (s : Scheduler V B) (id : StrandId) (kept : Option (Outcome V)) :
    Mute s (s.retire id kept) := .of_journal rfl

theorem recorded_retire (s : Scheduler V B) (id : StrandId) (kept : Option (Outcome V))
    (p : StrandId) : (s.retire id kept).recorded p = s.recorded p := by
  refine recorded_of_rows (fun st hst => ?_) fun st' hnone hst' => ?_
  · rw [retire_row, hst]
    split
    · exact ⟨_, rfl, rfl⟩
    · exact ⟨_, rfl, rfl⟩
  · rw [retire_row, hnone] at hst'
    split at hst' <;> cases hst'

/-! ## Cascades -/

/-- The failures of a strand that are recorded in a group. -/
def owed (s : Scheduler V B) (p k : StrandId) : List Failure :=
  (s.recorded p).filterMap (·.report? k)

/-- What is reported of a strand and what is recorded of it are the same together, and still only
    the group of `q` has any of it. -/
structure Square (q k : StrandId) (s s' : Scheduler V B) : Prop where
  sole : ∀ p, p ≠ q → s'.owed p k = []
  sum : s'.unhandled k ++ s'.owed q k = s.unhandled k ++ s.owed q k

theorem Square.refl (hsole : ∀ p, p ≠ q → s.owed p k = []) : Square q k s s := ⟨hsole, rfl⟩

theorem Square.mute (h : Square q k s s₁) (hmute : Mute s₁ s₂)
    (hrecorded : ∀ p, s₂.recorded p = s₁.recorded p) : Square q k s s₂ := by
  have howed : ∀ p, s₂.owed p k = s₁.owed p k := fun p => by rw [owed, owed, hrecorded]
  exact ⟨fun p hp => (howed p).trans (h.sole p hp), by rw [hmute k, howed, h.sum]⟩

/-- A strand that is cut off reports all that its group has. -/
theorem Square.cut (h : Square q k s s₁) (hst : s₁.strand? id = some st) :
    Square q k s (s₁.cut id st.bridge) := by
  have hrow := cut_row hst
  have howed : ∀ p, (s₁.cut id st.bridge).owed p k = if id = p then [] else s₁.owed p k := by
    intro p
    by_cases hp : id = p
    · rw [if_pos hp, owed, recorded, household_eq ((hrow p).trans (if_pos hp))]
      rfl
    · rw [if_neg hp, owed, owed, recorded_congr ((hrow p).trans (if_neg hp))]
  have hcut : (s₁.cut id st.bridge).unhandled k = s₁.unhandled k ++ s₁.owed id k := by
    rw [unhandled_cut hst, owed, recorded, household_eq hst]
  refine ⟨fun p hp => ?_, ?_⟩
  · rw [howed]
    split
    · rfl
    · exact h.sole p hp
  · rw [hcut, howed, ← h.sum]
    by_cases hq : id = q
    · rw [if_pos hq, hq, List.append_nil]
    · rw [if_neg hq, h.sole id hq, List.append_nil]

theorem Cascade.square (hset : Cascade stop s₁ s₂) (h : Square q k s s₁) : Square q k s s₂ := by
  induction hset with
  | refl => exact h
  | update _ hr ih => exact (ih h).mute hr.mute hr.recorded
  | cancelled _ _ hst _ _ _ _ _ ih ihset =>
    exact (ihset ((ih h).cut hst)).mute (.retire _ _ _) (recorded_retire _ _ _)

theorem recorded_spawn (s : Scheduler V B) {r : SpawnRequest B} (hr : r.parent = none)
    (p : StrandId) : (s.spawn r).1.recorded p = s.recorded p :=
  recorded_of_rows (fun st hst => ⟨st, strand?_spawn hst r, rfl⟩) fun _ hnone hst' =>
    (spawn_newborn s hr hnone hst').2.settled

theorem Mild.square (h : Mild grows s s') (hsole : ∀ p, p ≠ q → s.owed p k = []) :
    Square q k s s' := by
  induction h with
  | refl => exact .refl hsole
  | cascade _ hset ih => exact hset.square ih
  | still _ hrows hlevel _ ih => exact ih.mute hlevel.mute fun p => recorded_congr (hrows p)
  | @row s₁ s₂ id old new _ hold _ hlike hrows hlevel _ ih =>
    refine ih.mute hlevel.mute fun p => ?_
    by_cases hp : id = p
    · subst hp
      rw [recorded, recorded, household_eq hold, household_eq ((hrows id).trans (if_pos rfl)),
        hlike.children]
    · exact recorded_congr ((hrows p).trans (if_neg hp))
  | spawn _ r hr ih => exact ih.mute (mute_spawn _ r) (recorded_spawn _ hr)

/-- From the balance of a strand's reports follows what is reported, if its parent neither waits nor
    is told of a child. -/
theorem Square.reports (h : Square q k s (s.after m)) (hsettles : s.settles q m = none)
    (hawaits : s.awaits q m = none)
    (hr : Regroups s m q (s.household q).1 ((s.after m).household q).1) :
    (s.after m).unhandled k = s.unhandled k ++ (s.forsakes q m).filterMap (·.report? k) := by
  have hsum := h.sum
  generalize hg' : ((s.after m).household q).1 = g' at hr
  have hrecorded : (s.after m).recorded q = g'.settled := by rw [recorded, hg']
  cases hr with
  | still _ _ hsettled _ hclosed =>
    rw [forsakes_none hsettles (not_closes (by rw [hg', hclosed])), List.filterMap_nil,
      List.append_nil]
    rw [owed, hrecorded, hsettled] at hsum
    exact List.append_cancel_right hsum
  | settled hsome => cases hsettles.symm.trans hsome
  | armed _ hsome => cases hawaits.symm.trans hsome
  | closed _ _ hopen hsettled _ hclosed =>
    have hcloses : s.closes q m = true := by rw [closes, hg', hopen, hclosed]; rfl
    rw [owed, hrecorded, hsettled, List.filterMap_nil, List.append_nil] at hsum
    rw [hsum, forsakes_closing hsettles hcloses, owed]

/-! ## A strand finishes -/

/-- Is the strand there, without a parent and without a job? -/
def isAlone (s : Scheduler V B) (k : StrandId) : Bool :=
  (s.strand? k).any fun st => st.parent.isNone && st.hook.isNone

/-- The failures that a move reports of a strand because the strand has nobody to tell. -/
def laments (s : Scheduler V B) (k : StrandId) (m : Move V B) : List Failure :=
  if s.isAlone k then (s.finishing m).toList.filterMap (·.report? k) else []

theorem laments_none (hfin : s.finishes m = none) : s.laments k m = [] := by
  rw [laments, finishing, hfin]
  split <;> rfl

/-- What is kept for the handle of a strand is reported, and nothing else is. -/
theorem Handed.unhandled (h : Handed f fst r s s' kept) (k : StrandId) :
    s'.unhandled k =
      s.unhandled k ++ ((kept.map (ChildOutcome.mk f)).bind (·.report? k)).toList := by
  cases h with
  | told hhook hset htold =>
    rw [hset.mute k]
    exact (List.append_nil _).symm
  | settled hhook hp hps hsettle hset =>
    rw [hset.mute k, Mute.updateStrand s _ _ k]
    exact (List.append_nil _).symm
  | returned hhook hp hps hsettle =>
    rw [unhandled_report, Mute.updateStrand s _ _ k]
    rfl
  | orphan hhook hp =>
    rw [unhandled_report]
    rfl

/-- What the group of its parent hands back is what is kept of a strand. -/
theorem Handed.returned_eq (h : Handed f fst r s s' kept) (hhook : fst.hook = none)
    (hp : fst.parent = some q) :
    ((s.household q).1.settle f r).2.returned? = kept := by
  cases h with
  | told hsome => cases hhook.symm.trans hsome
  | settled _ hq hps hsettle =>
    obtain rfl := Option.some.inj (hq.symm.trans hp)
    rw [household_eq hps, hsettle]
    rfl
  | returned _ hq hps hsettle =>
    obtain rfl := Option.some.inj (hq.symm.trans hp)
    rw [household_eq hps, hsettle]
    rfl
  | orphan _ hnone => cases hnone.symm.trans hp

/-- A group that stays as open or closed as it is gives up nothing. -/
theorem closes_nothing (hrow : ∀ st, s.strand? q = some st →
    ∃ st', (s.after m).strand? q = some st' ∧ st'.children.closed = st.children.closed) :
    (if s.closes q m then (s.household q).1.close.2 else []) = [] := by
  cases hst : s.strand? q with
  | none =>
    rw [household_none hst]
    split <;> rfl
  | some st =>
    obtain ⟨st', hst', hclosed⟩ := hrow st hst
    rw [not_closes (by rw [household_eq hst, household_eq hst', hclosed])]
    rfl

/-- With a strand that finishes, its own group is given up, and its outcome if that is kept though
    it has a parent. -/
theorem Handed.forsakes (hkin : Kin s) (htidy : Tidy s) (hfin : s.finishes m = some (f, r))
    (hfst : s.strand? f = some fst) (hrun : fst.status.isRunning = true)
    (h : Handed f fst r (s.markFinished f r.isOk) s₂ kept)
    (hafter : s.after m = (s₂.retire f kept).release f) (q : StrandId) :
    s.forsakes q m = (if fst.parent = some q then (kept.map (ChildOutcome.mk f)).toList else []) ++
      if f = q then s.recorded q else [] := by
  have hreturned : ((s.settles q m).bind fun c =>
      ((s.household q).1.settle c.id c.outcome).2.returned?.map (ChildOutcome.mk c.id)).toList =
        if fst.parent = some q then (kept.map (ChildOutcome.mk f)).toList else [] := by
    rw [settles_of_finishes hfin, kid?_eq hfst]
    by_cases hp : fst.parent = some q
    · obtain ⟨hhook, hne, -⟩ := hkin f fst q hfst hp
      have hmarked := markFinished_rows hfst r.isOk q
      rw [if_neg (Ne.symm hne)] at hmarked
      have hkept := h.returned_eq hhook hp
      rw [household_congr (congrArg _ hmarked)] at hkept
      simp [hp, hkept]
    · simp [hp]
  have hclosing : (if s.closes q m then (s.household q).1.close.2 else []) =
      if f = q then s.recorded q else [] := by
    by_cases hq : f = q
    · subst hq
      have hopen := (htidy.rows f fst hfst).closed.trans (Status.not_terminal_of_running hrun)
      have hrow : (s.after m).strand? f = some ((fst.finished r.isOk).publish kept) := by
        rw [hafter]
        exact h.own_row hkin hfst
      have hcloses : s.closes f m = true := by
        rw [closes, household_eq hfst, household_eq hrow, hopen]
        rfl
      rw [hcloses, if_pos rfl, if_pos rfl]
      rfl
    · rw [if_neg hq]
      refine closes_nothing fun st hst => ?_
      have hmarked := (markFinished_rows hfst r.isOk q).trans ((if_neg hq).trans hst)
      obtain ⟨new, hnew, hcases⟩ := h.row hmarked
      refine ⟨new, ?_, ?_⟩
      · rw [hafter]
        exact (retire_row s₂ f kept q).trans ((if_neg hq).trans hnew)
      · rcases hcases with ⟨-, hlike⟩ | ⟨-, -, st₁, -, rfl⟩
        · rw [hlike.children]
        · exact (Group.goes_settle _ _ _).closed
  exact congrArg₂ (· ++ ·) hreturned hclosing

/-- Nobody is told of the strand that is reported when it finishes. -/
theorem Handed.laments (h : Handed f fst r s₁ s' kept) (hfin : s.finishes m = some (f, r))
    (hfst : s.strand? f = some fst)
    (hq : ∀ st p, s.strand? k = some st → st.parent = some p → p = q) :
    ((kept.map (ChildOutcome.mk f)).bind (·.report? k)).toList =
      (if fst.parent = some q then (kept.map (ChildOutcome.mk f)).toList else []).filterMap
        (·.report? k) ++ s.laments k m := by
  have hother : f ≠ k → s.laments k m = [] := fun hk => by
    rw [Scheduler.laments, finishing, hfin]
    split
    · simp [ChildOutcome.report?, hk]
    · rfl
  have hhere : f = k → s.laments k m =
      if fst.parent.isNone && fst.hook.isNone then r.failure?.toList else [] := by
    rintro rfl
    rw [Scheduler.laments, finishing, hfin, isAlone, hfst]
    cases hr : r.failure? <;> simp [ChildOutcome.report?, hr]
  by_cases hp : fst.parent = some q
  · -- Its parent gives it up, and it says nothing itself.
    have hnothing : s.laments k m = [] := by
      by_cases hk : f = k
      · rw [hhere hk, hp]
        rfl
      · exact hother hk
    rw [if_pos hp, hnothing, List.append_nil]
    cases kept with
    | none => rfl
    | some o => cases ho : ChildOutcome.report? k ⟨f, o⟩ <;> simp [ho]
  · rw [if_neg hp, List.filterMap_nil, List.nil_append]
    by_cases hk : f = k
    · rw [hhere hk]
      cases h with
      | told hhook => simp [hhook]
      | settled _ hparent => simp [hparent]
      | returned _ hparent =>
        subst hk
        exact absurd (hparent.trans (congrArg some (hq fst _ hfst hparent))) hp
      | orphan hhook hparent => simp [hhook, hparent, hk, ChildOutcome.report?]
    · rw [hother hk]
      cases kept with
      | none => rfl
      | some o => simp [ChildOutcome.report?, hk]

/-- **What is reported when a strand finishes.** -/
theorem Handed.reports (hkin : Kin s) (htidy : Tidy s) (hfin : s.finishes m = some (f, r))
    (hfst : s.strand? f = some fst) (hrun : fst.status.isRunning = true)
    (h : Handed f fst r (s.markFinished f r.isOk) s₂ kept)
    (hafter : s.after m = (s₂.retire f kept).release f) (hsole : ∀ p, p ≠ q → s.owed p k = [])
    (hq : ∀ st p, s.strand? k = some st → st.parent = some p → p = q) :
    ((s₂.retire f kept).release f).unhandled k =
      s.unhandled k ++ (s.forsakes q m).filterMap (·.report? k) ++ s.laments k m := by
  have hforsakes := h.forsakes hkin htidy hfin hfst hrun hafter q
  have hown : (if f = q then s.recorded q else []).filterMap (·.report? k) = s.owed f k := by
    by_cases hf : f = q
    · rw [if_pos hf, hf]
      rfl
    · rw [if_neg hf, hsole f hf]
      rfl
  have hmarked : (s.markFinished f r.isOk).unhandled k = s.unhandled k ++ s.owed f k := by
    rw [unhandled_markFinished hfst, owed, recorded, household_eq hfst]
  have hretired : Mute s₂ ((s₂.retire f kept).release f) := .of_journal rfl
  rw [hretired k, h.unhandled k, h.laments hfin hfst hq, hmarked, hforsakes,
    List.filterMap_append, hown]
  by_cases hp : fst.parent = some q
  · -- Nobody is his own parent, so its own group is that of another.
    rw [hsole f (Ne.symm (hkin f fst q hfst hp).2.1)]
    simp
  · simp [hp]

/-! ## Every move -/

/-- A move reports nothing of a strand if nobody finishes, no report is made, and the group of the
    parent stays as open or closed as it is. -/
theorem reports_none (hfin : s.finishes m = none) (hmute : Mute s (s.after m))
    (hrow : ∀ st, s.strand? q = some st →
      ∃ st', (s.after m).strand? q = some st' ∧ st'.children.closed = st.children.closed) :
    (s.after m).unhandled k =
      s.unhandled k ++ (s.forsakes q m).filterMap (·.report? k) ++ s.laments k m := by
  have hforsakes : s.forsakes q m = [] := by
    rw [Scheduler.forsakes, settles_of_none hfin, closes_nothing hrow]
    rfl
  rw [hmute k, hforsakes, laments_none hfin]
  simp

/-- **What a move reports of a strand** is what it gives up of it, and what the strand finishes with
    if it is alone. -/
theorem MoveChange.unhandled (h : MoveChange s m s') (hs' : s.after m = s') (hkin : Kin s)
    (htidy : Tidy s) (hsole : ∀ p, p ≠ q → s.owed p k = [])
    (hq : ∀ st p, s.strand? k = some st → st.parent = some p → p = q) :
    s'.unhandled k =
      s.unhandled k ++ (s.forsakes q m).filterMap (·.report? k) ++ s.laments k m := by
  have hregroups := h.regroups hkin htidy q
  cases h with
  | mild hfin hawaits hmild =>
    subst hs'
    rw [laments_none hfin, List.append_nil]
    exact (hmild.square hsole).reports (settles_of_none hfin) (hawaits q) hregroups
  | announced hfin hawaits hadvances hrows hlive hjournal =>
    subst hs'
    exact reports_none hfin (.of_journal hjournal) fun st hst => ⟨st, (hrows q).trans hst, rfl⟩
  | @joined id hm outcome =>
    have hfin : s.finishes m = none := by rw [hm]; rfl
    rw [← hs']
    refine reports_none hfin ?_ fun st hst => ?_ <;> rw [hs']
    · exact .updateStrand s id _
    · rw [strand?_updateStrand, hst]
      split <;> exact ⟨_, rfl, rfl⟩
  | @spawned s' p ps body hm hps hrun hopen hrows hlive hlasts hmute =>
    subst hs'
    have hfin : s.finishes m = none := by rw [hm]; rfl
    refine reports_none hfin hmute fun st hst => ?_
    have hne : q ≠ ⟨s.strands.next⟩ := by
      rintro rfl
      rw [strand?_next] at hst
      cases hst
    rw [hrows, if_neg hne, strand?_updateStrand, hst]
    split <;> exact ⟨_, rfl, rfl⟩
  | @awaited s₁ s₂ p ps ps₁ mode b hawaits hfin hrun hown hlike hlevel hgrows hset =>
    rw [← hs']
    have hmute : Mute s s₂ := (hlevel.mute.trans (.updateStrand s₁ p _)).trans hset.mute
    refine reports_none hfin ?_ fun st hst => ?_ <;> rw [hs']
    · exact hmute.trans (.of_journal rfl)
    · by_cases hk : p = q
      · subst hk
        obtain rfl := Option.some.inj (hown.row.symm.trans hst)
        obtain ⟨st', hst', ⟨hne, -⟩ | ⟨-, st₁, -, rfl⟩⟩ := hset.regrouped hown.self hown.self
        · exact absurd rfl hne
        · exact ⟨_, hst', (Group.goes_arm _ _ _).closed⟩
      · obtain ⟨st', hst', ⟨-, hlike'⟩ | ⟨heq, -⟩⟩ :=
          hset.regrouped hown.self ((hown.rows q).trans ((if_neg hk).trans hst))
        · exact ⟨st', hst', by rw [hlike'.children]⟩
        · exact absurd heq hk
  | @finished s₂ f fst r kept hfin hfst hrun hhanded =>
    exact hhanded.reports hkin htidy hfin hfst hrun hs' hsole hq

end Scheduler
end CoopSched
