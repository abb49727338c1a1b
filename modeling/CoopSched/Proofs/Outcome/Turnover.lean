import CoopSched.Proofs.Shutdown.Tidy

/-!
# Turnover — what comes into a group and what goes out of it

An outcome comes into the group of a strand when a child of the strand settles. From there a wait
takes it, with everything else that has settled (`takes`). Or it is given up, because the strand has
ended (`forsakes`): the group is closed then, it answers what it still has, and it hands back what
settles later.

A move does one of four things to a group (`Regroups`), and whichever it is, every outcome goes
where one of these words says (`Turnover.balance`).
-/

namespace CoopSched

variable {V B : Type}

/-- What was fired when an outcome was recorded. -/
def Settlement.fired? : Settlement V → Option (Delivery V)
  | .recorded fired => fired
  | .returned _ => none

/-- The outcome that was handed back. -/
def Settlement.returned? : Settlement V → Option (Outcome V)
  | .recorded _ => none
  | .returned r => some r

namespace Group

variable {g : Group V} {k : StrandId} {r : Outcome V}

/-- A group that fires gives out all that has settled, and its wait is over. -/
theorem fire_cases (g : Group V) :
    g.fire.2 = none ∧ g.fire.1 = g ∨ ∃ d mode, g.fire.2 = some d ∧
      g.waiter = some (mode, d.bridge) ∧ g.fire.1.settled = [] ∧ g.fire.1.waiter = none := by
  unfold fire
  split
  · exact Or.inl ⟨rfl, rfl⟩
  next mode b hw =>
    split
    · exact Or.inr ⟨_, mode, rfl, hw, rfl, rfl⟩
    · exact Or.inl ⟨rfl, rfl⟩

/-- The group with the outcome of one more child, before anything is fired. -/
def noted (g : Group V) (k : StrandId) (r : Outcome V) : Group V :=
  { g with
    outstanding := g.outstanding - 1
    settled := g.settled ++ [⟨k, r⟩]
    firstFailure := g.firstFailure <|> r.failure? }

theorem settle_open (hopen : g.closed = false) :
    g.settle k r = ((g.noted k r).fire.1, .recorded (g.noted k r).fire.2) := by
  unfold settle
  dsimp only
  rw [if_neg (by simp [hopen])]
  rfl

theorem settle_closed (hclosed : g.closed = true) :
    g.settle k r = ({ g with outstanding := g.outstanding - 1 }, .returned r) := by
  unfold settle
  dsimp only
  rw [if_pos hclosed]

end Group

namespace Scheduler

variable {s s' : Scheduler V B} {m : Move V B} {p q k : StrandId} {st st' : Strand V B}
  {g g' : Group V}

/-- The outcomes that are recorded in the group of a strand, the first one first. -/
def recorded (s : Scheduler V B) (p : StrandId) : List (ChildOutcome V) :=
  (s.household p).1.settled

/-- The bridge that the group of a strand is to fire through, if the strand waits. -/
def waitsOn (s : Scheduler V B) (p : StrandId) : List BridgeId :=
  ((s.household p).1.waiter.map (·.2)).toList

/-- The batch that a wait of a strand takes with a move, and the bridge of the wait. Either a child
    settles and the wait is over with that, or the wait was over when it began. -/
def takes (s : Scheduler V B) (p : StrandId) (m : Move V B) :
    Option (BridgeId × List (ChildOutcome V)) :=
  match s.settles p m with
  | some c =>
      ((s.household p).1.settle c.id c.outcome).2.fired?.map fun d =>
        (d.bridge, s.recorded p ++ [c])
  | none =>
      (s.awaits p m).bind fun (mode, b) =>
        ((s.household p).1.arm mode b).2.map fun d => (d.bridge, s.recorded p)

/-- Does the move close the group of a strand? -/
def closes (s : Scheduler V B) (p : StrandId) (m : Move V B) : Bool :=
  !(s.household p).1.closed && ((s.after m).household p).1.closed

/-- What a move gives up of the outcomes of a strand's children: the one that the closed group hands
    back, or what the group answers when it is closed. -/
def forsakes (s : Scheduler V B) (p : StrandId) (m : Move V B) : List (ChildOutcome V) :=
  ((s.settles p m).bind fun c =>
    ((s.household p).1.settle c.id c.outcome).2.returned?.map (.mk c.id)).toList ++
  if s.closes p m then (s.household p).1.close.2 else []

/-! ## One group -/

/-- What a move does to the group of a strand. -/
inductive Regroups (s : Scheduler V B) (m : Move V B) (p : StrandId) (g : Group V) :
    Group V → Prop
  | still {g' : Group V} (hsettles : s.settles p m = none) (hawaits : s.awaits p m = none)
      (hsettled : g'.settled = g.settled) (hwaiter : g'.waiter = g.waiter)
      (hclosed : g'.closed = g.closed) : Regroups s m p g g'
  | settled {c : ChildOutcome V} (hsettles : s.settles p m = some c)
      (hawaits : s.awaits p m = none) : Regroups s m p g (g.settle c.id c.outcome).1
  | armed {mode : WaitMode} {b : BridgeId} (hsettles : s.settles p m = none)
      (hawaits : s.awaits p m = some (mode, b)) (hopen : g.closed = false) :
      Regroups s m p g (g.arm mode b).1
  | closed {g' : Group V} (hsettles : s.settles p m = none) (hawaits : s.awaits p m = none)
      (hopen : g.closed = false) (hsettled : g'.settled = []) (hwaiter : g'.waiter = none)
      (hclosed : g'.closed = true) : Regroups s m p g g'

theorem Regroups.same (hsettles : s.settles p m = none) (hawaits : s.awaits p m = none)
    (hg : g' = g) : Regroups s m p g g' :=
  .still hsettles hawaits (by rw [hg]) (by rw [hg]) (by rw [hg])

theorem Regroups.alikeOrCancelled (hsettles : s.settles p m = none) (hawaits : s.awaits p m = none)
    (htidy : st.Tidy) (h : AlikeOrCancelled True s s' st st') :
    Regroups s m p st.children st'.children := by
  cases h with
  | alike hlike => exact .same hsettles hawaits hlike.children
  | cancelled _ _ hend => exact .closed hsettles hawaits (htidy.closed.trans hend) rfl rfl rfl

theorem Regroups.newborn (hsettles : s.settles p m = none) (hawaits : s.awaits p m = none)
    (h : st.Newborn) : Regroups s m p {} st.children := by
  cases hclosed : st.children.closed with
  | false => exact .still hsettles hawaits h.settled h.waiter hclosed
  | true => exact .closed hsettles hawaits rfl h.settled h.waiter hclosed

/-! ## Every move -/

theorem Kin.settles_none (hkin : Kin s) (hnone : s.strand? p = none) :
    s.settles p m = none := by
  cases hfin : s.finishes m with
  | none => exact settles_of_none hfin
  | some x =>
    obtain ⟨k, r⟩ := x
    rw [settles_of_finishes hfin, if_neg]
    intro hsome
    obtain ⟨ended, hkid⟩ := Option.isSome_iff_exists.mp hsome
    obtain ⟨st, hst, hparent, -⟩ := kid?_eq_some.mp hkid
    obtain ⟨-, -, ps, hps⟩ := hkin k st p hst hparent
    cases hnone.symm.trans hps

/-- One strand waits at a time. -/
theorem awaits_other {mode : WaitMode} {b : BridgeId} (h : s.awaits q m = some (mode, b))
    (hne : q ≠ p) : s.awaits p m = none := by
  cases hw : s.awaits p m with
  | none => rfl
  | some w =>
    obtain ⟨mode', b'⟩ := w
    have heq := Option.some.inj ((awaits_iff.mp h).1.symm.trans (awaits_iff.mp hw).1)
    exact absurd (Prod.mk.inj heq).1 hne

/-- Only a strand that is there waits. -/
theorem MoveChange.awaits_none (h : MoveChange s m s') (hnone : s.strand? p = none) :
    s.awaits p m = none := by
  cases h with
  | mild hfin hawaits => exact hawaits p
  | announced hfin hawaits => exact hawaits p
  | joined hm outcome => rw [hm]; rfl
  | spawned hm => rw [hm]; rfl
  | awaited hawaits hfin hrun hown =>
    refine awaits_other hawaits ?_
    rintro rfl
    cases hown.row.symm.trans hnone
  | finished hfin => exact awaits_of_issued (issued_of_finishes hfin)

/-- A child that finishes leaves its outcome with its parent, and the move closes its own group. -/
theorem Handed.regroups {j f : StrandId} {old fst : Strand V B} {r : Outcome V}
    {kept : Option (Outcome V)} (hkin : Kin s) (htidy : Tidy s)
    (hfin : s.finishes m = some (f, r)) (hfst : s.strand? f = some fst)
    (hrun : fst.status.isRunning = true)
    (h : Handed f fst r (s.markFinished f r.isOk) s' kept) (hold : s.strand? j = some old) :
    ∃ new, (s'.retire f kept).strand? j = some new ∧ Regroups s m j old.children new.children := by
  have hawaits : s.awaits j m = none := awaits_of_issued (issued_of_finishes hfin)
  have hsettles := settles_of_finishes (p := j) hfin
  rw [kid?_eq hfst] at hsettles
  by_cases hj : f = j
  · subst hj
    obtain rfl := Option.some.inj (hfst.symm.trans hold)
    have hopen := (htidy.rows f fst hfst).closed.trans (Status.not_terminal_of_running hrun)
    have hother : fst.parent ≠ some f := fun hp => (hkin f fst f hfst hp).2.1 rfl
    rw [if_neg hother] at hsettles
    exact ⟨_, h.own_row hkin hold, .closed hsettles hawaits hopen rfl rfl rfl⟩
  · have hmarked := (markFinished_rows hfst r.isOk j).trans ((if_neg hj).trans hold)
    rw [retire_row, if_neg hj]
    obtain ⟨new, hnew, ⟨hnot, hlike⟩ | ⟨-, hp, st₁, hlike, rfl⟩⟩ := h.row hmarked
    · refine ⟨new, hnew, .same ?_ hawaits hlike.children⟩
      have hother : fst.parent ≠ some j := fun hp =>
        hnot.elim (fun hne => hne hp) fun hhook => hhook (hkin f fst j hfst hp).1
      rw [hsettles, if_neg hother]
      rfl
    · rw [if_pos hp] at hsettles
      exact ⟨_, hnew, .settled (c := ⟨f, r⟩) hsettles hawaits⟩

/-- What a move does to the group of a strand that is there. -/
theorem MoveChange.regroups_row (h : MoveChange s m s') (hkin : Kin s) (htidy : Tidy s)
    (hst : s.strand? p = some st) :
    ∃ st', s'.strand? p = some st' ∧ Regroups s m p st.children st'.children := by
  cases h with
  | mild hfin hawaits hmild =>
    obtain ⟨st', hst', hleft⟩ := hmild.row_alikeOrCancelled hst
    have hrow := htidy.rows p st hst
    exact ⟨st', hst', .alikeOrCancelled (settles_of_none hfin) (hawaits p) hrow hleft⟩
  | announced hfin hawaits hadvances hrows =>
    exact ⟨st, (hrows p).trans hst, .same (settles_of_none hfin) (hawaits p) rfl⟩
  | @joined id hm outcome =>
    have hidle : s.settles p m = none ∧ s.awaits p m = none := by rw [hm]; exact ⟨rfl, rfl⟩
    rw [strand?_updateStrand, hst]
    by_cases hk : id = p
    · rw [if_pos hk]
      exact ⟨_, rfl, .same hidle.1 hidle.2 rfl⟩
    · rw [if_neg hk]
      exact ⟨_, rfl, .same hidle.1 hidle.2 rfl⟩
  | @spawned s' q qs body hm hqs hrun hopen hrows =>
    have hidle : s.settles p m = none ∧ s.awaits p m = none := by rw [hm]; exact ⟨rfl, rfl⟩
    have hne : p ≠ ⟨s.strands.next⟩ := by
      rintro rfl
      rw [strand?_next] at hst
      cases hst
    rw [hrows, if_neg hne, strand?_updateStrand, hst]
    by_cases hk : q = p
    · rw [if_pos hk]
      exact ⟨_, rfl, .still hidle.1 hidle.2 rfl rfl rfl⟩
    · rw [if_neg hk]
      exact ⟨_, rfl, .same hidle.1 hidle.2 rfl⟩
  | @awaited s₁ s₂ q qs qs₁ mode b hawaits hfin hrun hown hlike hlevel hgrows hset =>
    have hsettles : s.settles p m = none := settles_of_none hfin
    by_cases hk : q = p
    · subst hk
      obtain rfl := Option.some.inj (hown.row.symm.trans hst)
      obtain ⟨st', hst', ⟨hne, -⟩ | ⟨-, st₁, -, rfl⟩⟩ := hset.regrouped hown.self hown.self
      · exact absurd rfl hne
      · have hopen := (htidy.rows q qs hst).closed.trans (Status.not_terminal_of_running hrun)
        exact ⟨_, hst', .armed hsettles hawaits hopen⟩
    · obtain ⟨st', hst', ⟨-, hlike'⟩ | ⟨heq, -⟩⟩ :=
        hset.regrouped hown.self ((hown.rows p).trans ((if_neg hk).trans hst))
      · exact ⟨st', hst', .same hsettles (awaits_other hawaits hk) hlike'.children⟩
      · exact absurd heq hk
  | finished hfin hold hrun hhanded => exact hhanded.regroups hkin htidy hfin hold hrun hst

/-- **A move does one of four things to a group.** -/
theorem MoveChange.regroups (h : MoveChange s m s') (hkin : Kin s) (htidy : Tidy s) (p : StrandId) :
    Regroups s m p (s.household p).1 (s'.household p).1 := by
  cases hst : s.strand? p with
  | some st =>
    obtain ⟨st', hst', hregroups⟩ := h.regroups_row hkin htidy hst
    rw [household_eq hst, household_eq hst']
    exact hregroups
  | none =>
    have hsettles : s.settles p m = none := hkin.settles_none hst
    have hawaits := h.awaits_none hst
    rw [household_none hst]
    cases hst' : s'.strand? p with
    | none =>
      rw [household_none hst']
      exact .same hsettles hawaits rfl
    | some st' =>
      rw [household_eq hst']
      obtain ⟨-, hnew | ⟨q, body, -, rfl⟩⟩ := h.new hst hst'
      · exact .newborn hsettles hawaits hnew
      · exact .same hsettles hawaits rfl

/-! ## The balance -/

/-- What comes into the group of a strand with a move, and what goes out of it. -/
structure Turnover (s : Scheduler V B) (m : Move V B) (p : StrandId) : Prop where
  /-- What was recorded and what settles is taken, given up or recorded. -/
  balance : s.recorded p ++ (s.settles p m).toList =
    ((s.takes p m).map (·.2)).getD [] ++ s.forsakes p m ++ (s.after m).recorded p
  /-- A wait takes one batch, and it was begun before. -/
  waits : (((s.takes p m).map (·.1)).toList ++ (s.after m).waitsOn p).Sublist
    (s.waitsOn p ++ ((s.awaits p m).map (·.2)).toList)
  /-- While the group is open, nothing is given up. -/
  unclosed : ((s.after m).household p).1.closed = false →
    (s.household p).1.closed = false ∧ s.forsakes p m = []
  /-- From a closed group nothing is taken. -/
  shut : (s.household p).1.closed = true → s.takes p m = none

theorem takes_idle (hsettles : s.settles p m = none) (hawaits : s.awaits p m = none) :
    s.takes p m = none := by
  simp only [takes, hsettles, hawaits, Option.bind_none]

theorem forsakes_none (hsettles : s.settles p m = none) (hcloses : s.closes p m = false) :
    s.forsakes p m = [] := by
  simp [forsakes, hsettles, hcloses]

theorem not_closes (h : ((s.after m).household p).1.closed = (s.household p).1.closed) :
    s.closes p m = false := by
  rw [closes, h]
  cases (s.household p).1.closed <;> rfl

theorem Tidy.recorded_nil (htidy : Tidy s) (hclosed : (s.household p).1.closed = true) :
    s.recorded p = [] := by
  cases hst : s.strand? p with
  | none =>
    rw [household_none hst] at hclosed
    cases hclosed
  | some st =>
    rw [household_eq hst] at hclosed
    rw [recorded, household_eq hst]
    have hrow := htidy.rows p st hst
    exact hrow.settled (hrow.closed.symm.trans hclosed)

/-- Nothing happens to a group. -/
theorem Turnover.still (hsettles : s.settles p m = none) (hawaits : s.awaits p m = none)
    (hsettled : (s.after m).recorded p = s.recorded p)
    (hwaiter : (s.after m).waitsOn p = s.waitsOn p)
    (hclosed : ((s.after m).household p).1.closed = (s.household p).1.closed) :
    Turnover s m p := by
  have htakes := takes_idle hsettles hawaits
  have hforsakes := forsakes_none hsettles (not_closes hclosed)
  refine ⟨?_, ?_, fun hopen => ⟨hclosed.symm.trans hopen, hforsakes⟩, fun _ => htakes⟩
  · rw [htakes, hforsakes, hsettles, hsettled]
    exact List.append_nil _
  · rw [htakes, hawaits, hwaiter]
    exact List.sublist_append_left _ _

/-- A group is fired, with what it has then. -/
theorem Turnover.fire {g : Group V} (hg : ((s.after m).household p).1 = g.fire.1)
    (hopen : (s.household p).1.closed = false) (hforsakes : s.forsakes p m = [])
    (htakes : s.takes p m = g.fire.2.map fun d => (d.bridge, g.settled))
    (hsettled : g.settled = s.recorded p ++ (s.settles p m).toList)
    (hwaiter : (g.waiter.map (·.2)).toList.Sublist
      (s.waitsOn p ++ ((s.awaits p m).map (·.2)).toList)) : Turnover s m p := by
  have hshut : (s.household p).1.closed = true → s.takes p m = none := fun hclosed => by
    cases hopen.symm.trans hclosed
  rcases g.fire_cases with ⟨hnone, hsame⟩ | ⟨d, mode, hsome, hw, hempty, hover⟩
  · rw [hnone, Option.map_none] at htakes
    refine ⟨?_, ?_, fun _ => ⟨hopen, hforsakes⟩, hshut⟩
    · rw [htakes, hforsakes, recorded, recorded, hg, hsame, hsettled]
      rfl
    · rw [htakes, waitsOn, hg, hsame]
      exact hwaiter
  · rw [hsome, Option.map_some] at htakes
    refine ⟨?_, ?_, fun _ => ⟨hopen, hforsakes⟩, hshut⟩
    · rw [htakes, hforsakes, ← hsettled, recorded, hg, hempty]
      simp
    · rw [hw] at hwaiter
      rw [htakes, waitsOn, hg, hover]
      exact hwaiter

/-- An open group takes the outcome of a child, and perhaps fires. -/
theorem Turnover.settled {c : ChildOutcome V} (hsettles : s.settles p m = some c)
    (hopen : (s.household p).1.closed = false)
    (hg : ((s.after m).household p).1 = ((s.household p).1.settle c.id c.outcome).1) :
    Turnover s m p := by
  have hsettle := Group.settle_open (k := c.id) (r := c.outcome) hopen
  have hcloses : s.closes p m = false :=
    not_closes (by rw [hg, (Group.goes_settle _ _ _).closed])
  refine .fire (hg.trans (by rw [hsettle])) hopen ?_ ?_ ?_ ?_
  · simp [forsakes, hsettles, hsettle, hcloses, Settlement.returned?]
  · simp only [takes, hsettles, hsettle, Settlement.fired?]
    rfl
  · rw [hsettles]
    rfl
  · exact List.sublist_append_left _ _

/-- A closed group hands the outcome of a child back. -/
theorem Turnover.returned {c : ChildOutcome V} (hsettles : s.settles p m = some c)
    (hclosed : (s.household p).1.closed = true) (hnil : s.recorded p = [])
    (hg : ((s.after m).household p).1 = ((s.household p).1.settle c.id c.outcome).1) :
    Turnover s m p := by
  have hsettle := Group.settle_closed (k := c.id) (r := c.outcome) hclosed
  have hcloses : s.closes p m = false := not_closes (by rw [hg, hsettle])
  have htakes : s.takes p m = none := by
    simp only [takes, hsettles, hsettle, Settlement.fired?, Option.map_none]
  have hforsakes : s.forsakes p m = [c] := by
    simp [forsakes, hsettles, hsettle, hcloses, Settlement.returned?]
  have hrecorded : (s.after m).recorded p = [] := by
    rw [recorded, hg, hsettle]
    exact hnil
  refine ⟨?_, ?_, fun hopen => ?_, fun _ => htakes⟩
  · rw [htakes, hforsakes, hsettles, hrecorded, hnil]
    rfl
  · rw [htakes, waitsOn, hg, hsettle]
    exact List.sublist_append_left _ _
  · rw [hg, hsettle] at hopen
    cases hclosed.symm.trans hopen

/-- A wait begins, and perhaps is over with that. -/
theorem Turnover.armed {mode : WaitMode} {b : BridgeId} (hsettles : s.settles p m = none)
    (hawaits : s.awaits p m = some (mode, b)) (hopen : (s.household p).1.closed = false)
    (hg : ((s.after m).household p).1 = ((s.household p).1.arm mode b).1) :
    Turnover s m p := by
  have hcloses : s.closes p m = false := not_closes (by rw [hg, (Group.goes_arm _ _ _).closed])
  refine .fire (g := { (s.household p).1 with waiter := some (mode, b) }) hg hopen
    (forsakes_none hsettles hcloses) ?_ ?_ ?_
  · simp only [takes, hsettles, hawaits, Option.bind_some]
    rfl
  · rw [hsettles]
    exact (List.append_nil _).symm
  · rw [hawaits]
    exact List.sublist_append_right _ _

theorem forsakes_closing (hsettles : s.settles p m = none) (hcloses : s.closes p m = true) :
    s.forsakes p m = s.recorded p := by
  simp [forsakes, hsettles, hcloses, Group.close, recorded]

/-- A group that is closed gives up all that it has. -/
theorem Turnover.closed (hsettles : s.settles p m = none) (hawaits : s.awaits p m = none)
    (hcloses : s.closes p m = true) (hsettled : (s.after m).recorded p = [])
    (hwaiter : (s.after m).waitsOn p = []) : Turnover s m p := by
  have htakes := takes_idle hsettles hawaits
  refine ⟨?_, ?_, fun hopen => ?_, fun _ => htakes⟩
  · rw [htakes, forsakes_closing hsettles hcloses, hsettles, hsettled]
    simp
  · rw [htakes, hwaiter]
    exact List.nil_sublist _
  · rw [closes, hopen] at hcloses
    simp at hcloses

/-- **Every outcome goes somewhere**, in each of the four cases. -/
theorem Regroups.turnover (hs' : s.after m = s') (htidy : Tidy s)
    (h : Regroups s m p (s.household p).1 (s'.household p).1) : Turnover s m p := by
  subst hs'
  generalize hg : ((s.after m).household p).1 = g' at h
  cases h with
  | still hsettles hawaits hsettled hwaiter hclosed =>
    refine .still hsettles hawaits ?_ ?_ (by rw [hg, hclosed])
    · rw [recorded, hg, hsettled]
      rfl
    · rw [waitsOn, hg, hwaiter]
      rfl
  | settled hsettles =>
    cases hclosed : (s.household p).1.closed with
    | true => exact .returned hsettles hclosed (htidy.recorded_nil hclosed) hg
    | false => exact .settled hsettles hclosed hg
  | armed hsettles hawaits hopen => exact .armed hsettles hawaits hopen hg
  | closed hsettles hawaits hopen hsettled hwaiter hclosed =>
    refine .closed hsettles hawaits (by rw [closes, hg, hopen, hclosed]; rfl) ?_ ?_
    · rw [recorded, hg, hsettled]
    · rw [waitsOn, hg, hwaiter]
      rfl

end Scheduler
end CoopSched
