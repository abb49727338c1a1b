import CoopSched.Proofs.Children.Calm

/-!
# What a move does to a family

For the family of a strand there are five kinds of moves. The strand spawns a child, a child of it
finishes, it waits for its children, it finishes itself, and everything else leaves the family alone
(`FamilyChange`). Whoever wants to know what a move does to the children of a strand need not look
at the moves again.
-/

namespace CoopSched
namespace Scheduler

variable {V B : Type} {sealed : BridgeId → Prop} {Ok : BridgeId → Wakeup V → Prop} {drained : Bool}
  {s₀ s s₁ s' : Scheduler V B} {m : Move V B} {p k q id : StrandId} {st : Strand V B}

/-- What a move does to the family of a strand. -/
inductive FamilyChange (sealed : BridgeId → Prop) (p : StrandId) (s : Scheduler V B) (m : Move V B)
    (s' : Scheduler V B) : Prop
  | calm (h : Calm sealed p s s') (hlast : ∀ r, s.finishes m ≠ some (p, r))
      (hsettles : s.settles p m = none) (hawaits : s.awaits p m = none)
  | spawned {k : StrandId} (hp : p ∈ s.held) (hfin : s.finishes m = none)
      (hawaits : s.awaits p m = none) (hnew : s.kid? p k = none)
      (hkids : ∀ i, s'.kid? p i = if i = k then some false else s.kid? p i)
      (hhouse : s'.household p = ((s.household p).1.add, (s.household p).2))
      (hbridges : ∀ b, s'.bridge? b = s.bridge? b)
  | settled {k : StrandId} {r : Outcome V} (hfin : s.finishes m = some (k, r)) (hne : p ≠ k)
      (hkid : s.kid? p k = some false)
      (hkids : ∀ i, s'.kid? p i = if i = k then some true else s.kid? p i)
      (hhouse : s'.household p = (((s.household p).1.settle k r).1, (s.household p).2))
      (hfired : ∀ d, ((s.household p).1.settle k r).2 = .recorded (some d) →
        s'.bridge? d.bridge = some ⟨p, .holding d.payload⟩)
      (hstill : (∀ d, ((s.household p).1.settle k r).2 ≠ .recorded (some d)) →
        ∀ b, s'.bridge? b = s.bridge? b)
  | awaited {mode : WaitMode} {b : BridgeId} (hawaits : s.awaits p m = some (mode, b))
      (hfin : s.finishes m = none) (hp : p ∈ s.held) (hnew : s.bridge? b = none)
      (hfree : ∀ a, s.bridge? a ≠ some ⟨p, .pending⟩)
      (hkids : ∀ i, s'.kid? p i = s.kid? p i) (halive : (s.household p).2 = false)
      (hhouse : s'.household p = (((s.household p).1.arm mode b).1, false))
      (hfired : ∀ d, ((s.household p).1.arm mode b).2 = some d →
        s'.bridge? d.bridge = some ⟨p, .holding d.payload⟩)
      (hstill : ((s.household p).1.arm mode b).2 = none → s'.bridge? b = some ⟨p, .pending⟩)
  | ended {r : Outcome V} (hfin : s.finishes m = some (p, r)) (hsettles : s.settles p m = none)
      (hkids : ∀ i, s'.kid? p i = s.kid? p i)
      (hhouse : (s'.household p).1.waiter = none ∧ (s'.household p).2 = true)

/-- A move has changed a family so, unless somebody was cancelled. -/
structure FamilyChanged (sealed : BridgeId → Prop) (p : StrandId) (s : Scheduler V B) (m : Move V B)
    (s' : Scheduler V B) : Prop where
  spared : Spared sealed s'
  familyChange : Cancelled s' ∨ FamilyChange sealed p s m s'

/-- The wait of a strand is for a bridge of it that nobody has completed. -/
def Armed (s : Scheduler V B) : Prop :=
  ∀ q mode b, (s.household q).1.waiter = some (mode, b) → s.bridge? b = some ⟨q, .pending⟩

/-! ## Groups change -/

theorem Calm.children (hq : q ≠ p) (f : Strand V B → Group V) :
    Calm sealed p s (s.updateStrand q fun st => { st with children := f st }) := by
  refine ⟨?_, fun k => ?_, fun _ _ hb => hb⟩
  · exact household_congr (by rw [strand?_updateStrand, if_neg hq])
  · unfold kid?
    rw [strand?_updateStrand]
    split
    · cases s.strand? k <;> rfl
    · rfl

theorem kid?_children (f : Strand V B → Group V) (i : StrandId) :
    (s.updateStrand q fun st => { st with children := f st }).kid? p i = s.kid? p i := by
  unfold kid?
  rw [strand?_updateStrand]
  split
  · cases s.strand? i <;> rfl
  · rfl

theorem household_children (hst : s.strand? q = some st) (f : Strand V B → Group V) :
    (s.updateStrand q fun st => { st with children := f st }).household q =
      (f st, (s.household q).2) := by
  have hrow : (s.updateStrand q fun st => { st with children := f st }).strand? q =
      some { st with children := f st } := by
    rw [strand?_updateStrand_self, hst, Option.map_some]
  rw [household_eq hst, household_eq hrow]

/-- While there are workers, what a group fires claims the bridge and wakes its strand. -/
theorem deliverFired_some (alive : s.terminated = false) {d : Delivery V}
    (hb : s.bridge? d.bridge = some ⟨q, .pending⟩) :
    s.deliverFired (some d) = (s.setBridge d.bridge ⟨q, .holding d.payload⟩).wake q := by
  unfold deliverFired deliver deliverWith
  simp only [hb, Bridge.claim?]
  exact wakeWith_of_alive (s := s.setBridge d.bridge ⟨q, .holding d.payload⟩) alive cancel q

theorem wake_same (alive : s.terminated = false) (id : StrandId) :
    (s.wake id).bridges = s.bridges ∧ (s.wake id).jobs = s.jobs := by
  obtain ⟨queue, counters, journal, channel, heq⟩ := wake_row alive id
  rw [heq]
  exact ⟨rfl, rfl⟩

/-- What becomes of families when the group of a strand has fired: the payload lies in the bridge,
    and nobody else can tell. -/
structure Fires (q : StrandId) (fired : Option (Delivery V)) (s s' : Scheduler V B) : Prop where
  jobs : s'.jobs = s.jobs
  household : ∀ p, s'.household p = s.household p
  kids : ∀ p i, s'.kid? p i = s.kid? p i
  others : ∀ b p, p ≠ q → s.bridge? b = some ⟨p, .pending⟩ → s'.bridge? b = some ⟨p, .pending⟩
  holds : ∀ d, fired = some d → s'.bridge? d.bridge = some ⟨q, .holding d.payload⟩
  still : fired = none → ∀ b, s'.bridge? b = s.bridge? b

theorem Fires.calm {fired : Option (Delivery V)} (h : Fires q fired s s') (hq : p ≠ q) :
    Calm sealed p s s' :=
  ⟨h.household p, h.kids p, fun b _ => h.others b p hq⟩

theorem fires_deliverFired (alive : s.terminated = false) (fired : Option (Delivery V))
    (hb : ∀ d, fired = some d → s.bridge? d.bridge = some ⟨q, .pending⟩) :
    Fires q fired s (s.deliverFired fired) := by
  cases fired with
  | none =>
    exact ⟨rfl, fun _ => rfl, fun _ _ => rfl, fun _ _ _ h => h, (fun d hd => by cases hd),
      fun _ _ => rfl⟩
  | some d =>
    rw [deliverFired_some alive (hb d rfl)]
    have hpending := hb d rfl
    -- The bridge changes first, and then its strand is woken.
    generalize hs₁ : s.setBridge d.bridge ⟨q, .holding d.payload⟩ = s₁
    have alive₁ : s₁.terminated = false := by rw [← hs₁]; exact alive
    have hrows : ∀ i, s₁.strand? i = s.strand? i := fun i => by rw [← hs₁]; rfl
    obtain ⟨hbridges, hjobs⟩ := wake_same alive₁ q
    have hwake : ∀ p, Calm (fun _ => True) p s₁ (s₁.wake q) := fun p => .wake alive₁ q
    have hread : ∀ b, (s₁.wake q).bridge? b = s₁.bridge? b := fun b => by
      rw [bridge?, hbridges]
      rfl
    refine ⟨hjobs.trans (by rw [← hs₁]; rfl), fun p => (hwake p).household.trans ?_,
      fun p i => ((hwake p).kids i).trans ?_, fun b p hp h => ?_, ?_, fun hnone => by cases hnone⟩
    · exact household_congr (by rw [hrows])
    · exact kid?_congr (by rw [hrows])
    · rw [hread, ← hs₁, bridge?_setBridge, if_neg]
      · exact h
      · rintro rfl
        exact hp (Bridge.mk.inj (Option.some.inj (h.symm.trans hpending))).1
    · intro d' hd'
      obtain rfl := Option.some.inj hd'
      rw [hread, ← hs₁]
      exact bridge?_setBridge_self hpending _

/-! ## A strand spawns a child -/

/-- A child that is admitted counts in the group of its parent, and one that is refused leaves every
    row as it was. -/
theorem spawnChild_rows (s : Scheduler V B) (k : StrandId) (body : B) :
    (s.spawnChild k body).1.bridges = s.bridges ∧ (s.spawnChild k body).1.jobs = s.jobs ∧
      (((s.spawnChild k body).2 = .ok ⟨s.strands.next⟩ ∧ ∀ i, (s.spawnChild k body).1.strand? i =
          if i = ⟨s.strands.next⟩ then some (Strand.create body none (some k) none)
          else (s.updateStrand k fun st => { st with children := st.children.add }).strand? i) ∨
        (∃ e, (s.spawnChild k body).2 = .error e) ∧
          ∀ i, (s.spawnChild k body).1.strand? i = s.strand? i) := by
  obtain ⟨hbridges, hjobs, hor⟩ := spawn_rows
    (s.updateStrand k fun st => { st with children := st.children.add })
    { body := body, admission := .internal, parent := some k }
  have hnext : (s.updateStrand k fun st => { st with children := st.children.add }).strands.next =
      s.strands.next := Table.next_update _ _ _
  rw [hnext] at hor
  unfold Scheduler.spawnChild
  dsimp only
  generalize (s.updateStrand k fun st => { st with children := st.children.add }).spawn
    { body := body, admission := .internal, parent := some k } = result at hbridges hjobs hor
  obtain ⟨s₁, answer⟩ := result
  cases answer with
  | ok id =>
    refine ⟨hbridges, hjobs, Or.inl ?_⟩
    rcases hor with hor | ⟨⟨e, he⟩, -⟩
    · exact hor
    · cases he
  | error e =>
    refine ⟨hbridges, hjobs, Or.inr ⟨⟨e, rfl⟩, fun i => ?_⟩⟩
    rcases hor with ⟨hok, -⟩ | ⟨-, hrows⟩
    · cases hok
    -- What was added for the child is taken back.
    rw [strand?_updateStrand, show s₁.strand? i = _ from hrows i, strand?_updateStrand]
    split
    · cases s.strand? i <;> rfl
    · rfl

theorem familyChanged_spawnChild (hs : Stable Ok drained s) (hspared : Spared sealed s)
    (hk : k ∈ s.held) (body : B) :
    FamilyChanged sealed p s (.spawnChild k body) (s.after (.spawnChild k body)) := by
  obtain ⟨hbridges, hjobs, hor⟩ := spawnChild_rows s k body
  obtain ⟨st, hst, -⟩ := (hs.placed.busy_iff k).mp hk
  have hread : ∀ b, (s.spawnChild k body).1.bridge? b = s.bridge? b :=
    fun b => by rw [bridge?, hbridges]; rfl
  have hcalm : Calm sealed p s (s.spawnChild k body).1 →
      FamilyChange sealed p s (.spawnChild k body) (s.after (.spawnChild k body)) :=
    fun h => .calm h (fun r heq => by cases heq) rfl rfl
  refine ⟨hspared.of_jobs hjobs, Or.inr ?_⟩
  rcases hor with ⟨-, hrows⟩ | ⟨-, hrows⟩
  · have hnone := strand?_next s
    by_cases hp : p = k
    · subst hp
      have hne : p ≠ ⟨s.strands.next⟩ := by
        rintro rfl
        rw [hnone] at hst
        cases hst
      refine .spawned (k := ⟨s.strands.next⟩) hk rfl rfl (kid?_none hnone) (fun i => ?_) ?_ hread
      · show (s.spawnChild p body).1.kid? p i = _
        split
        next hi => exact (kid?_eq ((hrows i).trans (if_pos hi))).trans (if_pos rfl)
        next hi =>
          rw [kid?_congr (congrArg _ ((hrows i).trans (if_neg hi)))]
          exact kid?_children (fun st => st.children.add) i
      · show (s.spawnChild p body).1.household p = _
        rw [household_congr (congrArg _ ((hrows p).trans (if_neg hne))),
          household_children hst fun st => st.children.add, household_eq hst]
    · have hadd : Calm sealed p s _ := .children (Ne.symm hp) fun st => st.children.add
      refine hcalm ⟨?_, fun i => ?_, fun b _ hb => (hread b).trans hb⟩
      · by_cases hnew : p = ⟨s.strands.next⟩
        · rw [household_eq ((hrows p).trans (if_pos hnew)), household_none (hnew ▸ hnone)]
          rfl
        · exact (household_congr (congrArg _ ((hrows p).trans (if_neg hnew)))).trans hadd.household
      · by_cases hnew : i = ⟨s.strands.next⟩
        · rw [kid?_none (hnew ▸ hnone : s.strand? i = none)]
          exact (kid?_eq ((hrows i).trans (if_pos hnew))).trans
            (if_neg fun heq => hp (Option.some.inj heq).symm)
        · exact (kid?_congr (congrArg _ ((hrows i).trans (if_neg hnew)))).trans (hadd.kids i)
  · exact hcalm (.of_rows (fun i => by rw [hrows]) fun b _ hb => (hread b).trans hb)

/-! ## A strand finishes -/

/-- A move that finishes a strand obtains no bridge. -/
theorem issued_of_finishes {r : Outcome V} (h : s.finishes m = some (k, r)) :
    s.issued m = none := by
  obtain ⟨body, step, rfl, -, hcon⟩ := finishes_eq h
  refine issued_end_none fun mode hstep => Or.inr ?_
  subst hstep
  cases hslot : ((s.strand? k).bind (·.bridge)).isSome with
  | true => rfl
  | false =>
    rw [hslot] at hcon
    cases hcon

theorem awaits_of_issued (h : s.issued m = none) : s.awaits p m = none := by
  unfold awaits
  rw [h]
  split
  next heq => cases heq
  next => rfl

theorem settles_of_none (hfin : s.finishes m = none) : s.settles p m = none := by
  rw [settles, hfin]
  rfl

theorem not_last_of_none (hfin : s.finishes m = none) (r : Outcome V) :
    s.finishes m ≠ some (p, r) := by
  rw [hfin]
  exact fun h => by cases h

theorem settles_of_finishes {r : Outcome V} (h : s.finishes m = some (k, r)) :
    s.settles p m = if (s.kid? p k).isSome then some ⟨k, r⟩ else none := by
  rw [settles, h]
  rfl

theorem markFinished_rows (hst : s.strand? k = some st) (ok : Bool) (i : StrandId) :
    (s.markFinished k ok).strand? i = if k = i then some (st.finished ok) else s.strand? i := by
  obtain ⟨counters, journal, channel, heq⟩ := markFinished_eq s k ok
  exact strand?_of_update_some (f := Strand.finished ok) (by rw [heq]) hst i

theorem markFinished_same (s : Scheduler V B) (k : StrandId) (ok : Bool) :
    (s.markFinished k ok).bridges = s.bridges ∧ (s.markFinished k ok).jobs = s.jobs ∧
      (s.markFinished k ok).terminated = s.terminated := by
  obtain ⟨counters, journal, channel, heq⟩ := markFinished_eq s k ok
  rw [heq]
  exact ⟨rfl, rfl, rfl⟩

/-- The child that finishes has ended then, and nothing else changes about the children. -/
theorem markFinished_kid? (hst : s.strand? k = some st) (ok : Bool) (p i : StrandId) :
    (s.markFinished k ok).kid? p i =
      if i = k ∧ st.parent = some p then some true else s.kid? p i := by
  by_cases hi : i = k
  · subst hi
    have hrow := (markFinished_rows hst ok i).trans (if_pos rfl)
    by_cases hp : st.parent = some p
    · rw [if_pos ⟨rfl, hp⟩]
      refine (kid?_eq hrow).trans ((if_pos hp).trans ?_)
      exact congrArg some (Status.finished_terminal ok)
    · rw [if_neg fun h => hp h.2]
      exact ((kid?_eq hrow).trans (if_neg hp)).trans ((kid?_eq hst).trans (if_neg hp)).symm
  · rw [if_neg fun h => hi h.1]
    exact kid?_congr (by rw [markFinished_rows hst, if_neg (Ne.symm hi)])

theorem Calm.markFinished (hst : s.strand? k = some st) (hne : p ≠ k)
    (hparent : st.parent ≠ some p) (ok : Bool) : Calm sealed p s (s.markFinished k ok) := by
  refine ⟨?_, fun i => ?_, fun b _ hb => ?_⟩
  · exact household_congr (by rw [markFinished_rows hst, if_neg (Ne.symm hne)])
  · rw [markFinished_kid? hst, if_neg fun h => hparent h.2]
  · rwa [bridge?, (markFinished_same s k ok).1]

/-- What a parent is told about a child concerns nobody else. -/
theorem Spared.handOver (h : Spared sealed s) (alive : s.terminated = false)
    (hp : st.parent ≠ some p) (harmed : ∀ q qs mode b, st.parent = some q → s.strand? q = some qs →
      qs.children.waiter = some (mode, b) → s.bridge? b = some ⟨q, .pending⟩) (r : Outcome V) :
    Steadfast sealed p s (s.handOver k st r).1 := by
  have g : Guards (fun _ => False) (fun b => ¬ sealed b) (Steadfast sealed p s) := guards_steadfast
  unfold Scheduler.handOver
  split
  · exact g.resolveWith g.cancel h.steadfast (fun hf => hf) r
  split
  next q qs hread =>
    obtain ⟨q', hq', hmap⟩ := Option.bind_eq_some_iff.mp hread
    obtain ⟨qs', hqs, heq⟩ := Option.map_eq_some_iff.mp hmap
    obtain ⟨rfl, rfl⟩ := Prod.mk.inj heq
    have hne : q' ≠ p := by
      rintro rfl
      exact hp hq'
    have hgroup : Steadfast sealed p s
        (s.updateStrand q' fun st => { st with children := (qs'.children.settle k r).1 }) :=
      h.steadfast.step (.children hne fun _ => _) rfl (.of_journal rfl)
    dsimp only
    split
    next fired hfired =>
      have hfires := fires_deliverFired (s := s.updateStrand q' fun st =>
        { st with children := (qs'.children.settle k r).1 }) (q := q') alive fired fun d hd => by
          obtain ⟨mode, hwaiter, -⟩ := settle_delivery (hfired.trans (congrArg _ hd))
          exact harmed q' qs' mode d.bridge hq' hqs hwaiter
      exact ⟨hgroup.spared.of_jobs hfires.jobs,
        Or.inr ((Calm.children hne fun _ => _).trans (hfires.calm (Ne.symm hne)))⟩
    next outcome _ => exact hgroup.report k outcome
  next => exact h.steadfast.report k r

/-- What a parent is told about a child goes into its group, and is delivered if its wait is
    over. -/
structure Informs (p k : StrandId) (r : Outcome V) (s s' : Scheduler V B) : Prop where
  jobs : s'.jobs = s.jobs
  household : s'.household p = (((s.household p).1.settle k r).1, (s.household p).2)
  kids : ∀ i, s'.kid? p i = s.kid? p i
  fired : ∀ d, ((s.household p).1.settle k r).2 = .recorded (some d) →
    s'.bridge? d.bridge = some ⟨p, .holding d.payload⟩
  still : (∀ d, ((s.household p).1.settle k r).2 ≠ .recorded (some d)) →
    ∀ b, s'.bridge? b = s.bridge? b

theorem informs_handOver (alive : s.terminated = false) (hhook : st.hook = none)
    (hp : st.parent = some p) {ps : Strand V B} (hps : s.strand? p = some ps)
    (harmed : ∀ mode b, ps.children.waiter = some (mode, b) → s.bridge? b = some ⟨p, .pending⟩)
    (r : Outcome V) : Informs p k r s (s.handOver k st r).1 := by
  have hgroup : s.household p = (ps.children, ps.status.isTerminal) := household_eq hps
  have hrow := household_children hps fun _ => (ps.children.settle k r).1
  have hkids := kid?_children (s := s) (p := p) (q := p) fun _ => (ps.children.settle k r).1
  unfold Scheduler.handOver
  simp only [hhook, hp, Option.bind_some, hps, Option.map_some]
  cases hset : (ps.children.settle k r).2 with
  | recorded fired =>
    have hfires := fires_deliverFired (s := s.updateStrand p fun st =>
      { st with children := (ps.children.settle k r).1 }) (q := p) alive fired fun d hd => by
        obtain ⟨mode, hwaiter, -⟩ := settle_delivery (hset.trans (congrArg _ hd))
        exact harmed mode d.bridge hwaiter
    refine ⟨hfires.jobs, ?_, fun i => (hfires.kids p i).trans (hkids i), ?_, fun hnot => ?_⟩
    · rw [hgroup] at hrow ⊢
      exact (hfires.household p).trans hrow
    · intro d hd
      rw [hgroup, hset] at hd
      exact hfires.holds d (Settlement.recorded.inj hd)
    · refine hfires.still ?_
      cases fired with
      | none => rfl
      | some d =>
        rw [hgroup] at hnot
        exact absurd hset (hnot d)
  | returned outcome =>
    obtain ⟨journal, channel, heq⟩ := reportUnhandled_eq (s.updateStrand p fun st =>
      { st with children := (ps.children.settle k r).1 }) k outcome
    dsimp only
    rw [heq]
    refine ⟨rfl, ?_, hkids, ?_, fun _ _ => rfl⟩
    · rw [hgroup] at hrow ⊢
      exact hrow
    · intro d hd
      rw [hgroup, hset] at hd
      cases hd

/-- The wait of another strand stays for a bridge that nobody has completed. -/
theorem Armed.markFinished (h : Armed s) (hst : s.strand? k = some st) (ok : Bool) (hne : q ≠ k)
    {qs : Strand V B} {mode : WaitMode} {b : BridgeId}
    (hqs : (s.markFinished k ok).strand? q = some qs)
    (hwaiter : qs.children.waiter = some (mode, b)) :
    (s.markFinished k ok).bridge? b = some ⟨q, .pending⟩ := by
  rw [markFinished_rows hst, if_neg (Ne.symm hne)] at hqs
  rw [bridge?, (markFinished_same s k ok).1]
  exact h q mode b (by rw [household_eq hqs]; exact hwaiter)

/-- A strand that finishes changes the family of its parent, which is told. -/
theorem familyChanged_parent (hspared : Spared sealed s) (hkin : Kin s) (harmed : Armed s)
    (hst : s.strand? k = some st) (hend : st.status.isTerminal = false)
    (alive : s.terminated = false) {r : Outcome V} (hfin : s.finishes m = some (k, r))
    (hp : st.parent = some p) (kept : Option (Outcome V)) :
    FamilyChanged sealed p s m
      ((((s.markFinished k r.isOk).handOver k st r).1.retire k kept).release k) := by
  obtain ⟨hhook, hne, ps, hps⟩ := hkin k st p hst hp
  obtain ⟨hbridges, hjobs, hterm⟩ := markFinished_same s k r.isOk
  have hps₁ : (s.markFinished k r.isOk).strand? p = some ps := by
    rw [markFinished_rows hst, if_neg (Ne.symm hne), hps]
  have hinforms := informs_handOver (hterm.trans alive) hhook hp hps₁
    (fun _ _ => harmed.markFinished hst r.isOk hne hps₁) r (k := k)
  have hhouse : (s.markFinished k r.isOk).household p = s.household p :=
    household_congr (by rw [hps₁, hps])
  generalize ((s.markFinished k r.isOk).handOver k st r).1 = s₂ at hinforms
  obtain ⟨hjobs₂, hhouse₂, hkids₂, hfired, hstill⟩ := hinforms
  rw [hhouse] at hhouse₂ hfired hstill
  have hretire : Calm sealed p s₂ (s₂.retire k kept) := .retire s₂ k kept
  refine ⟨hspared.of_jobs (hjobs₂.trans hjobs),
    Or.inr (.settled hfin hne ?_ (fun i => ?_) ?_ hfired ?_)⟩
  · rw [kid?_eq hst, if_pos hp, hend]
  · refine (hretire.kids i).trans ((hkids₂ i).trans ?_)
    rw [markFinished_kid? hst]
    simp only [hp, and_true]
  · exact hretire.household.trans hhouse₂
  · intro hnot b
    refine (hstill hnot b).trans ?_
    rw [bridge?, hbridges]
    rfl

/-- A strand that finishes changes no other family but its own. -/
theorem familyChanged_others (hspared : Spared sealed s) (hkin : Kin s) (harmed : Armed s)
    (hst : s.strand? k = some st) (alive : s.terminated = false) {r : Outcome V}
    (hfin : s.finishes m = some (k, r)) (hp : st.parent ≠ some p) (kept : Option (Outcome V)) :
    FamilyChanged sealed p s m
      ((((s.markFinished k r.isOk).handOver k st r).1.retire k kept).release k) := by
  obtain ⟨-, hjobs, hterm⟩ := markFinished_same s k r.isOk
  have hsettles : s.settles p m = none := by
    rw [settles_of_finishes hfin, (kid?_eq hst).trans (if_neg hp)]
    rfl
  have hbefore := (hspared.of_jobs hjobs).handOver (hterm.trans alive) hp
    (fun q _ _ _ hq => harmed.markFinished hst r.isOk (hkin k st q hst hq).2.1) r (k := k)
  generalize ((s.markFinished k r.isOk).handOver k st r).1 = s₂ at hbefore
  have hafter : Steadfast sealed p (s.markFinished k r.isOk) ((s₂.retire k kept).release k) :=
    (guards_steadfast.change (.retire _ k kept) hbefore).still rfl rfl rfl rfl
  refine ⟨hafter.spared, hafter.calm.imp_right fun hcalm => ?_⟩
  by_cases hne : p = k
  · subst hne
    refine .ended hfin hsettles (fun i => (hcalm.kids i).trans ?_) ?_
    · rw [markFinished_kid? hst, if_neg fun h => hp h.2]
    · rw [hcalm.household, household_eq ((markFinished_rows hst r.isOk p).trans (if_pos rfl))]
      exact ⟨rfl, Status.finished_terminal _⟩
  · have hmarked : Calm sealed p s (s.markFinished k r.isOk) := .markFinished hst hne hp _
    refine .calm (hmarked.trans hcalm) (fun r' heq => ?_) hsettles
      (awaits_of_issued (issued_of_finishes hfin))
    rw [hfin] at heq
    exact hne (Prod.mk.inj (Option.some.inj heq)).1.symm

/-- **A strand that finishes changes its own family and that of its parent**, and no other. -/
theorem familyChanged_finish (hs : Stable Ok drained s) (ha : s.Allows m)
    (hspared : Spared sealed s) (hkin : Kin s) (harmed : Armed s) {r : Outcome V}
    (hfin : s.finishes m = some (k, r)) :
    FamilyChanged sealed p s m (s.after m) := by
  obtain ⟨st, hst, hrun⟩ := hs.placed.finishes ha hfin
  obtain ⟨mark, hmark⟩ := Status.exists_of_running hrun
  have alive := hs.placed.alive hst hrun
  rw [after_finishes hfin, finish_running hst hmark]
  by_cases hp : st.parent = some p
  · exact familyChanged_parent hspared hkin harmed hst (Status.not_terminal_of_running hrun) alive
      hfin hp _
  · exact familyChanged_others hspared hkin harmed hst alive hfin hp _

/-! ## A strand waits for its children -/

/-- A wait that obtains a bridge is a legal one. -/
theorem issued_await_eq {body : B} {mode : WaitMode} {b : BridgeId}
    (hst : s.strand? k = some st)
    (h : s.issued (.endSegment k body (.await mode)) = some (q, .children, b)) :
    q = k ∧ b = ⟨s.bridges.next⟩ ∧ s.isCancelling = false ∧ st.bridge = none := by
  simp only [issued, hst, Option.bind_some] at h
  split at h
  · cases h
  next hnot =>
    simp only [Option.some.injEq, Prod.mk.injEq, true_and] at h
    simp only [Bool.or_eq_true, not_or, Bool.not_eq_true] at hnot
    exact ⟨h.1.symm, h.2.symm, hnot.1, by simpa using hnot.2⟩

/-- The strand keeps its body and blocks on a new bridge, and then its group is armed with that. -/
theorem after_await (body : B) (mode : WaitMode) (hst : s.strand? k = some st)
    (hs : st.status = .running false) (hslot : st.bridge = none)
    (hcancelling : s.isCancelling = false) :
    ∃ s₁ st₁, Own s s₁ k st st₁ ∧ st₁.ties = st.ties ∧ s₁.jobs = s.jobs ∧
      (∀ b, s₁.bridge? b =
        if (⟨s.bridges.next⟩ : BridgeId) = b then some ⟨k, .pending⟩ else s.bridge? b) ∧
      s.after (.endSegment k body (.await mode)) =
        ((s₁.updateStrand k fun st' =>
          { st' with children := (st.children.arm mode ⟨s.bridges.next⟩).1 }).deliverFired
            (st.children.arm mode ⟨s.bridges.next⟩).2).release k := by
  have hkeep := Own.keepBody hst body
  have hissue := hkeep.trans (.issue hkeep.self)
  have hblock := hissue.trans (.block hissue.self hs)
  refine ⟨_, _, hblock, ?_, ?_, fun b => ?_, ?_⟩
  · rw [Strand.ties, Strand.ties, hs]
    rfl
  · obtain ⟨counters, journal, channel, heq⟩ := block_running hissue.self hs
    rw [heq]
    rfl
  · exact (block_bridge? hissue.self hs b).trans (issueBridge_bridge? (s.keepBody k body) k b)
  · show s.endSegment k body (.await mode) = _
    unfold endSegment follow
    rw [if_neg (by simp [hcancelling]), hst, Option.bind_some, hslot]
    show ((s.keepBody k body).blockOnChildren k mode).release k = _
    unfold blockOnChildren
    dsimp only
    rw [show ((s.keepBody k body).issueBridge k).1.block k = _ from rfl, hblock.self]
    rfl

/-- A strand that waits for its children does not end with that. -/
theorem finishes_await (body : B) (mode : WaitMode) (hst : s.strand? k = some st)
    (hslot : st.bridge = none) (hcancelling : s.isCancelling = false) :
    s.finishes (.endSegment k body (.await mode)) = none := by
  simp only [finishes, hcancelling, hst, Option.bind_some, hslot]
  rfl

theorem Own.ties {st₁ : Strand V B} (h : Own s s₁ k st st₁) (hties : st₁.ties = st.ties)
    (i : StrandId) : (s₁.strand? i).map Strand.ties = (s.strand? i).map Strand.ties := by
  rw [h.rows]
  split
  next hk =>
    rw [← hk, h.row]
    exact congrArg some hties
  next => rfl

/-- A running strand with an empty slot and no mark owns no bridge that nobody has completed. -/
theorem Placed.not_pending (h : Placed s.held s) (hst : s.strand? k = some st)
    (hs : st.status = .running false) (hslot : st.bridge = none) (b : BridgeId) :
    s.bridge? b ≠ some ⟨k, .pending⟩ := by
  intro hpending
  -- Such a bridge is in the slot of its strand.
  obtain ⟨st', hst', hor⟩ := h.pending b k hpending
  rw [← Option.some.inj (hst.symm.trans hst'), hslot, hs] at hor
  rcases hor with hor | hor <;> cases hor

/-- **A wait for children changes the family of the strand that waits**, and no other. -/
theorem familyChanged_await (hs : Stable Ok drained s) (hspared : Spared sealed s) {body : B}
    {mode : WaitMode} {b : BridgeId} (ha : k ∈ s.held)
    (hi : s.issued (.endSegment k body (.await mode)) = some (q, .children, b)) :
    FamilyChanged sealed p s (.endSegment k body (.await mode))
      (s.after (.endSegment k body (.await mode))) := by
  obtain ⟨st, hst, hrun⟩ := (hs.placed.busy_iff k).mp ha
  obtain ⟨rfl, rfl, hcancelling, hslot⟩ := issued_await_eq hst hi
  have hmark := hs.placed.unmarked hst hrun hslot
  have alive := hs.placed.alive hst hrun
  have hfin := finishes_await body mode hst hslot hcancelling
  have hawaits : s.awaits p (.endSegment q body (.await mode)) =
      if q = p then some (mode, ⟨s.bridges.next⟩) else none := by
    unfold awaits
    rw [hi]
  obtain ⟨s₁, st₁, hown, hties, hjobs, hbridges, hafter⟩ :=
    after_await body mode hst hmark hslot hcancelling
  have hrow := hown.ties hties
  have hfires := fires_deliverFired (q := q) (s := s₁.updateStrand q fun st' =>
      { st' with children := (st.children.arm mode ⟨s.bridges.next⟩).1 })
    (hown.terminated.trans alive) (st.children.arm mode ⟨s.bridges.next⟩).2 fun d hd => by
      rw [(arm_delivery hd).1]
      exact (hbridges _).trans (if_pos rfl)
  rw [hafter]
  refine ⟨hspared.of_jobs (hfires.jobs.trans hjobs), Or.inr ?_⟩
  by_cases hp : p = q
  · subst hp
    have hhouse := household_children hown.self fun _ => (st.children.arm mode ⟨s.bridges.next⟩).1
    rw [household_congr (hrow p)] at hhouse
    have hgroup : (s.household p).1 = st.children := by rw [household_eq hst]
    have hend : (s.household p).2 = false := by
      rw [household_eq hst]
      exact Status.not_terminal_of_running hrun
    refine .awaited (hawaits.trans (if_pos rfl)) hfin ha (bridge?_next s)
      (hs.placed.not_pending hst hmark hslot) ?_ hend ?_ ?_ ?_
    · intro i
      exact (hfires.kids p i).trans ((kid?_children _ i).trans (kid?_congr (hrow i)))
    · rw [hgroup, ← hend]
      exact (hfires.household p).trans hhouse
    · rw [hgroup]
      exact hfires.holds
    · rw [hgroup]
      intro hnone
      exact (hfires.still hnone _).trans ((hbridges _).trans (if_pos rfl))
  · have hold : ∀ a x, s.bridge? a = some x → s₁.bridge? a = some x := by
      intro a x hx
      rw [hbridges, if_neg, hx]
      rintro rfl
      rw [bridge?_next] at hx
      cases hx
    have hcalm : Calm sealed p s s₁ := .of_rows hrow fun a _ ha => hold a _ ha
    have hchildren : Calm sealed p s₁ _ := .children (Ne.symm hp) fun _ =>
      (st.children.arm mode ⟨s.bridges.next⟩).1
    have hreleased := (hcalm.trans hchildren).trans (hfires.calm hp)
    exact .calm ⟨hreleased.household, hreleased.kids, hreleased.bridges⟩
      (not_last_of_none hfin) (settles_of_none hfin)
      (hawaits.trans (if_neg (Ne.symm hp)))

/-! ## Every move -/

/-- **Every move that may come changes a family in one of these ways**, unless a shutdown has begun
    to cancel strands. -/
theorem Stable.familyChanged (hs : Stable Ok drained s) (ha : s.Allows m)
    (hspared : Spared sealed s) (hspares : Spares sealed s m) (hkin : Kin s) (harmed : Armed s)
    (p : StrandId) :
    FamilyChanged sealed p s m (s.after m) := by
  by_cases hspawn : ∃ k body, m = .spawnChild k body
  · obtain ⟨k, body, rfl⟩ := hspawn
    exact familyChanged_spawnChild hs hspared ha body
  cases hfin : s.finishes m with
  | some x => exact familyChanged_finish hs ha hspared hkin harmed hfin
  | none =>
    by_cases hawait : ∃ k b, s.issued m = some (k, .children, b)
    · obtain ⟨k, b, hi⟩ := hawait
      obtain ⟨body, mode, rfl⟩ := await_of_issued hi
      exact familyChanged_await hs hspared ha hi
    · have hcalm := hs.steadfast (p := p) ha hspared hspares
        (fun k body h => hspawn ⟨k, body, h⟩) hfin fun k b hi => hawait ⟨k, b, hi⟩
      have hno : s.awaits p m = none := by
        cases hw : s.awaits p m with
        | none => rfl
        | some w => exact absurd ⟨p, w.2, (awaits_iff.mp hw).1⟩ hawait
      exact ⟨hcalm.spared, hcalm.calm.imp_right fun h =>
        .calm h (not_last_of_none hfin) (settles_of_none hfin) hno⟩

end Scheduler
end CoopSched
