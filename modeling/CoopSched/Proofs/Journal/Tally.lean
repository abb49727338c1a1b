import CoopSched.Proofs.Journal.Lives
import CoopSched.Proofs.Shutdown.Tidy
import Mathlib.Data.Set.Card
import Mathlib.Algebra.BigOperators.Group.Finset.Basic

/-!
# Tallies — the counters, the journal and the strands agree

Each counter says how often the observers were told of its kind of event (`Initial.counted_run`).
What they were told of one strand goes up and down with the stage of its life (`Stage.balance`), and
the sum over all strands is what was told at all (`tally_eq_sum`). So differences of counters are
numbers of strands: of those that are live, and of those that are parked or were cut off as they
were parked (`counters_balanced`).

Who was blocked when a shutdown cut it off is seen in the states before and after that move
(`CutBlocked`). In the middle of a move nobody gets into this state or out of it, for a strand parks
only as long as nothing is cut off, and is resumed only as long as there are workers.
-/

namespace CoopSched

variable {V B : Type}

/-- Does it take a strand off the live ones? -/
def Happening.leaves (a : Happening) : Bool :=
  a.counter? == some .rejected || a.counter? == some .finishedOk ||
    a.counter? == some .finishedErr || a.counter? == some .cancelled

/-- Was the strand cancelled? -/
def Stage.isCancelled : Stage → Bool
  | .cancelled _ => true
  | _ => false

/-! ## One life -/

namespace Stage

variable {stage : Stage} {w : List Happening}

/-- What happenings put up and take down is what a stage has, if each step of the automaton keeps it
    so. -/
theorem balance (up down : Happening → Bool) (has : Stage → Nat) (hstart : has .unborn = 0)
    (hstep : ∀ stage a stage', stage.next? a = some stage' →
      has stage + (up a).toNat = (down a).toNat + has stage')
    (h : after? w = some stage) : w.countP up = w.countP down + has stage := by
  induction w using List.reverseRecOn generalizing stage with
  | nil =>
    obtain rfl := Option.some.inj h
    simp [hstart]
  | append_singleton w a ih =>
    obtain ⟨stage₁, hw, hnext⟩ := after?_snoc h
    have hprev := ih hw
    have hlast := hstep stage₁ a stage hnext
    have hone : ∀ p : Happening → Bool, [a].countP p = (p a).toNat := by
      intro p
      cases hp : p a <;> simp [hp]
    rw [List.countP_append, List.countP_append, hone, hone]
    omega

/-- Who was created was refused, has finished or was cancelled, or is alive. -/
theorem created_balance (h : after? w = some stage) :
    w.countP (·.counter? == some .created) = w.countP Happening.leaves + stage.isAlive.toNat := by
  refine balance _ Happening.leaves (fun stage => stage.isAlive.toNat) rfl ?_ h
  intro stage a stage' hnext
  cases stage <;> cases a <;> cases hnext <;> first | rfl | (next ok => cases ok <;> rfl)

/-- Who parked was resumed, is parked, or was cancelled as it was parked. -/
theorem parked_balance (h : after? w = some stage) :
    w.countP (·.counter? == some .parked) = w.countP (·.counter? == some .resumed) +
      ((stage == .parked).toNat + (stage == .cancelled true).toNat) := by
  refine balance _ _ (fun stage => (stage == .parked).toNat + (stage == .cancelled true).toNat)
    rfl ?_ h
  intro stage a stage' hnext
  cases stage <;> cases a <;> cases hnext <;> first | rfl | (next ok => cases ok <;> rfl)

/-- A strand is cancelled once, or not at all. -/
theorem cancelled_balance (h : after? w = some stage) :
    w.countP (·.counter? == some .cancelled) = stage.isCancelled.toNat := by
  rw [balance _ (fun _ => false) (fun stage => stage.isCancelled.toNat) rfl ?_ h]
  · simp
  · intro stage a stage' hnext
    cases stage <;> cases a <;> cases hnext <;> first | rfl | (next ok => cases ok <;> rfl)

end Stage

/-! ## Numbers of strands -/

/-- A list in which each of the strands stands once is as long as there are such strands. -/
theorem length_eq_ncard {l : List StrandId} {P : StrandId → Prop} (hnodup : l.Nodup)
    (h : ∀ k, k ∈ l ↔ P k) : l.length = {k | P k}.ncard := by
  have hset : {k | P k} = (l.toFinset : Set StrandId) := by
    ext k
    simp [h]
  rw [hset, Set.ncard_coe_finset, List.toFinset_card_of_nodup hnodup]

/-- The strands are counted by their numbers. -/
theorem sum_eq_ncard {n : Nat} {P : StrandId → Prop} {f : Nat → Bool}
    (hbound : ∀ k, P k → k.number < n) (h : ∀ i < n, f i = true ↔ P ⟨i⟩) :
    ∑ i ∈ Finset.range n, (f i).toNat = {k | P k}.ncard := by
  have hset : {k | P k} =
      (((Finset.range n).filter fun i => f i = true).image StrandId.mk : Set StrandId) := by
    ext k
    simp only [Set.mem_ofPred_eq, Finset.coe_image, Finset.coe_filter, Finset.mem_range,
      Set.mem_image]
    constructor
    · intro hk
      exact ⟨k.number, ⟨hbound k hk, (h k.number (hbound k hk)).mpr hk⟩, rfl⟩
    · rintro ⟨i, ⟨hi, hf⟩, rfl⟩
      exact (h i hi).mp hf
  rw [hset, Set.ncard_coe_finset, Finset.card_image_of_injective _ fun i j heq =>
    congrArg StrandId.number heq, Finset.card_filter]
  refine Finset.sum_congr rfl fun i _ => ?_
  cases f i <;> rfl

/-! ## Records -/

/-- Is it an event of such a kind? -/
def Record.tells (p : Happening → Bool) : Record V → Bool
  | .event e => p e.happening
  | .answered .. => false

theorem Record.tells_counter (c : Counter) (rec : Record V) :
    rec.tells (·.counter? == some c) = (rec.counter? == some c) := by
  cases rec <;> rfl

/-- What is told of one strand counts in what was told at all. -/
theorem Record.countP_event {p : Happening → Bool} {n : Nat} {id : StrandId} {a : Happening}
    {recs : List (Record V)} (hreport : a.isReport = false) (hid : id.number < n) :
    ∑ i ∈ Finset.range n,
        ((.event ⟨id, a⟩ :: recs).filterMap (Record.lived? ⟨i⟩)).countP p =
      ∑ i ∈ Finset.range n, (recs.filterMap (Record.lived? ⟨i⟩)).countP p +
        if p a = true then 1 else 0 := by
  have hone : ∀ i, ((Record.event ⟨id, a⟩ :: recs).filterMap (Record.lived? ⟨i⟩)).countP p =
      (recs.filterMap (Record.lived? ⟨i⟩)).countP p +
        if i = id.number then (if p a = true then 1 else 0) else 0 := by
    intro i
    rw [List.filterMap_cons, lived?_event id _ hreport]
    by_cases hi : i = id.number
    · subst hi
      simp [List.countP_cons]
    · have hne : id ≠ ⟨i⟩ := by
        rintro rfl
        exact hi rfl
      simp [hi, hne]
  simp only [hone, Finset.sum_add_distrib, Finset.sum_ite_eq', Finset.mem_range, if_pos hid]

/-- What was told at all is what was told of each strand, taken together. -/
theorem Record.countP_tells {p : Happening → Bool} (hp : ∀ a, p a = true → a.isReport = false)
    {n : Nat} {recs : List (Record V)}
    (h : ∀ k : StrandId, n ≤ k.number → recs.filterMap (Record.lived? k) = []) :
    recs.countP (Record.tells p) =
      ∑ i ∈ Finset.range n, (recs.filterMap (Record.lived? ⟨i⟩)).countP p := by
  induction recs with
  | nil => simp
  | cons rec recs ih =>
    have hrest : ∀ k : StrandId, n ≤ k.number → recs.filterMap (Record.lived? k) = [] :=
      fun k hk => by
        have hall := List.filterMap_eq_nil_iff.mp (h k hk)
        exact List.filterMap_eq_nil_iff.mpr fun a ha => hall a (List.mem_cons_of_mem _ ha)
    rw [List.countP_cons, ih hrest]
    match rec with
    | .answered .. => rfl
    | .event ⟨id, a⟩ =>
      cases hreport : a.isReport with
      | true =>
        -- A report is not counted, and it is in no life.
        have hnot : p a = false := Bool.eq_false_iff.mpr fun hpa => by
          rw [hp a hpa] at hreport
          cases hreport
        have hnone : ∀ k, Record.lived? k (.event (V := V) ⟨id, a⟩) = none := fun k => by
          rw [lived?, about?]
          split
          · rw [Option.filter_some, hreport]
            rfl
          · rfl
        simp only [tells, hnot, List.filterMap_cons, hnone]
        rfl
      | false =>
        have hid : id.number < n := by
          by_contra hle
          have hnone := List.filterMap_eq_nil_iff.mp (h id (not_lt.mp hle)) _ List.mem_cons_self
          rw [lived?_event id id hreport, if_pos rfl] at hnone
          cases hnone
        rw [Record.countP_event hreport hid]
        rfl

namespace Scheduler

variable {Ok : BridgeId → Wakeup V → Prop} {drained : Bool} {s s' : Scheduler V B}
  {m : Move V B} {ms : List (Move V B)} {id k : StrandId} {stage : Stage}

/-! ## The counters -/

/-- How often the observers were told of such a kind of event. -/
def tally (s : Scheduler V B) (p : Happening → Bool) : Nat :=
  s.journal.toList.countP (Record.tells p)

/-- The counters say how often the observers were told. -/
def Counted (s : Scheduler V B) : Prop :=
  ∀ c, s.counters.get c = s.tally (·.counter? == some c)

theorem Writes.counted_of {recs : List (Record V)} (h : Writes s s' recs) (hc : Counted s) :
    Counted s' := by
  intro c
  rw [h.counters, hc c, tally, tally, h.journal, List.countP_append]
  exact congrArg _ (List.countP_congr fun rec _ => by rw [Record.tells_counter])

theorem StatusChange.counted {f : Option StrandId} (h : StatusChange f s s') (hc : Counted s) :
    Counted s' := by
  cases h with
  | aside habides hrows hnext hasides =>
    obtain ⟨recs, hwrites, -⟩ := hasides
    exact hwrites.counted_of hc
  | passes id habides hst hpasses hrows hnext hwrites hleft hright => exact hwrites.counted_of hc
  | admitted habides hrows hnext hwrites => exact hwrites.counted_of hc
  | refused habides hrows hnext hwrites => exact hwrites.counted_of hc

/-- **Each counter is the number of its events**, after every run. -/
theorem Initial.counted_run (hs : Initial s) (ha : s.Admissible ms) : Counted (s.run ms) := by
  refine hs.observed_run (P := Counted) (show s.Admissible ([] ++ ms) from ha) ?_
    StatusChange.counted ?_
  · intro s s' _ hjournal hcounters hc c
    rw [hcounters, tally, hjournal]
    exact hc c
  · intro c
    rw [run_nil, hs.counters, tally, hs.journal]
    cases c <;> rfl

theorem Initial.counter_eq (hs : Initial s) (ha : s.Admissible ms) (c : Counter) :
    (s.run ms).counters.get c = (s.run ms).journal.toList.countP (·.counter? == some c) := by
  rw [hs.counted_run ha, tally]
  exact List.countP_congr fun rec _ => by rw [Record.tells_counter]

/-- What was told of all strands, by their numbers. -/
theorem Initial.tally_eq_sum (hs : Initial s) (ha : s.Admissible ms) {p : Happening → Bool}
    (hp : ∀ a, p a = true → a.isReport = false) :
    (s.run ms).tally p =
      ∑ i ∈ Finset.range (s.run ms).strands.next, ((s.run ms).life ⟨i⟩).countP p := by
  refine Record.countP_tells hp fun k hk => ?_
  obtain ⟨stage, hl⟩ := hs.living_run ha k
  obtain rfl := hl.unborn.mpr (Or.inr hk)
  exact hl.life_nil

/-! ## Stages -/

/-- The stage to which a strand has lived. -/
def stageOf (s : Scheduler V B) (k : StrandId) : Stage := (Stage.after? (s.life k)).getD .unborn

theorem Living.stageOf_eq (h : Living s k stage) : s.stageOf k = stage := by
  rw [stageOf, h.told]
  rfl

theorem Initial.living_stageOf (hs : Initial s) (ha : s.Admissible ms) (k : StrandId) :
    Living (s.run ms) k ((s.run ms).stageOf k) := by
  obtain ⟨stage, hl⟩ := hs.living_run ha k
  rwa [hl.stageOf_eq]

/-- What lives put up and take down, all together. -/
theorem Initial.tally_balance (hs : Initial s) (ha : s.Admissible ms) {up down : Happening → Bool}
    {has : Stage → Nat} (hup : ∀ a, up a = true → a.isReport = false)
    (hdown : ∀ a, down a = true → a.isReport = false)
    (hbalance : ∀ {w stage}, Stage.after? w = some stage →
      w.countP up = w.countP down + has stage) :
    (s.run ms).tally up = (s.run ms).tally down +
      ∑ i ∈ Finset.range (s.run ms).strands.next, has ((s.run ms).stageOf ⟨i⟩) := by
  rw [hs.tally_eq_sum ha hup, hs.tally_eq_sum ha hdown, ← Finset.sum_add_distrib]
  exact Finset.sum_congr rfl fun i _ => hbalance (hs.living_stageOf ha ⟨i⟩).told

/-- The strands at such a stage are counted by their numbers. -/
theorem Initial.sum_stages (hs : Initial s) (ha : s.Admissible ms) {q : Stage → Bool}
    {P : StrandId → Prop} (hunborn : q .unborn = false)
    (h : ∀ k, q ((s.run ms).stageOf k) = true ↔ P k) :
    ∑ i ∈ Finset.range (s.run ms).strands.next, (q ((s.run ms).stageOf ⟨i⟩)).toNat =
      {k | P k}.ncard := by
  refine sum_eq_ncard (fun k hk => ?_) fun i _ => h ⟨i⟩
  by_contra hle
  have heq := (hs.living_stageOf ha k).unborn.mpr (Or.inr (not_lt.mp hle))
  have hat := (h k).mpr hk
  rw [heq, hunborn] at hat
  cases hat

/-! ## Cut off while blocked -/

/-- The strand was blocked before a move of the run, and cancelled when it came out of it. -/
def CutBlocked (s : Scheduler V B) (ms : List (Move V B)) (k : StrandId) : Prop :=
  ∃ before m rest, ms = before ++ m :: rest ∧ (s.run before).status? k = some .blocked ∧
    (s.run (before ++ [m])).status? k = some .doneError

theorem cutBlocked_snoc : CutBlocked s (ms ++ [m]) k ↔ CutBlocked s ms k ∨
    (s.run ms).status? k = some .blocked ∧ (s.run (ms ++ [m])).status? k = some .doneError :=
  exists_split_snoc (P := fun before m => (s.run before).status? k = some .blocked ∧
    (s.run (before ++ [m])).status? k = some .doneError)

/-- As long as there are workers, no move ends a strand that is blocked. -/
theorem Stable.blocked_stays (hs : Stable (fun _ _ => True) drained s) (ha : s.Allows m)
    (alive : s.terminated = false) (hblocked : s.status? k = some .blocked) :
    (s.after m).status? k ≠ some .doneError := by
  obtain ⟨st, hst, hstatus⟩ := status?_eq_some hblocked
  obtain ⟨s₁, hturn, hrows⟩ := (hs.apart ha (respects_all s m)).rows alive
  have hsame : s₁.strand? k = some st := by
    rcases hturn.moved hst with hsame | ⟨st₁, -, hrun | ⟨hready, -⟩ | ⟨gone, -⟩⟩
    · exact hsame
    · rw [hstatus] at hrun
      cases hrun
    · cases hstatus.symm.trans hready
    · cases alive.symm.trans gone
  obtain ⟨st', hst', hlater⟩ := hrows.old k st hsame
  rw [status?_eq hst']
  rcases hlater.status with heq | heq <;> rw [heq, hstatus] <;> simp [Status.wake]

/-- **Who was parked as it was cancelled was blocked before the move that cut it off.** -/
theorem Stable.cut_parked {stage' : Stage} (hs : Stable (fun _ _ => True) drained s)
    (ha : s.Allows m) (hl : Living s k stage) (hl' : Living (s.after m) k stage') :
    stage' = .cancelled true ↔ stage = .cancelled true ∨
      s.status? k = some .blocked ∧ (s.after m).status? k = some .doneError := by
  have hgoes := hs.goes ha hl hl'
  have hfits' := hl'.fits
  rw [← hl.fits.parked_iff]
  constructor
  · intro hcut
    rcases hgoes.cuts hcut with hold | ⟨-, hparked⟩
    · exact Or.inl hold
    · rw [hcut] at hfits'
      refine Or.inr ⟨hparked, ?_⟩
      generalize (s.after m).status? k = status at hfits'
      cases hfits'
      rfl
  · rintro (hcut | ⟨hparked, hend⟩)
    · exact hgoes.cancelled true hcut
    · cases gone : s.terminated with
      | false => exact absurd hend (hs.blocked_stays ha gone (hl.fits.parked_iff.mp hparked))
      | true =>
        refine (hgoes.stuck gone hparked).resolve_left fun hstill => ?_
        cases (hl'.fits.parked_iff.mp hstill).symm.trans hend

theorem Initial.cutBlocked_iff (hs : Initial s) (ha : s.Admissible ms) (k : StrandId) :
    (s.run ms).stageOf k = .cancelled true ↔ CutBlocked s ms k := by
  induction ms using List.reverseRecOn with
  | nil =>
    have hl := hs.living_stageOf ha k
    rw [run_nil] at hl ⊢
    constructor
    · intro heq
      rw [heq] at hl
      have hfits := hl.fits
      rw [status?, strand?, hs.empty.1, get?_empty] at hfits
      cases hfits
    · rintro ⟨before, m, rest, heq, -⟩
      simp at heq
  | append_singleton ms m ih =>
    obtain ⟨hbefore, hm, -⟩ := admissible_append.mp ha
    have hl := hs.living_stageOf hbefore k
    have hl' := hs.living_stageOf ha k
    rw [run_snoc] at hl'
    rw [cutBlocked_snoc, ← ih hbefore, run_snoc]
    exact (hs.stable_run hbefore).cut_parked hm hl hl'

/-! ## The law -/

/-- The figures of a scheduler after a run. -/
structure Balanced (s : Scheduler V B) (ms : List (Move V B)) : Prop where
  /-- Nothing has leaked. -/
  created : (s.run ms).stats.counted.created =
    (s.run ms).stats.counted.rejected + (s.run ms).stats.counted.finishedOk +
      (s.run ms).stats.counted.finishedErr + (s.run ms).stats.counted.cancelled +
      (s.run ms).stats.live
  live : (s.run ms).stats.live =
    {k | ∃ status, (s.run ms).status? k = some status ∧ status.isTerminal = false}.ncard
  running : (s.run ms).stats.running =
    {k | ∃ notified, (s.run ms).status? k = some (.running notified)}.ncard
  /-- Only the clean-up at the end of a shutdown takes ready strands out of the queue. -/
  queued : (∀ m ∈ ms, m.isCleanUp = false) →
    (s.run ms).stats.queued = {k | (s.run ms).status? k = some .runnable}.ncard
  parked : (s.run ms).stats.counted.parked = (s.run ms).stats.counted.resumed +
    ({k | (s.run ms).status? k = some .blocked}.ncard + {k | CutBlocked s ms k}.ncard)
  /-- Each counter is the number of events of its kind. -/
  counted : ∀ c, (s.run ms).stats.counted.get c =
    (s.run ms).journal.toList.countP (·.counter? == some c)

/-- What takes strands off the live ones are four kinds of events. -/
theorem tally_leaves (s : Scheduler V B) :
    s.tally Happening.leaves = s.tally (·.counter? == some .rejected) +
      s.tally (·.counter? == some .finishedOk) + s.tally (·.counter? == some .finishedErr) +
      s.tally (·.counter? == some .cancelled) := by
  unfold tally
  induction s.journal.toList with
  | nil => rfl
  | cons rec recs ih =>
    simp only [List.countP_cons, ih]
    match rec with
    | .answered .. => simp [Record.tells]
    | .event ⟨id, a⟩ =>
      cases a with
      | finished ok =>
          cases ok <;> simp [Record.tells, Happening.leaves, Happening.counter?] <;> omega
      | _ => simp [Record.tells, Happening.leaves, Happening.counter?] <;> omega

/-- What is counted is no report. -/
theorem counts_no_report (c : Counter) (a : Happening) (h : (a.counter? == some c) = true) :
    a.isReport = false := by
  cases a <;> first | rfl | cases h

/-- Live are the strands that have not ended. -/
theorem Initial.live_eq_ncard (hs : Initial s) (ha : s.Admissible ms) :
    (s.run ms).live.length =
      {k | ∃ status, (s.run ms).status? k = some status ∧ status.isTerminal = false}.ncard := by
  have htidy := hs.tidy_run ha
  refine length_eq_ncard htidy.listed.nodup fun k => ?_
  constructor
  · intro hk
    obtain ⟨st, hst, -⟩ := Option.map_eq_some_iff.mp ((htidy.listed.live k).mp hk)
    exact ⟨_, status?_eq hst, (htidy.live_iff hst).mp hk⟩
  · rintro ⟨status, hstatus, hend⟩
    obtain ⟨st, hst, rfl⟩ := status?_eq_some hstatus
    exact (htidy.live_iff hst).mpr hend

/-- Who was created has left, or is live. -/
theorem Initial.created_run (hs : Initial s) (ha : s.Admissible ms) :
    (s.run ms).tally (·.counter? == some .created) =
      (s.run ms).tally Happening.leaves + (s.run ms).live.length := by
  have hbalance := hs.tally_balance ha (counts_no_report .created) (fun a ha => by
    cases a <;> first | rfl | cases ha) Stage.created_balance
  rwa [hs.sum_stages ha (P := fun k => ∃ status, (s.run ms).status? k = some status ∧
    status.isTerminal = false) rfl fun k => (hs.living_stageOf ha k).fits.isAlive_iff,
    ← hs.live_eq_ncard ha] at hbalance

/-- **The counters, the journal and the strands agree**, after every run. -/
theorem counters_balanced (hs : Initial s) (ha : s.Admissible ms) : Balanced s ms := by
  have hstable := hs.stable_run ha
  have hcounted := hs.counted_run ha
  have hfits := fun k => (hs.living_stageOf ha k).fits
  refine
    { created := ?_
      live := hs.live_eq_ncard ha
      running := ?_
      queued := fun hcleanUp => ?_
      parked := ?_
      counted := hs.counter_eq ha }
  · have hbalance := hs.created_run ha
    rw [tally_leaves, ← hcounted, ← hcounted, ← hcounted, ← hcounted, ← hcounted] at hbalance
    exact hbalance
  · show (s.run ms).queue.running = _
    rw [hstable.running]
    refine length_eq_ncard hstable.placed.busy_nodup fun k => ?_
    rw [hstable.placed.busy_iff]
    constructor
    · rintro ⟨st, hst, hrun⟩
      obtain ⟨notified, hstatus⟩ := Status.exists_of_running hrun
      exact ⟨notified, by rw [status?_eq hst, hstatus]⟩
    · rintro ⟨notified, hstatus⟩
      obtain ⟨st, hst, heq⟩ := status?_eq_some hstatus
      exact ⟨st, hst, by rw [heq]; rfl⟩
  · have hqueued := hstable.queued (List.any_eq_false.mpr fun m hm => by simp [hcleanUp m hm])
    refine length_eq_ncard hstable.placed.waiting_nodup fun k => ?_
    constructor
    · intro hk
      obtain ⟨st, hst, hready⟩ := hstable.placed.waiting_runnable k hk
      rw [status?_eq hst, hready]
    · intro hstatus
      obtain ⟨st, hst, hready⟩ := status?_eq_some hstatus
      exact hqueued k st hst hready
  · have hbalance := hs.tally_balance ha (counts_no_report .parked) (counts_no_report .resumed)
      Stage.parked_balance
    have hblocked := hs.sum_stages ha (q := (· == .parked)) rfl fun k =>
      beq_iff_eq.trans (hfits k).parked_iff
    have hcut := hs.sum_stages ha (q := (· == .cancelled true)) rfl fun k =>
      beq_iff_eq.trans (hs.cutBlocked_iff ha k)
    rw [Finset.sum_add_distrib, hblocked, hcut, ← hcounted, ← hcounted] at hbalance
    exact hbalance

/-- A strand is refused, one is cut off in its segment and one while it is blocked; a fourth has
    failed. -/
theorem counters_balanced_cut :
    let cut : List (Move Nat Unit) := [.spawn () none, .dispatch, .park ⟨1⟩,
      .endSegment ⟨1⟩ () .park, .spawn () none, .dispatch,
      .endSegment ⟨2⟩ () (.done (.err ⟨.failed, "boom"⟩)), .spawn () none, .dispatch,
      .beginShutdown .immediate, .spawnDetached ⟨3⟩ (), .endSegment ⟨3⟩ () .yield, .terminate]
    let ms : List (Move Nat Unit) := cut ++ [.cancel ⟨1⟩]
    Balanced single ms ∧ CutBlocked single ms ⟨1⟩ ∧
      (single.run ms).stats.counted =
        { created := 4, rejected := 1, dispatched := 3, parked := 1, finishedErr := 1,
          cancelled := 2, peakLive := 3 } := by
  intro cut ms
  have ha : single.Admissible ms := by simp [ms, cut, Admissible, Allows]; decide
  exact ⟨counters_balanced single_initial ha, ⟨cut, .cancel ⟨1⟩, [], rfl, rfl, rfl⟩, rfl⟩

end Scheduler
end CoopSched
