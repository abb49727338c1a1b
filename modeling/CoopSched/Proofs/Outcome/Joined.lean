import CoopSched.Proofs.Admission.Causes
import CoopSched.Proofs.Shutdown.Cutters
import CoopSched.Proofs.Shutdown.Immediate
import CoopSched.Script.Scene

/-!
# Joined — what a handle yields

Whoever spawns a strand for himself gets its handle, and only he does. Nobody else receives the
outcome then: the strand has no job and no parent, so whichever way it ends, the outcome goes into
the slot of the strand before the strand is published as complete. It stays there until the handle
is used up (`UsedUp`), and a handle is used up by the first join that is answered.

What the handle yields is therefore what the strand came to: what its body said in the end, or the
mistake with which it ended its last segment (`Concludes`), or the reason of the shutdown that cut
it off. A body that panics says so through the worker that runs it (`Breaks`).
-/

namespace CoopSched

/-! ## Bodies that panic -/

namespace Script.Machine

variable {scene : Scene} {m m' : Machine} {todo : List Deed} {p : Panic}

/-- One of the deeds panics, and the machine has come so far when it does. The deeds before it are
    done and none of them has failed the strand. -/
inductive Breaks (scene : Scene) (p : Panic) (m' : Machine) : Machine → List Deed → Prop
  | now {m : Machine} {must : Bool} {action : Action} {todo : List Deed}
      (hpanic : m.perform scene.strand action = (m', .panicked p)) :
      Breaks scene p m' m (.mk must action :: todo)
  | later {m m₁ : Machine} {must : Bool} {action : Action} {reply : Reply} {todo : List Deed}
      (hdone : m.perform scene.strand action = (m₁, .answered reply))
      (hgoes : must = true → reply.errorName? = none)
      (hrest : Breaks scene p m' (m₁.note (.act scene.strand action.word reply)) todo) :
      Breaks scene p m' m (.mk must action :: todo)

/-- A panic ends the segment, and the strand with it. -/
theorem Breaks.play_eq (h : Breaks scene p m' m todo) :
    m.play scene todo = m'.endScene scene (.done (.err (.ofPanic p))) := by
  induction h with
  | now hpanic => rw [play, hpanic]
  | @later m m₁ must action reply todo hdone hgoes hrest ih =>
    rw [play, hdone, ← ih]
    dsimp only
    cases must with
    | false => cases reply.errorName? <;> rfl
    | true => rw [hgoes rfl]

/-- A segment that a worker begins ends with a panic, and the machine has come so far by then. -/
inductive Panics (p : Panic) (m' : Machine) : Machine → Segment Value Performer → Prop
  | crash {seg : Segment Value Performer} (hpart : seg.body.part = .crash p) : Panics p m' m' seg
  | deed {m : Machine} {seg : Segment Value Performer} {list rest : List Passage}
      {deeds : List Deed} {move : Move} (hpart : seg.body.part = .segments list)
      (hnext : nextPassage list = some (deeds, move, rest))
      (hbreaks : Breaks ⟨seg.strand, seg.wakeup, move, { seg.body with part := .segments rest }⟩ p
        m' (m.note (.wake seg.strand seg.wakeup)) deeds) : Panics p m' m seg

theorem Panics.runSegment_eq {seg : Segment Value Performer} (h : Panics p m' m seg) :
    ∃ rest, m.runSegment seg =
      m'.withSched (m'.sched.endSegment seg.strand rest (.done (.err (.ofPanic p)))) := by
  cases h with
  | crash hpart =>
    refine ⟨{ seg.body with part := .called }, ?_⟩
    rw [runSegment, hpart]
  | @deed _ _ list rest deeds move hpart hnext hbreaks =>
    refine ⟨{ seg.body with part := .segments rest }, ?_⟩
    rw [runSegment, hpart]
    dsimp only
    rw [hnext]
    exact hbreaks.play_eq

end Script.Machine

namespace Scheduler

variable {V B : Type} {s s' : Scheduler V B} {m : Move V B} {ms before rest : List (Move V B)}
  {k : StrandId} {st : Strand V B} {r : Outcome V} {reason : Failure}

/-! ## Handles -/

/-- The strand whose handle a move returns. -/
def handle? (s : Scheduler V B) : Move V B → Option StrandId
  | .spawn body name => (s.spawnExternal body name).2.toOption
  | .spawnDetached _ body => (s.spawnDetached body).2.toOption
  | _ => none

/-- A move returned the handle of the strand. -/
def HandedOut (s : Scheduler V B) (ms : List (Move V B)) (k : StrandId) : Prop :=
  ∃ before m rest, ms = before ++ m :: rest ∧ (s.run before).handle? m = some k

/-- A join was answered. There is no handle any more. -/
def UsedUp (s : Scheduler V B) (ms : List (Move V B)) (k : StrandId) : Prop :=
  ∃ before rest, ms = before ++ .join k :: rest ∧ (s.run before).join k ≠ none

/-- The strand has a bridge outstanding. -/
def HasBridge (s : Scheduler V B) (k : StrandId) : Prop :=
  ∃ st b, s.strand? k = some st ∧ st.bridge = some b

/-- With what a strand finishes whose segment ends so. -/
inductive Concludes (s : Scheduler V B) (k : StrandId) : Step V → Outcome V → Prop
  | done (r : Outcome V) : Concludes s k (.done r) r
  | parked (hgoes : s.isCancelling = false) (hslot : ¬ s.HasBridge k) :
      Concludes s k .park (.err ⟨.failed, "strand parked without a completion bridge"⟩)
  | awaited (mode : WaitMode) (hgoes : s.isCancelling = false) (hslot : s.HasBridge k) :
      Concludes s k (.await mode) (.err ⟨.failed, "strand awaited children while parked"⟩)

theorem hasBridge_iff : s.HasBridge k ↔ ((s.strand? k).bind (·.bridge)).isSome = true := by
  simp [HasBridge, Option.isSome_iff_exists, Option.bind_eq_some_iff]
  grind

theorem finishes_iff_concludes : s.finishes m = some (k, r) ↔
    ∃ body step, m = .endSegment k body step ∧ s.Concludes k step r := by
  constructor
  · intro hfin
    obtain ⟨body, step, rfl, hnot, hcon⟩ := finishes_eq hfin
    refine ⟨body, step, rfl, ?_⟩
    cases step with
    | done r' =>
      obtain rfl := Option.some.inj hcon
      exact .done r'
    | yield => cases hcon
    | park =>
      have hgoes : s.isCancelling = false := by simpa [Step.isDone] using hnot
      simp only [Step.conclusion?] at hcon
      split at hcon
      · cases hcon
      next hslot =>
        obtain rfl := Option.some.inj hcon
        exact .parked hgoes fun h => hslot (hasBridge_iff.mp h)
    | await mode =>
      have hgoes : s.isCancelling = false := by simpa [Step.isDone] using hnot
      simp only [Step.conclusion?] at hcon
      split at hcon
      next hslot =>
        obtain rfl := Option.some.inj hcon
        exact .awaited mode hgoes (hasBridge_iff.mpr hslot)
      · cases hcon
  · rintro ⟨body, step, rfl, hcon⟩
    cases hcon with
    | done => simp [finishes, Step.isDone, Step.conclusion?]
    | parked hgoes hslot =>
      rw [hasBridge_iff] at hslot
      simp [finishes, hgoes, Step.conclusion?, hslot]
    | awaited mode hgoes hslot =>
      rw [hasBridge_iff] at hslot
      simp [finishes, hgoes, Step.conclusion?, hslot]

theorem endedIn_iff_concludes : EndedIn s ms k r ↔ ∃ before body step rest,
    ms = before ++ .endSegment k body step :: rest ∧ (s.run before).Concludes k step r := by
  constructor
  · rintro ⟨before, m, rest, rfl, hfin⟩
    obtain ⟨body, step, rfl, hcon⟩ := finishes_iff_concludes.mp hfin
    exact ⟨before, body, step, rest, rfl, hcon⟩
  · rintro ⟨before, body, step, rest, rfl, hcon⟩
    exact ⟨before, _, rest, rfl, finishes_iff_concludes.mpr ⟨body, step, rfl, hcon⟩⟩

/-! ### A handle is returned once -/

/-- A strand whose handle is returned is new, and nobody but the holder of the handle waits for
    it. -/
theorem handle?_cases (h : s.handle? m = some k) : k = ⟨s.strands.next⟩ ∧
    (s.after m).strands.next = s.strands.next + 1 ∧
    ∃ body name, (s.after m).strand? k = some (Strand.create body name none none) := by
  have hspawn : ∀ r : SpawnRequest B, (s.spawn r).2.toOption = some k →
      k = ⟨s.strands.next⟩ ∧ (s.spawn r).1.strands.next = s.strands.next + 1 ∧
        (s.spawn r).1.strand? k = some (Strand.create r.body r.name r.parent r.hook) := by
    intro r hk
    rcases spawn_cases s r with ⟨-, counters, journal, channel, heq⟩ | ⟨_, _, _, _, _, heq, -⟩
    · rw [heq] at hk ⊢
      obtain rfl := Option.some.inj hk
      exact ⟨rfl, Table.next_add _ _, (Table.get?_add _ _ _).trans (if_pos rfl)⟩
    · rw [heq] at hk
      cases hk
  cases m with
  | spawn body name =>
    obtain ⟨hk, hnext, hrow⟩ := hspawn _ h
    exact ⟨hk, hnext, body, name, hrow⟩
  | spawnDetached id body =>
    obtain ⟨hk, hnext, hrow⟩ := hspawn _ h
    exact ⟨hk, hnext, body, none, hrow⟩
  | _ => cases h

/-- Numbers that were given out are not given out again. -/
theorem Initial.next_run (hs : Initial s) (ha : s.Admissible (before ++ rest)) :
    (s.run before).strands.next ≤ (s.run (before ++ rest)).strands.next := by
  refine hs.observed_run (P := fun t => (s.run before).strands.next ≤ t.strands.next) ha
    (fun hstrands _ _ h => by simpa only [hstrands] using h) (fun hchange h => h.trans ?_)
    (Nat.le_refl _)
  cases hchange with
  | aside habides hrows hnext => omega
  | passes id habides hst hpasses hrows hnext => omega
  | admitted habides hrows hnext => omega
  | refused habides hrows hnext => omega

/-- A strand whose handle was returned before has a number that is used up. -/
theorem Initial.handedOut_lt (hs : Initial s) (ha : s.Admissible ms) (h : HandedOut s ms k) :
    k.number < (s.run ms).strands.next := by
  obtain ⟨before, m, rest, rfl, hk⟩ := h
  obtain ⟨rfl, hnext, -⟩ := handle?_cases hk
  rw [List.append_cons] at ha ⊢
  have hle := hs.next_run ha
  rw [run_snoc, hnext] at hle
  exact hle

/-- **A handle is returned once.** -/
theorem Initial.handle?_new (hs : Initial s) (ha : s.Admissible ms)
    (hk : (s.run ms).handle? m = some k) : ¬ HandedOut s ms k := by
  intro hout
  have hlt := hs.handedOut_lt ha hout
  obtain ⟨rfl, -⟩ := handle?_cases hk
  exact absurd hlt (Nat.lt_irrefl _)

/-- Only the holder of the handle waits for such a strand. -/
theorem Initial.handedOut_orphan (hs : Initial s) (ha : s.Admissible (before ++ rest))
    (hout : HandedOut s (before ++ rest) k) (hst : (s.run before).strand? k = some st) :
    st.hook = none ∧ st.parent = none := by
  obtain ⟨b, m, c, heq, hk⟩ := hout
  obtain ⟨-, -, body, name, hrow⟩ := handle?_cases hk
  rw [← run_snoc] at hrow
  obtain ⟨last, hlast, hhook, hparent⟩ := hs.row_run ha hst
  rw [heq, List.append_cons] at ha hlast
  obtain ⟨last', hlast', hhook', hparent'⟩ := hs.row_run ha hrow
  obtain rfl := Option.some.inj (hlast.symm.trans hlast')
  exact ⟨hhook.symm.trans hhook', hparent.symm.trans hparent'⟩

/-- Such a strand is there, and if it has ended it ended with one of the moves. -/
theorem Initial.handedOut_ends (hs : Initial s) (ha : s.Admissible ms) (hout : HandedOut s ms k)
    (hended : (s.run ms).HasEnded k) :
    ∃ before m rest st st', ms = before ++ m :: rest ∧ (s.run before).strand? k = some st ∧
      st.status.isTerminal = false ∧ (s.run (before ++ [m])).strand? k = some st' ∧
      st'.status.isTerminal = true ∧
      Became (s.run before) m (s.run (before ++ [m])) k st st' := by
  obtain ⟨born, m, later, rfl, hk⟩ := hout
  obtain ⟨-, -, body, name, hrow⟩ := handle?_cases hk
  rw [← run_snoc] at hrow
  rw [List.append_cons] at ha hended ⊢
  obtain ⟨mid, last, tail, st, st', rfl, hrest⟩ := hs.ends_run ha hrow rfl hended
  exact ⟨born ++ [m] ++ mid, last, tail, st, st', by simp, hrest⟩

/-! ## What a join is answered -/

theorem join_eq_none_iff (hst : s.strand? k = some st) : s.join k = none ↔ st.complete = false := by
  cases hcomplete : st.complete with
  | true => simpa using Option.isSome_iff_ne_none.mp (join_isSome hst hcomplete)
  | false => simp [Scheduler.join, Strand.join, hst, hcomplete]

/-- The outcome in the slot is the answer. -/
theorem join_eq_of_outcome (hst : s.strand? k = some st) (hcomplete : st.complete = true)
    (houtcome : st.outcome = some r) : ∃ t, s.join k = some (t, r) := by
  simp [Scheduler.join, Strand.join, Strand.take, hst, hcomplete, houtcome]

/-- Whoever has joined a strand that had ended has used its handle up. -/
theorem Initial.unjoined (hs : Initial s) (ha : s.Admissible (before ++ rest))
    (hended : (s.run before).HasEnded k) (hheld : ¬ UsedUp s (before ++ rest) k) :
    .join k ∉ rest := by
  intro hmem
  obtain ⟨mid, tail, rfl⟩ := List.append_of_mem hmem
  refine hheld ⟨before ++ mid, tail, by simp, ?_⟩
  rw [← List.append_assoc] at ha
  have hmid := (admissible_append.mp ha).1
  obtain ⟨st, hst, hend⟩ := hs.hasEnded_run hmid hended
  rw [ne_eq, join_eq_none_iff hst, ((hs.tidy_run hmid).rows k st hst).complete, hend]
  simp

/-- **An outcome that is kept for the handle stays there** until the handle is used up. -/
theorem Initial.joins_run (hs : Initial s) (ha : s.Admissible (before ++ m :: rest))
    (hst : (s.run (before ++ [m])).strand? k = some st) (hend : st.status.isTerminal = true)
    (houtcome : st.outcome = some r) (hheld : ¬ UsedUp s (before ++ m :: rest) k) :
    ∃ st', (s.run (before ++ m :: rest)).strand? k = some st' ∧ st'.complete = true ∧
      st'.outcome = some r := by
  rw [List.append_cons] at ha hheld ⊢
  obtain ⟨st', hst', hremains⟩ := hs.remains_run ha hst hend
  refine ⟨st', hst', ?_, (hremains.outcome (hs.unjoined ha ⟨st, hst, hend⟩ hheld)).trans houtcome⟩
  rw [((hs.tidy_run ha).rows k st' hst').complete, hremains.status, hend]

/-- A strand that finished with an outcome keeps it for its handle. -/
theorem Initial.finished_kept (hs : Initial s) (ha : s.Admissible ms) (hout : HandedOut s ms k)
    (hr : EndedIn s ms k r) (hheld : ¬ UsedUp s ms k) :
    ∃ st, (s.run ms).strand? k = some st ∧ st.complete = true ∧ st.outcome = some r := by
  obtain ⟨before, m, rest, rfl, hfin⟩ := hr
  have hnext : s.Admissible (before ++ [m]) := by
    rw [List.append_cons] at ha
    exact (admissible_append.mp ha).1
  obtain ⟨st, st', hst, hst', hfinished⟩ := hs.finishedWith hnext hfin
  obtain ⟨hhook, hparent⟩ := hs.handedOut_orphan ha hout hst
  refine hs.joins_run ha hst' (by rw [hfinished.status]; exact Status.finished_terminal _) ?_ hheld
  rcases hfinished.received with ⟨hook, heq, -⟩ | ⟨p, ps, fired, -, heq, -⟩ | ⟨-, houtcome⟩
  · cases heq.symm.trans hhook
  · cases heq.symm.trans hparent
  · exact houtcome

/-! ## Strands that are cut off -/

theorem IsReason.kind (h : s.IsReason reason) : reason.kind = .cancelled := by
  rcases h with rfl | rfl
  · rfl
  · unfold cleanUpReason
    split <;> rfl

/-- A shutdown that cuts strands off goes on for the same reason. -/
theorem Advances.isReason (h : Advances s s') (hstop : s.isStopping = true)
    (hreason : s.IsReason reason) : s'.IsReason reason := by
  rcases h.phase with haccepting | hphase
  · rw [Scheduler.isStopping, haccepting] at hstop
    cases hstop
  · rwa [IsReason, cleanUpReason_congr hphase]

theorem Initial.isStopping_of_isShutDown (hs : Initial s) (ha : s.Admissible ms)
    (hover : (s.run ms).isShutDown = true) : (s.run ms).isStopping = true := by
  rw [isShutDown, Bool.or_eq_true] at hover
  rcases hover with hcancelling | hterm
  · rw [isCancelling, Phase.isCancelling, beq_iff_eq] at hcancelling
    rw [isStopping, hcancelling]
    rfl
  · obtain ⟨n, hsound⟩ := (hs.stable_run ha).sound
    exact hs.gated_run ha (Or.inl (hsound.closed hterm).1)

/-- A strand that was cut off keeps the reason for its handle. -/
theorem Initial.cut_kept (hs : Initial s) (ha : s.Admissible ms) (hout : HandedOut s ms k)
    (hcut : (s.run ms).WasCut k) (hheld : ¬ UsedUp s ms k) :
    ∃ st reason, (s.run ms).strand? k = some st ∧ st.complete = true ∧
      st.outcome = some (.err reason) ∧ (s.run ms).IsReason reason := by
  obtain ⟨before, m, rest, st, st', rfl, hst, hend, hst', hend', hbecame⟩ :=
    hs.handedOut_ends ha hout (hs.wasCut_run ha hcut).2
  rcases hbecame.ends hend hend' with ⟨r, hfin⟩ | ⟨st₁, reason, hlike, hover, hreason, -, rfl⟩
  · exact absurd hcut (hs.uncut_endedIn ha ⟨before, m, rest, rfl, hfin⟩)
  · have hhook := (hs.handedOut_orphan ha hout hst).1
    have houtcome : (st₁.cancelled reason).outcome = some (.err reason) := by
      rw [Strand.cancelled, hlike.hook, hhook]
      rfl
    obtain ⟨final, hfinal, hcomplete, hkept⟩ := hs.joins_run ha hst' hend' houtcome hheld
    have hstop := hs.isStopping_of_isShutDown (admissible_append.mp ha).1 hover
    exact ⟨final, reason, hfinal, hcomplete, hkept,
      (hs.advances_run ha).isReason hstop hreason⟩

/-! ## Handles -/

/-- Whoever has used a handle up has joined a strand that had ended. -/
theorem Initial.hasEnded_of_usedUp (hs : Initial s) (ha : s.Admissible ms) (h : UsedUp s ms k) :
    (s.run ms).HasEnded k := by
  obtain ⟨before, rest, rfl, hjoin⟩ := h
  have hprev := (admissible_append.mp ha).1
  refine hs.hasEnded_run ha ?_
  cases hst : (s.run before).strand? k with
  | none => exact absurd (by rw [Scheduler.join, hst]) hjoin
  | some st =>
    rw [ne_eq, join_eq_none_iff hst, Bool.not_eq_false,
      ((hs.tidy_run hprev).rows k st hst).complete] at hjoin
    exact ⟨st, hst, hjoin⟩

theorem UsedUp.of_snoc (h : UsedUp s (ms ++ [m]) k) (hm : m ≠ .join k) : UsedUp s ms k := by
  obtain ⟨before, rest, heq, hjoin⟩ := h
  rcases List.eq_nil_or_concat rest with rfl | ⟨rest, last, rfl⟩
  · obtain ⟨-, hlast⟩ := List.append_inj' heq rfl
    exact absurd (List.cons.inj hlast).1 hm
  · rw [List.concat_eq_append, ← List.cons_append, ← List.append_assoc] at heq
    exact ⟨before, rest, (List.append_inj' heq rfl).1, hjoin⟩

theorem HandedOut.append (h : HandedOut s before k) (rest : List (Move V B)) :
    HandedOut s (before ++ rest) k := by
  obtain ⟨b, m, c, rfl, hk⟩ := h
  exact ⟨b, m, c ++ rest, by simp, hk⟩

/-- The handle of a strand whose segment is the last yields what the body said. -/
theorem Initial.join_done (hs : Initial s) (ha : s.Admissible ms) (hheld : k ∈ (s.run ms).held)
    (hout : HandedOut s ms k) (body : B) (r : Outcome V) :
    ∃ t, ((s.run ms).endSegment k body (.done r)).join k = some (t, r) := by
  have hnext : s.Admissible (ms ++ [.endSegment k body (.done r)]) :=
    admissible_append.mpr ⟨ha, hheld, trivial⟩
  have hr : EndedIn s (ms ++ [.endSegment k body (.done r)]) k r :=
    ⟨ms, _, [], rfl, finishes_iff_concludes.mpr ⟨body, _, rfl, .done r⟩⟩
  have hunused : ¬ UsedUp s (ms ++ [.endSegment k body (.done r)]) k := by
    -- The strand was in the middle of its segment, so nobody has joined it.
    intro hused
    obtain ⟨st, hst, hrun⟩ := ((hs.stable_run ha).placed.busy_iff k).mp hheld
    have hended := (hs.hasEnded_of_usedUp ha (hused.of_snoc (by simp))).all st hst
    cases (Status.not_terminal_of_running hrun).symm.trans hended
  obtain ⟨st, hst, hcomplete, houtcome⟩ := hs.finished_kept hnext (hout.append _) hr hunused
  rw [run_snoc] at hst
  exact join_eq_of_outcome hst hcomplete houtcome

/-- **What the handle of a strand yields.** -/
structure Yields (s : Scheduler V B) (ms : List (Move V B)) (k : StrandId) : Prop where
  /-- No move has returned it a second time. -/
  once : ∀ before m rest, ms = before ++ m :: rest → (s.run before).handle? m = some k →
    ¬ HandedOut s before k
  /-- The strand is complete just when it has ended, and until then the handle comes back. -/
  pending : ∃ st, (s.run ms).strand? k = some st ∧
    (st.complete = true ↔ (s.run ms).HasEnded k) ∧
    ((s.run ms).join k = none ↔ st.complete = false)
  /-- A strand finishes or it is cancelled, and not both. -/
  ends : (s.run ms).HasEnded k ↔ (∃ r, EndedIn s ms k r) ∨ (s.run ms).WasCut k
  apart : ∀ r, EndedIn s ms k r → ¬ (s.run ms).WasCut k
  /-- With what it finishes is up to its body, unless it makes a mistake. -/
  concludes : ∀ r, EndedIn s ms k r ↔ ∃ before body step rest,
    ms = before ++ .endSegment k body step :: rest ∧ (s.run before).Concludes k step r
  /-- The handle yields that, -/
  finished : ∀ r, EndedIn s ms k r → ¬ UsedUp s ms k → ∃ t, (s.run ms).join k = some (t, r)
  /-- or the reason of the shutdown, -/
  cancelled : (s.run ms).WasCut k → ¬ UsedUp s ms k → ∃ reason t, (s.run ms).IsReason reason ∧
    reason.kind = .cancelled ∧ (s.run ms).join k = some (t, .err reason)
  /-- and never that the outcome is gone. -/
  kept : ¬ UsedUp s ms k → ∀ t r, (s.run ms).join k = some (t, r) →
    ∃ st, (s.run ms).strand? k = some st ∧ st.outcome = some r

theorem Initial.yields (hs : Initial s) (ha : s.Admissible ms) (hout : HandedOut s ms k) :
    Yields s ms k := by
  obtain ⟨st, hst⟩ : ∃ st, (s.run ms).strand? k = some st := by
    have hout' := hout
    obtain ⟨before, m, rest, rfl, hk⟩ := hout'
    obtain ⟨-, -, body, name, hrow⟩ := handle?_cases hk
    rw [← run_snoc] at hrow
    rw [List.append_cons] at ha ⊢
    exact (hs.row_run ha hrow).imp fun _ h => h.1
  have hcomplete : st.complete = true ↔ (s.run ms).HasEnded k := by
    rw [((hs.tidy_run ha).rows k st hst).complete]
    exact ⟨fun hend => ⟨st, hst, hend⟩, fun hended => hended.all st hst⟩
  have hends : (s.run ms).HasEnded k ↔ (∃ r, EndedIn s ms k r) ∨ (s.run ms).WasCut k := by
    constructor
    · intro hended
      by_cases hr : ∃ r, EndedIn s ms k r
      · exact Or.inl hr
      · exact Or.inr (hs.wasCut_of_unfinished ha hended fun r h => hr ⟨r, h⟩)
    · rintro (⟨r, hr⟩ | hcut)
      · exact hs.hasEnded_of_endedIn ha hr
      · exact (hs.wasCut_run ha hcut).2
  refine ⟨fun before m rest heq hk => ?_, ⟨st, hst, hcomplete, join_eq_none_iff hst⟩, hends,
    fun r hr => hs.uncut_endedIn ha hr, fun r => endedIn_iff_concludes, fun r hr hheld => ?_,
    fun hcut hheld => ?_, fun hheld t r hjoin => ?_⟩
  · subst heq
    exact hs.handle?_new (admissible_append.mp ha).1 hk
  · obtain ⟨last, hlast, hdone, houtcome⟩ := hs.finished_kept ha hout hr hheld
    exact join_eq_of_outcome hlast hdone houtcome
  · obtain ⟨last, reason, hlast, hdone, houtcome, hreason⟩ := hs.cut_kept ha hout hcut hheld
    obtain ⟨t, hjoin⟩ := join_eq_of_outcome hlast hdone houtcome
    exact ⟨reason, t, hreason, hreason.kind, hjoin⟩
  · have hdone : st.complete = true := by
      rw [← Bool.not_eq_false, ← join_eq_none_iff hst, hjoin]
      simp
    -- Whichever way the strand ended, there is an outcome, and so that is the answer.
    obtain ⟨r', houtcome⟩ : ∃ r', st.outcome = some r' := by
      rcases hends.mp (hcomplete.mp hdone) with ⟨r', hr⟩ | hcut
      · obtain ⟨last, hlast, -, houtcome⟩ := hs.finished_kept ha hout hr hheld
        obtain rfl := Option.some.inj (hlast.symm.trans hst)
        exact ⟨r', houtcome⟩
      · obtain ⟨last, reason, hlast, -, houtcome, -⟩ := hs.cut_kept ha hout hcut hheld
        obtain rfl := Option.some.inj (hlast.symm.trans hst)
        exact ⟨.err reason, houtcome⟩
    obtain ⟨t', hjoin'⟩ := join_eq_of_outcome hst hdone houtcome
    obtain ⟨-, rfl⟩ := Prod.mk.inj (Option.some.inj (hjoin.symm.trans hjoin'))
    exact ⟨st, hst, houtcome⟩

/-- What the handle of a strand yields whose body panics, in a segment that begins or in one that
    goes on. -/
structure Confesses (s : Scheduler Script.Value Script.Performer)
    (ms : List (Move Script.Value Script.Performer)) (k : StrandId) : Prop where
  segment : ∀ (m m' : Script.Machine) seg p, seg.strand = k → m'.sched = s.run ms →
    Script.Machine.Panics p m' m seg →
    ∃ t, (m.runSegment seg).sched.join k = some (t, .err ⟨.panicked, p.message⟩)
  scene : ∀ (m m' : Script.Machine) scene todo p, scene.strand = k → m'.sched = s.run ms →
    Script.Machine.Breaks scene p m' m todo →
    ∃ t, (m.play scene todo).sched.join k = some (t, .err ⟨.panicked, p.message⟩)

theorem Initial.confesses {s : Scheduler Script.Value Script.Performer}
    {ms : List (Move Script.Value Script.Performer)} (hs : Initial s) (ha : s.Admissible ms)
    (hheld : k ∈ (s.run ms).held) (hout : HandedOut s ms k) : Confesses s ms k where
  segment := by
    rintro m m' seg p rfl hsched hpanics
    obtain ⟨rest, heq⟩ := hpanics.runSegment_eq
    rw [heq, Script.Machine.withSched, hsched]
    exact hs.join_done ha hheld hout rest _
  scene := by
    rintro m m' scene todo p rfl hsched hbreaks
    rw [hbreaks.play_eq, Script.Machine.endScene, Script.Machine.withSched, hsched]
    exact hs.join_done ha hheld hout scene.rest _

/-- **A handle yields the outcome of its strand**, whichever way the strand ended, and a panic as
    one that carries its text. -/
theorem handles_yield (hs : Initial s) (ha : s.Admissible ms) :
    (∀ k, HandedOut s ms k → Yields s ms k) ∧
    ∀ (t : Scheduler Script.Value Script.Performer) (acts : List (Move _ _)) (k : StrandId),
      Initial t → t.Admissible acts → k ∈ (t.run acts).held → HandedOut t acts k →
      Confesses t acts k :=
  ⟨fun _ hout => hs.yields ha hout, fun _ _ _ ht hacts hheld hout => ht.confesses hacts hheld hout⟩

/-- One strand parks without a bridge, and the one behind it is cut off. Each handle yields its own
    failure, and so does that of a body that panics. -/
theorem handles_yield_failures :
    let ms : List (Move Nat Unit) := [.spawn () none, .dispatch, .spawnDetached ⟨1⟩ (),
      .endSegment ⟨1⟩ () .park, .beginShutdown .immediate, .terminate, .drain, .cancel ⟨2⟩]
    let body : Script.Performer := ⟨.crash (.text "boom"), none, none⟩
    let acts : List (Move Script.Value Script.Performer) := [.spawn body none, .dispatch]
    let machine : Script.Machine :=
      { sched := single.run acts, showsEvents := false, quiet := false }
    (Yields single ms ⟨1⟩ ∧ ∃ t, (single.run ms).join ⟨1⟩ =
      some (t, .err ⟨.failed, "strand parked without a completion bridge"⟩)) ∧
    (Yields single ms ⟨2⟩ ∧ ∃ t, (single.run ms).join ⟨2⟩ = some (t, .err shutDownReason)) ∧
    ∃ t, (machine.runSegment ⟨⟨1⟩, .start, body⟩).sched.join ⟨1⟩ =
      some (t, .err ⟨.panicked, "boom"⟩) := by
  intro ms body acts machine
  have ha : single.Admissible ms := by simp [ms, Admissible, Allows]; decide
  have hacts : single.Admissible acts := by simp [acts, Admissible, Allows]
  have hout₁ : HandedOut single ms ⟨1⟩ := ⟨[], .spawn () none, _, rfl, rfl⟩
  have hout₂ : HandedOut single ms ⟨2⟩ :=
    ⟨[.spawn () none, .dispatch], .spawnDetached ⟨1⟩ (), _, rfl, rfl⟩
  have hconfesses := (handles_yield single_initial ha).2 single acts ⟨1⟩ single_initial hacts
    (by decide) ⟨[], .spawn body none, _, rfl, rfl⟩
  refine ⟨⟨(handles_yield single_initial ha).1 _ hout₁, _, rfl⟩,
    ⟨(handles_yield single_initial ha).1 _ hout₂, _, rfl⟩,
    hconfesses.segment machine machine _ (.text "boom") rfl rfl (.crash rfl)⟩

end Scheduler
end CoopSched
