import CoopSched.Proofs.Scheduler.Guards
import CoopSched.Proofs.Scheduler.Places

/-!
# Watches — what every move keeps

`UnwatchedChange` has the small changes that are nested; `OwnChange` has those that a move makes by
itself. A property that all of them keep is kept by every move that may come (`Watches.after`), as
long as nobody uses the handle of a watched job. About a watched job it owes what `Guards` asks for,
and the same for a strand of it that finishes (`Watches.finished`).

Which strand a move finishes, and with what, is `finishes`. The rule `Ended` says what is known of
such an outcome.
-/

namespace CoopSched

variable {V B : Type}

/-- As long as the strand has not run, it is ready and has this body. -/
def Strand.StartsWith (st : Strand V B) (body : B) : Prop :=
  st.wakeup = some .start → st.status.isTerminal = false →
    st.status = .runnable ∧ st.bridge = none ∧ st.body = some body

/-- Nothing has changed about a strand that the job it was launched for could tell by. -/
structure Stays (st st' : Strand V B) : Prop where
  hook : st'.hook = st.hook
  parent : st'.parent = st.parent
  ended : st'.status.isTerminal = st.status.isTerminal
  starts : ∀ body, st.StartsWith body → st'.StartsWith body

theorem Stays.refl (st : Strand V B) : Stays st st := ⟨rfl, rfl, rfl, fun _ h => h⟩

/-- What decides how a strand goes on has stayed. -/
theorem Stays.of_face {st st' : Strand V B} (hook : st'.hook = st.hook)
    (parent : st'.parent = st.parent) (status : st'.status = st.status)
    (wakeup : st'.wakeup = st.wakeup) (bridge : st'.bridge = st.bridge)
    (body : st'.body = st.body) : Stays st st' where
  hook := hook
  parent := parent
  ended := by rw [status]
  starts := fun b h hstart hend => by
    rw [status, bridge, body]
    exact h (wakeup ▸ hstart) (status ▸ hend)

theorem Stays.woken (st : Strand V B) : Stays st st.woken where
  hook := rfl
  parent := rfl
  ended := st.woken_terminal
  starts := fun body h hstart hend => by
    rw [st.woken_terminal] at hend
    obtain ⟨hs, hslot, hbody⟩ := h hstart hend
    exact ⟨Strand.woken_ready (Or.inr hs), hslot, hbody⟩

/-- A strand that runs has run, so it may change as long as it does not end. -/
theorem Stays.of_running {st st' : Strand V B} (hrun : st.status.isRunning = true)
    (hook : st'.hook = st.hook) (parent : st'.parent = st.parent)
    (hend : st'.status.isTerminal = false)
    (wakeup : st'.wakeup = st.wakeup ∨ st'.wakeup ≠ some .start) : Stays st st' where
  hook := hook
  parent := parent
  ended := hend.trans (Status.not_terminal_of_running hrun).symm
  starts := fun body h hstart _ => by
    have hsame := wakeup.resolve_right fun hne => hne hstart
    obtain ⟨hs, -⟩ := h (hsame ▸ hstart) (Status.not_terminal_of_running hrun)
    exact absurd hs (Status.not_ready_of_running hrun)

/-- A ready strand begins its segment, through its bridge or as what was left for it. -/
theorem Stays.begun {st : Strand V B} {resumed : Bool} (hs : st.status = .runnable)
    (hslot : resumed = true → st.bridge ≠ none) : Stays st (st.begun resumed) where
  hook := rfl
  parent := rfl
  ended := by
    rw [hs]
    rfl
  starts := fun body h hstart _ => by
    cases resumed with
    | false => cases hstart
    | true =>
      obtain ⟨-, hnone, -⟩ := h hstart (by rw [hs]; rfl)
      exact absurd hnone (hslot rfl)

/-- What a body asks for that finishes its strand, and with what. To park without a bridge, or to
    wait for children while one is outstanding, is a mistake. -/
def Step.conclusion? (step : Step V) (isParked : Bool) : Option (Outcome V) :=
  match step with
  | .done outcome => some outcome
  | .yield => none
  | .park =>
      if isParked then none
      else some (.err ⟨.failed, "strand parked without a completion bridge"⟩)
  | .await _ =>
      if isParked then some (.err ⟨.failed, "strand awaited children while parked"⟩) else none

namespace Scheduler

variable {watched : JobId → Prop} {Ended : StrandId → Outcome V → Prop}
  {P : Scheduler V B → Prop} {Ok : BridgeId → Wakeup V → Prop} {drained : Bool}
  {s s' : Scheduler V B} {m : Move V B}

/-- The strand that a move finishes, and with what. -/
def finishes (s : Scheduler V B) : Move V B → Option (StrandId × Outcome V)
  | .endSegment id _ step =>
      if s.isCancelling && !step.isDone then none
      else (step.conclusion? ((s.strand? id).bind (·.bridge)).isSome).map (id, ·)
  | _ => none

/-- Does a move use the handle of a job? -/
def Move.Handles (m : Move V B) (j : JobId) : Prop :=
  match m with
  | .submit j' _ _ | .claim j' => j' = j
  | _ => False

/-- Does a move ask for a new job? -/
def Move.Founds (m : Move V B) : Prop :=
  match m with
  | .invoke _ _ _ _ | .createJob _ _ | .invokeParked _ _ _ _ => True
  | _ => False

/-- A change that a move makes by itself, and that leaves the watched jobs and their strands
    alone. -/
inductive OwnChange (watched : JobId → Prop) : Scheduler V B → Scheduler V B → Prop
  | still {s s' : Scheduler V B} (hstrands : s'.strands = s.strands) (hjobs : s'.jobs = s.jobs)
      (hhushed : Hushed s s') (hover : s.isShutDown = true → s'.isShutDown = true)
      (hshut : s.IsShut → s'.IsShut) : OwnChange watched s s'
  | row {s s' : Scheduler V B} {id : StrandId} {st : Strand V B} {f : Strand V B → Strand V B}
      (hst : s.strand? id = some st) (hstrands : s'.strands = s.strands.update id.number f)
      (hstays : Stays st (f st)) (hjobs : s'.jobs = s.jobs) (hhushed : Hushed s s')
      (hover : s'.isShutDown = s.isShutDown) (hshut : s.IsShut → s'.IsShut) : OwnChange watched s s'
  | spawn (s : Scheduler V B) (r : SpawnRequest B) (hhook : r.hook = none)
      (hparent : ∀ p, r.parent = some p → ∃ st, s.strand? p = some st) :
      OwnChange watched s (s.spawn r).1
  | finish {s : Scheduler V B} {id : StrandId} {st : Strand V B} (hst : s.strand? id = some st)
      (hrun : st.status.isRunning = true) (hhook : ∀ hook, st.hook = some hook → ¬ watched hook.job)
      (ok : Bool) : OwnChange watched s (s.markFinished id ok)

theorem OwnChange.mono {watched' : JobId → Prop} (h : OwnChange watched s s')
    (hw : ∀ j, watched' j → watched j) : OwnChange watched' s s' := by
  cases h with
  | still hstrands hjobs hhushed hover hshut => exact .still hstrands hjobs hhushed hover hshut
  | row hst hstrands hstays hjobs hhushed hover hshut =>
    exact .row hst hstrands hstays hjobs hhushed hover hshut
  | spawn r hhook hparent => exact .spawn s r hhook hparent
  | finish hst hrun hhook ok =>
    exact .finish hst hrun (fun hook heq h => hhook hook heq (hw _ h)) ok

/-- A property that moves keep. -/
structure Watches (watched : JobId → Prop) (Ended : StrandId → Outcome V → Prop)
    (P : Scheduler V B → Prop) : Prop extends Guards watched (fun _ => True) P where
  own : ∀ {s s'}, OwnChange watched s s' → P s → P s'
  finished : ∀ {s : Scheduler V B} {id : StrandId} {st : Strand V B} {hook : Hook}
    {outcome : Outcome V}, P s → s.strand? id = some st → st.status.isRunning = true →
    st.hook = some hook → watched hook.job → Ended id outcome →
    P ((s.markFinished id outcome.isOk).resolveWith Scheduler.cancel hook outcome)

theorem takeWakeup_journal (s : Scheduler V B) (id : StrandId) (st : Strand V B) :
    (s.takeWakeup id st).1.journal = s.journal := by
  unfold takeWakeup
  split <;> rfl

/-- A worker that takes a strand writes down no milestone, since the strand has a body. -/
theorem hushed_beginSegment {id : StrandId}
    (hbody : ∀ st, s.strand? id = some st → st.status = .runnable → st.body.isSome = true) :
    Hushed s (s.beginSegment id).1 := by
  unfold beginSegment
  split
  · exact .of_journal rfl
  next st status hbind =>
    obtain ⟨st', hst, hmap⟩ := Option.bind_eq_some_iff.mp hbind
    obtain ⟨status', hdispatch, heq⟩ := Option.map_eq_some_iff.mp hmap
    obtain ⟨rfl, rfl⟩ := Prod.mk.inj heq
    have hs : st'.status = .runnable := by
      cases hs : st'.status <;> rw [hs] at hdispatch <;> first | rfl | cases hdispatch
    dsimp only
    split
    next hnone =>
      have hsome := hbody st' hst hs
      rw [hnone] at hsome
      cases hsome
    next body _ =>
      exact .push (takeWakeup_journal _ id st')
        (show Record.isIdle (.event ⟨id, .dispatched⟩) = true from rfl)

theorem hushed_dispatch {busy : List StrandId} (h : Placed busy s) : Hushed s s.dispatch.1 := by
  cases hcan : s.canDispatch with
  | false =>
    rw [dispatch_idle hcan]
    exact .of_journal rfl
  | true =>
    cases hq : s.queue.waiting with
    | nil =>
      rw [canDispatch, hq] at hcan
      simp at hcan
    | cons id rest =>
      rw [dispatch_front hcan hq]
      exact hushed_beginSegment (s := { s with
        queue := { s.queue with waiting := rest, running := s.queue.running + 1 } })
        fun st hst hs => h.body id st hst (Or.inl hs)

namespace Watches

/-! ## Parts of moves -/

theorem updateRunning (w : Watches watched Ended P) (h : P s) {id : StrandId} {st : Strand V B}
    (hst : s.strand? id = some st) (hrun : st.status.isRunning = true)
    {f : Strand V B → Strand V B} (hook : (f st).hook = st.hook)
    (parent : (f st).parent = st.parent) (hend : (f st).status.isTerminal = false)
    (wakeup : (f st).wakeup = st.wakeup ∨ (f st).wakeup ≠ some .start)
    (hstrands : s'.strands = s.strands.update id.number f) (hjobs : s'.jobs = s.jobs)
    (hhushed : Hushed s s') (hover : s'.isShutDown = s.isShutDown)
    (hshut : s.IsShut → s'.IsShut) : P s' :=
  w.own (.row hst hstrands (.of_running hrun hook parent hend wakeup) hjobs hhushed hover hshut) h

theorem issue (w : Watches watched Ended P) (h : P s) {id : StrandId} {st : Strand V B}
    (hst : s.strand? id = some st) (hrun : st.status.isRunning = true) :
    P (s.issueBridge id).1 :=
  w.updateRunning h hst hrun (f := fun st => { st with bridge := some ⟨s.bridges.next⟩ }) rfl rfl
    (Status.not_terminal_of_running hrun) (Or.inl rfl) rfl rfl (.of_journal rfl) rfl fun h => h

theorem keepBody (w : Watches watched Ended P) (h : P s) {id : StrandId} {st : Strand V B}
    (hst : s.strand? id = some st) (hrun : st.status.isRunning = true) (body : B) :
    P (s.keepBody id body) :=
  w.updateRunning h hst hrun (f := fun st => { st with body := some body }) rfl rfl
    (Status.not_terminal_of_running hrun) (Or.inl rfl) rfl rfl (.of_journal rfl) rfl fun h => h

theorem block (w : Watches watched Ended P) (h : P s) {id : StrandId} {st : Strand V B}
    (hst : s.strand? id = some st) (hrun : st.status.isRunning = true) : P (s.block id) := by
  obtain ⟨mark, hs⟩ := Status.exists_of_running hrun
  obtain ⟨counters, journal, channel, heq⟩ := block_running hst hs
  refine w.updateRunning h hst hrun (f := Strand.parked mark) rfl rfl ?_ (Or.inl rfl)
    (by rw [heq]) (by rw [heq]) (hushed_block s id) (by rw [heq]; rfl)
    (fun hshut => hshut.of_queue (by rw [heq]; cases mark <;> rfl)
      (by rw [heq]; cases mark <;> rfl))
  cases mark <;> rfl

theorem requeue (w : Watches watched Ended P) (h : P s) {id : StrandId} {st : Strand V B}
    (hst : s.strand? id = some st) (hrun : st.status.isRunning = true) : P (s.requeue id) := by
  obtain ⟨mark, hs⟩ := Status.exists_of_running hrun
  rw [requeue_running hst hs]
  exact w.updateRunning h hst hrun (f := Strand.requeued) rfl rfl rfl
    (Or.inr (by simp [Strand.requeued])) rfl rfl (.of_journal rfl) rfl fun h => h

theorem children (w : Watches watched Ended P) (h : P s) (id : StrandId)
    (f : Strand V B → Group V) :
    P (s.updateStrand id fun st => { st with children := f st }) := by
  cases hst : s.strand? id with
  | none =>
    have hsame : s.updateStrand id (fun st => { st with children := f st }) = s := by
      unfold updateStrand
      rw [Table.update_eq_self fun st hget => absurd (hst.symm.trans hget) (by simp)]
    rw [hsame]
    exact h
  | some st =>
    exact w.own
      (.row hst rfl (.of_face rfl rfl rfl rfl rfl rfl) rfl (.of_journal rfl) rfl fun h => h) h

theorem report (w : Watches watched Ended P) (h : P s) (id : StrandId) (outcome : Outcome V) :
    P (s.reportUnhandled id outcome) := by
  obtain ⟨journal, channel, heq⟩ := s.reportUnhandled_eq id outcome
  exact w.own (.still (by rw [heq]) (by rw [heq]) (hushed_reportUnhandled s id outcome)
    (fun hover => by rw [heq]; exact hover) (fun hshut => by rw [heq]; exact hshut)) h

theorem finish (w : Watches watched Ended P) (h : P s) {id : StrandId} {st : Strand V B}
    (hst : s.strand? id = some st) (hrun : st.status.isRunning = true) {outcome : Outcome V}
    (hend : Ended id outcome) : P (s.finish id outcome) := by
  obtain ⟨mark, hs⟩ := Status.exists_of_running hrun
  rw [finish_running hst hs]
  refine w.change (.retire _ id _) ?_
  unfold handOver
  cases hhook : st.hook with
  | some hook =>
    by_cases hj : watched hook.job
    · exact w.finished h hst hrun hhook hj hend
    · have hfinish := w.own (.finish hst hrun (by simpa [hhook] using hj) outcome.isOk) h
      exact w.resolveWith w.cancel hfinish hj outcome
  | none =>
    have hfinish := w.own (.finish hst hrun (by simp [hhook]) outcome.isOk) h
    dsimp only
    split
    next parent ps hp =>
      have hsettled := w.children hfinish parent fun _ => (ps.children.settle id outcome).1
      split
      next fired hfired => exact w.deliverFired hsettled fun _ _ => trivial
      · exact w.report hsettled id _
    · exact w.report hfinish id outcome

theorem blockOnChildren (w : Watches watched Ended P) (h : P s) {id : StrandId} {st : Strand V B}
    (hst : s.strand? id = some st) (hrun : st.status.isRunning = true) (mode : WaitMode) :
    P (s.blockOnChildren id mode) := by
  have hissue := w.issue h hst hrun
  have hrow := (issueBridge_strand? hst id).trans (if_pos rfl)
  have hblock := w.block hissue hrow hrun
  unfold Scheduler.blockOnChildren
  dsimp only
  split
  · exact hblock
  next st' hst' => exact w.deliverFired (w.children hblock id fun _ => _) fun _ _ => trivial

theorem follow (w : Watches watched Ended P) (h : P s) {id : StrandId} {st : Strand V B}
    (hst : s.strand? id = some st) (hrun : st.status.isRunning = true) (body : B) {step : Step V}
    (hend : ∀ outcome,
      step.conclusion? ((s.strand? id).bind (·.bridge)).isSome = some outcome → Ended id outcome) :
    P (s.follow id body step) := by
  have hkeep := w.keepBody h hst hrun body
  have hrow := (keepBody_strand? hst body id).trans (if_pos rfl)
  unfold Scheduler.follow
  rw [hst, Option.bind_some] at hend ⊢
  cases hslot : st.bridge.isSome <;> rw [hslot] at hend <;> cases step with
  | done outcome => exact w.finish h hst hrun (hend _ rfl)
  | yield =>
    first
      | exact w.requeue hkeep hrow hrun
      | exact w.block hkeep hrow hrun
  | park =>
    first
      | exact w.finish h hst hrun (hend _ rfl)
      | exact w.block hkeep hrow hrun
  | await mode =>
    first
      | exact w.finish h hst hrun (hend _ rfl)
      | exact w.blockOnChildren hkeep hrow hrun mode

/-! ## Moves -/

theorem park (w : Watches watched Ended P) (h : P s) (id : StrandId) : P (s.park id).1 := by
  rcases park_cases s id with ⟨e, heq⟩ | ⟨st, hst, hrun, hslot, heq⟩
  · rw [heq]
    exact h
  · rw [heq]
    exact w.issue h hst hrun

theorem invokeParked (w : Watches watched Ended P) (h : P s) (hnew : ¬ watched ⟨s.jobs.next⟩)
    (id : StrandId) (inputs : List V) (callable : Nat → V → Except Panic B)
    (concurrency : Concurrency) : P (s.invokeParked id inputs callable concurrency).1 := by
  rcases invokeParked_cases s id inputs callable concurrency with
    ⟨-, heq⟩ | ⟨st, hst, hrun, hslot, hpark, heq⟩
  · rw [heq]
    exact h
  · rw [heq]
    exact w.drive (w.issue h hst hrun) hnew inputs callable concurrency fun _ _ _ _ => trivial

theorem spawn (w : Watches watched Ended P) (h : P s) (r : SpawnRequest B) (hhook : r.hook = none)
    (hparent : ∀ p, r.parent = some p → ∃ st, s.strand? p = some st) : P (s.spawn r).1 :=
  w.own (.spawn s r hhook hparent) h

theorem spawnChild (w : Watches watched Ended P) (h : P s) {parent : StrandId} {st : Strand V B}
    (hst : s.strand? parent = some st) (body : B) : P (s.spawnChild parent body).1 := by
  have hadd := w.children h parent fun st => st.children.add
  have hspawn := w.spawn hadd { body := body, admission := .internal, parent := some parent } rfl
    fun p hp => ⟨{ st with children := st.children.add }, by
      rw [← Option.some.inj hp, strand?_updateStrand_self, hst, Option.map_some]⟩
  unfold Scheduler.spawnChild
  dsimp only
  split
  next heq =>
    rw [heq] at hspawn
    exact hspawn
  next heq =>
    rw [heq] at hspawn
    exact w.children hspawn parent fun st => st.children.remove

theorem dispatch (w : Watches watched Ended P) (h : P s) {busy : List StrandId}
    (hp : Placed busy s) : P s.dispatch.1 := by
  have hhushed := hushed_dispatch hp
  have hd := hp.dispatched
  -- The states are made variables, for the cases to name.
  generalize s.dispatch.1 = s' at hd hhushed
  generalize s.dispatch.2 = seg at hd
  cases hd with
  | idle _ => exact h
  | plain counters journal channel _ _ hst hs hslot hbody =>
    exact w.own (.row hst rfl (.begun hs fun heq => by cases heq) rfl hhushed rfl id) h
  | resumed counters journal channel _ _ hst hs hslot hb hbody =>
    exact w.own (.row hst rfl (.begun hs fun _ => by rw [hslot]; simp) rfl hhushed rfl id) h

theorem release (w : Watches watched Ended P) (h : P s) (id : StrandId) : P (s.release id) :=
  w.own (s := s) (.still rfl rfl (.of_journal rfl) (fun h => h) fun h => h) h

theorem endSegment (w : Watches watched Ended P) (h : P s) {id : StrandId} {st : Strand V B}
    (hst : s.strand? id = some st) (hrun : st.status.isRunning = true) (body : B) {step : Step V}
    (hend : ∀ k r, s.finishes (.endSegment id body step) = some (k, r) → Ended k r) :
    P (s.endSegment id body step) := by
  unfold Scheduler.endSegment
  split
  next hcut =>
    rw [Bool.and_eq_true] at hcut
    refine w.release (w.cancel s id shutDownReason h ?_ rfl) id
    rw [isShutDown, hcut.1, Bool.true_or]
  next hnot =>
    refine w.release (w.follow h hst hrun body fun outcome hcon => hend id outcome ?_) id
    simp only [finishes, if_neg hnot, hcon, Option.map_some]

theorem expireTimer (w : Watches watched Ended P) (h : P s) (t : TimerId) :
    P (s.expireTimer t) := by
  unfold Scheduler.expireTimer
  split
  · exact h
  next timer ht =>
    have hexpired : P { s with timers := s.timers.update t.number fun _ => timer.expire.1 } :=
      w.own (s := s) (.still rfl rfl (.of_journal rfl) (fun h => h) fun h => h) h
    dsimp only
    split
    · exact hexpired
    · exact w.tryComplete hexpired trivial _

theorem join (w : Watches watched Ended P) (h : P s) (id : StrandId) :
    P (((s.join id).map (·.1)).getD s) := by
  rcases join_cases s id with heq | ⟨outcome, heq⟩
  · rw [heq]
    exact h
  · rw [heq]
    cases hst : s.strand? id with
    | none =>
      have hsame : s.updateStrand id (fun st => { st with outcome := outcome }) = s := by
        unfold updateStrand
        rw [Table.update_eq_self fun st hget => absurd (hst.symm.trans hget) (by simp)]
      rw [hsame]
      exact h
    | some st =>
      exact w.own
        (.row hst rfl (.of_face rfl rfl rfl rfl rfl rfl) rfl (.of_journal rfl) rfl fun h => h) h

theorem beginShutdown (w : Watches watched Ended P) (h : P s) (mode : ShutdownMode) :
    P ((s.beginShutdown mode).getD s) := by
  unfold Scheduler.beginShutdown
  cases hp : s.phase.enter? mode.phase with
  | none => exact h
  | some phase =>
    refine w.own (s := s) (.still rfl rfl (.of_journal rfl) (fun hover => ?_) fun hshut => ?_) h
    · -- A shutdown begins only while the scheduler is accepting, so it was not cancelling before.
      have haccepting : s.isCancelling = false := by
        unfold isCancelling
        cases hphase : s.phase <;> rw [hphase] at hp <;> first | rfl | cases hp
      rw [isShutDown, haccepting, Bool.false_or] at hover
      show (phase.isCancelling || s.terminated) = true
      rw [hover, Bool.or_true]
    · simp only [IsShut, Option.map_some, Option.getD_some]
      split
      · exact Or.inl rfl
      · exact hshut

/-- **Every move keeps what is watched**, unless it uses the handle of a watched job. -/
theorem after (w : Watches watched Ended P) (h : P s) (hs : Stable Ok drained s)
    (ha : s.Allows m) (hm : ∀ j, m.Handles j → ¬ watched j)
    (hnew : m.Founds → ¬ watched ⟨s.jobs.next⟩)
    (hend : ∀ id r, s.finishes m = some (id, r) → Ended id r) : P (s.after m) := by
  have still : ∀ {s' : Scheduler V B}, s'.strands = s.strands → s'.jobs = s.jobs →
      s'.journal = s.journal → s'.phase = s.phase →
      (s.terminated = true → s'.terminated = true) → (s.IsShut → s'.IsShut) → P s' := by
    intro s' hstrands hjobs hjournal hphase hterm hshut
    refine w.own (.still hstrands hjobs (.of_journal hjournal) (fun hover => ?_) hshut) h
    rw [isShutDown, isCancelling, Bool.or_eq_true] at hover ⊢
    rw [hphase]
    exact hover.imp id hterm
  cases m with
  | spawn body name => exact w.spawn h _ rfl fun _ hp => by cases hp
  | park id => exact w.park h id
  | complete b r => exact w.deliver h trivial _
  | tryComplete b r => exact w.tryComplete h trivial r
  | deliver b payload => exact w.deliver h trivial payload
  | invoke inputs callable concurrency callback =>
    exact w.invoke h (hnew trivial) inputs callable concurrency fun _ _ _ _ => trivial
  | createJob length callback => exact w.addJob h (hnew trivial) length none fun _ _ _ _ => trivial
  | submit j index r => exact w.submitWith w.cancel h (hm j rfl) index r
  | claim j => exact w.claim h (hm j rfl)
  | armTimer b d now =>
    obtain ⟨timers, heq⟩ := after_armTimer s b d now
    rw [heq]
    exact still rfl rfl rfl rfl id id
  | disarmTimer t => exact still rfl rfl rfl rfl id id
  | detachTimer t => exact still rfl rfl rfl rfl id id
  | pollTimer t =>
    obtain ⟨timers, heq⟩ := after_pollTimer s t
    rw [heq]
    exact still rfl rfl rfl rfl id id
  | expireTimer t => exact w.expireTimer h t
  | join id => exact w.join h id
  | drainChannel =>
    show P ((s.drainChannel.map (·.1)).getD s)
    unfold Scheduler.drainChannel
    cases s.channel with
    | none => exact h
    | some c => exact still rfl rfl rfl rfl id id
  | spawnDetached id body => exact w.spawn h _ rfl fun _ hp => by cases hp
  | spawnChild id body =>
    obtain ⟨st, hst, -⟩ := (hs.placed.busy_iff id).mp ha
    exact w.spawnChild h hst body
  | invokeParked id inputs callable concurrency =>
    exact w.invokeParked h (hnew trivial) id inputs callable concurrency
  | dispatch => exact w.dispatch h hs.placed
  | endSegment id body step =>
    obtain ⟨st, hst, hrun⟩ := (hs.placed.busy_iff id).mp ha
    exact w.endSegment h hst hrun body hend
  | beginShutdown mode => exact w.beginShutdown h mode
  | closeQueue => exact still rfl rfl rfl rfl id fun _ => Or.inl rfl
  | terminate => exact still rfl rfl rfl rfl (fun _ => rfl) id
  | drain => exact still rfl rfl rfl rfl id id
  | cancel id =>
    refine w.cancel s id s.cleanUpReason h ?_ ?_
    · rw [isShutDown, ha.1, Bool.or_true]
    · unfold cleanUpReason
      split <;> rfl

/-- What every move keeps is kept by a run. -/
theorem run (w : Watches (fun _ => False) (fun _ _ => True) P) (hs : Initial s)
    {before rest : List (Move V B)} (ha : s.Admissible (before ++ rest)) (h : P (s.run before)) :
    P (s.run (before ++ rest)) := by
  induction rest using List.reverseRecOn with
  | nil => rwa [List.append_nil]
  | append_singleton rest m ih =>
    rw [← List.append_assoc] at ha ⊢
    obtain ⟨hprev, hm, -⟩ := admissible_append.mp ha
    rw [run_append]
    exact w.after (ih hprev) (hs.stable_run hprev) hm (fun _ _ hf => hf) (fun _ hf => hf)
      fun _ _ _ => trivial

theorem run_initial (w : Watches (fun _ => False) (fun _ _ => True) P) (hs : Initial s)
    {ms : List (Move V B)} (ha : s.Admissible ms) (h : P s) : P (s.run ms) := by
  rw [← List.nil_append ms] at ha ⊢
  exact w.run hs ha h

end Watches

end Scheduler
end CoopSched
