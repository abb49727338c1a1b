import CoopSched.Proofs.Job.Session
import CoopSched.Proofs.Scheduler.Journal
import CoopSched.Scheduler.Invocation

/-!
# Guards — what is nested keeps a property that every small change keeps

Completions, callbacks, launches and cancellations set each other off. Whatever small changes keep
that end no strand (`UnwatchedUpdate`), completions, callbacks and launches keep, if the
cancellations keep it that they may set off (`Bears`). A property of the scheduler gets through all
of it if every small change keeps it (`UnwatchedChange`), and the induction over the nesting is done
here once for all such properties (`Guards`).

A nested completion comes from the callback of a job. So a property may also speak of bridges that
no callback completes: only the *free* bridges are touched (`Guards.callbacks`).

Some jobs may be *watched*. A property that speaks of a watched job cannot be kept by each small
change to that job, for the slots of the job and the strands launched for it move in turn. Such a
property owes one thing instead: it must be there again when a strand of a watched job was cut off
and everything that sets off is done (`Guards.cut_off`).
-/

namespace CoopSched
namespace Scheduler

variable {V B : Type} {watched : JobId → Prop} {free : BridgeId → Prop}
  {P : Scheduler V B → Prop} {nested : Cancel V B} {s s' : Scheduler V B}

/-- A small change that ends nobody, and that leaves the watched jobs alone. -/
inductive UnwatchedUpdate (watched : JobId → Prop) (free : BridgeId → Prop) :
    Scheduler V B → Scheduler V B → Prop
  | setBridge (s : Scheduler V B) {b : BridgeId} (hb : free b) (x : Bridge V) :
      UnwatchedUpdate watched free s (s.setBridge b x)
  | wake {s : Scheduler V B} (alive : s.terminated = false) (id : StrandId) :
      UnwatchedUpdate watched free s (s.wake id)
  | answered {s : Scheduler V B} {j : JobId} {entry : JobEntry V B} (hj : ¬ watched j)
      (hentry : s.job? j = some entry) (answer : Outcome (List V)) :
      UnwatchedUpdate watched free s { s with journal := s.journal.push (.answered j answer) }
  | job (s : Scheduler V B) {j : JobId} (hj : ¬ watched j) {f : JobEntry V B → JobEntry V B}
      (hf : ∀ e, (f e).callback = e.callback)
      (hslots : ∀ e, s.job? j = some e → e.job.Onward (f e).job) :
      UnwatchedUpdate watched free s (s.updateJob j f)
  | addJob (s : Scheduler V B) (entry : JobEntry V B) (hj : ¬ watched ⟨s.jobs.next⟩)
      (hok : ∀ answer b w, .complete b w ∈ entry.callback answer → free b) :
      UnwatchedUpdate watched free s { s with jobs := s.jobs.add entry }
  | launch (s : Scheduler V B) (body : B) (hook : Hook) (hj : ¬ watched hook.job)
      (hentry : ∃ entry, s.job? hook.job = some entry) :
      UnwatchedUpdate watched free s
        (s.spawn { body := body, admission := .invocation, hook := some hook }).1

/-- A small change that leaves the watched jobs and their strands alone. -/
inductive UnwatchedChange (watched : JobId → Prop) (free : BridgeId → Prop) :
    Scheduler V B → Scheduler V B → Prop
  | setBridge (s : Scheduler V B) {b : BridgeId} (hb : free b) (x : Bridge V) :
      UnwatchedChange watched free s (s.setBridge b x)
  | wake {s : Scheduler V B} (alive : s.terminated = false) (id : StrandId) :
      UnwatchedChange watched free s (s.wake id)
  | answered {s : Scheduler V B} {j : JobId} {entry : JobEntry V B} (hj : ¬ watched j)
      (hentry : s.job? j = some entry) (answer : Outcome (List V)) :
      UnwatchedChange watched free s { s with journal := s.journal.push (.answered j answer) }
  | job (s : Scheduler V B) {j : JobId} (hj : ¬ watched j) {f : JobEntry V B → JobEntry V B}
      (hf : ∀ e, (f e).callback = e.callback) : UnwatchedChange watched free s (s.updateJob j f)
  | addJob (s : Scheduler V B) (entry : JobEntry V B) (hj : ¬ watched ⟨s.jobs.next⟩)
      (hok : ∀ answer b w, .complete b w ∈ entry.callback answer → free b) :
      UnwatchedChange watched free s { s with jobs := s.jobs.add entry }
  | launch (s : Scheduler V B) (body : B) (hook : Hook) (hj : ¬ watched hook.job)
      (hentry : ∃ entry, s.job? hook.job = some entry) :
      UnwatchedChange watched free s
        (s.spawn { body := body, admission := .invocation, hook := some hook }).1
  | cut {s : Scheduler V B} {id : StrandId} {st : Strand V B} (hst : s.strand? id = some st)
      (hend : st.status.isTerminal = false)
      (hhook : ∀ hook, st.hook = some hook → ¬ watched hook.job)
      (hover : s.isShutDown = true) : UnwatchedChange watched free s (s.cut id st.bridge)
  | retire (s : Scheduler V B) (id : StrandId) (kept : Option (Outcome V)) :
      UnwatchedChange watched free s (s.retire id kept)

theorem UnwatchedChange.mono {watched' : JobId → Prop} (h : UnwatchedChange watched free s s')
    (hw : ∀ j, watched' j → watched j) : UnwatchedChange watched' free s s' := by
  cases h with
  | setBridge hb x => exact .setBridge s hb x
  | wake alive id => exact .wake alive id
  | answered hj hentry answer => exact .answered (fun h => hj (hw _ h)) hentry answer
  | job hj hf => exact .job s (fun h => hj (hw _ h)) hf
  | addJob entry hj hok => exact .addJob s entry (fun h => hj (hw _ h)) hok
  | launch body hook hj hentry => exact .launch s body hook (fun h => hj (hw _ h)) hentry
  | cut hst hend hhook hover =>
    exact .cut hst hend (fun hook heq h => hhook hook heq (hw _ h)) hover
  | retire id kept => exact .retire s id kept

theorem UnwatchedUpdate.change (h : UnwatchedUpdate watched free s s') :
    UnwatchedChange watched free s s' := by
  cases h with
  | setBridge hb x => exact .setBridge s hb x
  | wake alive id => exact .wake alive id
  | answered hj hentry answer => exact .answered hj hentry answer
  | job hj hf hslots => exact .job s hj hf
  | addJob entry hj hok => exact .addJob s entry hj hok
  | launch body hook hj hentry => exact .launch s body hook hj hentry

/-- A cancellation that keeps a property, when it comes from a completion that found the workers
    gone. -/
def Absorbs (P : Scheduler V B → Prop) (nested : Cancel V B) : Prop :=
  ∀ s id, P s → s.terminated = true → P (nested s id shutDownReason).1

/-- A cancellation that keeps a property, when it comes from a shutdown. -/
def Keeps (P : Scheduler V B → Prop) (nested : Cancel V B) : Prop :=
  ∀ s id reason, P s → s.isShutDown = true → reason.kind = .cancelled → P (nested s id reason).1

theorem Keeps.absorbs (h : Keeps P nested) : Absorbs P nested := fun s id hp gone =>
  h s id shutDownReason hp (by rw [isShutDown, gone, Bool.or_true]) rfl

/-- A property that is kept by what ends nobody and leaves the watched jobs alone. Callbacks
    complete free bridges only. -/
structure Bears (watched : JobId → Prop) (free : BridgeId → Prop) (P : Scheduler V B → Prop) :
    Prop where
  update : ∀ {s s'}, UnwatchedUpdate watched free s s' → P s → P s'
  callbacks : ∀ {s j entry answer b w}, P s → s.job? j = some entry →
    Effect.complete b w ∈ entry.callback answer → free b

/-- A property that is kept by what leaves the watched jobs alone, and is there again when a strand
    of a watched job was cut off. Callbacks complete free bridges only. -/
structure Guards (watched : JobId → Prop) (free : BridgeId → Prop) (P : Scheduler V B → Prop) :
    Prop where
  change : ∀ {s s'}, UnwatchedChange watched free s s' → P s → P s'
  callbacks : ∀ {s j entry answer b w}, P s → s.job? j = some entry →
    Effect.complete b w ∈ entry.callback answer → free b
  cut_off : ∀ {levels : Nat} {s : Scheduler V B} {id : StrandId} {st : Strand V B}
    {hook : Hook} {reason : Failure}, P s → s.strand? id = some st →
    st.status.isTerminal = false → st.hook = some hook → watched hook.job →
    s.isShutDown = true → reason.kind = .cancelled →
    P ((s.cut id st.bridge).resolveWith (Scheduler.cancelWithin levels) hook (.err reason))

theorem addJob_snd (s : Scheduler V B) (length : Nat) (callback : Callback V)
    (d : Option (Drive V B)) : (s.addJob length callback d).2 = ⟨s.jobs.next⟩ := by
  unfold Scheduler.addJob
  dsimp only
  split <;> rfl

theorem drive_eq (s : Scheduler V B) (inputs : List V) (callable : Nat → V → Except Panic B)
    (concurrency : Concurrency) (callback : Callback V) :
    (s.drive inputs callable concurrency callback).1 =
      (launchInitial ⟨s.jobs.next⟩ (concurrency.initial inputs.length)
        (s.addJob inputs.length callback
          (some ⟨inputs.map some, callable, concurrency.isChained⟩)).1).1 := by
  unfold Scheduler.drive
  dsimp only
  rw [addJob_snd]

namespace Bears

/-! ## Completions and answers -/

theorem wakeWith (c : Bears watched free P) (hn : Absorbs P nested) (h : P s) (id : StrandId) :
    P (s.wakeWith nested id).1 := by
  cases hterm : s.terminated with
  | false =>
    rw [wakeWith_of_alive hterm]
    exact c.update (.wake hterm id) h
  | true =>
    unfold Scheduler.wakeWith
    rw [if_pos hterm]
    exact hn s id h hterm

theorem deliverWith (c : Bears watched free P) (hn : Absorbs P nested) (h : P s) {b : BridgeId}
    (hb : free b) (w : Wakeup V) : P (s.deliverWith nested b w).1 := by
  unfold Scheduler.deliverWith
  split
  · exact h
  next bridge _ =>
    split
    · exact h
    next claimed _ => exact c.wakeWith hn (c.update (.setBridge s hb claimed) h) bridge.strand

theorem performWith (c : Bears watched free P) (hn : Absorbs P nested) (h : P s)
    {effects : List (Effect V)} (hb : ∀ b w, .complete b w ∈ effects → free b) :
    P (s.performWith nested effects) := by
  induction effects generalizing s with
  | nil => exact h
  | cons e rest ih =>
    cases e with
    | panic => exact h
    | complete b w =>
      exact ih (c.deliverWith hn h (hb b w List.mem_cons_self) w) fun b' w' hmem =>
        hb b' w' (List.mem_cons_of_mem _ hmem)

theorem answerWith (c : Bears watched free P) (hn : Absorbs P nested) (h : P s) {j : JobId}
    (hj : ¬ watched j) (answer : Outcome (List V)) : P (s.answerWith nested j answer) := by
  unfold Scheduler.answerWith
  split
  · exact h
  next entry hentry =>
    exact c.performWith hn (c.update (.answered hj hentry answer) h) fun b w =>
      c.callbacks h hentry

theorem submitWith (c : Bears watched free P) (hn : Absorbs P nested) (h : P s) {j : JobId}
    (hj : ¬ watched j) (index : Nat) (r : Outcome V) : P (s.submitWith nested j index r).1 := by
  unfold Scheduler.submitWith
  split
  · exact h
  next entry hentry =>
    split
    · exact h
    next job answer hsubmit =>
      have hjob := c.update (.job s hj (f := fun e => { e with job := job }) (fun _ => rfl)
        fun e he => by
          rw [← Option.some.inj (hentry.symm.trans he)]
          exact (Job.submit_ok hsubmit).1) h
      dsimp only
      split
      · exact hjob
      · exact c.answerWith hn hjob hj _

/-! ## Launches -/

theorem launch (c : Bears watched free P) (h : P s) {j : JobId} {entry : JobEntry V B}
    (hj : ¬ watched j) (hentry : s.job? j = some entry) (drive : Drive V B) (index : Nat) :
    P (s.launch j drive index).1 := by
  unfold Scheduler.launch
  split
  · exact h
  next input hinput =>
    have htaken := c.update (.job s hj (f := fun e =>
      { e with drive := some { drive with inputs := drive.inputs.set index none } })
      (fun _ => rfl) fun _ _ => .of_same rfl rfl) h
    dsimp only
    split
    · exact htaken
    next body hbody =>
      have hread : ∃ entry', (s.updateJob j fun e =>
          { e with drive := some { drive with inputs := drive.inputs.set index none } }).job? j =
            some entry' := ⟨_, by rw [job?_updateJob, if_pos rfl, hentry, Option.map_some]⟩
      have hspawn := c.update (.launch _ body ⟨j, index⟩ hj hread) htaken
      split
      next heq =>
        rw [heq] at hspawn
        exact hspawn
      next heq =>
        rw [heq] at hspawn
        exact hspawn

theorem claimed (c : Bears watched free P) (h : P s) {j : JobId} {entry : JobEntry V B}
    (hj : ¬ watched j) (hentry : s.job? j = some entry) :
    P (s.updateJob j fun e => { e with job := entry.job.claim.1 }) :=
  c.update (.job s hj (fun _ => rfl) fun e he => by
    rw [← Option.some.inj (hentry.symm.trans he)]
    exact .of_same rfl rfl) h

theorem launchNextWith (c : Bears watched free P) (hn : Absorbs P nested) {j : JobId}
    (hj : ¬ watched j) (rounds : Nat) (h : P s) : P (launchNextWith nested j rounds s).1 := by
  -- On the rounds: each of them keeps the property, whatever comes of it.
  induction rounds generalizing s with
  | zero => exact h
  | succ rounds ih =>
    unfold Scheduler.launchNextWith
    split
    · exact h
    next entry hentry =>
    split
    · exact h
    next drive hdrive =>
    have hclaim := c.claimed h hj hentry
    dsimp only
    split
    · exact hclaim
    next index hindex =>
    have hread : (s.updateJob j fun e => { e with job := entry.job.claim.1 }).job? j =
        some { entry with job := entry.job.claim.1 } := by
      rw [job?_updateJob, if_pos rfl, hentry, Option.map_some]
    have hlaunch := c.launch hclaim hj hread drive index
    split
    next heq =>
      rw [heq] at hlaunch
      exact hlaunch
    next heq =>
      rw [heq] at hlaunch
      exact hlaunch
    next s' failure heq =>
      rw [heq] at hlaunch
      have hsubmit := c.submitWith hn hlaunch hj index (.err failure)
      split
      · exact ih hsubmit
      · exact hsubmit

theorem resolveWith (c : Bears watched free P) (hn : Absorbs P nested) (h : P s) {hook : Hook}
    (hj : ¬ watched hook.job) (outcome : Outcome V) :
    P (s.resolveWith nested hook outcome) := by
  have hsubmit := c.submitWith hn h hj hook.index outcome
  unfold Scheduler.resolveWith
  dsimp only
  split
  · split
    · exact c.launchNextWith hn hj _ hsubmit
    · exact hsubmit
  · exact hsubmit

/-! ## What is set off from outside -/

theorem deliver (c : Bears watched free P) (hn : Absorbs P cancel) (h : P s) {b : BridgeId}
    (hb : free b) (w : Wakeup V) : P (s.deliver b w).1 :=
  c.deliverWith hn h hb w

theorem tryComplete (c : Bears watched free P) (hn : Absorbs P cancel) (h : P s) {b : BridgeId}
    (hb : free b) (r : Outcome V) : P (s.tryComplete b r).1 := by
  unfold Scheduler.tryComplete
  split
  · exact h
  · split
    · exact h
    · exact c.deliver hn h hb _

theorem deliverFired (c : Bears watched free P) (hn : Absorbs P cancel) (h : P s)
    {fired : Option (Delivery V)} (hb : ∀ d, fired = some d → free d.bridge) :
    P (s.deliverFired fired) := by
  cases fired with
  | none => exact h
  | some d => exact c.deliver hn h (hb d rfl) d.payload

theorem claim (c : Bears watched free P) (h : P s) {j : JobId} (hj : ¬ watched j) :
    P (s.claim j).1 := by
  unfold Scheduler.claim
  split
  · exact h
  next entry hentry => exact c.claimed h hj hentry

theorem launchInitial (c : Bears watched free P) (hn : Absorbs P cancel) {j : JobId}
    (hj : ¬ watched j) (k : Nat) (h : P s) : P (launchInitial j k s).1 := by
  induction k generalizing s with
  | zero => exact h
  | succ k ih =>
    have hfirst := c.launchNextWith hn hj (s.launchRounds j) h
    unfold Scheduler.launchInitial
    split
    next heq =>
      rw [heq] at hfirst
      exact ih hfirst
    next heq =>
      rw [heq] at hfirst
      exact hfirst

/-! ## New jobs -/

/-- A property that holds when the row of a new job is there still holds when the job has given the
    answer that it may have at once. -/
theorem added (c : Bears watched free P) (hn : Absorbs P cancel)
    (hnew : ¬ watched ⟨s.jobs.next⟩) (length : Nat) {callback : Callback V}
    (d : Option (Drive V B))
    (h : P { s with jobs := s.jobs.add ⟨(Job.start length).1, callback, d⟩ }) :
    P (s.addJob length callback d).1 := by
  unfold Scheduler.addJob
  cases hstart : (Job.start length : Job V × Option (Outcome (List V))) with
  | mk job answer =>
    rw [hstart] at h
    cases answer with
    | none => exact h
    | some answer => exact c.answerWith hn h hnew answer

/-- And when its first strands are launched. -/
theorem driven (c : Bears watched free P) (hn : Absorbs P cancel)
    (hnew : ¬ watched ⟨s.jobs.next⟩) (inputs : List V) (callable : Nat → V → Except Panic B)
    (concurrency : Concurrency) {callback : Callback V}
    (h : P { s with jobs := s.jobs.add ⟨(Job.start inputs.length).1, callback,
      some ⟨inputs.map some, callable, concurrency.isChained⟩⟩ }) :
    P (s.drive inputs callable concurrency callback).1 := by
  rw [drive_eq]
  exact c.launchInitial hn hnew _ (c.added hn hnew inputs.length _ h)

theorem addJob (c : Bears watched free P) (hn : Absorbs P cancel) (h : P s)
    (hnew : ¬ watched ⟨s.jobs.next⟩) (length : Nat) {callback : Callback V}
    (d : Option (Drive V B)) (hok : ∀ answer b w, .complete b w ∈ callback answer → free b) :
    P (s.addJob length callback d).1 :=
  c.added hn hnew length d (c.update (.addJob s _ hnew hok) h)

theorem drive (c : Bears watched free P) (hn : Absorbs P cancel) (h : P s)
    (hnew : ¬ watched ⟨s.jobs.next⟩) (inputs : List V) (callable : Nat → V → Except Panic B)
    (concurrency : Concurrency) {callback : Callback V}
    (hok : ∀ answer b w, .complete b w ∈ callback answer → free b) :
    P (s.drive inputs callable concurrency callback).1 :=
  c.driven hn hnew inputs callable concurrency (c.update (.addJob s _ hnew hok) h)

theorem invoke (c : Bears watched free P) (hn : Absorbs P cancel) (h : P s)
    (hnew : ¬ watched ⟨s.jobs.next⟩) (inputs : List V) (callable : Nat → V → Except Panic B)
    (concurrency : Concurrency) {callback : Callback V}
    (hok : ∀ answer b w, .complete b w ∈ callback answer → free b) :
    P (s.invoke inputs callable concurrency callback).1 := by
  have hdrive := c.drive hn h hnew inputs callable concurrency hok
  unfold Scheduler.invoke
  split
  · exact h
  · split
    next heq =>
      rw [heq] at hdrive
      exact hdrive
    next heq =>
      rw [heq] at hdrive
      exact hdrive

end Bears

namespace Guards

theorem bears (g : Guards watched free P) : Bears watched free P :=
  ⟨fun h => g.change h.change, g.callbacks⟩

theorem performWith (g : Guards watched free P) (hn : Keeps P nested) (h : P s)
    {effects : List (Effect V)} (hb : ∀ b w, .complete b w ∈ effects → free b) :
    P (s.performWith nested effects) :=
  g.bears.performWith hn.absorbs h hb

theorem submitWith (g : Guards watched free P) (hn : Keeps P nested) (h : P s) {j : JobId}
    (hj : ¬ watched j) (index : Nat) (r : Outcome V) : P (s.submitWith nested j index r).1 :=
  g.bears.submitWith hn.absorbs h hj index r

theorem resolveWith (g : Guards watched free P) (hn : Keeps P nested) (h : P s) {hook : Hook}
    (hj : ¬ watched hook.job) (outcome : Outcome V) :
    P (s.resolveWith nested hook outcome) :=
  g.bears.resolveWith hn.absorbs h hj outcome

/-! ## Cancellations -/

theorem cancelWithin (g : Guards watched free P) (levels : Nat) :
    Keeps P (cancelWithin (V := V) (B := B) levels) := by
  -- On the levels: what a cancellation sets off may cancel one level less deep.
  induction levels with
  | zero => exact fun s id reason h _ _ => h
  | succ levels ih =>
    intro s id reason h hover hkind
    show P (cancelStep (Scheduler.cancelWithin levels) s id reason).1
    cases hst : s.strand? id with
    | none =>
      rw [cancelStep_none hst]
      exact h
    | some st =>
      cases hend : st.status.isTerminal with
      | true =>
        rw [cancelStep_terminal hst hend]
        exact h
      | false =>
        rw [cancelStep_cut hst hend]
        cases hhook : st.hook with
        | none =>
          have hcut := g.change (.cut hst hend (by simp [hhook]) hover) h
          exact g.change (.retire _ id _) hcut
        | some hook =>
          by_cases hj : watched hook.job
          · exact g.change (.retire _ id _) (g.cut_off h hst hend hhook hj hover hkind)
          · have hcut := g.change (.cut hst hend (by simpa [hhook] using hj) hover) h
            exact g.change (.retire _ id _) (g.resolveWith ih hcut hj _)

/-- **What every small change keeps, a cancellation keeps, with everything that it sets off.** -/
theorem cancel (g : Guards watched free P) : Keeps P (cancel (V := V) (B := B)) :=
  fun s id reason h => g.cancelWithin s.live.length s id reason h

/-! ## What is set off from outside -/

theorem deliver (g : Guards watched free P) (h : P s) {b : BridgeId} (hb : free b)
    (w : Wakeup V) : P (s.deliver b w).1 :=
  g.bears.deliver g.cancel.absorbs h hb w

theorem tryComplete (g : Guards watched free P) (h : P s) {b : BridgeId} (hb : free b)
    (r : Outcome V) : P (s.tryComplete b r).1 :=
  g.bears.tryComplete g.cancel.absorbs h hb r

theorem deliverFired (g : Guards watched free P) (h : P s) {fired : Option (Delivery V)}
    (hb : ∀ d, fired = some d → free d.bridge) : P (s.deliverFired fired) :=
  g.bears.deliverFired g.cancel.absorbs h hb

theorem claim (g : Guards watched free P) (h : P s) {j : JobId} (hj : ¬ watched j) :
    P (s.claim j).1 :=
  g.bears.claim h hj

theorem addJob (g : Guards watched free P) (h : P s) (hnew : ¬ watched ⟨s.jobs.next⟩)
    (length : Nat) {callback : Callback V} (d : Option (Drive V B))
    (hok : ∀ answer b w, .complete b w ∈ callback answer → free b) :
    P (s.addJob length callback d).1 :=
  g.bears.addJob g.cancel.absorbs h hnew length d hok

theorem drive (g : Guards watched free P) (h : P s) (hnew : ¬ watched ⟨s.jobs.next⟩)
    (inputs : List V) (callable : Nat → V → Except Panic B) (concurrency : Concurrency)
    {callback : Callback V} (hok : ∀ answer b w, .complete b w ∈ callback answer → free b) :
    P (s.drive inputs callable concurrency callback).1 :=
  g.bears.drive g.cancel.absorbs h hnew inputs callable concurrency hok

theorem invoke (g : Guards watched free P) (h : P s) (hnew : ¬ watched ⟨s.jobs.next⟩)
    (inputs : List V) (callable : Nat → V → Except Panic B) (concurrency : Concurrency)
    {callback : Callback V} (hok : ∀ answer b w, .complete b w ∈ callback answer → free b) :
    P (s.invoke inputs callable concurrency callback).1 :=
  g.bears.invoke g.cancel.absorbs h hnew inputs callable concurrency hok

end Guards

end Scheduler
end CoopSched
