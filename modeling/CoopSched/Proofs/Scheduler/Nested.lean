import CoopSched.Proofs.Scheduler.Frame
import CoopSched.Scheduler.Segment

/-!
# What is nested is a sequence of changes

A completion, the callback of a job, a launch and a cancellation are nothing but `Changes`, for
every cancellation that they may set off, as long as that cancellation is nothing else itself
(`Cancels`). The bounded cancellations are, by induction on the bound: one level takes a strand away
and leaves a bound that is smaller by one to what it sets off (`cancels_cancelWithin`).
-/

namespace CoopSched
namespace Scheduler

variable {V B : Type} {Ok : BridgeId → Wakeup V → Prop} {n : Nat} {nested : Cancel V B}
  {s : Scheduler V B}

/-- A cancellation that ends its strand and then only makes further changes, when at most `n`
    strands are unfinished. -/
def Cancels (Ok : BridgeId → Wakeup V → Prop) (n : Nat) (nested : Cancel V B) : Prop :=
  ∀ s id reason, Sound Ok n s → s.terminated = true →
    Changes Ok (s.strike id) (nested s id reason).1

/-! ## Completions and answers -/

theorem changes_deliverWith (hn : Cancels Ok n nested) (h : Sound Ok n s) {b : BridgeId}
    {w : Wakeup V} (hok : Ok b w) : Changes Ok s (s.deliverWith nested b w).1 := by
  unfold deliverWith
  cases hb : s.bridge? b with
  | none => exact .refl
  | some bridge =>
    dsimp only
    cases hc : bridge.claim? w with
    | none => exact .refl
    | some claimed =>
      dsimp only
      cases hterm : s.terminated with
      | false =>
        rw [wakeWith_of_alive (s := s.setBridge b claimed) hterm]
        exact .single (.deliver hterm hb hc hok)
      | true =>
        have hcancel : ((s.setBridge b claimed).wakeWith nested bridge.strand).1 =
            (nested (s.setBridge b claimed) bridge.strand shutDownReason).1 := by
          unfold wakeWith
          rw [if_pos (show (s.setBridge b claimed).terminated = true from hterm)]
        rw [hcancel]
        exact .head (.strike hterm hb hc hok) (hn _ _ _ (h.setBridge b claimed) hterm)

theorem changes_performWith (hn : Cancels Ok n nested) (h : Sound Ok n s)
    {effects : List (Effect V)} (hok : ∀ b w, .complete b w ∈ effects → Ok b w) :
    Changes Ok s (s.performWith nested effects) := by
  induction effects generalizing s with
  | nil => exact .refl
  | cons e rest ih =>
    cases e with
    | panic => exact .refl
    | complete b w =>
      have hfirst := changes_deliverWith hn h (hok b w List.mem_cons_self)
      have hrest := ih (h.changes hfirst) fun b w hmem => hok b w (List.mem_cons_of_mem _ hmem)
      exact hfirst.trans hrest

theorem changes_answerWith (hn : Cancels Ok n nested) (h : Sound Ok n s) (j : JobId)
    (answer : Outcome (List V)) : Changes Ok s (s.answerWith nested j answer) := by
  unfold answerWith
  cases hj : s.job? j with
  | none => exact .refl
  | some entry =>
    have hchange : Change Ok s _ := .answered s j answer
    exact .head hchange (changes_performWith hn (h.change hchange) (h.callbacks j entry hj answer))

theorem changes_submitWith (hn : Cancels Ok n nested) (h : Sound Ok n s) (j : JobId) (index : Nat)
    (r : Outcome V) : Changes Ok s (s.submitWith nested j index r).1 := by
  unfold submitWith
  cases hj : s.job? j with
  | none => exact .refl
  | some entry =>
    dsimp only
    cases hsubmit : entry.job.submit index r with
    | error e => exact .refl
    | ok p =>
      obtain ⟨job, answer⟩ := p
      have hchange : Change Ok s (s.updateJob j fun e => { e with job := job }) :=
        .job s j _ fun _ => rfl
      cases answer with
      | none => exact .single hchange
      | some answer => exact .head hchange (changes_answerWith hn (h.change hchange) j answer)

/-! ## Launches -/

theorem changes_launch (s : Scheduler V B) (j : JobId) (drive : Drive V B) (index : Nat) :
    Changes Ok s (s.launch j drive index).1 := by
  unfold launch
  split
  · exact .refl
  next input hinput =>
    have hchange : Change Ok s (s.updateJob j fun e =>
        { e with drive := some { drive with inputs := drive.inputs.set index none } }) :=
      .job s j _ fun _ => rfl
    dsimp only
    split
    · exact .single hchange
    next body hbody =>
      have hspawn : Change Ok _ _ := .spawn (s.updateJob j fun e =>
        { e with drive := some { drive with inputs := drive.inputs.set index none } })
        { body := body, admission := .invocation, hook := some ⟨j, index⟩ }
      split
      next heq =>
        rw [heq] at hspawn
        exact .head hchange (.single hspawn)
      next heq =>
        rw [heq] at hspawn
        exact .head hchange (.single hspawn)

theorem changes_launchNextWith (hn : Cancels Ok n nested) (j : JobId) (rounds : Nat)
    (h : Sound Ok n s) : Changes Ok s (launchNextWith nested j rounds s).1 := by
  -- On the rounds. The state is sound again after each launch, so the next round starts from it.
  induction rounds generalizing s with
  | zero => exact .refl
  | succ rounds ih =>
    unfold launchNextWith
    split
    · exact .refl
    next entry hj =>
    split
    · exact .refl
    next drive hdrive =>
    have hclaim : Change Ok s (s.updateJob j fun e => { e with job := entry.job.claim.1 }) :=
      .job s j _ fun _ => rfl
    dsimp only
    split
    · exact .single hclaim
    next index hindex =>
    have hlaunch : Changes Ok _ _ := changes_launch
      (s.updateJob j fun e => { e with job := entry.job.claim.1 }) j drive index
    have hsound := (h.change hclaim).changes hlaunch
    split
    next heq =>
      rw [heq] at hlaunch
      exact .head hclaim hlaunch
    next heq =>
      rw [heq] at hlaunch
      exact .head hclaim hlaunch
    next s' failure heq =>
      rw [heq] at hlaunch hsound
      -- An index that could not be launched is resolved, and the next one may be tried.
      have hsubmit := changes_submitWith hn hsound j index (.err failure)
      have hfirst := Relation.ReflTransGen.head hclaim (hlaunch.trans hsubmit)
      split
      · exact hfirst.trans (ih (hsound.changes hsubmit))
      · exact hfirst

theorem changes_resolveWith (hn : Cancels Ok n nested) (h : Sound Ok n s) (hook : Hook)
    (outcome : Outcome V) : Changes Ok s (s.resolveWith nested hook outcome) := by
  have hsubmit := changes_submitWith hn h hook.job hook.index outcome
  unfold resolveWith
  dsimp only
  split
  · split
    · exact hsubmit.trans (changes_launchNextWith hn _ _ (h.changes hsubmit))
    · exact hsubmit
  · exact hsubmit

/-! ## Cancellations -/

theorem cancels_cancelStep (hn : Cancels Ok n nested) :
    Cancels Ok (n + 1) (cancelStep nested) := by
  intro s id reason h gone
  unfold strike
  cases hst : s.strand? id with
  | none =>
    rw [cancelStep_none hst]
  | some st =>
    dsimp only
    cases hend : st.status.isTerminal with
    | true =>
      rw [cancelStep_terminal hst hend]
      exact .refl
    | false =>
      rw [cancelStep_cut hst hend, if_neg (by simp)]
      -- The strand is unfinished no more: what it sets off may cancel one strand less.
      have hcut := h.cut_pred hst hend
      have hended : (s.cut id st.bridge).HasEnded id := by
        obtain ⟨counters, journal, channel, heq⟩ := cut_eq hst
        refine ⟨st.cut, ?_, rfl⟩
        rw [heq]
        exact (strand?_updateStrand_self s id Strand.cut).trans (by rw [hst]; rfl)
      have hgone : (s.cut id st.bridge).terminated = true :=
        (Steady.cut hst).terminated.trans gone
      cases hhook : st.hook with
      | none => exact .single (.retire _ hgone hended.all)
      | some hook =>
        have hres := changes_resolveWith hn hcut hook (.err reason)
        exact hres.tail (.retire _ (hres.steady.terminated.trans hgone) (hres.hasEnded hended).all)

theorem cancels_cancelWithin (n : Nat) : Cancels Ok n (cancelWithin (V := V) (B := B) n) := by
  -- On the depth: every level is used up by a strand that ends.
  induction n with
  | zero =>
    intro s id reason h gone
    -- Nothing is unfinished, so there is nobody to strike.
    have hnobody : s.strike id = s := by
      unfold strike
      split
      · rfl
      next st hst =>
        split
        · rfl
        next hend =>
          have hmem : id.number ∈ s.unfinished :=
            mem_unfinished.mpr ⟨st, hst, by simpa using hend⟩
          have hcard := (h.closed gone).2
          rw [Nat.le_zero, Finset.card_eq_zero] at hcard
          rw [hcard] at hmem
          exact absurd hmem (Finset.notMem_empty _)
    rw [hnobody]
    exact .refl
  | succ n ih => exact cancels_cancelStep ih

/-- As many strands as are live can be unfinished. -/
theorem Sound.live (h : Sound Ok n s) : Sound Ok s.live.length s := by
  refine { h with closed := fun gone => ⟨(h.closed gone).1, ?_⟩ }
  have hsub : s.unfinished ⊆ (s.live.map StrandId.number).toFinset := by
    intro m hm
    obtain ⟨st, hst, hend⟩ := mem_unfinished.mp hm
    exact List.mem_toFinset.mpr (List.mem_map.mpr ⟨⟨m⟩, h.listed ⟨m⟩ st hst hend, rfl⟩)
  calc s.unfinished.card ≤ (s.live.map StrandId.number).toFinset.card := Finset.card_le_card hsub
    _ ≤ (s.live.map StrandId.number).length := List.toFinset_card_le _
    _ = s.live.length := List.length_map _

/-- A cancellation may nest as deep as there are live strands, and that is deep enough. -/
theorem cancels_cancel : Cancels Ok n (cancel (V := V) (B := B)) :=
  fun s id reason h gone => cancels_cancelWithin s.live.length s id reason h.live gone

/-- To cancel a strand that has not ended is to cut it off, and then to retire it when everything
    that sets off is done. -/
theorem cancel_running (h : Sound Ok n s) {id : StrandId} {st : Strand V B}
    (hst : s.strand? id = some st) (hend : st.status.isTerminal = false) (reason : Failure) :
    ∃ s' kept, Changes Ok (s.cut id st.bridge) s' ∧
      s.cancel id reason = (s'.retire id kept, true) := by
  have hlive := h.live
  have hmem := h.listed id st hst hend
  unfold cancel
  cases hl : s.live.length with
  | zero =>
    rw [List.length_eq_zero_iff.mp hl] at hmem
    cases hmem
  | succ k =>
    rw [hl] at hlive
    have hcut := hlive.cut_pred hst hend
    show ∃ s' kept, _ ∧ cancelStep (cancelWithin k) s id reason = _
    rw [cancelStep_cut hst hend]
    cases hhook : st.hook with
    | none => exact ⟨_, _, .refl, rfl⟩
    | some hook =>
      exact ⟨_, _, changes_resolveWith (cancels_cancelWithin k) hcut hook (.err reason), rfl⟩

theorem cancel_terminal {id : StrandId} (h : s.HasEnded id) (reason : Failure) :
    s.cancel id reason = (s, false) := by
  obtain ⟨st, hst, hend⟩ := h
  unfold cancel
  cases s.live.length with
  | zero => rfl
  | succ k => exact cancelStep_terminal hst hend reason

theorem cancel_none {id : StrandId} (h : s.strand? id = none) (reason : Failure) :
    s.cancel id reason = (s, false) := by
  unfold cancel
  cases s.live.length with
  | zero => rfl
  | succ k => exact cancelStep_none h reason

/-- A cancellation that comes when the workers are gone leaves the queue as it is. -/
theorem cancel_queue (h : Sound Ok n s) (gone : s.terminated = true) (id : StrandId)
    (reason : Failure) : (s.cancel id reason).1.queue = s.queue := by
  cases hst : s.strand? id with
  | none => rw [cancel_none hst]
  | some st =>
    cases hend : st.status.isTerminal with
    | true => rw [cancel_terminal ⟨st, hst, hend⟩]
    | false =>
      obtain ⟨s', kept, hd, heq⟩ := cancel_running h hst hend reason
      obtain ⟨counters, journal, channel, hcut⟩ := cut_eq hst
      have hqueue : (s.cut id st.bridge).queue = s.queue := by rw [hcut]
      have hgone : (s.cut id st.bridge).terminated = true :=
        (Steady.cut hst).terminated.trans gone
      rw [heq]
      show s'.queue = s.queue
      rw [hd.waiting ((h.cut hst).closed hgone).1 hgone, hqueue]

/-! ## What is set off from outside

From here on the cancellation that is nested is `cancel`, and the bound can be any. -/

theorem changes_deliver (h : Sound Ok n s) {b : BridgeId} {w : Wakeup V} (hok : Ok b w) :
    Changes Ok s (s.deliver b w).1 :=
  changes_deliverWith cancels_cancel h hok

theorem changes_tryComplete (h : Sound Ok n s) {b : BridgeId} {r : Outcome V}
    (hok : Ok b (.completed r)) : Changes Ok s (s.tryComplete b r).1 := by
  unfold tryComplete
  split
  · exact .refl
  · split
    · exact .refl
    · exact changes_deliver h hok

theorem changes_deliverFired (h : Sound Ok n s) {fired : Option (Delivery V)}
    (hok : ∀ d, fired = some d → Ok d.bridge d.payload) : Changes Ok s (s.deliverFired fired) := by
  cases fired with
  | none => exact .refl
  | some d => exact changes_deliver h (hok d rfl)

theorem changes_addJob (h : Sound Ok n s) (length : Nat) (callback : Callback V)
    (d : Option (Drive V B)) (hok : ∀ answer b w, .complete b w ∈ callback answer → Ok b w) :
    Changes Ok s (s.addJob length callback d).1 := by
  unfold addJob
  cases hstart : (Job.start length : Job V × Option (Outcome (List V))) with
  | mk job answer =>
    have hchange : Change Ok s _ := .addJob s { job := job, callback := callback, drive := d } hok
    cases answer with
    | none => exact .single hchange
    | some answer =>
      exact .head hchange (changes_answerWith cancels_cancel (h.change hchange) _ answer)

theorem changes_launchInitial (j : JobId) (k : Nat) (h : Sound Ok n s) :
    Changes Ok s (launchInitial j k s).1 := by
  induction k generalizing s with
  | zero => exact .refl
  | succ k ih =>
    have hfirst := changes_launchNextWith cancels_cancel j (s.launchRounds j) h
    have hsound := h.changes hfirst
    unfold launchInitial
    split
    next heq =>
      rw [heq] at hfirst hsound
      exact hfirst.trans (ih hsound)
    next heq =>
      rw [heq] at hfirst
      exact hfirst

theorem changes_drive (h : Sound Ok n s) (inputs : List V) (callable : Nat → V → Except Panic B)
    (concurrency : Concurrency) (callback : Callback V)
    (hok : ∀ answer b w, .complete b w ∈ callback answer → Ok b w) :
    Changes Ok s (s.drive inputs callable concurrency callback).1 := by
  have hadd := changes_addJob h inputs.length callback
    (some ⟨inputs.map some, callable, concurrency.isChained⟩) hok
  exact hadd.trans (changes_launchInitial _ _ (h.changes hadd))

theorem changes_invoke (h : Sound Ok n s) (inputs : List V) (callable : Nat → V → Except Panic B)
    (concurrency : Concurrency) (callback : Callback V)
    (hok : ∀ answer b w, .complete b w ∈ callback answer → Ok b w) :
    Changes Ok s (s.invoke inputs callable concurrency callback).1 := by
  have hdrive := changes_drive h inputs callable concurrency callback hok
  unfold invoke
  split
  · exact .refl
  · split
    next heq =>
      rw [heq] at hdrive
      exact hdrive
    next heq =>
      rw [heq] at hdrive
      exact hdrive

theorem changes_claim (s : Scheduler V B) (j : JobId) : Changes Ok s (s.claim j).1 := by
  unfold claim
  split
  · exact .refl
  next entry hj =>
    exact .single (.job s j (fun e => { e with job := entry.job.claim.1 }) fun _ => rfl)

theorem changes_spawnChild (s : Scheduler V B) (parent : StrandId) (body : B) :
    Changes Ok s (s.spawnChild parent body).1 := by
  have hadd : Change Ok s _ := .children s parent Group.add fun _ => Or.inl rfl
  have hspawn : Change Ok _ _ := .spawn (s.updateStrand parent fun st =>
    { st with children := st.children.add })
    { body := body, admission := .internal, parent := some parent }
  unfold spawnChild
  dsimp only
  split
  next heq =>
    rw [heq] at hspawn
    exact .head hadd (.single hspawn)
  next heq =>
    rw [heq] at hspawn
    exact .head hadd (.head hspawn (.single (.children _ parent Group.remove fun _ => Or.inl rfl)))

/-! ## What a group fires -/

theorem fire_waiter (g : Group V) : g.fire.1.waiter = g.waiter ∨ g.fire.1.waiter = none := by
  unfold Group.fire
  split
  · exact Or.inl rfl
  · split
    · exact Or.inr rfl
    · exact Or.inl rfl

theorem fire_delivery {g : Group V} {d : Delivery V} (h : g.fire.2 = some d) :
    ∃ mode, g.waiter = some (mode, d.bridge) ∧ ∃ outcome, d.payload = .children outcome := by
  unfold Group.fire at h
  split at h
  · cases h
  next mode bridge hw =>
    split at h
    · obtain rfl := Option.some.inj h
      exact ⟨mode, hw, _, rfl⟩
    · cases h

theorem settle_waiter (g : Group V) (id : StrandId) (outcome : Outcome V) :
    (g.settle id outcome).1.waiter = g.waiter ∨ (g.settle id outcome).1.waiter = none := by
  unfold Group.settle
  dsimp only
  split
  · exact Or.inl rfl
  · exact fire_waiter _

theorem settle_delivery {g : Group V} {id : StrandId} {outcome : Outcome V} {d : Delivery V}
    (h : (g.settle id outcome).2 = .recorded (some d)) :
    ∃ mode, g.waiter = some (mode, d.bridge) ∧ ∃ outcome, d.payload = .children outcome := by
  unfold Group.settle at h
  dsimp only at h
  split at h
  · cases h
  · obtain ⟨mode, hw, hpayload⟩ := fire_delivery (Settlement.recorded.inj h)
    exact ⟨mode, hw, hpayload⟩

/-- A parent's group takes in how a child has ended. -/
theorem change_settle (id : StrandId) {parent : StrandId} {ps : Strand V B}
    (hps : s.strand? parent = some ps) (outcome : Outcome V) :
    Change Ok s (s.updateStrand parent fun ps' =>
      { ps' with children := (ps.children.settle id outcome).1 }) := by
  have hcongr : s.updateStrand parent (fun ps' =>
      { ps' with children := (ps.children.settle id outcome).1 }) =
      s.updateStrand parent fun ps' =>
        { ps' with children := (ps'.children.settle id outcome).1 } :=
    updateStrand_congr fun ps' hps' => by rw [Option.some.inj (hps.symm.trans hps')]
  rw [hcongr]
  exact .children s parent (fun g => (g.settle id outcome).1) fun g => settle_waiter g id outcome

theorem changes_handOver (h : Sound Ok n s) (id : StrandId) (st : Strand V B)
    (outcome : Outcome V) : Changes Ok s (s.handOver id st outcome).1 := by
  unfold handOver
  split
  · exact changes_resolveWith cancels_cancel h _ _
  split
  · next parent ps hp =>
    have hps : s.strand? parent = some ps := by
      obtain ⟨p, -, hmap⟩ := Option.bind_eq_some_iff.mp hp
      obtain ⟨ps', hps', heq⟩ := Option.map_eq_some_iff.mp hmap
      obtain ⟨rfl, rfl⟩ := Prod.mk.inj heq
      exact hps'
    have hchange : Change Ok s _ := change_settle id hps outcome
    dsimp only
    split
    next fired hfired =>
      refine .head hchange (changes_deliverFired (h.change hchange) ?_)
      rintro d rfl
      obtain ⟨mode, hw, outcome', hpayload⟩ := settle_delivery hfired
      rw [hpayload]
      exact h.waiters parent ps mode d.bridge hps hw outcome'
    next outcome' hreturned => exact .head hchange (.single (.report _ id outcome'))
  · exact .single (.report s id outcome)

end Scheduler
end CoopSched
