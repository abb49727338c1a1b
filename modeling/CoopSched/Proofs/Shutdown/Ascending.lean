import CoopSched.Proofs.Shutdown.Unwinding

/-!
# Ascending — one cancellation after the other

Where the callback of a job completes only bridges of strands that were there before the strands of
the job (`Parented`), cancelling the strands in the order of their numbers takes them one by one: by
the time a strand of a job is cancelled, everybody whom the callback could have cancelled has ended.
So nothing nests (`OneByOne`), and the order is the order of the numbers.
-/

namespace CoopSched

/-- Each cancellation is over before the next one begins; in between, indices are handed out. -/
inductive OneByOne : List Mark → Prop
  | nil : OneByOne []
  | cons (id : StrandId) (claims : List (JobId × Nat)) {rest : List Mark} (h : OneByOne rest) :
      OneByOne (.enter id :: (claims.map (fun c => .claim c.1 c.2) ++ .leave id :: rest))

theorem opened_claims (claims : List (JobId × Nat)) :
    opened (claims.map fun c => .claim c.1 c.2) = [] := by
  rw [opened, List.filterMap_map]
  exact List.filterMap_eq_nil_iff.mpr fun _ _ => rfl

namespace Scheduler

variable {V B : Type} {s s' : Scheduler V B} {marks : List Mark}

/-- A callback of a job completes bridges of strands only whose numbers are smaller than those of
    the strands launched for the job. -/
def Parented (s : Scheduler V B) : Prop :=
  ∀ id st hook entry, s.strand? id = some st → st.hook = some hook →
    s.job? hook.job = some entry → ∀ answer b w x, .complete b w ∈ entry.callback answer →
    s.bridge? b = some x → x.strand.number < id.number

theorem Parented.spends (h : Parented s) (hspends : Spends s marks s') : Parented s' := by
  intro id st' hook entry' hst' hhook hj' answer b w x' hmem hx'
  obtain ⟨st, hst, hsame⟩ := hspends.hooks id st' hst'
  obtain ⟨x, hx, howner⟩ := hspends.owners b x' hx'
  cases hj : s.job? hook.job with
  | none => cases (hspends.strange _ hj).1.symm.trans hj'
  | some entry =>
    obtain ⟨_, hj'', hentailed⟩ := hspends.jobs _ entry hj
    obtain rfl := Option.some.inj (hj'.symm.trans hj'')
    rw [hentailed.callback] at hmem
    rw [howner]
    exact h id st hook entry hst (hsame.symm.trans hhook) hj answer b w x hmem hx

/-! ## Callbacks that find everybody gone -/

/-- What a callback does completes bridges only of strands that have ended. -/
def FindsNobody (s : Scheduler V B) (es : List (Effect V)) : Prop :=
  ∀ b w x, .complete b w ∈ es → s.bridge? b = some x → x.strand.number ∉ s.unfinished

/-- That is all the callback of the job does, whatever the answer. -/
def IsMild (s : Scheduler V B) (j : JobId) : Prop :=
  ∀ entry, s.job? j = some entry → ∀ answer, s.FindsNobody (entry.callback answer)

/-- Nobody is left whom the errand could cancel. -/
def Harmless (s : Scheduler V B) : Errand V → Prop
  | .strands ids _ => ∀ id ∈ ids, id.number ∉ s.unfinished
  | .cancel id _ => id.number ∉ s.unfinished
  | .resolve hook _ => s.IsMild hook.job
  | .submit j _ _ => s.IsMild j
  | .effects es => s.FindsNobody es
  | .launchNext j => s.IsMild j

theorem FindsNobody.spends {es : List (Effect V)} (h : FindsNobody s es)
    (hspends : Spends s marks s') : FindsNobody s' es := by
  intro b w x' hmem hx' hleft
  obtain ⟨x, hx, howner⟩ := hspends.owners b x' hx'
  rw [howner] at hleft
  exact h b w x hmem hx ((hspends.unfinished x.strand).mp hleft).1

theorem IsMild.spends {j : JobId} (h : IsMild s j) (hspends : Spends s marks s') :
    IsMild s' j := by
  intro entry' hj' answer
  cases hj : s.job? j with
  | none => cases (hspends.strange _ hj).1.symm.trans hj'
  | some entry =>
    obtain ⟨_, hj'', hentailed⟩ := hspends.jobs _ entry hj
    obtain rfl := Option.some.inj (hj'.symm.trans hj'')
    rw [hentailed.callback]
    exact (h entry hj answer).spends hspends

/-- **Where nobody is left to cancel the recursion does nothing but hand out indices.** -/
theorem Unwinds.claims {errand : Errand V} (h : Unwinds s errand marks s')
    (hclosed : s.queue.closed = true) (hmild : s.Harmless errand) :
    ∃ claims : List (JobId × Nat), marks = claims.map fun c => .claim c.1 c.2 := by
  induction h with
  | nil s reason => exact ⟨[], rfl⟩
  | cons hfirst hrest ihfirst ihrest =>
    have hspends := hfirst.spends hclosed
    obtain ⟨claims, rfl⟩ := ihfirst hclosed (hmild _ List.mem_cons_self)
    obtain ⟨claims', rfl⟩ := ihrest (hspends.closed.trans hclosed) fun id hid hleft =>
      hmild id (List.mem_cons_of_mem _ hid) ((hspends.unfinished id).mp hleft).1
    exact ⟨claims ++ claims', List.map_append.symm⟩
  | ended hend reason => exact ⟨[], rfl⟩
  | alone hst hend => exact absurd (mem_unfinished.mpr ⟨_, hst, hend⟩) hmild
  | hooked hst hend => exact absurd (mem_unfinished.mpr ⟨_, hst, hend⟩) hmild
  | resolved hsubmit hlast ih => exact ih hclosed hmild
  | chained hsubmit hmore hlaunch ihsubmit ihlaunch =>
    have hspends := hsubmit.spends hclosed
    obtain ⟨claims, rfl⟩ := ihsubmit hclosed hmild
    obtain ⟨claims', rfl⟩ := ihlaunch (hspends.closed.trans hclosed) (IsMild.spends hmild hspends)
    exact ⟨claims ++ claims', List.map_append.symm⟩
  | refused hno => exact ⟨[], rfl⟩
  | accepted hj hsubmit => exact ⟨[], rfl⟩
  | @answered s s₁ j index r entry job answer marks hj hsubmit hset ih =>
    have htold := (Spends.setJob hj (.submit hsubmit)).trans (.tellAnswer _ j answer)
    exact ih (htold.closed.trans hclosed) (FindsNobody.spends (hmild entry hj answer) htold)
  | done s => exact ⟨[], rfl⟩
  | panicked s rest => exact ⟨[], rfl⟩
  | lost hno hrest ih =>
    exact ih hclosed fun b w x hmem => hmild b w x (List.mem_cons_of_mem _ hmem)
  | @won s s₁ s₂ b x claimed w rest marks marks' gone hb hclaim hstrike hrest ihstrike ihrest =>
    have hsame : claimed.strand = x.strand := by
      obtain ⟨-, rfl⟩ := claim?_eq_some hclaim
      rfl
    have hset := Spends.setBridge hb hsame
    have hclosed' := hset.closed.trans hclosed
    have hspends := hset.trans (hstrike.spends hclosed')
    obtain ⟨claims, rfl⟩ := ihstrike hclosed' fun hleft =>
      hmild b w x List.mem_cons_self hb ((hset.unfinished _).mp hleft).1
    obtain ⟨claims', rfl⟩ := ihrest (hspends.closed.trans hclosed)
      (FindsNobody.spends (fun b w x hmem => hmild b w x (List.mem_cons_of_mem _ hmem)) hspends)
    exact ⟨claims ++ claims', List.map_append.symm⟩
  | undriven hno => exact ⟨[], rfl⟩
  | exhausted hj hdrive hclaim => exact ⟨[], rfl⟩
  | @launched s s₁ j entry drive index => exact ⟨[(j, index)], rfl⟩
  | @stopped s s₁ s₂ j entry drive index failure marks hj hdrive hclaim hlaunch hsubmit hlast ih =>
    have hclaimed := Spends.claimed hj hdrive hclaim hlaunch hclosed
    obtain ⟨claims, rfl⟩ := ih (hclaimed.closed.trans hclosed) (IsMild.spends hmild hclaimed)
    exact ⟨(j, index) :: claims, rfl⟩
  | @goesOn s s₁ s₂ s₃ j entry drive index failure marks marks' hj hdrive hclaim hlaunch hsubmit
      hmore hnext ihsubmit ihnext =>
    have hclaimed := Spends.claimed hj hdrive hclaim hlaunch hclosed
    have hclosed' := hclaimed.closed.trans hclosed
    have hspends := hclaimed.trans (hsubmit.spends hclosed')
    obtain ⟨claims, rfl⟩ := ihsubmit hclosed' (IsMild.spends hmild hclaimed)
    obtain ⟨claims', rfl⟩ := ihnext (hspends.closed.trans hclosed) (IsMild.spends hmild hspends)
    exact ⟨(j, index) :: (claims ++ claims'), by rw [List.map_cons, List.map_append]⟩

/-! ## In the order of the numbers -/

/-- A cancellation whose strand is the first that is left sets off no other. -/
theorem Unwinds.cancel_first {id : StrandId} {reason : Failure}
    (h : Unwinds s (.cancel id reason) marks s') (hclosed : s.queue.closed = true)
    (hparent : Parented s) (hfirst : ∀ m ∈ s.unfinished, id.number ≤ m) :
    marks = [] ∧ id.number ∉ s.unfinished ∨
    ∃ claims : List (JobId × Nat),
      marks = .enter id :: (claims.map (fun c => .claim c.1 c.2) ++ [.leave id]) := by
  cases h with
  | ended hend =>
    refine Or.inl ⟨rfl, fun hleft => ?_⟩
    obtain ⟨st, hst, hnot⟩ := mem_unfinished.mp hleft
    cases hnot.symm.trans (hend st hst)
  | alone hst hend hhook => exact Or.inr ⟨[], rfl⟩
  | @hooked _ _ _ st hook _ marks hst hend hhook hset =>
    have hcut := Spends.cut hst hend
    have hmild : (s.cut id st.bridge).IsMild hook.job := by
      intro entry hj answer b w x hmem hx hleft
      -- The strand of the bridge is older, so it has ended.
      obtain ⟨x', hx', howner⟩ := hcut.owners b x hx
      rw [job?, cut_jobs hst] at hj
      have hless := hparent id st hook entry hst hhook hj answer b w x' hmem hx'
      rw [howner] at hleft
      exact absurd (hfirst _ (hcut.subset hleft)) (Nat.not_le_of_lt hless)
    obtain ⟨claims, rfl⟩ := hset.claims (hcut.closed.trans hclosed) hmild
    exact Or.inr ⟨claims, rfl⟩

/-- **Strands that are cancelled in the order of their numbers are cancelled one by one.** -/
theorem Unwinds.one_by_one {ids : List StrandId} {reason : Failure}
    (h : Unwinds s (.strands ids reason) marks s') (hclosed : s.queue.closed = true)
    (hparent : Parented s) (hsorted : ids.Pairwise fun k k' => k.number < k'.number)
    (hall : ∀ m ∈ s.unfinished, ⟨m⟩ ∈ ids) : OneByOne marks ∧ (opened marks).Sublist ids := by
  induction ids generalizing s marks with
  | nil =>
    cases h
    exact ⟨.nil, .slnil⟩
  | cons id rest ih =>
    obtain ⟨hless, hsorted⟩ := List.pairwise_cons.mp hsorted
    cases h with
    | @cons _ s₁ _ _ _ _ marks marks' hone hrest =>
      have hspends := hone.spends hclosed
      have hclosed' := hspends.closed.trans hclosed
      have hfirst : ∀ m ∈ s.unfinished, id.number ≤ m := by
        intro m hm
        rcases List.mem_cons.mp (hall m hm) with heq | hin
        · exact (congrArg StrandId.number heq).ge
        · exact Nat.le_of_lt (hless _ hin)
      have hothers : id.number ∉ s₁.unfinished → ∀ m ∈ s₁.unfinished, ⟨m⟩ ∈ rest := by
        intro hgone m hm
        rcases List.mem_cons.mp (hall m (hspends.subset hm)) with heq | hin
        · exact absurd (congrArg StrandId.number heq ▸ hm) hgone
        · exact hin
      rcases hone.cancel_first hclosed hparent hfirst with ⟨rfl, hended⟩ | ⟨claims, rfl⟩
      · obtain ⟨hone', hsub⟩ := ih hrest hclosed' (hparent.spends hspends) hsorted
          (hothers fun hleft => hended (hspends.subset hleft))
        exact ⟨hone', hsub.cons id⟩
      · have hopened : opened (.enter id :: (claims.map (fun c => .claim c.1 c.2) ++ [.leave id])) =
            [id] := by
          show opened ([.enter id] ++ (claims.map (fun c => Mark.claim c.1 c.2) ++ [.leave id])) = _
          rw [opened_append, opened_append, opened_claims]
          rfl
        have hgone : id.number ∉ s₁.unfinished := fun hleft =>
          ((hspends.unfinished id).mp hleft).2 (by rw [hopened]; exact List.mem_singleton.mpr rfl)
        obtain ⟨hone', hsub⟩ := ih hrest hclosed' (hparent.spends hspends) hsorted (hothers hgone)
        refine ⟨?_, ?_⟩
        · rw [List.cons_append, List.append_assoc]
          exact .cons id claims hone'
        · rw [opened_append, hopened]
          exact hsub.cons_cons id

end Scheduler
end CoopSched
