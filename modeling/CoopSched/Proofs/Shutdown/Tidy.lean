import CoopSched.Proofs.Outcome.Became

/-!
# Tidiness — who is live, and what is left of the others

A strand is live as long as it has not been retired, and complete from then on. In the middle of a
move that is all there is to say (`Listed`), for a strand that is cut off ends before it is retired.
Between moves a strand is complete just when it has ended (`Tidy`).
-/

namespace CoopSched

variable {V B : Type}

/-- What is left of a strand that finishes is tidy, once it is retired. -/
theorem Strand.Tidy.finished (ok : Bool) (st : Strand V B) (kept : Option (Outcome V)) :
    ((st.finished ok).publish kept).Tidy := by
  have hend := Status.finished_terminal ok
  exact ⟨hend.symm, hend.symm, fun _ => rfl⟩

theorem Strand.Tidy.regrouped {st : Strand V B} {g : Group V} (h : st.Tidy)
    (hg : st.children.Goes g) : Strand.Tidy { st with children := g } where
  complete := h.complete
  closed := hg.closed.trans h.closed
  settled := fun hend => hg.settled (h.closed.trans hend) (h.settled hend)

namespace Scheduler

variable {stop grows : Prop} {s s₁ s' : Scheduler V B} {m : Move V B} {ms : List (Move V B)}
  {p k id : StrandId} {st st' : Strand V B} {r : Outcome V} {kept : Option (Outcome V)}

/-- The strands on the live list are those that are not complete, in the order of their numbers. -/
structure Listed (s : Scheduler V B) : Prop where
  ascending : s.live.Pairwise fun k k' => k.number < k'.number
  live : ∀ k, k ∈ s.live ↔ (s.strand? k).map (·.complete) = some false

theorem Listed.nodup (h : Listed s) : s.live.Nodup :=
  h.ascending.imp fun hlt heq => Nat.ne_of_lt hlt (congrArg StrandId.number heq)

theorem Listed.of_rows (h : Listed s) (hlive : s'.live = s.live)
    (hrows : ∀ k, (s'.strand? k).map (·.complete) = (s.strand? k).map (·.complete)) :
    Listed s' := by
  refine ⟨hlive ▸ h.ascending, fun k => ?_⟩
  rw [hlive, hrows]
  exact h.live k

theorem Listed.of_row (h : Listed s) (hlive : s'.live = s.live) (hst : s.strand? id = some st)
    (hrow : ∀ k, s'.strand? k = if id = k then some st' else s.strand? k)
    (hcomplete : st'.complete = st.complete) : Listed s' := by
  refine h.of_rows hlive fun k => ?_
  rw [hrow]
  split
  next hk =>
    rw [← hk, hst]
    exact congrArg some hcomplete
  next => rfl

/-- A strand joins the live list with the next number. -/
theorem Listed.join (h : Listed s) (hlive : s'.live = s.live ++ [⟨s.strands.next⟩])
    (hrows : ∀ k, (s'.strand? k).map (·.complete) =
      if k = ⟨s.strands.next⟩ then some false else (s.strand? k).map (·.complete)) :
    Listed s' := by
  refine ⟨?_, fun k => ?_⟩
  · rw [hlive]
    refine List.pairwise_append.mpr ⟨h.ascending, List.pairwise_singleton _ _, fun k hk i hi => ?_⟩
    obtain ⟨st, hst, -⟩ := Option.map_eq_some_iff.mp ((h.live k).mp hk)
    rw [List.mem_singleton.mp hi]
    exact Table.lt_next_of_get? hst
  · rw [hlive, hrows, List.mem_append, List.mem_singleton, h.live]
    by_cases hk : k = ⟨s.strands.next⟩ <;> simp [hk, strand?_next]

theorem Listed.spawn (h : Listed s) (r : SpawnRequest B) : Listed (s.spawn r).1 := by
  have hrows := (spawn_rows s r).2.2
  rcases spawn_cases s r with ⟨-, _, _, _, heq⟩ | ⟨_, _, _, _, _, heq, hget, -⟩
  · rw [heq] at hrows ⊢
    refine h.join rfl fun k => ?_
    rcases hrows with ⟨-, hrows⟩ | ⟨⟨e, he⟩, -⟩
    · rw [hrows]
      split <;> rfl
    · cases he
  · rw [heq]
    exact h.of_rows rfl fun k => by rw [strand?, hget]; rfl

theorem Listed.cut (h : Listed s) (hst : s.strand? id = some st) :
    Listed (s.cut id st.bridge) := by
  refine h.of_row ?_ hst (cut_row hst) rfl
  obtain ⟨counters, journal, channel, heq⟩ := cut_eq hst
  rw [heq]

/-- A strand that is retired is complete. -/
theorem Listed.retire (h : Listed s) (id : StrandId) (kept : Option (Outcome V)) :
    Listed (s.retire id kept) := by
  refine ⟨h.ascending.sublist List.erase_sublist, fun k => ?_⟩
  show k ∈ s.live.erase id ↔ _
  rw [h.nodup.mem_erase_iff, h.live, retire_row]
  by_cases hk : id = k
  · subst hk
    cases s.strand? id <;> simp [Strand.publish]
  · rw [if_neg hk]
    exact and_iff_right (Ne.symm hk)

theorem UnwatchedUpdate.listed {watched : JobId → Prop} {free : BridgeId → Prop}
    (hr : UnwatchedUpdate watched free s s') (h : Listed s) : Listed s' := by
  cases hr with
  | wake alive id =>
    obtain ⟨queue, counters, journal, channel, heq⟩ := wake_row alive id
    refine h.of_rows (by rw [heq]) fun k => ?_
    rw [strand?_of_update (f := Strand.woken) (by rw [heq])]
    split
    · cases s.strand? k <;> rfl
    · rfl
  | launch body hook hj hentry => exact h.spawn _
  | _ => exact ⟨h.ascending, h.live⟩

theorem Cascade.listed (hset : Cascade stop s s') (h : Listed s) : Listed s' := by
  induction hset with
  | refl => exact h
  | update _ hr ih => exact hr.listed (ih h)
  | cancelled _ _ hst _ _ _ _ _ ih ihset => exact (ihset ((ih h).cut hst)).retire _ _

theorem Mild.listed (hmild : Mild grows s s') (h : Listed s) : Listed s' := by
  induction hmild with
  | refl => exact h
  | cascade _ hset ih => exact hset.listed ih
  | still _ hrows hlevel _ ih => exact ih.of_rows hlevel.live fun k => by rw [hrows]
  | row _ hst _ hlike hrows hlevel _ ih => exact ih.of_row hlevel.live hst hrows hlike.complete
  | spawn _ r _ ih => exact ih.spawn r

/-- A group changes, and then nobody is cancelled. -/
theorem Cascade.regrouped_listed {ps : Strand V B} {g : Group V} (hps : s.strand? p = some ps)
    (hset : Cascade stop (s.updateStrand p fun st' => { st' with children := g }) s')
    (h : Listed s) : Listed s' :=
  hset.listed (h.of_row rfl hps (updateChildren_row hps g) rfl)

theorem Handed.listed (hhanded : Handed k st r s s' kept) (h : Listed s) : Listed s' := by
  cases hhanded with
  | told hhook hset htold => exact hset.listed h
  | settled hhook hp hps hsettle hset => exact hset.regrouped_listed hps h
  | @returned p ps outcome hhook hp hps hsettle =>
    have hgroup : Listed (s.updateStrand p fun ps' =>
        { ps' with children := (ps.children.settle k r).1 }) :=
      h.of_row rfl hps (updateChildren_row hps _) rfl
    exact hgroup.of_rows (live_reportUnhandled _ _ _) fun i => by rw [strand?_reportUnhandled]
  | orphan hhook hp =>
    exact h.of_rows (live_reportUnhandled s k r) fun i => by rw [strand?_reportUnhandled]

theorem MoveChange.listed (hchange : MoveChange s m s') (h : Listed s) : Listed s' := by
  cases hchange with
  | mild hfin hawaits hmild => exact hmild.listed h
  | announced hfin hawaits hadvances hrows hlive => exact h.of_rows hlive fun k => by rw [hrows]
  | joined hm outcome =>
    refine h.of_rows rfl fun k => ?_
    rw [strand?_updateStrand]
    split
    · cases s.strand? k <;> rfl
    · rfl
  | @spawned s' p ps body hm hps hrun hopen hrows hlive =>
    refine h.join hlive fun i => ?_
    rw [hrows, strand?_updateStrand]
    split
    · rfl
    · split
      · cases s.strand? i <;> rfl
      · rfl
  | awaited hawaits hfin hrun hown hlike hlevel hgrows hset =>
    have hown' := h.of_row hlevel.live hown.row hown.rows hlike.complete
    have hset' := hset.regrouped_listed hown.self hown'
    exact ⟨hset'.ascending, hset'.live⟩
  | @finished s₂ id old r kept hfin hold hrun hhanded =>
    have hmarked : Listed (s.markFinished id r.isOk) := by
      obtain ⟨counters, journal, channel, heq⟩ := s.markFinished_eq id r.isOk
      exact h.of_row (by rw [heq]) hold (markFinished_rows hold r.isOk) rfl
    have hretired := (hhanded.listed hmarked).retire id kept
    exact ⟨hretired.ascending, hretired.live⟩

/-! ## Between moves -/

/-- Live are the strands that have not ended. The others are complete, and nothing is left in their
    groups. -/
structure Tidy (s : Scheduler V B) : Prop where
  listed : Listed s
  rows : ∀ k st, s.strand? k = some st → st.Tidy

theorem Tidy.live_iff (h : Tidy s) (hst : s.strand? k = some st) :
    k ∈ s.live ↔ st.status.isTerminal = false := by
  rw [h.listed.live, hst, Option.map_some, (h.rows k st hst).complete, Option.some_inj]

theorem Became.tidy (h : Became s m s' k st st') (htidy : st.Tidy) : st'.Tidy := by
  cases h with
  | alikeOrCancelled hleft => exact hleft.tidy htidy
  | regrouped hlike hg => exact (htidy.alike hlike).regrouped (by rwa [hlike.children])
  | finished hfin hrun hkept => exact .finished _ _ _
  | joined hm outcome => exact ⟨htidy.complete, htidy.closed, htidy.settled⟩

theorem MoveChange.tidy (hchange : MoveChange s m s') (hkin : Kin s) (h : Tidy s) : Tidy s' := by
  refine ⟨hchange.listed h.listed, fun k st' hst' => ?_⟩
  cases hst : s.strand? k with
  | some st =>
    obtain ⟨st₁, hst₁, hbecame⟩ := hchange.row hkin hst
    obtain rfl := Option.some.inj (hst₁.symm.trans hst')
    exact hbecame.tidy (h.rows k st hst)
  | none =>
    obtain ⟨-, hnew | ⟨p, body, -, rfl⟩⟩ := hchange.new hst hst'
    · exact hnew.tidy
    · exact .create _ _ _ _

/-- A scheduler is tidy after any run. -/
theorem Initial.tidy_run (hs : Initial s) (ha : s.Admissible ms) : Tidy (s.run ms) := by
  induction ms using List.reverseRecOn with
  | nil =>
    have hnone : ∀ k, s.strand? k = none := fun k => by rw [strand?, hs.empty.1, get?_empty]
    have hlive : s.live = [] := hs.empty.2.2.2.2.2.1
    refine ⟨⟨?_, fun k => ?_⟩, fun k st hst => by cases (hnone k).symm.trans hst⟩
    · rw [run_nil, hlive]
      exact .nil
    · rw [run_nil, hlive, hnone]
      simp
  | append_singleton ms m ih =>
    have hprev := (admissible_append.mp ha).1
    exact (hs.moveChange ha).tidy (hs.kin_run hprev) (ih hprev)

/-! ## Runs -/

/-- What has ended stays as it is, and so does its outcome until somebody joins it. -/
structure Remains (ms : List (Move V B)) (k : StrandId) (st st' : Strand V B) : Prop where
  status : st'.status = st.status
  complete : st'.complete = st.complete
  hook : st'.hook = st.hook
  body : st'.body = st.body
  bridge : st'.bridge = st.bridge
  outcome : .join k ∉ ms → st'.outcome = st.outcome

theorem Remains.refl (ms : List (Move V B)) (k : StrandId) (st : Strand V B) :
    Remains ms k st st := ⟨rfl, rfl, rfl, rfl, rfl, fun _ => rfl⟩

theorem Became.remains (h : Became s m s' k st st') (hend : st.status.isTerminal = true) :
    Remains [m] k st st' := by
  cases h with
  | alikeOrCancelled hleft =>
    cases hleft with
    | alike hlike =>
      rw [hlike.final hend]
      exact .refl _ k st
    | cancelled _ _ hlive => cases hend.symm.trans hlive
  | regrouped hlike hg =>
    rw [hlike.final hend]
    exact ⟨rfl, rfl, rfl, rfl, rfl, fun _ => rfl⟩
  | finished hfin hrun hkept =>
    cases hend.symm.trans (Status.not_terminal_of_running hrun)
  | joined hm outcome =>
    exact ⟨rfl, rfl, rfl, rfl, rfl, fun hno => absurd (List.mem_singleton.mpr hm.symm) hno⟩

/-- A strand that is there stays there. -/
theorem Initial.row_run {before rest : List (Move V B)} (hs : Initial s)
    (ha : s.Admissible (before ++ rest)) (hst : (s.run before).strand? k = some st) :
    ∃ st', (s.run (before ++ rest)).strand? k = some st' ∧ st'.hook = st.hook ∧
      st'.parent = st.parent := by
  induction rest using List.reverseRecOn with
  | nil => exact ⟨st, by rwa [List.append_nil], rfl, rfl⟩
  | append_singleton rest m ih =>
    rw [← List.append_assoc] at ha ⊢
    have hprev := (admissible_append.mp ha).1
    obtain ⟨st₁, hst₁, hhook, hparent⟩ := ih hprev
    obtain ⟨st', hst', hbecame⟩ := (hs.moveChange ha).row (hs.kin_run hprev) hst₁
    exact ⟨st', hst', hbecame.kin.1.trans hhook, hbecame.kin.2.trans hparent⟩

/-- A strand that has ended in a run ended with one of its moves. -/
theorem Initial.ends_run {before rest : List (Move V B)} (hs : Initial s)
    (ha : s.Admissible (before ++ rest)) (hst : (s.run before).strand? k = some st)
    (hend : st.status.isTerminal = false) (hended : (s.run (before ++ rest)).HasEnded k) :
    ∃ mid m tail st₁ st', rest = mid ++ m :: tail ∧
      (s.run (before ++ mid)).strand? k = some st₁ ∧ st₁.status.isTerminal = false ∧
      (s.run (before ++ mid ++ [m])).strand? k = some st' ∧ st'.status.isTerminal = true ∧
      Became (s.run (before ++ mid)) m (s.run (before ++ mid ++ [m])) k st₁ st' := by
  induction rest using List.reverseRecOn with
  | nil =>
    rw [List.append_nil] at hended
    cases hend.symm.trans (hended.all st hst)
  | append_singleton rest m ih =>
    rw [← List.append_assoc] at ha hended
    have hprev := (admissible_append.mp ha).1
    obtain ⟨st₁, hst₁, -⟩ := hs.row_run hprev hst
    cases hend₁ : st₁.status.isTerminal with
    | true =>
      obtain ⟨mid, m', tail, old, new, rfl, hrest⟩ := ih hprev ⟨st₁, hst₁, hend₁⟩
      exact ⟨mid, m', tail ++ [m], old, new, by simp, hrest⟩
    | false =>
      obtain ⟨st', hst', hbecame⟩ := (hs.moveChange ha).row (hs.kin_run hprev) hst₁
      exact ⟨rest, m, [], st₁, st', rfl, hst₁, hend₁, hst', hended.all st' hst', hbecame⟩

/-- **What has ended stays as it is**, for ever. -/
theorem Initial.remains_run {before rest : List (Move V B)} (hs : Initial s)
    (ha : s.Admissible (before ++ rest)) (hst : (s.run before).strand? k = some st)
    (hend : st.status.isTerminal = true) :
    ∃ st', (s.run (before ++ rest)).strand? k = some st' ∧ Remains rest k st st' := by
  induction rest using List.reverseRecOn with
  | nil => exact ⟨st, by rwa [List.append_nil], .refl _ k st⟩
  | append_singleton rest m ih =>
    rw [← List.append_assoc] at ha ⊢
    have hprev := (admissible_append.mp ha).1
    obtain ⟨st₁, hst₁, hremains⟩ := ih hprev
    obtain ⟨st', hst', hbecame⟩ := (hs.moveChange ha).row (hs.kin_run hprev) hst₁
    have hlast := hbecame.remains (by rw [hremains.status]; exact hend)
    refine ⟨st', hst', hlast.status.trans hremains.status, hlast.complete.trans hremains.complete,
      hlast.hook.trans hremains.hook, hlast.body.trans hremains.body,
      hlast.bridge.trans hremains.bridge, fun hno => ?_⟩
    rw [List.mem_append, not_or] at hno
    exact (hlast.outcome hno.2).trans (hremains.outcome hno.1)

/-- A closed queue admits nobody any more. -/
theorem Initial.nobody_new {before rest : List (Move V B)} (hs : Initial s)
    (ha : s.Admissible (before ++ rest)) (hclosed : (s.run before).queue.closed = true)
    (hst' : (s.run (before ++ rest)).strand? k = some st') :
    ∃ st, (s.run before).strand? k = some st := by
  induction rest using List.reverseRecOn generalizing st' with
  | nil => exact ⟨st', by rwa [List.append_nil] at hst'⟩
  | append_singleton rest m ih =>
    rw [← List.append_assoc] at ha hst'
    have hprev := (admissible_append.mp ha).1
    cases hst₁ : (s.run (before ++ rest)).strand? k with
    | some st₁ => exact ih hprev hst₁
    | none =>
      -- It would have come while the queue was open.
      have hopen := ((hs.moveChange ha).new hst₁ hst').1
      rw [(hs.advances_run hprev).closed hclosed] at hopen
      cases hopen

end Scheduler
end CoopSched
