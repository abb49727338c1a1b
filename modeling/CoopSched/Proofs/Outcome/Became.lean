import CoopSched.Proofs.Outcome.MoveChange

/-!
# What becomes of a strand in a move

A strand comes out of a move as it went in, perhaps with other children or without its outcome; or
the move ended it, one way or the other (`MoveChange.row`). What comes into being with a move is
newborn, or a child that is spawned (`MoveChange.new`). And nothing but a worker, and the end of a
shutdown, takes strands out of the ready queue (`MoveChange.queueGrows`).
-/

namespace CoopSched

variable {V B : Type}

/-- A group goes on, as long as it is not closed. One that is closed stays empty. -/
structure Group.Goes (g g' : Group V) : Prop where
  closed : g'.closed = g.closed
  settled : g.closed = true → g.settled = [] → g'.settled = []

theorem Group.goes_add (g : Group V) : g.Goes g.add := ⟨rfl, fun _ h => h⟩

theorem Group.fire_goes (g : Group V) : g.Goes g.fire.1 := by
  unfold fire
  split
  · exact ⟨rfl, fun _ h => h⟩
  · split
    · exact ⟨rfl, fun _ _ => rfl⟩
    · exact ⟨rfl, fun _ h => h⟩

theorem Group.goes_arm (g : Group V) (mode : WaitMode) (b : BridgeId) :
    g.Goes (g.arm mode b).1 :=
  ⟨(fire_goes { g with waiter := some (mode, b) }).closed,
    (fire_goes { g with waiter := some (mode, b) }).settled⟩

theorem Group.goes_settle (g : Group V) (k : StrandId) (r : Outcome V) :
    g.Goes (g.settle k r).1 := by
  unfold settle
  dsimp only
  split
  · exact ⟨rfl, fun _ h => h⟩
  next hopen => exact ⟨(fire_goes _).closed, fun hclosed => absurd hclosed hopen⟩

/-- A strand with another group stays alike. -/
theorem Strand.Alike.regrouped {st st' : Strand V B} {g : Group V}
    (h : Strand.Alike { st with children := g } st') :
    ∃ st₁, st.Alike st₁ ∧ st' = { st₁ with children := g } := by
  obtain ⟨hparent, hhook, rfl, houtcome, hcomplete, hended, hfinal⟩ := h
  refine ⟨{ st' with children := st.children },
    ⟨hparent, hhook, rfl, houtcome, hcomplete, hended, fun hend => ?_⟩, rfl⟩
  rw [hfinal hend]

namespace Scheduler

variable {s s₁ s₂ s' : Scheduler V B} {m : Move V B} {p k id : StrandId}
  {st st' st₁ ps : Strand V B} {r : Outcome V} {kept : Option (Outcome V)}

/-! ## Groups change -/

theorem updateChildren_row (hst : s.strand? p = some st) (g : Group V) (k : StrandId) :
    (s.updateStrand p fun st' => { st' with children := g }).strand? k =
      if p = k then some { st with children := g } else s.strand? k :=
  strand?_of_update_some (f := fun st' => { st' with children := g }) rfl hst k

/-- Where nobody is cancelled, a strand stays alike. -/
theorem Cascade.alike (h : Cascade False s s') (hst : s.strand? k = some st) :
    ∃ st', s'.strand? k = some st' ∧ st.Alike st' := by
  obtain ⟨st', hst', hleft⟩ := h.row hst
  cases hleft with
  | alike hlike => exact ⟨st', hst', hlike⟩
  | cancelled hstop => exact hstop.elim

/-- A group changes, and then nobody is cancelled. -/
theorem Cascade.regrouped {g : Group V} (hps : s.strand? p = some ps)
    (h : Cascade False (s.updateStrand p fun st' => { st' with children := g }) s')
    (hst : s.strand? k = some st) : ∃ st', s'.strand? k = some st' ∧
      (p ≠ k ∧ st.Alike st' ∨
        p = k ∧ ∃ st₁, st.Alike st₁ ∧ st' = { st₁ with children := g }) := by
  have hrow := updateChildren_row hps g k
  by_cases hk : p = k
  · subst hk
    obtain rfl := Option.some.inj (hps.symm.trans hst)
    obtain ⟨st', hst', hlike⟩ := h.alike (hrow.trans (if_pos rfl))
    exact ⟨st', hst', Or.inr ⟨rfl, hlike.regrouped⟩⟩
  · obtain ⟨st', hst', hlike⟩ := h.alike (hrow.trans ((if_neg hk).trans hst))
    exact ⟨st', hst', Or.inl ⟨hk, hlike⟩⟩

theorem Cascade.regrouped_new {g : Group V} (hps : s.strand? p = some ps)
    (h : Cascade False (s.updateStrand p fun st' => { st' with children := g }) s')
    (hnone : s.strand? k = none) (hst' : s'.strand? k = some st') :
    s.queue.closed = false ∧ st'.Newborn := by
  refine h.new ?_ hst'
  rw [updateChildren_row hps, if_neg, hnone]
  rintro rfl
  cases hps.symm.trans hnone

/-! ## What is handed over -/

/-- The parent of a strand that finishes has its group changed, and everybody else stays alike. -/
theorem Handed.row {j : StrandId} {old : Strand V B} (h : Handed k st r s s' kept)
    (hold : s.strand? j = some old) : ∃ new, s'.strand? j = some new ∧
      ((st.parent ≠ some j ∨ st.hook ≠ none) ∧ old.Alike new ∨ st.hook = none ∧
        st.parent = some j ∧ ∃ st₁, old.Alike st₁ ∧
          new = { st₁ with children := (old.children.settle k r).1 }) := by
  have hchild : ∀ {p : StrandId} {ps : Strand V B} {s' : Scheduler V B}, st.hook = none →
      st.parent = some p → s.strand? p = some ps → Cascade False
        (s.updateStrand p fun ps' => { ps' with children := (ps.children.settle k r).1 }) s' →
      ∃ new, s'.strand? j = some new ∧
        ((st.parent ≠ some j ∨ st.hook ≠ none) ∧ old.Alike new ∨ st.hook = none ∧
          st.parent = some j ∧ ∃ st₁, old.Alike st₁ ∧
            new = { st₁ with children := (old.children.settle k r).1 }) := by
    intro p ps s' hhook hp hps hset
    obtain ⟨new, hnew, ⟨hne, hlike⟩ | ⟨rfl, hgroup⟩⟩ := hset.regrouped hps hold
    · exact ⟨new, hnew, Or.inl ⟨Or.inl fun heq => hne (Option.some.inj (hp.symm.trans heq)),
        hlike⟩⟩
    · obtain rfl := Option.some.inj (hps.symm.trans hold)
      exact ⟨new, hnew, Or.inr ⟨hhook, hp, hgroup⟩⟩
  cases h with
  | told hhook hset htold =>
    obtain ⟨new, hnew, hlike⟩ := hset.alike hold
    exact ⟨new, hnew, Or.inl ⟨Or.inr (by rw [hhook]; simp), hlike⟩⟩
  | settled hhook hp hps hsettle hset => exact hchild hhook hp hps hset
  | returned hhook hp hps hsettle =>
    simp only [strand?_reportUnhandled]
    exact hchild hhook hp hps (.refl _)
  | orphan hhook hp =>
    simp only [strand?_reportUnhandled]
    exact ⟨old, hold, Or.inl ⟨Or.inl (by rw [hp]; simp), .refl old⟩⟩

theorem Handed.new {j : StrandId} (h : Handed k st r s s' kept) (hnone : s.strand? j = none)
    (hst' : s'.strand? j = some st') : s.queue.closed = false ∧ st'.Newborn := by
  cases h with
  | told hhook hset htold => exact hset.new hnone hst'
  | settled hhook hp hps hsettle hset => exact hset.regrouped_new hps hnone hst'
  | returned hhook hp hps hsettle =>
    rw [strand?_reportUnhandled] at hst'
    exact Cascade.regrouped_new hps (.refl _) hnone hst'
  | orphan hhook hp =>
    rw [strand?_reportUnhandled] at hst'
    cases hnone.symm.trans hst'

theorem Handed.queueGrows (h : Handed k st r s s' kept) : QueueGrows s s' := by
  cases h with
  | told hhook hset htold => exact hset.queueGrows
  | settled hhook hp hps hsettle hset => exact hset.queueGrows
  | returned => exact .of_queue (congrArg ReadyQueue.waiting (queue_reportUnhandled _ _ _))
  | orphan => exact .of_queue (congrArg ReadyQueue.waiting (queue_reportUnhandled _ _ _))

/-- What is kept for the handle is what the strand finished with. -/
theorem Handed.kept_eq (h : Handed k st r s s' kept) : kept = none ∨ kept = some r := by
  cases h with
  | told => exact Or.inl rfl
  | settled => exact Or.inl rfl
  | @returned p ps outcome hhook hp hps hsettle =>
    -- What a group hands back is what it was given.
    unfold Group.settle at hsettle
    dsimp only at hsettle
    split at hsettle
    · cases hsettle
      exact Or.inr rfl
    · cases hsettle
  | orphan => exact Or.inr rfl

/-- What is handed over leaves the strand itself alone, for nobody is his own parent. -/
theorem Handed.own_row (hkin : Kin s) (hold : s.strand? k = some st)
    (h : Handed k st r (s.markFinished k r.isOk) s' kept) :
    (s'.retire k kept).strand? k = some ((st.finished r.isOk).publish kept) := by
  have hmarked := markFinished_rows hold r.isOk k
  rw [if_pos rfl] at hmarked
  obtain ⟨new, hnew, ⟨-, hlike⟩ | ⟨-, hp, -⟩⟩ := h.row hmarked
  · rw [retire_row, if_pos rfl, hnew, hlike.final (Status.finished_terminal _), Option.map_some]
  · exact absurd rfl (hkin k st k hold hp).2.1

/-! ## One strand -/

/-- What has become of a strand in a move. -/
inductive Became (s : Scheduler V B) (m : Move V B) (s' : Scheduler V B) (k : StrandId)
    (st : Strand V B) : Strand V B → Prop
  | alikeOrCancelled {st' : Strand V B} (h : AlikeOrCancelled True s s' st st') :
      Became s m s' k st st'
  | regrouped {st₁ : Strand V B} {g : Group V} (hlike : st.Alike st₁) (hg : st.children.Goes g) :
      Became s m s' k st { st₁ with children := g }
  | finished {r : Outcome V} {kept : Option (Outcome V)} (hfin : s.finishes m = some (k, r))
      (hrun : st.status.isRunning = true) (hkept : kept = none ∨ kept = some r) :
      Became s m s' k st ((st.finished r.isOk).publish kept)
  | joined (hm : m = .join k) (outcome : Option (Outcome V)) :
      Became s m s' k st { st with outcome := outcome }

theorem Became.same (s : Scheduler V B) (m : Move V B) (s' : Scheduler V B) (k : StrandId)
    (st : Strand V B) : Became s m s' k st st := .alikeOrCancelled (.alike (.refl st))

/-- **A strand stays what it is in a move, or the move ends it.** -/
theorem MoveChange.row (h : MoveChange s m s') (hkin : Kin s) (hst : s.strand? k = some st) :
    ∃ st', s'.strand? k = some st' ∧ Became s m s' k st st' := by
  cases h with
  | mild hfin hawaits hmild =>
    obtain ⟨st', hst', hleft⟩ := hmild.row_alikeOrCancelled hst
    exact ⟨st', hst', .alikeOrCancelled hleft⟩
  | announced hfin hawaits hadvances hrows => exact ⟨st, (hrows k).trans hst, .same s m s' k st⟩
  | @joined id hm outcome =>
    rw [strand?_updateStrand]
    by_cases hk : id = k
    · rw [if_pos hk, hst, Option.map_some]
      exact ⟨_, rfl, .joined (hm.trans (by rw [hk])) outcome⟩
    · rw [if_neg hk]
      exact ⟨st, hst, .same s m _ k st⟩
  | @spawned s' p ps body hm hps hrun hopen hrows =>
    have hne : k ≠ ⟨s.strands.next⟩ := by
      rintro rfl
      rw [strand?_next] at hst
      cases hst
    rw [hrows, if_neg hne, strand?_updateStrand]
    by_cases hk : p = k
    · rw [if_pos hk, hst, Option.map_some]
      exact ⟨_, rfl, .regrouped (.refl st) st.children.goes_add⟩
    · rw [if_neg hk]
      exact ⟨st, hst, .same s m s' k st⟩
  | @awaited s₁ s₂ p ps ps₁ mode b hawaits hfin hrun hown hlike hlevel hgrows hset =>
    by_cases hk : p = k
    · subst hk
      obtain rfl := Option.some.inj (hown.row.symm.trans hst)
      obtain ⟨st', hst', ⟨hne, -⟩ | ⟨-, st₁, hlike₁, rfl⟩⟩ := hset.regrouped hown.self hown.self
      · exact absurd rfl hne
      · exact ⟨_, hst', .regrouped (hlike.trans hlike₁) (ps.children.goes_arm mode b)⟩
    · obtain ⟨st', hst', ⟨-, hlike'⟩ | ⟨heq, -⟩⟩ :=
        hset.regrouped hown.self ((hown.rows k).trans ((if_neg hk).trans hst))
      · exact ⟨st', hst', .alikeOrCancelled (.alike hlike')⟩
      · exact absurd heq hk
  | @finished s₂ id old r kept hfin hold hrun hhanded =>
    show ∃ st', (s₂.retire id kept).strand? k = some st' ∧ _
    by_cases hk : id = k
    · subst hk
      obtain rfl := Option.some.inj (hold.symm.trans hst)
      exact ⟨_, hhanded.own_row hkin hold, .finished hfin hrun hhanded.kept_eq⟩
    · have hmarked := markFinished_rows hold r.isOk k
      rw [if_neg hk] at hmarked
      rw [retire_row, if_neg hk]
      obtain ⟨new, hnew, ⟨-, hlike⟩ | ⟨-, -, st₁, hlike, rfl⟩⟩ :=
        hhanded.row (hmarked.trans hst)
      · exact ⟨new, hnew, .alikeOrCancelled (.alike hlike)⟩
      · exact ⟨_, hnew, .regrouped hlike (st.children.goes_settle id r)⟩

/-- A strand keeps its parent, and the job that it was launched for. -/
theorem Became.kin (h : Became s m s' k st st') :
    st'.hook = st.hook ∧ st'.parent = st.parent := by
  cases h with
  | alikeOrCancelled hleft =>
    cases hleft with
    | alike hlike => exact ⟨hlike.hook, hlike.parent⟩
    | cancelled _ hlike => exact ⟨hlike.hook, hlike.parent⟩
  | regrouped hlike => exact ⟨hlike.hook, hlike.parent⟩
  | finished => exact ⟨rfl, rfl⟩
  | joined => exact ⟨rfl, rfl⟩

/-- **A strand ends in one of two ways**: it finishes, or it is cancelled by a shutdown. -/
theorem Became.ends (h : Became s m s' k st st') (hend : st.status.isTerminal = false)
    (hend' : st'.status.isTerminal = true) :
    (∃ r, s.finishes m = some (k, r)) ∨
      ∃ st₁ reason, st.Alike st₁ ∧ s.isShutDown = true ∧ s.IsReason reason ∧
        (∀ hook, st.hook = some hook → (∃ entry, s.job? hook.job = some entry) →
          JobTold s s' hook (.err reason)) ∧ st' = st₁.cancelled reason := by
  cases h with
  | alikeOrCancelled hleft =>
    cases hleft with
    | alike hlike => cases hend'.symm.trans (hlike.ended.trans hend)
    | @cancelled st₁ reason _ hlike _ hover hreason htold =>
      exact Or.inr ⟨st₁, reason, hlike, hover, hreason, htold, rfl⟩
  | regrouped hlike hg => cases hend'.symm.trans (hlike.ended.trans hend)
  | finished hfin => exact Or.inl ⟨_, hfin⟩
  | joined => cases hend'.symm.trans hend

/-- **What comes into being with a move** comes while the ready queue is open, and it is newborn or
    a child that is spawned. -/
theorem MoveChange.new (h : MoveChange s m s') (hnone : s.strand? k = none)
    (hst' : s'.strand? k = some st') : s.queue.closed = false ∧
      (st'.Newborn ∨ ∃ p body, m = .spawnChild p body ∧
        st' = Strand.create body none (some p) none) := by
  cases h with
  | mild hfin hawaits hmild => exact (hmild.new hnone hst').imp_right Or.inl
  | announced hfin hawaits hadvances hrows => cases ((hrows k).trans hnone).symm.trans hst'
  | joined hm outcome =>
    rw [strand?_updateStrand, hnone] at hst'
    split at hst' <;> cases hst'
  | @spawned s' p ps body hm hps hrun hopen hrows =>
    rw [hrows] at hst'
    split at hst'
    · exact ⟨hopen, Or.inr ⟨p, body, hm, (Option.some.inj hst').symm⟩⟩
    · rw [strand?_updateStrand, hnone] at hst'
      split at hst' <;> cases hst'
  | @awaited s₁ s₂ p ps ps₁ mode b hawaits hfin hrun hown hlike hlevel hgrows hset =>
    have hnone₁ : s₁.strand? k = none := by
      rw [hown.rows, if_neg, hnone]
      rintro rfl
      cases hown.row.symm.trans hnone
    rw [← hlevel.lasts.closed]
    exact (hset.regrouped_new hown.self hnone₁ hst').imp_right Or.inl
  | @finished s₂ id old r kept hfin hold hrun hhanded =>
    have hne : id ≠ k := by
      rintro rfl
      cases hold.symm.trans hnone
    have hst₂ : (s₂.retire id kept).strand? k = some st' := hst'
    rw [retire_row, if_neg hne] at hst₂
    have hmarked := markFinished_rows hold r.isOk k
    rw [if_neg hne, hnone] at hmarked
    obtain ⟨hopen, hnew⟩ := hhanded.new hmarked hst₂
    rw [(Lasts.markFinished s id r.isOk).closed] at hopen
    exact ⟨hopen, Or.inl hnew⟩

/-- **Only a worker, and the end of a shutdown, takes strands out of the ready queue.** -/
theorem MoveChange.queueGrows (h : MoveChange s m s') (htakes : m.takesOut = false) :
    QueueGrows s s' := by
  cases h with
  | mild hfin hawaits hmild => exact hmild.queueGrows htakes
  | announced hfin hawaits hadvances hrows hlive hjournal hwaiting => exact .of_queue hwaiting
  | joined hm outcome => exact .of_queue rfl
  | spawned hm hst hrun hopen hrows hlive hlasts hmute hgrows => exact hgrows
  | awaited hawaits hfin hrun hown hlike hlevel hgrows hset => exact hgrows.trans hset.queueGrows
  | @finished s₂ id old r kept hfin hold hrun hhanded =>
    obtain ⟨counters, journal, channel, heq⟩ := s.markFinished_eq id r.isOk
    have hmarked : QueueGrows s (s.markFinished id r.isOk) := .of_queue (by rw [heq])
    exact hmarked.trans hhanded.queueGrows

end Scheduler
end CoopSched
