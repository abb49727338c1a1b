import CoopSched.Proofs.Scheduler.Cascade
import CoopSched.Proofs.Scheduler.Journal
import CoopSched.Proofs.Scheduler.Placement
import Mathlib.Data.List.Range

/-!
# Unwinding — what the cancellations of a clean-up set off

When the workers are gone a strand that is cancelled resolves its slot, its job may answer, the
callback may complete bridges, and each of these cancels the strand of the bridge; or its job goes
on to the next index, cannot have a strand made for it, and resolves that slot in turn. `Unwinds` is
this recursion as a relation, one rule for each way in which a part of it can go. No rule has a
bound: a derivation is finite because the recursion comes to an end, and where it would not there is
none.

The marks of a derivation say when a cancellation begins and ends and which indices are claimed on
the way. They keep the books (`Unwinds.spends`): a cancellation that begins takes one strand from
those that have not ended, and a claim takes the next index of its job.
-/

namespace CoopSched

variable {V B : Type}

/-- What can be seen of the recursion from outside. -/
inductive Mark where
  /-- A strand that has not ended is cancelled, … -/
  | enter (id : StrandId)
  /-- … and everything that set off is done. -/
  | leave (id : StrandId)
  /-- An index of a job is handed out. -/
  | claim (j : JobId) (index : Nat)
deriving DecidableEq, Repr

/-- The strands whose cancellation begins, in order. -/
def opened (marks : List Mark) : List StrandId :=
  marks.filterMap fun
    | .enter id => some id
    | _ => none

/-- The indices that a job hands out, in order. -/
def drawn (j : JobId) (marks : List Mark) : List Nat :=
  marks.filterMap fun
    | .claim j' index => if j' = j then some index else none
    | _ => none

@[simp] theorem opened_append (marks marks' : List Mark) :
    opened (marks ++ marks') = opened marks ++ opened marks' := List.filterMap_append

@[simp] theorem drawn_append (j : JobId) (marks marks' : List Mark) :
    drawn j (marks ++ marks') = drawn j marks ++ drawn j marks' := List.filterMap_append

/-- The strands that the records report as cancelled, in order. -/
def cancellations (recs : List (Record V)) : List StrandId :=
  recs.filterMap fun
    | .event ⟨id, .cancelled⟩ => some id
    | _ => none

theorem cancellations_append (recs recs' : List (Record V)) :
    cancellations (recs ++ recs') = cancellations recs ++ cancellations recs' :=
  List.filterMap_append

theorem cancellations_idle {recs : List (Record V)} (h : ∀ rec ∈ recs, rec.isIdle = true) :
    cancellations recs = [] := by
  refine List.filterMap_eq_nil_iff.mpr fun rec hrec => ?_
  have hidle := h rec hrec
  rcases rec with ⟨id, happening⟩ | ⟨j, answer⟩
  · cases happening <;> first | rfl | cases hidle
  · rfl

/-! ## The recursion -/

/-- What is to be done. -/
inductive Errand (V : Type) where
  /-- Strands are to be cancelled one after the other. -/
  | strands (ids : List StrandId) (reason : Failure)
  | cancel (id : StrandId) (reason : Failure)
  /-- A strand launched for a job has ended so. -/
  | resolve (hook : Hook) (outcome : Outcome V)
  | submit (j : JobId) (index : Nat) (outcome : Outcome V)
  /-- A callback runs. -/
  | effects (es : List (Effect V))
  | launchNext (j : JobId)

namespace Scheduler

/-- Does a strand of the job that ends have the next one launched? -/
def chains (s : Scheduler V B) (j : JobId) : Bool :=
  ((s.job? j).bind (·.drive)).any (·.chained)

/-- A job is given back to the scheduler. -/
def setJob (s : Scheduler V B) (j : JobId) (job : Job V) : Scheduler V B :=
  s.updateJob j fun e => { e with job := job }

/-- A job is asked for its next index. -/
def asked (s : Scheduler V B) (j : JobId) (entry : JobEntry V B) : Scheduler V B :=
  s.setJob j entry.job.claim.1

/-- A job gives its answer. -/
def tellAnswer (s : Scheduler V B) (j : JobId) (answer : Outcome (List V)) : Scheduler V B :=
  { s with journal := s.journal.push (.answered j answer) }

/-- From `s` the errand comes to an end in `s'`, with these marks on the way. -/
inductive Unwinds : Scheduler V B → Errand V → List Mark → Scheduler V B → Prop
  -- Strands in turn.
  | nil (s : Scheduler V B) (reason : Failure) : Unwinds s (.strands [] reason) [] s
  | cons {s s₁ s₂ : Scheduler V B} {id : StrandId} {rest : List StrandId} {reason : Failure}
      {marks marks' : List Mark} (hfirst : Unwinds s (.cancel id reason) marks s₁)
      (hrest : Unwinds s₁ (.strands rest reason) marks' s₂) :
      Unwinds s (.strands (id :: rest) reason) (marks ++ marks') s₂
  -- One strand. What has ended is left alone, and a strand that was launched for a job has it told.
  | ended {s : Scheduler V B} {id : StrandId}
      (hend : ∀ st, s.strand? id = some st → st.status.isTerminal = true) (reason : Failure) :
      Unwinds s (.cancel id reason) [] s
  | alone {s : Scheduler V B} {id : StrandId} {st : Strand V B} (hst : s.strand? id = some st)
      (hend : st.status.isTerminal = false) (hhook : st.hook = none) (reason : Failure) :
      Unwinds s (.cancel id reason) [.enter id, .leave id]
        ((s.cut id st.bridge).retire id (some (.err reason)))
  | hooked {s s₁ : Scheduler V B} {id : StrandId} {st : Strand V B} {hook : Hook}
      {reason : Failure} {marks : List Mark} (hst : s.strand? id = some st)
      (hend : st.status.isTerminal = false) (hhook : st.hook = some hook)
      (hset : Unwinds (s.cut id st.bridge) (.resolve hook (.err reason)) marks s₁) :
      Unwinds s (.cancel id reason) (.enter id :: (marks ++ [.leave id])) (s₁.retire id none)
  -- The job of a strand: its slot, and then perhaps the next strand.
  | resolved {s s₁ : Scheduler V B} {hook : Hook} {r : Outcome V} {marks : List Mark}
      (hsubmit : Unwinds s (.submit hook.job hook.index r) marks s₁)
      (hlast : s₁.chains hook.job = false) : Unwinds s (.resolve hook r) marks s₁
  | chained {s s₁ s₂ : Scheduler V B} {hook : Hook} {r : Outcome V} {marks marks' : List Mark}
      (hsubmit : Unwinds s (.submit hook.job hook.index r) marks s₁)
      (hmore : s₁.chains hook.job = true)
      (hlaunch : Unwinds s₁ (.launchNext hook.job) marks' s₂) :
      Unwinds s (.resolve hook r) (marks ++ marks') s₂
  -- A slot. The last one brings the answer, and the callback runs.
  | refused {s : Scheduler V B} {j : JobId} {index : Nat} {r : Outcome V}
      (hno : ∀ entry, s.job? j = some entry → ∃ e, entry.job.submit index r = .error e) :
      Unwinds s (.submit j index r) [] s
  | accepted {s : Scheduler V B} {j : JobId} {index : Nat} {r : Outcome V}
      {entry : JobEntry V B} {job : Job V} (hj : s.job? j = some entry)
      (hsubmit : entry.job.submit index r = .ok (job, none)) :
      Unwinds s (.submit j index r) [] (s.setJob j job)
  | answered {s s₁ : Scheduler V B} {j : JobId} {index : Nat} {r : Outcome V}
      {entry : JobEntry V B} {job : Job V} {answer : Outcome (List V)} {marks : List Mark}
      (hj : s.job? j = some entry) (hsubmit : entry.job.submit index r = .ok (job, some answer))
      (hset : Unwinds ((s.setJob j job).tellAnswer j answer) (.effects (entry.callback answer))
        marks s₁) :
      Unwinds s (.submit j index r) marks s₁
  -- A callback. To claim a bridge is to cancel its strand, for the workers are gone.
  | done (s : Scheduler V B) : Unwinds s (.effects []) [] s
  | panicked (s : Scheduler V B) (rest : List (Effect V)) :
      Unwinds s (.effects (.panic :: rest)) [] s
  | lost {s s₁ : Scheduler V B} {b : BridgeId} {w : Wakeup V} {rest : List (Effect V)}
      {marks : List Mark} (hno : ∀ x, s.bridge? b = some x → x.claim? w = none)
      (hrest : Unwinds s (.effects rest) marks s₁) :
      Unwinds s (.effects (.complete b w :: rest)) marks s₁
  | won {s s₁ s₂ : Scheduler V B} {b : BridgeId} {x claimed : Bridge V} {w : Wakeup V}
      {rest : List (Effect V)} {marks marks' : List Mark} (gone : s.terminated = true)
      (hb : s.bridge? b = some x) (hclaim : x.claim? w = some claimed)
      (hstrike : Unwinds (s.setBridge b claimed) (.cancel x.strand shutDownReason) marks s₁)
      (hrest : Unwinds s₁ (.effects rest) marks' s₂) :
      Unwinds s (.effects (.complete b w :: rest)) (marks ++ marks') s₂
  -- The next strand of a job. An index without one is resolved, and a chained job goes on.
  | undriven {s : Scheduler V B} {j : JobId} (hno : (s.job? j).bind (·.drive) = none) :
      Unwinds s (.launchNext j) [] s
  | exhausted {s : Scheduler V B} {j : JobId} {entry : JobEntry V B} {drive : Drive V B}
      (hj : s.job? j = some entry) (hdrive : entry.drive = some drive)
      (hclaim : entry.job.claim.2 = none) : Unwinds s (.launchNext j) [] (s.asked j entry)
  | launched {s s₁ : Scheduler V B} {j : JobId} {entry : JobEntry V B} {drive : Drive V B}
      {index : Nat} {l : Launch} (hj : s.job? j = some entry) (hdrive : entry.drive = some drive)
      (hclaim : entry.job.claim.2 = some index)
      (hlaunch : (s.asked j entry).launch j drive index = (s₁, l))
      (hdone : ∀ failure, l ≠ .refused failure) :
      Unwinds s (.launchNext j) [.claim j index] s₁
  | stopped {s s₁ s₂ : Scheduler V B} {j : JobId} {entry : JobEntry V B} {drive : Drive V B}
      {index : Nat} {failure : Failure} {marks : List Mark} (hj : s.job? j = some entry)
      (hdrive : entry.drive = some drive) (hclaim : entry.job.claim.2 = some index)
      (hlaunch : (s.asked j entry).launch j drive index = (s₁, .refused failure))
      (hsubmit : Unwinds s₁ (.submit j index (.err failure)) marks s₂)
      (hlast : drive.chained = false) :
      Unwinds s (.launchNext j) (.claim j index :: marks) s₂
  | goesOn {s s₁ s₂ s₃ : Scheduler V B} {j : JobId} {entry : JobEntry V B} {drive : Drive V B}
      {index : Nat} {failure : Failure} {marks marks' : List Mark} (hj : s.job? j = some entry)
      (hdrive : entry.drive = some drive) (hclaim : entry.job.claim.2 = some index)
      (hlaunch : (s.asked j entry).launch j drive index = (s₁, .refused failure))
      (hsubmit : Unwinds s₁ (.submit j index (.err failure)) marks s₂)
      (hmore : drive.chained = true) (hnext : Unwinds s₂ (.launchNext j) marks' s₃) :
      Unwinds s (.launchNext j) (.claim j index :: (marks ++ marks')) s₃

/-! ## The books -/

end Scheduler

/-- A job has gone on and handed out these indices: those from its cursor on, one after the
    other. -/
structure Job.Draws (j j' : Job V) (indices : List Nat) : Prop where
  length : j'.length = j.length
  cursor : j.cursor ≤ j'.cursor
  indices : indices = List.range' j.cursor (min j'.cursor j.length - j.cursor)

namespace Job

variable {j j' j'' : Job V} {l l' : List Nat}

theorem Draws.of_same (hlength : j'.length = j.length) (hcursor : j'.cursor = j.cursor) :
    j.Draws j' [] := by
  refine ⟨hlength, hcursor.ge, ?_⟩
  rw [hcursor, Nat.sub_eq_zero_of_le (Nat.min_le_left _ _), List.range'_zero]

theorem Draws.trans (h : j.Draws j' l) (h' : j'.Draws j'' l') : j.Draws j'' (l ++ l') := by
  refine ⟨h'.length.trans h.length, h.cursor.trans h'.cursor, ?_⟩
  have hle := h.cursor
  have hle' := h'.cursor
  rw [h.indices, h'.indices, h.length]
  rcases Nat.le_total j'.cursor j.length with hin | hout
  · have happend := List.range'_append_1 (s := j.cursor) (m := j'.cursor - j.cursor)
      (n := min j''.cursor j.length - j'.cursor)
    rw [Nat.add_sub_cancel' hle] at happend
    rw [Nat.min_eq_left hin, happend]
    congr 1
    omega
  · -- The cursor had passed the last index, so nothing more is handed out.
    rw [Nat.sub_eq_zero_of_le (show min j''.cursor j.length ≤ j'.cursor by omega),
      List.range'_zero, List.append_nil]
    congr 1
    omega

theorem Draws.nodup (h : j.Draws j' l) : l.Nodup := by
  rw [h.indices]
  exact List.nodup_range'

theorem Draws.bounds (h : j.Draws j' l) {index : Nat} (hindex : index ∈ l) :
    j.cursor ≤ index ∧ index < j.length := by
  rw [h.indices, List.mem_range'_1] at hindex
  omega

/-- Whoever hands an index out has fewer left. -/
theorem Draws.fewer (h : j.Draws j' l) (hne : l ≠ []) :
    j'.length - j'.cursor < j.length - j.cursor := by
  have hlength := h.length
  have hsome : min j'.cursor j.length - j.cursor ≠ 0 := by
    intro hnone
    have hnil := h.indices
    rw [hnone, List.range'_zero] at hnil
    exact hne hnil
  omega

theorem Draws.claim (j : Job V) : j.Draws j.claim.1 j.claim.2.toList := by
  refine ⟨rfl, Nat.le_succ _, ?_⟩
  simp only [Job.claim]
  split
  next hlt =>
    rw [show min (j.cursor + 1) j.length - j.cursor = 1 by omega]
    rfl
  next hge =>
    rw [show min (j.cursor + 1) j.length - j.cursor = 0 by omega]
    rfl

theorem Draws.submit {index : Nat} {r : Outcome V} {answer : Option (Outcome (List V))}
    (h : j.submit index r = .ok (j', answer)) : j.Draws j' [] := by
  have hfinish : ∀ k : Job V, k.finish.1.length = k.length ∧ k.finish.1.cursor = k.cursor := by
    intro k
    unfold finish takeValues
    split
    · exact ⟨rfl, rfl⟩
    · exact ⟨List.length_map _, rfl⟩
  have hresolved : (j.resolved index r).length = j.length := List.length_set
  unfold Job.submit at h
  split at h
  · cases h
  split at h
  · dsimp only at h
    split at h
    · obtain ⟨rfl, -⟩ := Prod.mk.inj (Except.ok.inj h)
      exact .of_same ((hfinish (j.resolved index r)).1.trans hresolved)
        (hfinish (j.resolved index r)).2
    · obtain ⟨rfl, -⟩ := Prod.mk.inj (Except.ok.inj h)
      exact .of_same hresolved rfl
  · cases h

end Job

namespace Scheduler

variable {s s₁ s₂ s' : Scheduler V B} {marks marks' : List Mark}

/-- What has become of a job, and what it has handed out. -/
structure Entailed (e e' : JobEntry V B) (indices : List Nat) : Prop where
  callback : e'.callback = e.callback
  driven : e'.drive.isSome = e.drive.isSome
  drawn : e.job.Draws e'.job indices
  only : indices ≠ [] → e.drive.isSome = true

/-- What the marks between two states account for: the strands that are not unfinished any more, the
    cancellations that were reported, and the indices that are handed out. -/
structure Spends (s : Scheduler V B) (marks : List Mark) (s' : Scheduler V B) : Prop where
  terminated : s'.terminated = s.terminated
  closed : s'.queue.closed = s.queue.closed
  unfinished : ∀ k : StrandId, k.number ∈ s'.unfinished ↔
    k.number ∈ s.unfinished ∧ k ∉ opened marks
  opened_nodup : (opened marks).Nodup
  opened_unfinished : ∀ k ∈ opened marks, k.number ∈ s.unfinished
  told : cancellations s'.journal.toList = cancellations s.journal.toList ++ opened marks
  jobs : ∀ j entry, s.job? j = some entry →
    ∃ entry', s'.job? j = some entry' ∧ Entailed entry entry' (drawn j marks)
  strange : ∀ j, s.job? j = none → s'.job? j = none ∧ drawn j marks = []
  owners : ∀ b x', s'.bridge? b = some x' → ∃ x, s.bridge? b = some x ∧ x'.strand = x.strand
  hooks : ∀ k st', s'.strand? k = some st' → ∃ st, s.strand? k = some st ∧ st'.hook = st.hook

theorem Entailed.of_same {e e' : JobEntry V B} (hcallback : e'.callback = e.callback)
    (hdriven : e'.drive.isSome = e.drive.isSome) (hjob : e.job.Draws e'.job []) :
    Entailed e e' [] :=
  ⟨hcallback, hdriven, hjob, fun hne => absurd rfl hne⟩

theorem Entailed.trans {e e' e'' : JobEntry V B} {l l' : List Nat} (h : Entailed e e' l)
    (h' : Entailed e' e'' l') : Entailed e e'' (l ++ l') where
  callback := h'.callback.trans h.callback
  driven := h'.driven.trans h.driven
  drawn := h.drawn.trans h'.drawn
  only := by
    intro hne
    by_cases hl : l = []
    · subst hl
      exact h.driven.symm.trans (h'.only hne)
    · exact h.only hl

namespace Spends

theorem congr (h : Spends s marks s') (hopened : opened marks' = opened marks)
    (hdrawn : ∀ j, drawn j marks' = drawn j marks) : Spends s marks' s' where
  terminated := h.terminated
  closed := h.closed
  unfinished := by rw [hopened]; exact h.unfinished
  opened_nodup := by rw [hopened]; exact h.opened_nodup
  opened_unfinished := by rw [hopened]; exact h.opened_unfinished
  told := by rw [hopened]; exact h.told
  jobs := fun j => by rw [hdrawn]; exact h.jobs j
  strange := fun j => by rw [hdrawn]; exact h.strange j
  owners := h.owners
  hooks := h.hooks

theorem trans (h : Spends s marks s₁) (h' : Spends s₁ marks' s₂) :
    Spends s (marks ++ marks') s₂ where
  terminated := h'.terminated.trans h.terminated
  closed := h'.closed.trans h.closed
  unfinished := by
    intro k
    rw [h'.unfinished, h.unfinished, opened_append, List.mem_append, not_or, and_assoc]
  opened_nodup := by
    rw [opened_append]
    refine List.nodup_append.mpr ⟨h.opened_nodup, h'.opened_nodup, ?_⟩
    rintro k hk k' hk' rfl
    exact ((h.unfinished k).mp (h'.opened_unfinished k hk')).2 hk
  opened_unfinished := by
    intro k hk
    rw [opened_append, List.mem_append] at hk
    rcases hk with hk | hk
    · exact h.opened_unfinished k hk
    · exact ((h.unfinished k).mp (h'.opened_unfinished k hk)).1
  told := by rw [h'.told, h.told, opened_append, List.append_assoc]
  jobs := by
    intro j entry hj
    obtain ⟨entry', hj', hentailed⟩ := h.jobs j entry hj
    obtain ⟨entry'', hj'', hentailed'⟩ := h'.jobs j entry' hj'
    exact ⟨entry'', hj'', by rw [drawn_append]; exact hentailed.trans hentailed'⟩
  strange := by
    intro j hj
    obtain ⟨hj', hnone⟩ := h.strange j hj
    obtain ⟨hj'', hnone'⟩ := h'.strange j hj'
    exact ⟨hj'', by rw [drawn_append, hnone, hnone', List.append_nil]⟩
  owners := by
    intro b x'' hx''
    obtain ⟨x', hx', hstrand'⟩ := h'.owners b x'' hx''
    obtain ⟨x, hx, hstrand⟩ := h.owners b x' hx'
    exact ⟨x, hx, hstrand'.trans hstrand⟩
  hooks := by
    intro k st'' hst''
    obtain ⟨st', hst', hhook'⟩ := h'.hooks k st'' hst''
    obtain ⟨st, hst, hhook⟩ := h.hooks k st' hst'
    exact ⟨st, hst, hhook'.trans hhook⟩

theorem subset (h : Spends s marks s') : s'.unfinished ⊆ s.unfinished :=
  fun m hm => ((h.unfinished ⟨m⟩).mp hm).1

/-- Nothing is accounted for where the rows stay. -/
theorem still (hrows : ∀ k, (s'.strand? k).map (fun st => (st.status, st.hook)) =
      (s.strand? k).map fun st => (st.status, st.hook))
    (hjobs : s'.jobs = s.jobs)
    (howners : ∀ b x', s'.bridge? b = some x' → ∃ x, s.bridge? b = some x ∧ x'.strand = x.strand)
    (hterm : s'.terminated = s.terminated) (hclosed : s'.queue.closed = s.queue.closed)
    (htold : cancellations s'.journal.toList = cancellations s.journal.toList) :
    Spends s [] s' where
  terminated := hterm
  closed := hclosed
  unfinished := by
    intro k
    have hsame : k.number ∈ s'.unfinished ↔ k.number ∈ s.unfinished := by
      have hrow := hrows k
      rw [mem_unfinished, mem_unfinished]
      constructor
      · rintro ⟨st', hst', hend⟩
        rw [show s'.strand? k = some st' from hst', Option.map_some] at hrow
        obtain ⟨st, hst, heq⟩ := Option.map_eq_some_iff.mp hrow.symm
        exact ⟨st, hst, (Prod.mk.inj heq).1 ▸ hend⟩
      · rintro ⟨st, hst, hend⟩
        rw [show s.strand? k = some st from hst, Option.map_some] at hrow
        obtain ⟨st', hst', heq⟩ := Option.map_eq_some_iff.mp hrow
        exact ⟨st', hst', (Prod.mk.inj heq).1 ▸ hend⟩
    rw [hsame]
    exact (and_iff_left List.not_mem_nil).symm
  opened_nodup := List.nodup_nil
  opened_unfinished := fun k hk => absurd hk List.not_mem_nil
  told := by rw [htold]; exact (List.append_nil _).symm
  jobs := fun j entry hj =>
    ⟨entry, by rw [job?, hjobs]; exact hj, .of_same rfl rfl (.of_same rfl rfl)⟩
  strange := fun j hj => ⟨by rw [job?, hjobs]; exact hj, rfl⟩
  owners := howners
  hooks := by
    intro k st' hst'
    have hrow := hrows k
    rw [hst', Option.map_some] at hrow
    obtain ⟨st, hst, heq⟩ := Option.map_eq_some_iff.mp hrow.symm
    exact ⟨st, hst, (Prod.mk.inj heq).2.symm⟩

theorem refl (s : Scheduler V B) : Spends s [] s :=
  .still (fun _ => rfl) rfl (fun _ x' hx' => ⟨x', hx', rfl⟩) rfl rfl rfl

/-- A job goes on, and what it hands out is in the marks. -/
theorem updateJob {j : JobId} {entry : JobEntry V B} {f : JobEntry V B → JobEntry V B}
    {l : List Nat} (hj : s.job? j = some entry) (h : Entailed entry (f entry) l)
    (hopened : opened marks = []) (hdrawn : ∀ i, drawn i marks = if j = i then l else []) :
    Spends s marks (s.updateJob j f) where
  terminated := rfl
  closed := rfl
  unfinished := fun k => by
    rw [hopened]
    exact (and_iff_left List.not_mem_nil).symm
  opened_nodup := by rw [hopened]; exact List.nodup_nil
  opened_unfinished := fun k hk => by rw [hopened] at hk; cases hk
  told := by rw [hopened]; exact (List.append_nil _).symm
  jobs := by
    intro i entry' hi
    rw [job?_updateJob, hdrawn]
    split
    next hij =>
      subst hij
      rw [hi]
      obtain rfl := Option.some.inj (hj.symm.trans hi)
      exact ⟨_, rfl, h⟩
    next => exact ⟨entry', hi, .of_same rfl rfl (.of_same rfl rfl)⟩
  strange := by
    intro i hi
    have hij : ¬ j = i := by
      rintro rfl
      cases hj.symm.trans hi
    rw [job?_updateJob, hdrawn, if_neg hij, if_neg hij]
    exact ⟨hi, rfl⟩
  owners := fun _ x' hx' => ⟨x', hx', rfl⟩
  hooks := fun _ st' hst' => ⟨st', hst', rfl⟩

theorem setJob {j : JobId} {entry : JobEntry V B} {job : Job V} (hj : s.job? j = some entry)
    (h : entry.job.Draws job []) : Spends s [] (s.setJob j job) :=
  .updateJob (l := []) hj (.of_same rfl rfl h) rfl fun i => by rw [ite_self]; rfl

/-- An index that is handed out has its mark. -/
theorem asked {j : JobId} {entry : JobEntry V B} {drive : Drive V B} (hj : s.job? j = some entry)
    (hdrive : entry.drive = some drive) :
    Spends s (entry.job.claim.2.toList.map (.claim j)) (s.asked j entry) := by
  refine .updateJob (l := entry.job.claim.2.toList) hj
    ⟨rfl, rfl, .claim entry.job, fun _ => by rw [hdrive]; rfl⟩ ?_ fun i => ?_
  · cases entry.job.claim.2 <;> rfl
  · cases entry.job.claim.2 with
    | none => exact (ite_self []).symm
    | some index =>
      show drawn i [.claim j index] = if j = i then [index] else []
      by_cases hij : j = i <;> simp [drawn, hij]

theorem tellAnswer (s : Scheduler V B) (j : JobId) (answer : Outcome (List V)) :
    Spends s [] (s.tellAnswer j answer) := by
  refine .still (fun _ => rfl) rfl (fun _ x' hx' => ⟨x', hx', rfl⟩) rfl rfl ?_
  show cancellations (s.journal.push _).toList = _
  rw [Array.toList_push, cancellations_append]
  exact List.append_nil _

theorem setBridge {b : BridgeId} {x x' : Bridge V} (hb : s.bridge? b = some x)
    (hstrand : x'.strand = x.strand) : Spends s [] (s.setBridge b x') := by
  refine .still (fun _ => rfl) rfl (fun a y hy => ?_) rfl rfl rfl
  rw [bridge?_setBridge] at hy
  split at hy
  next heq =>
    subst heq
    rw [hb, Option.map_some] at hy
    exact ⟨x, hb, by rw [← Option.some.inj hy, hstrand]⟩
  next => exact ⟨y, hy, rfl⟩

/-- A strand that is cut off is the one that its mark takes away. -/
theorem cut {id : StrandId} {st : Strand V B} (hst : s.strand? id = some st)
    (hend : st.status.isTerminal = false) : Spends s [.enter id] (s.cut id st.bridge) := by
  have hbridges : Bridges (fun _ _ => True) True s (s.cut id st.bridge) := .cut trivial hst
  have hrow := cut_row hst
  obtain ⟨idle, htells, hidle⟩ := cut_tells s id st.bridge
  refine
    { terminated := (Steady.cut hst).terminated, closed := (Steady.cut hst).closed
      unfinished := fun k => ?_, opened_nodup := List.nodup_singleton id
      opened_unfinished := fun k hk => ?_, told := ?_, jobs := fun j entry hj => ?_
      strange := fun j hj => ⟨by rw [job?, cut_jobs hst]; exact hj, rfl⟩
      owners := fun b x' hx' => ?_, hooks := fun k st' hst' => ?_ }
  · rw [mem_unfinished, mem_unfinished]
    show (∃ st', (s.cut id st.bridge).strand? k = some st' ∧ _) ↔
      (∃ st', s.strand? k = some st' ∧ _) ∧ k ∉ [id]
    rw [hrow, List.mem_singleton]
    by_cases hk : id = k
    · subst hk
      simp [Strand.cut, Status.isTerminal]
    · simp [hk, Ne.symm hk]
  · rw [List.mem_singleton.mp hk]
    exact mem_unfinished.mpr ⟨st, hst, hend⟩
  · rw [htells, cancellations_append, cancellations_append, cancellations_idle hidle]
    rfl
  · exact ⟨entry, by rw [job?, cut_jobs hst]; exact hj, .of_same rfl rfl (.of_same rfl rfl)⟩
  · cases hb : s.bridge? b with
    | none => cases (hbridges.new b hb).symm.trans hx'
    | some x =>
      obtain ⟨y, hy, hon⟩ := hbridges.old b x hb
      obtain rfl := Option.some.inj (hy.symm.trans hx')
      exact ⟨x, rfl, hon.strand⟩
  · rw [hrow] at hst'
    split at hst'
    next heq =>
      subst heq
      exact ⟨st, hst, by rw [← Option.some.inj hst']; rfl⟩
    next => exact ⟨st', hst', rfl⟩

theorem retire (s : Scheduler V B) (id : StrandId) (kept : Option (Outcome V)) :
    Spends s [.leave id] (s.retire id kept) := by
  have hstill : Spends s [] (s.retire id kept) := by
    refine .still (fun k => ?_) rfl (fun _ x' hx' => ⟨x', hx', rfl⟩) rfl rfl rfl
    rw [retire_row]
    split
    · cases s.strand? k <;> rfl
    · rfl
  exact hstill.congr rfl fun _ => rfl

/-- Where the queue takes no new strands, asking for one leaves nothing but its story. -/
theorem refusal (hclosed : s.queue.closed = true) (r : SpawnRequest B) :
    Spends s [] (s.spawn r).1 := by
  have htold : cancellations (s.spawn r).1.journal.toList = cancellations s.journal.toList := by
    rcases spawn_told s r with ⟨-, heq⟩ | ⟨_, _, heq⟩ | ⟨_, _, heq⟩
    · rw [heq]
    · rw [heq]
      show cancellations (s.journal.push _).toList = _
      rw [Array.toList_push, cancellations_append]
      exact List.append_nil _
    · rw [heq]
      show cancellations ((s.journal.push _).push _).toList = _
      rw [Array.toList_push, Array.toList_push, cancellations_append, cancellations_append]
      exact (List.append_nil _).trans (List.append_nil _)
  rcases spawn_cases s r with ⟨hopen, -⟩ | ⟨_, _, _, _, _, heq, hget, -⟩
  · cases hclosed.symm.trans hopen
  rw [heq] at htold ⊢
  refine .still (fun k => ?_) rfl (fun _ x' hx' => ⟨x', hx', rfl⟩) rfl rfl htold
  exact congrArg _ (hget k.number)

/-- Where the queue takes no new strands a launch changes nothing but the drive of its job. -/
theorem launch {j : JobId} {entry : JobEntry V B} {drive : Drive V B}
    (hclosed : s.queue.closed = true) (hj : s.job? j = some entry)
    (hdrive : entry.drive = some drive) (index : Nat) :
    Spends s [] (s.launch j drive index).1 := by
  unfold Scheduler.launch
  split
  · exact .refl s
  next input hinput =>
    have htaken : Spends s [] (s.updateJob j fun e =>
        { e with drive := some { drive with inputs := drive.inputs.set index none } }) :=
      .updateJob (l := []) hj (.of_same rfl (by rw [hdrive]; rfl) (.of_same rfl rfl)) rfl
        fun i => by rw [ite_self]; rfl
    dsimp only
    split
    · exact htaken
    next body hbody =>
      have hspawn : Spends (s.updateJob j fun e =>
          { e with drive := some { drive with inputs := drive.inputs.set index none } }) []
          ((s.updateJob j fun e =>
            { e with drive := some { drive with inputs := drive.inputs.set index none } }).spawn
            { body := body, admission := .invocation, hook := some ⟨j, index⟩ }).1 :=
        refusal (by exact hclosed) _
      split
      next heq =>
        rw [heq] at hspawn
        exact htaken.trans hspawn
      next heq =>
        rw [heq] at hspawn
        exact htaken.trans hspawn

/-- An index is handed out, and its strand is asked for. -/
theorem claimed {j : JobId} {entry : JobEntry V B} {drive : Drive V B} {index : Nat} {l : Launch}
    (hj : s.job? j = some entry) (hdrive : entry.drive = some drive)
    (hclaim : entry.job.claim.2 = some index)
    (hlaunch : (s.asked j entry).launch j drive index = (s₁, l))
    (hclosed : s.queue.closed = true) : Spends s [.claim j index] s₁ := by
  have hasked := Spends.asked hj hdrive
  rw [hclaim] at hasked
  have hj' : (s.asked j entry).job? j = some { entry with job := entry.job.claim.1 } := by
    show (s.updateJob j _).job? j = _
    rw [job?_updateJob, if_pos rfl, hj]
    rfl
  have hlaunched := Spends.launch (s := s.asked j entry) hclosed hj' hdrive index
  rw [hlaunch] at hlaunched
  exact hasked.trans hlaunched

end Spends

/-- The marks of the recursion account for what has become of the strands and of the jobs. -/
theorem Unwinds.spends {errand : Errand V} (h : Unwinds s errand marks s')
    (hclosed : s.queue.closed = true) : Spends s marks s' := by
  induction h with
  | nil s reason => exact .refl s
  | cons hfirst hrest ihfirst ihrest =>
    have hspends := ihfirst hclosed
    exact hspends.trans (ihrest (hspends.closed.trans hclosed))
  | ended hend reason => exact .refl _
  | alone hst hend hhook reason => exact (Spends.cut hst hend).trans (.retire _ _ _)
  | @hooked s s₁ id st hook reason marks hst hend hhook hset ih =>
    have hcut := Spends.cut hst hend
    have hspends := (hcut.trans (ih (hcut.closed.trans hclosed))).trans (.retire s₁ id none)
    rwa [List.append_assoc] at hspends
  | resolved hsubmit hlast ih => exact ih hclosed
  | chained hsubmit hmore hlaunch ihsubmit ihlaunch =>
    have hspends := ihsubmit hclosed
    exact hspends.trans (ihlaunch (hspends.closed.trans hclosed))
  | refused hno => exact .refl _
  | accepted hj hsubmit => exact .setJob hj (.submit hsubmit)
  | @answered s s₁ j index r entry job answer marks hj hsubmit hset ih =>
    have htold := (Spends.setJob hj (.submit hsubmit)).trans (.tellAnswer _ j answer)
    exact htold.trans (ih (htold.closed.trans hclosed))
  | done s => exact .refl s
  | panicked s rest => exact .refl s
  | lost hno hrest ih => exact ih hclosed
  | @won s s₁ s₂ b x claimed w rest marks marks' gone hb hclaim hstrike hrest ihstrike ihrest =>
    have hsame : claimed.strand = x.strand := by
      obtain ⟨hx, rfl⟩ := claim?_eq_some hclaim
      rfl
    have hclaimed := Spends.setBridge hb hsame
    have hstruck := hclaimed.trans (ihstrike (hclaimed.closed.trans hclosed))
    exact hstruck.trans (ihrest (hstruck.closed.trans hclosed))
  | undriven hno => exact .refl _
  | exhausted hj hdrive hclaim =>
    have hasked := Spends.asked hj hdrive
    rwa [hclaim] at hasked
  | launched hj hdrive hclaim hlaunch hdone => exact .claimed hj hdrive hclaim hlaunch hclosed
  | stopped hj hdrive hclaim hlaunch hsubmit hlast ih =>
    have hclaimed := Spends.claimed hj hdrive hclaim hlaunch hclosed
    exact hclaimed.trans (ih (hclaimed.closed.trans hclosed))
  | goesOn hj hdrive hclaim hlaunch hsubmit hmore hnext ihsubmit ihnext =>
    have hclaimed := Spends.claimed hj hdrive hclaim hlaunch hclosed
    have hresolved := hclaimed.trans (ihsubmit (hclaimed.closed.trans hclosed))
    have hspends := hresolved.trans (ihnext (hresolved.closed.trans hclosed))
    rwa [List.append_assoc] at hspends

/-! ## What an errand comes to

For each errand the state says which rule applies, and so what a derivation of it is made of. -/

theorem drive_of_job {j : JobId} {entry : JobEntry V B} {drive : Drive V B}
    (hj : s.job? j = some entry) (hdrive : entry.drive = some drive) :
    (s.job? j).bind (·.drive) = some drive := by
  rw [hj]
  exact hdrive

namespace Unwinds

variable {t : Scheduler V B} {id : StrandId} {st : Strand V B} {reason : Failure}
  {j : JobId} {index : Nat} {r : Outcome V} {entry : JobEntry V B} {job : Job V}
  {drive : Drive V B}

/-- A strand that has ended is left alone. -/
theorem of_ended (h : Unwinds s (.cancel id reason) marks t)
    (hend : ∀ st, s.strand? id = some st → st.status.isTerminal = true) :
    marks = [] ∧ t = s := by
  cases h with
  | ended => exact ⟨rfl, rfl⟩
  | alone hst hnot => cases hnot.symm.trans (hend _ hst)
  | hooked hst hnot => cases hnot.symm.trans (hend _ hst)

/-- A strand that was not launched for a job ends, and nothing follows. -/
theorem of_unhooked (h : Unwinds s (.cancel id reason) marks t) (hst : s.strand? id = some st)
    (hend : st.status.isTerminal = false) (hhook : st.hook = none) :
    marks = [.enter id, .leave id] ∧
      t = (s.cut id st.bridge).retire id (some (.err reason)) := by
  cases h with
  | ended hend' => cases hend.symm.trans (hend' _ hst)
  | alone hst' =>
    obtain rfl := Option.some.inj (hst.symm.trans hst')
    exact ⟨rfl, rfl⟩
  | hooked hst' _ hhook' =>
    obtain rfl := Option.some.inj (hst.symm.trans hst')
    cases hhook.symm.trans hhook'

/-- A strand that was launched for a job has it told, between its own marks. -/
theorem of_hooked {hook : Hook} (h : Unwinds s (.cancel id reason) marks t)
    (hst : s.strand? id = some st) (hend : st.status.isTerminal = false)
    (hhook : st.hook = some hook) :
    ∃ marks₁ s₁, Unwinds (s.cut id st.bridge) (.resolve hook (.err reason)) marks₁ s₁ ∧
      marks = .enter id :: (marks₁ ++ [.leave id]) ∧ t = s₁.retire id none := by
  cases h with
  | ended hend' => cases hend.symm.trans (hend' _ hst)
  | alone hst' _ hhook' =>
    obtain rfl := Option.some.inj (hst.symm.trans hst')
    cases hhook.symm.trans hhook'
  | hooked hst' _ hhook' hset' =>
    obtain rfl := Option.some.inj (hst.symm.trans hst')
    obtain rfl := Option.some.inj (hhook.symm.trans hhook')
    exact ⟨_, _, hset', rfl, rfl⟩

/-- A job that is told of a strand takes the result, and if it is chained it goes on. -/
theorem of_resolve {hook : Hook} (h : Unwinds s (.resolve hook r) marks t) :
    ∃ marks₁ s₁, Unwinds s (.submit hook.job hook.index r) marks₁ s₁ ∧
      (s₁.chains hook.job = false ∧ marks = marks₁ ∧ t = s₁ ∨
        s₁.chains hook.job = true ∧ ∃ marks₂, marks = marks₁ ++ marks₂ ∧
          Unwinds s₁ (.launchNext hook.job) marks₂ t) := by
  cases h with
  | resolved hsubmit hlast => exact ⟨_, _, hsubmit, Or.inl ⟨hlast, rfl, rfl⟩⟩
  | chained hsubmit hmore hlaunch => exact ⟨_, _, hsubmit, Or.inr ⟨hmore, _, rfl, hlaunch⟩⟩

/-- A result that the job does not take changes nothing. -/
theorem of_refused (h : Unwinds s (.submit j index r) marks t)
    (hno : ∀ entry, s.job? j = some entry → ∃ e, entry.job.submit index r = .error e) :
    marks = [] ∧ t = s := by
  cases h with
  | refused => exact ⟨rfl, rfl⟩
  | accepted hj hsubmit =>
    obtain ⟨e, he⟩ := hno _ hj
    cases he.symm.trans hsubmit
  | answered hj hsubmit =>
    obtain ⟨e, he⟩ := hno _ hj
    cases he.symm.trans hsubmit

/-- A result that leaves slots open is put down, and that is all. -/
theorem of_accepted (h : Unwinds s (.submit j index r) marks t) (hj : s.job? j = some entry)
    (hsubmit : entry.job.submit index r = .ok (job, none)) :
    marks = [] ∧ t = s.setJob j job := by
  cases h with
  | refused hno =>
    obtain ⟨e, he⟩ := hno _ hj
    cases he.symm.trans hsubmit
  | accepted hj' hsubmit' =>
    obtain rfl := Option.some.inj (hj.symm.trans hj')
    cases hsubmit.symm.trans hsubmit'
    exact ⟨rfl, rfl⟩
  | answered hj' hsubmit' =>
    obtain rfl := Option.some.inj (hj.symm.trans hj')
    cases hsubmit.symm.trans hsubmit'

/-- After the last result the job answers, and the rest is what its callback does. -/
theorem of_answered {answer : Outcome (List V)} (h : Unwinds s (.submit j index r) marks t)
    (hj : s.job? j = some entry) (hsubmit : entry.job.submit index r = .ok (job, some answer)) :
    Unwinds ((s.setJob j job).tellAnswer j answer) (.effects (entry.callback answer)) marks t := by
  cases h with
  | refused hno =>
    obtain ⟨e, he⟩ := hno _ hj
    cases he.symm.trans hsubmit
  | accepted hj' hsubmit' =>
    obtain rfl := Option.some.inj (hj.symm.trans hj')
    cases hsubmit.symm.trans hsubmit'
  | answered hj' hsubmit' hset =>
    obtain rfl := Option.some.inj (hj.symm.trans hj')
    cases hsubmit.symm.trans hsubmit'
    exact hset

/-- A completion that does not claim its bridge is passed over. -/
theorem of_lost {b : BridgeId} {w : Wakeup V} {rest : List (Effect V)}
    (h : Unwinds s (.effects (.complete b w :: rest)) marks t)
    (hno : ∀ x, s.bridge? b = some x → x.claim? w = none) :
    Unwinds s (.effects rest) marks t := by
  cases h with
  | lost _ hrest => exact hrest
  | won _ hb hclaim => cases (hno _ hb).symm.trans hclaim

/-- A completion that claims its bridge has the strand of the bridge cancelled first. -/
theorem of_won {b : BridgeId} {x claimed : Bridge V} {w : Wakeup V} {rest : List (Effect V)}
    (h : Unwinds s (.effects (.complete b w :: rest)) marks t) (hb : s.bridge? b = some x)
    (hclaim : x.claim? w = some claimed) :
    ∃ marks₁ marks₂ s₁,
      Unwinds (s.setBridge b claimed) (.cancel x.strand shutDownReason) marks₁ s₁ ∧
      Unwinds s₁ (.effects rest) marks₂ t ∧ marks = marks₁ ++ marks₂ := by
  cases h with
  | lost hno => cases (hno _ hb).symm.trans hclaim
  | won _ hb' hclaim' hstrike hrest =>
    obtain rfl := Option.some.inj (hb.symm.trans hb')
    obtain rfl := Option.some.inj (hclaim.symm.trans hclaim')
    exact ⟨_, _, _, hstrike, hrest, rfl⟩

/-- A job that does not run on the scheduler has no strands to launch. -/
theorem of_undriven (h : Unwinds s (.launchNext j) marks t)
    (hno : (s.job? j).bind (·.drive) = none) : marks = [] ∧ t = s := by
  cases h with
  | undriven => exact ⟨rfl, rfl⟩
  | exhausted hj hdrive => cases (drive_of_job hj hdrive).symm.trans hno
  | launched hj hdrive => cases (drive_of_job hj hdrive).symm.trans hno
  | stopped hj hdrive => cases (drive_of_job hj hdrive).symm.trans hno
  | goesOn hj hdrive => cases (drive_of_job hj hdrive).symm.trans hno

/-- A job without an index left is asked, and that is all. -/
theorem of_exhausted (h : Unwinds s (.launchNext j) marks t) (hj : s.job? j = some entry)
    (hdrive : entry.drive = some drive) (hclaim : entry.job.claim.2 = none) :
    marks = [] ∧ t = s.asked j entry := by
  cases h with
  | undriven hno => cases (drive_of_job hj hdrive).symm.trans hno
  | exhausted hj' =>
    obtain rfl := Option.some.inj (hj.symm.trans hj')
    exact ⟨rfl, rfl⟩
  | launched hj' _ hclaim' =>
    obtain rfl := Option.some.inj (hj.symm.trans hj')
    cases hclaim.symm.trans hclaim'
  | stopped hj' _ hclaim' =>
    obtain rfl := Option.some.inj (hj.symm.trans hj')
    cases hclaim.symm.trans hclaim'
  | goesOn hj' _ hclaim' =>
    obtain rfl := Option.some.inj (hj.symm.trans hj')
    cases hclaim.symm.trans hclaim'

/-- A job that has an index left either has a strand made for it, or resolves that slot at once. -/
theorem of_claim {l : Launch} (h : Unwinds s (.launchNext j) marks t)
    (hj : s.job? j = some entry) (hdrive : entry.drive = some drive)
    (hclaim : entry.job.claim.2 = some index)
    (hlaunch : (s.asked j entry).launch j drive index = (s₁, l)) :
    (marks = [.claim j index] ∧ t = s₁ ∧ ∀ failure, l ≠ .refused failure) ∨
    ∃ failure marks₁ s₂, l = .refused failure ∧
      Unwinds s₁ (.submit j index (.err failure)) marks₁ s₂ ∧
      (drive.chained = false ∧ marks = .claim j index :: marks₁ ∧ t = s₂ ∨
        drive.chained = true ∧ ∃ marks₂, marks = .claim j index :: (marks₁ ++ marks₂) ∧
          Unwinds s₂ (.launchNext j) marks₂ t) := by
  cases h with
  | undriven hno => cases (drive_of_job hj hdrive).symm.trans hno
  | exhausted hj' _ hclaim' =>
    obtain rfl := Option.some.inj (hj.symm.trans hj')
    cases hclaim.symm.trans hclaim'
  | launched hj' hdrive' hclaim' hlaunch' hdone' =>
    obtain rfl := Option.some.inj (hj.symm.trans hj')
    cases hdrive.symm.trans hdrive'
    cases hclaim.symm.trans hclaim'
    cases hlaunch.symm.trans hlaunch'
    exact Or.inl ⟨rfl, rfl, hdone'⟩
  | stopped hj' hdrive' hclaim' hlaunch' hsubmit hlast =>
    obtain rfl := Option.some.inj (hj.symm.trans hj')
    cases hdrive.symm.trans hdrive'
    cases hclaim.symm.trans hclaim'
    cases hlaunch.symm.trans hlaunch'
    exact Or.inr ⟨_, _, _, rfl, hsubmit, Or.inl ⟨hlast, rfl, rfl⟩⟩
  | goesOn hj' hdrive' hclaim' hlaunch' hsubmit hmore hnext =>
    obtain rfl := Option.some.inj (hj.symm.trans hj')
    cases hdrive.symm.trans hdrive'
    cases hclaim.symm.trans hclaim'
    cases hlaunch.symm.trans hlaunch'
    exact Or.inr ⟨_, _, _, rfl, hsubmit, Or.inr ⟨hmore, _, rfl, hnext⟩⟩

end Unwinds

/-! ## There is one way -/

/-- **The recursion can go in one way only.** -/
theorem Unwinds.unique {errand : Errand V} {t : Scheduler V B} (h : Unwinds s errand marks s')
    (h' : Unwinds s errand marks' t) : marks' = marks ∧ t = s' := by
  -- The rule of `h` fixes what `h'` is made of, and the induction compares the parts.
  induction h generalizing marks' t with
  | nil s reason =>
    cases h'
    exact ⟨rfl, rfl⟩
  | cons hfirst hrest ihfirst ihrest =>
    cases h' with
    | cons hfirst' hrest' =>
      obtain ⟨rfl, rfl⟩ := ihfirst hfirst'
      obtain ⟨rfl, rfl⟩ := ihrest hrest'
      exact ⟨rfl, rfl⟩
  | ended hend reason => exact h'.of_ended hend
  | alone hst hend hhook reason => exact h'.of_unhooked hst hend hhook
  | hooked hst hend hhook hset ih =>
    obtain ⟨_, _, hset', rfl, rfl⟩ := h'.of_hooked hst hend hhook
    obtain ⟨rfl, rfl⟩ := ih hset'
    exact ⟨rfl, rfl⟩
  | resolved hsubmit hlast ih =>
    obtain ⟨_, _, hsubmit', hnext⟩ := h'.of_resolve
    obtain ⟨rfl, rfl⟩ := ih hsubmit'
    obtain ⟨-, rfl, rfl⟩ | ⟨hmore, -⟩ := hnext
    · exact ⟨rfl, rfl⟩
    · cases hlast.symm.trans hmore
  | chained hsubmit hmore hlaunch ihsubmit ihlaunch =>
    obtain ⟨_, _, hsubmit', hnext⟩ := h'.of_resolve
    obtain ⟨rfl, rfl⟩ := ihsubmit hsubmit'
    obtain ⟨hlast, -⟩ | ⟨-, _, rfl, hlaunch'⟩ := hnext
    · cases hlast.symm.trans hmore
    obtain ⟨rfl, rfl⟩ := ihlaunch hlaunch'
    exact ⟨rfl, rfl⟩
  | refused hno => exact h'.of_refused hno
  | accepted hj hsubmit => exact h'.of_accepted hj hsubmit
  | answered hj hsubmit hset ih => exact ih (h'.of_answered hj hsubmit)
  | done s =>
    cases h'
    exact ⟨rfl, rfl⟩
  | panicked s rest =>
    cases h'
    exact ⟨rfl, rfl⟩
  | lost hno hrest ih => exact ih (h'.of_lost hno)
  | won gone hb hclaim hstrike hrest ihstrike ihrest =>
    obtain ⟨_, _, _, hstrike', hrest', rfl⟩ := h'.of_won hb hclaim
    obtain ⟨rfl, rfl⟩ := ihstrike hstrike'
    obtain ⟨rfl, rfl⟩ := ihrest hrest'
    exact ⟨rfl, rfl⟩
  | undriven hno => exact h'.of_undriven hno
  | exhausted hj hdrive hclaim => exact h'.of_exhausted hj hdrive hclaim
  | launched hj hdrive hclaim hlaunch hdone =>
    obtain ⟨rfl, rfl, -⟩ | ⟨failure, _, _, hl, -⟩ := h'.of_claim hj hdrive hclaim hlaunch
    · exact ⟨rfl, rfl⟩
    · exact absurd hl (hdone failure)
  | stopped hj hdrive hclaim hlaunch hsubmit hlast ih =>
    obtain ⟨-, -, hdone⟩ | ⟨failure, _, _, hl, hsubmit', hnext⟩ :=
      h'.of_claim hj hdrive hclaim hlaunch
    · exact absurd rfl (hdone _)
    cases hl
    obtain ⟨rfl, rfl⟩ := ih hsubmit'
    obtain ⟨-, rfl, rfl⟩ | ⟨hmore, -⟩ := hnext
    · exact ⟨rfl, rfl⟩
    · cases hlast.symm.trans hmore
  | goesOn hj hdrive hclaim hlaunch hsubmit hmore hnext ihsubmit ihnext =>
    obtain ⟨-, -, hdone⟩ | ⟨failure, _, _, hl, hsubmit', hnext'⟩ :=
      h'.of_claim hj hdrive hclaim hlaunch
    · exact absurd rfl (hdone _)
    cases hl
    obtain ⟨rfl, rfl⟩ := ihsubmit hsubmit'
    obtain ⟨hlast, -⟩ | ⟨-, _, rfl, hnext'⟩ := hnext'
    · cases hlast.symm.trans hmore
    obtain ⟨rfl, rfl⟩ := ihnext hnext'
    exact ⟨rfl, rfl⟩

end Scheduler
end CoopSched
