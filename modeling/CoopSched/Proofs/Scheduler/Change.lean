import CoopSched.Proofs.Scheduler.Effects
import CoopSched.Scheduler.Invocation
import Mathlib.Logic.Relation

/-!
# Changes — out of which everything nested is made

Completions, callbacks of jobs, launches and cancellations set each other off, to any depth. What
they do to the scheduler is nevertheless a sequence of a few kinds of changes, and `Change` has one
constructor for each. `Changes` is any number of them. A property that no change destroys is kept
by all of it, however deeply it was nested, and that is how the properties of whole moves are shown.

Two changes complete a bridge, and which of them it is depends on the workers. While there are
workers the strand of the bridge is woken (`Change.deliver`); when they are gone it is cancelled
(`Change.strike`). The rule `Ok` says which payload may go through which bridge; a rule that allows
everything is `fun _ _ => True`.

Cancellations are nested by a bound (`cancelWithin`). That the bound suffices is a part of what is
shown here: `Sound Ok n` counts the unfinished strands when the workers are gone, and a cancellation
that may nest `n` deep leaves none out (`Cancels`, `cancels_cancel`).
-/

namespace CoopSched
namespace Scheduler

variable {V B : Type}

/-- One change. -/
inductive Change (Ok : BridgeId → Wakeup V → Prop) : Scheduler V B → Scheduler V B → Prop
  | answered (s : Scheduler V B) (j : JobId) (answer : Outcome (List V)) :
      Change Ok s { s with journal := s.journal.push (.answered j answer) }
  | job (s : Scheduler V B) (j : JobId) (f : JobEntry V B → JobEntry V B)
      (hf : ∀ e, (f e).callback = e.callback) : Change Ok s (s.updateJob j f)
  | addJob (s : Scheduler V B) (entry : JobEntry V B)
      (hok : ∀ answer b w, .complete b w ∈ entry.callback answer → Ok b w) :
      Change Ok s { s with jobs := s.jobs.add entry }
  /-- Groups change; a wait may be dropped, and none is armed. -/
  | children (s : Scheduler V B) (id : StrandId) (f : Group V → Group V)
      (hf : ∀ g, (f g).waiter = g.waiter ∨ (f g).waiter = none) :
      Change Ok s (s.updateStrand id fun st => { st with children := f st.children })
  | report (s : Scheduler V B) (id : StrandId) (outcome : Outcome V) :
      Change Ok s (s.reportUnhandled id outcome)
  | spawn (s : Scheduler V B) (r : SpawnRequest B) : Change Ok s (s.spawn r).1
  | deliver {s : Scheduler V B} {b : BridgeId} {bridge claimed : Bridge V} {w : Wakeup V}
      (alive : s.terminated = false) (hb : s.bridge? b = some bridge)
      (hc : bridge.claim? w = some claimed) (hok : Ok b w) :
      Change Ok s ((s.setBridge b claimed).wake bridge.strand)
  | strike {s : Scheduler V B} {b : BridgeId} {bridge claimed : Bridge V} {w : Wakeup V}
      (gone : s.terminated = true) (hb : s.bridge? b = some bridge)
      (hc : bridge.claim? w = some claimed) (hok : Ok b w) :
      Change Ok s ((s.setBridge b claimed).strike bridge.strand)
  | retire {s : Scheduler V B} {id : StrandId} (kept : Option (Outcome V))
      (gone : s.terminated = true)
      (hend : ∀ st, s.strand? id = some st → st.status.isTerminal = true) :
      Change Ok s (s.retire id kept)

/-- Any number of changes. -/
abbrev Changes (Ok : BridgeId → Wakeup V → Prop) : Scheduler V B → Scheduler V B → Prop :=
  Relation.ReflTransGen (Change Ok)

/-- What no change destroys is there at the end. -/
theorem Changes.preserves {Ok : BridgeId → Wakeup V → Prop} {P : Scheduler V B → Prop}
    (hP : ∀ s s', P s → Change Ok s s' → P s') {s s' : Scheduler V B} (h : P s)
    (hd : Changes Ok s s') : P s' := by
  induction hd with
  | refl => exact h
  | tail _ ht ih => exact hP _ _ ih ht

/-! ## What has to hold before -/

/-- The numbers of the strands that have not ended. -/
def unfinished (s : Scheduler V B) : Finset Nat :=
  (Finset.range s.strands.next).filter fun n =>
    (s.strands.get? n).map (·.status.isTerminal) = some false

/-- Everybody who may complete a bridge keeps to the rule, the live list leaves no unfinished strand
    out, and when the workers are gone at most `n` strands are unfinished and no new one comes. -/
structure Sound (Ok : BridgeId → Wakeup V → Prop) (n : Nat) (s : Scheduler V B) : Prop where
  callbacks : ∀ j entry, s.job? j = some entry →
    ∀ answer b w, .complete b w ∈ entry.callback answer → Ok b w
  waiters : ∀ id st mode b, s.strand? id = some st → st.children.waiter = some (mode, b) →
    ∀ outcome, Ok b (.children outcome)
  listed : ∀ id st, s.strand? id = some st → st.status.isTerminal = false → id ∈ s.live
  closed : s.terminated = true → s.queue.closed = true ∧ s.unfinished.card ≤ n

theorem mem_unfinished {s : Scheduler V B} {n : Nat} :
    n ∈ s.unfinished ↔ ∃ st, s.strand? ⟨n⟩ = some st ∧ st.status.isTerminal = false := by
  simp only [unfinished, Finset.mem_filter, Finset.mem_range, Option.map_eq_some_iff]
  constructor
  · rintro ⟨-, h⟩
    exact h
  · rintro ⟨st, hst, hend⟩
    exact ⟨Table.lt_next_of_get? hst, st, hst, hend⟩

theorem unfinished_subset {s s' : Scheduler V B}
    (h : ∀ id st', s'.strand? id = some st' → st'.status.isTerminal = false →
      ∃ st, s.strand? id = some st ∧ st.status.isTerminal = false) :
    s'.unfinished ⊆ s.unfinished := by
  intro n hn
  obtain ⟨st', hst', hend⟩ := mem_unfinished.mp hn
  exact mem_unfinished.mpr (h ⟨n⟩ st' hst' hend)

/-- Rows of strands may be changed as long as nobody comes back to life, no wait is armed and the
    live list does not lose anybody. -/
theorem Sound.of_rows {Ok : BridgeId → Wakeup V → Prop} {n : Nat} {s s' : Scheduler V B}
    (h : Sound Ok n s) (hjobs : s'.jobs = s.jobs) (hterm : s'.terminated = s.terminated)
    (hclosed : s.queue.closed = true → s'.queue.closed = true)
    (hrow : ∀ id st', s'.strand? id = some st' → ∃ st, s.strand? id = some st ∧
      (st'.children.waiter = st.children.waiter ∨ st'.children.waiter = none) ∧
      (st'.status.isTerminal = false → st.status.isTerminal = false))
    (hlive : ∀ id st', s'.strand? id = some st' → st'.status.isTerminal = false →
      id ∈ s.live → id ∈ s'.live) : Sound Ok n s' where
  callbacks := by
    intro j entry hj
    have hj' : s.job? j = some entry := by rw [← hj, job?, job?, hjobs]
    exact h.callbacks j entry hj'
  waiters := by
    intro id st' mode b hst' hw
    obtain ⟨st, hst, hwaiter, -⟩ := hrow id st' hst'
    rcases hwaiter with hsame | hnone
    · exact h.waiters id st mode b hst (hsame ▸ hw)
    · rw [hnone] at hw
      cases hw
  listed := by
    intro id st' hst' hend
    obtain ⟨st, hst, -, hback⟩ := hrow id st' hst'
    exact hlive id st' hst' hend (h.listed id st hst (hback hend))
  closed := by
    intro gone
    obtain ⟨hc, hn⟩ := h.closed (hterm ▸ gone)
    refine ⟨hclosed hc, (Finset.card_le_card (unfinished_subset ?_)).trans hn⟩
    intro id st' hst' hend
    obtain ⟨st, hst, -, hback⟩ := hrow id st' hst'
    exact ⟨st, hst, hback hend⟩

theorem Sound.of_row {Ok : BridgeId → Wakeup V → Prop} {n : Nat} {s s' : Scheduler V B}
    {id : StrandId} {f : Strand V B → Strand V B} (h : Sound Ok n s)
    (hstrands : s'.strands = s.strands.update id.number f)
    (hwaiter : ∀ st, s.strand? id = some st →
      (f st).children.waiter = st.children.waiter ∨ (f st).children.waiter = none)
    (hend : ∀ st, s.strand? id = some st →
      (f st).status.isTerminal = false → st.status.isTerminal = false)
    (hjobs : s'.jobs = s.jobs) (hterm : s'.terminated = s.terminated)
    (hclosed : s.queue.closed = true → s'.queue.closed = true)
    (hlive : ∀ k ∈ s.live, (k = id → ∃ st, s.strand? id = some st ∧
      (f st).status.isTerminal = false) → k ∈ s'.live) : Sound Ok n s' := by
  have hread := strand?_of_update hstrands
  refine h.of_rows hjobs hterm hclosed ?_ ?_
  · intro k st' hst'
    rw [hread] at hst'
    split at hst'
    next hk =>
      obtain ⟨st, hst, rfl⟩ := Option.map_eq_some_iff.mp hst'
      rw [← hk] at hst ⊢
      exact ⟨st, hst, hwaiter st hst, hend st hst⟩
    · exact ⟨st', hst', Or.inl rfl, fun h => h⟩
  · intro k st' hst' hrun hk
    apply hlive k hk
    rintro rfl
    rw [hread, if_pos rfl] at hst'
    obtain ⟨st, hst, rfl⟩ := Option.map_eq_some_iff.mp hst'
    exact ⟨st, hst, hrun⟩

theorem Sound.setBridge {Ok : BridgeId → Wakeup V → Prop} {n : Nat} {s : Scheduler V B}
    (h : Sound Ok n s) (b : BridgeId) (x : Bridge V) : Sound Ok n (s.setBridge b x) :=
  ⟨h.callbacks, h.waiters, h.listed, h.closed⟩

/-- When a strand is cut off there is one unfinished strand less. -/
theorem Sound.cut {Ok : BridgeId → Wakeup V → Prop} {n : Nat} {s : Scheduler V B} {id : StrandId}
    {st : Strand V B} (h : Sound Ok n s) (hst : s.strand? id = some st) :
    Sound Ok n (s.cut id st.bridge) := by
  obtain ⟨counters, journal, channel, hcut⟩ := cut_eq hst
  rw [hcut]
  exact h.of_row rfl (fun _ _ => Or.inr rfl) (fun _ _ hrun => by cases hrun) rfl rfl (fun hc => hc)
    (fun _ hk _ => hk)

theorem Sound.cut_pred {Ok : BridgeId → Wakeup V → Prop} {n : Nat} {s : Scheduler V B}
    {id : StrandId} {st : Strand V B} (h : Sound Ok (n + 1) s) (hst : s.strand? id = some st)
    (hrun : st.status.isTerminal = false) : Sound Ok n (s.cut id st.bridge) := by
  have hcut := h.cut hst
  obtain ⟨counters, journal, channel, heq⟩ := cut_eq hst
  refine { hcut with closed := ?_ }
  intro gone
  have gone' : s.terminated = true := by rw [heq] at gone; exact gone
  refine ⟨(hcut.closed gone).1, ?_⟩
  have hread : ∀ k, (s.cut id st.bridge).strand? k =
      if id = k then (s.strand? k).map Strand.cut else s.strand? k := by
    intro k
    rw [← strand?_updateStrand, heq]
    rfl
  -- The strand that is cut off is unfinished before and not after.
  have hless : (s.cut id st.bridge).unfinished ⊂ s.unfinished := by
    refine Finset.ssubset_iff_of_subset (unfinished_subset ?_) |>.mpr ⟨id.number, ?_, ?_⟩
    · intro k st' hst' hend
      rw [hread] at hst'
      split at hst'
      · obtain ⟨old, -, rfl⟩ := Option.map_eq_some_iff.mp hst'
        cases hend
      · exact ⟨st', hst', hend⟩
    · exact mem_unfinished.mpr ⟨st, hst, hrun⟩
    · intro hmem
      obtain ⟨st', hst', hend⟩ := mem_unfinished.mp hmem
      rw [hread, if_pos rfl] at hst'
      obtain ⟨old, -, rfl⟩ := Option.map_eq_some_iff.mp hst'
      cases hend
  have := Finset.card_lt_card hless
  have := (h.closed gone').2
  omega

theorem Sound.strike {Ok : BridgeId → Wakeup V → Prop} {n : Nat} {s : Scheduler V B}
    (h : Sound Ok n s) (id : StrandId) : Sound Ok n (s.strike id) := by
  unfold Scheduler.strike
  split
  · exact h
  next st hst =>
    split
    · exact h
    · exact h.cut hst

theorem Sound.wake {Ok : BridgeId → Wakeup V → Prop} {n : Nat} {s : Scheduler V B}
    (h : Sound Ok n s) (alive : s.terminated = false) (id : StrandId) : Sound Ok n (s.wake id) := by
  cases hst : s.strand? id with
  | none =>
    rw [wake_none hst]
    exact h
  | some st =>
    obtain ⟨counters, journal, channel, hwake⟩ := wake_eq alive hst
    rw [hwake]
    refine h.of_row rfl (fun _ _ => Or.inl rfl) (fun st _ hrun => ?_) rfl rfl ?_ (fun _ hk _ => hk)
    · rwa [Strand.woken_terminal] at hrun
    · intro hc
      dsimp only
      split
      · exact hc
      · exact hc

theorem Sound.spawn {Ok : BridgeId → Wakeup V → Prop} {n : Nat} {s : Scheduler V B}
    (h : Sound Ok n s) (r : SpawnRequest B) : Sound Ok n (s.spawn r).1 := by
  rcases spawn_cases s r with ⟨hopen, counters, journal, channel, hspawn⟩ |
    ⟨strands, counters, journal, channel, cause, hspawn, hsame, -⟩
  · rw [hspawn]
    have hread : ∀ k st', (s.strands.add (Strand.create r.body r.name r.parent r.hook)).get?
        k = some st' → s.strands.get? k = some st' ∨
          (k = s.strands.next ∧ st' = Strand.create r.body r.name r.parent r.hook) := by
      intro k st' hst'
      rw [Table.get?_add] at hst'
      split at hst'
      next hk => exact Or.inr ⟨hk, (Option.some.inj hst').symm⟩
      next => exact Or.inl hst'
    refine ⟨h.callbacks, ?_, ?_, ?_⟩
    · intro k st' mode b hst' hw
      rcases hread _ _ hst' with hold | ⟨-, rfl⟩
      · exact h.waiters k st' mode b hold hw
      · cases hw
    · intro k st' hst' hend
      rcases hread _ _ hst' with hold | ⟨hk, -⟩
      · exact List.mem_append_left _ (h.listed k st' hold hend)
      · refine List.mem_append_right _ (List.mem_singleton.mpr ?_)
        exact StrandId.number_inj.mp hk
    · intro gone
      have hc := (h.closed gone).1
      rw [hopen] at hc
      cases hc
  · rw [hspawn]
    refine h.of_rows rfl rfl id ?_ (fun _ _ _ _ hk => hk)
    intro k st' hst'
    refine ⟨st', ?_, Or.inl rfl, fun hend => hend⟩
    rw [← hst']
    exact (hsame k.number).symm

/-- No change makes the state unsound. -/
theorem Sound.change {Ok : BridgeId → Wakeup V → Prop} {n : Nat} {s s' : Scheduler V B}
    (h : Sound Ok n s) (ht : Change Ok s s') : Sound Ok n s' := by
  cases ht with
  | answered j answer => exact ⟨h.callbacks, h.waiters, h.listed, h.closed⟩
  | job j f hf =>
    refine ⟨?_, h.waiters, h.listed, h.closed⟩
    intro k entry hk
    rw [job?_updateJob] at hk
    split at hk
    · obtain ⟨old, hold, rfl⟩ := Option.map_eq_some_iff.mp hk
      rw [hf old]
      exact h.callbacks k old hold
    · exact h.callbacks k entry hk
  | addJob entry hok =>
    refine ⟨?_, h.waiters, h.listed, h.closed⟩
    intro k new hk
    have hk' : (s.jobs.add entry).get? k.number = some new := hk
    rw [Table.get?_add] at hk'
    split at hk'
    · rw [← Option.some.inj hk']
      exact hok
    · exact h.callbacks k new hk'
  | children id f hf =>
    exact h.of_row rfl (fun st _ => hf st.children) (fun _ _ hrun => hrun) rfl rfl (fun hc => hc)
      (fun _ hk _ => hk)
  | report id outcome =>
    obtain ⟨journal, channel, hrep⟩ := s.reportUnhandled_eq id outcome
    rw [hrep]
    exact ⟨h.callbacks, h.waiters, h.listed, h.closed⟩
  | spawn r => exact h.spawn r
  | deliver alive hb hc hok => exact (h.setBridge _ _).wake alive _
  | strike gone hb hc hok => exact (h.setBridge _ _).strike _
  | retire kept gone hend =>
    refine h.of_row rfl (fun _ _ => Or.inl rfl) (fun _ _ hrun => hrun) rfl rfl (fun hc => hc) ?_
    intro k hk hrun
    refine (List.mem_erase_of_ne ?_).mpr hk
    intro heq
    obtain ⟨st, hst, hst'⟩ := hrun heq
    have hst'' : st.status.isTerminal = false := hst'
    rw [hend st hst] at hst''
    cases hst''

theorem Sound.changes {Ok : BridgeId → Wakeup V → Prop} {n : Nat} {s s' : Scheduler V B}
    (h : Sound Ok n s) (hd : Changes Ok s s') : Sound Ok n s' :=
  hd.preserves (fun _ _ => Sound.change) h

end Scheduler
end CoopSched
