import CoopSched.Proofs.Shutdown.Stopped

/-!
# Causes — who is admitted, and what the others are told

A strand enters the ready queue if the queue takes new strands, its caller may still ask for one,
and there is room for it; `answerTo` is that decision, the same for all callers. Whoever is refused
is to be told why: a full queue is one cause, a scheduler that has stopped is another.

The cause is worked out after the queue has refused, from the limit and from the phase, and the
phase says too little. While a scheduler drains its queue is still open, and a body that asks for a
strand when the queue is full is told that the scheduler is shut down. That is the only wrong cause
(`answered_with_causes`); it needs a body, a limit and a shutdown that has begun.
-/

namespace CoopSched
namespace Scheduler

variable {V B : Type} {Ok : BridgeId → Wakeup V → Prop} {drained : Bool} {s s' : Scheduler V B}
  {m : Move V B} {ms : List (Move V B)} {a : Admission} {r : SpawnRequest B} {n : Nat}

/-! ## A queue is shut by a shutdown -/

/-- The embedder asks, and a shutdown has begun. -/
def IsLate (s : Scheduler V B) (a : Admission) : Prop := a = .external ∧ s.isStopping = true

/-- As many strands wait as may wait before this caller is refused. -/
def IsFull (s : Scheduler V B) (a : Admission) (n : Nat) : Prop :=
  a ≠ .invocation ∧ s.maxPending = some n ∧ n ≤ s.queue.length

/-- Nothing but a shutdown has shut the queue. -/
def Gated (s : Scheduler V B) : Prop := s.IsShut → s.isStopping = true

theorem Gated.lasts (hg : Gated s) (h : Lasts s s') : Gated s' := by
  intro hshut
  rw [IsShut, h.closed, h.aborted] at hshut
  rw [isStopping, h.phase]
  exact hg hshut

/-- A strand that finishes or waits does not move the shutdown. -/
theorem MoveChange.lasts (h : MoveChange s m s')
    (hmove : s.finishes m ≠ none ∨ ∃ p, s.awaits p m ≠ none) : Lasts s s' := by
  have hquiet : s.finishes m = none → (∀ p, s.awaits p m = none) → Lasts s s' := by
    intro hfin hawaits
    rcases hmove with hne | ⟨p, hne⟩
    · exact absurd hfin hne
    · exact absurd (hawaits p) hne
  cases h with
  | mild hfin hawaits hmild => exact hmild.lasts
  | announced hfin hawaits => exact hquiet hfin hawaits
  | joined hm outcome => exact .updateStrand s _ _
  | spawned hm hst hrun hopen hrows hlive hlasts => exact hlasts
  | awaited hawaits hfin hrun hown hlike hlevel hgrows hset =>
    exact ((hlevel.lasts.trans (.updateStrand _ _ _)).trans hset.lasts).trans (.release _ _)
  | finished hfin hst hrun hhanded =>
    exact (((Lasts.markFinished s _ _).trans hhanded.lasts).trans (.retire _ _ _)).trans
      (.release _ _)

/-- Only three moves bring a shutdown further. -/
theorem Stable.lasts (hs : Stable Ok drained s) (ha : s.Allows m) (hkin : Kin s)
    (hannounces : m.announces = false) : Lasts s (s.after m) := by
  by_cases hjoin : ∃ id, m = .join id
  · obtain ⟨id, rfl⟩ := hjoin
    show Lasts s (((s.join id).map (·.1)).getD s)
    rcases join_cases s id with heq | ⟨outcome, heq⟩ <;> rw [heq]
    · exact .refl s
    · exact .updateStrand s _ _
  by_cases hspawn : ∃ p body, m = .spawnChild p body
  · obtain ⟨p, body, rfl⟩ := hspawn
    exact (spawnChild_fields s p body).1
  by_cases hmove : s.finishes m ≠ none ∨ ∃ p, s.awaits p m ≠ none
  · exact (hs.moveChange ha hkin).lasts hmove
  · simp only [ne_eq, not_or, not_not, not_exists] at hmove
    refine (hs.mild ha (fun p body h => hspawn ⟨p, body, h⟩) (fun id h => hjoin ⟨id, h⟩)
      hannounces hmove.1 fun p b hi => ?_).lasts
    obtain ⟨body, mode, rfl⟩ := await_of_issued hi
    exact absurd (awaits_iff.mpr ⟨hi, body, rfl⟩) (by simp [hmove.2 p])

/-- A move that brings a shutdown further shuts the queue only if one has begun. -/
theorem Gated.announced (hg : Gated s) (ha : s.Allows m) (hannounces : m.announces = true) :
    Gated (s.after m) := by
  cases m with
  | beginShutdown mode => exact fun _ => beginShutdown_isStopping s mode
  | closeQueue => exact fun _ => ha
  | terminate => exact hg
  | _ => cases hannounces

/-- **A queue is shut only once a shutdown has begun.** -/
theorem Initial.gated_run (hs : Initial s) (ha : s.Admissible ms) : Gated (s.run ms) := by
  induction ms using List.reverseRecOn with
  | nil =>
    obtain ⟨-, -, -, -, hqueue, -⟩ := hs.empty
    rw [run_nil, Gated, IsShut, hqueue]
    simp
  | append_singleton ms m ih =>
    obtain ⟨hprev, hm, -⟩ := admissible_append.mp ha
    rw [run_snoc]
    cases hannounces : m.announces with
    | true => exact (ih hprev).announced hm hannounces
    | false => exact (ih hprev).lasts ((hs.stable_run hprev).lasts hm (hs.kin_run hprev) hannounces)

/-! ## The answer -/

/-- What a caller is answered. -/
def answerTo (s : Scheduler V B) (a : Admission) : Except Refusal StrandId :=
  if a = .external ∧ s.isStopping then .error .shutDown
  else if s.queue.admits (a.limit s.maxPending) then .ok ⟨s.strands.next⟩
  else .error (s.queueRefusal (a.limit s.maxPending))

theorem spawn_answer (s : Scheduler V B) (r : SpawnRequest B) :
    (s.spawn r).2 = s.answerTo r.admission := by
  unfold spawn answerTo
  split
  · rfl
  · dsimp only
    cases hadmits : s.queue.admits (r.admission.limit s.maxPending) <;>
      simp [ReadyQueue.admit?, hadmits]

theorem spawnChild_answer (s : Scheduler V B) (p : StrandId) (body : B) :
    (s.spawnChild p body).2 = s.answerTo .internal := by
  have hnext : (s.updateStrand p fun st => { st with children := st.children.add }).strands.next =
      s.strands.next := Table.next_update _ _ _
  have hanswer := spawn_answer (s.updateStrand p fun st => { st with children := st.children.add })
    { body := body, admission := .internal, parent := some p }
  have hsame : (s.updateStrand p fun st => { st with children := st.children.add }).answerTo
      .internal = s.answerTo .internal := by
    unfold answerTo
    rw [hnext]
    rfl
  rw [← hsame, ← hanswer]
  unfold spawnChild
  dsimp only
  split <;> next heq => rw [heq]

theorem admits_iff : s.queue.admits (a.limit s.maxPending) = true ↔
    ¬ s.IsShut ∧ ∀ n, ¬ s.IsFull a n := by
  have hroom : (∀ n, a.limit s.maxPending = some n → s.queue.length < n) ↔
      ∀ n, ¬ s.IsFull a n := by
    refine forall_congr' fun n => ?_
    cases a <;> simp [Admission.limit, IsFull]
  rw [← hroom, IsShut]
  cases a.limit s.maxPending <;> simp [ReadyQueue.admits]

/-- The caller is subject to no limit, or to one that leaves room. -/
theorem not_isFull_iff : (∀ n, ¬ s.IsFull a n) ↔
    a = .invocation ∨ s.maxPending = none ∨ ∃ n, s.maxPending = some n ∧ s.queue.length < n := by
  unfold IsFull
  cases s.maxPending <;> cases a <;> simp

/-- Only a caller who is subject to a limit is told of one, and only before a shutdown. -/
theorem queueRefusal_overloaded : s.queueRefusal (a.limit s.maxPending) = .overloaded n ↔
    a ≠ .invocation ∧ s.maxPending = some n ∧ s.isStopping = false := by
  cases a <;> cases s.maxPending <;> cases hstop : s.isStopping <;>
    simp [queueRefusal, Admission.limit, hstop]

theorem queueRefusal_shutDown : s.queueRefusal (a.limit s.maxPending) = .shutDown ↔
    a = .invocation ∨ s.maxPending = none ∨ s.isStopping = true := by
  cases a <;> cases s.maxPending <;> cases hstop : s.isStopping <;>
    simp [queueRefusal, Admission.limit, hstop]

/-- What a caller is told, and when. -/
structure Answers (s : Scheduler V B) (a : Admission) (answer : Except Refusal StrandId) :
    Prop where
  /-- A strand is admitted if the queue is open, its caller may still ask and there is room. -/
  admitted : (∃ id, answer = .ok id) ↔ s.queue.closed = false ∧ s.queue.aborted = false ∧
    ¬ (a = .external ∧ s.isStopping = true) ∧
    (a = .invocation ∨ s.maxPending = none ∨ ∃ n, s.maxPending = some n ∧ s.queue.length < n)
  /-- There are two causes. -/
  causes : ∀ e, answer = .error e → e = .shutDown ∨ ∃ n, e = .overloaded n
  /-- A full queue is named as the cause, with its limit, as long as no shutdown has begun. -/
  overloaded : ∀ n, answer = .error (.overloaded n) ↔
    s.IsFull a n ∧ ¬ s.IsShut ∧ s.isStopping = false
  /-- A shutdown is named as the cause if it is the cause, and also to a body that asks while the
      scheduler drains and the queue is open, but full. -/
  shutDown : answer = .error .shutDown ↔ s.IsLate a ∨ s.IsShut ∨
    a = .internal ∧ s.isStopping = true ∧ ¬ s.IsShut ∧ ∃ n, s.IsFull a n

/-- What the queue refuses is refused for one cause or the other. -/
theorem answers_refused (hg : a = .invocation ∨ Gated s) (hlate : ¬ s.IsLate a)
    (hrefused : s.IsShut ∨ ∃ n, s.IsFull a n) :
    s.Answers a (.error (s.queueRefusal (a.limit s.maxPending))) where
  admitted := by
    refine iff_of_false (by simp) ?_
    rintro ⟨hclosed, haborted, -, hroom⟩
    rcases hrefused with hshut | ⟨n, hfull⟩
    · simp [IsShut, hclosed, haborted] at hshut
    · exact not_isFull_iff.mpr hroom n hfull
  causes := by
    rintro e ⟨⟩
    unfold queueRefusal
    cases a.limit s.maxPending with
    | none => exact Or.inl rfl
    | some n => cases s.isStopping <;> simp
  overloaded := by
    intro n
    rw [Except.error.injEq, queueRefusal_overloaded]
    constructor
    · rintro ⟨hjob, hlimit, hstop⟩
      have hopen : ¬ s.IsShut := fun hshut =>
        absurd (hg.resolve_left hjob hshut) (by simp [hstop])
      obtain ⟨n', -, hlimit', hlength⟩ := hrefused.resolve_left hopen
      obtain rfl := Option.some.inj (hlimit.symm.trans hlimit')
      exact ⟨⟨hjob, hlimit, hlength⟩, hopen, hstop⟩
    · rintro ⟨⟨hjob, hlimit, -⟩, -, hstop⟩
      exact ⟨hjob, hlimit, hstop⟩
  shutDown := by
    rw [Except.error.injEq, queueRefusal_shutDown]
    constructor
    · intro hcause
      by_cases hshut : s.IsShut
      · exact Or.inr (Or.inl hshut)
      obtain ⟨n, hjob, hlimit, hlength⟩ := hrefused.resolve_left hshut
      have hstop : s.isStopping = true := by simpa [hjob, hlimit] using hcause
      have hbody : a = .internal := by
        cases a with
        | external => exact absurd ⟨rfl, hstop⟩ hlate
        | internal => rfl
        | invocation => exact absurd rfl hjob
      exact Or.inr (Or.inr ⟨hbody, hstop, hshut, n, hjob, hlimit, hlength⟩)
    · rintro (h | hshut | ⟨-, hstop, -⟩)
      · exact absurd h hlate
      · exact hg.imp_right fun hg => Or.inr (hg hshut)
      · exact Or.inr (Or.inr hstop)

theorem answerTo_answers (hg : a = .invocation ∨ Gated s) : s.Answers a (s.answerTo a) := by
  unfold answerTo
  by_cases hlate : a = .external ∧ s.isStopping = true
  · rw [if_pos hlate]
    refine ⟨by simp [hlate], ?_, by simp [hlate], by simp [IsLate, hlate]⟩
    rintro e ⟨⟩
    exact Or.inl rfl
  rw [if_neg hlate]
  by_cases hadmits : s.queue.admits (a.limit s.maxPending) = true
  · rw [if_pos hadmits]
    obtain ⟨hshut, hroom⟩ := admits_iff.mp hadmits
    refine ⟨?_, by simp, by simp [hroom], by simp [IsLate, hlate, hshut, hroom]⟩
    have hopen : s.queue.closed = false ∧ s.queue.aborted = false := by
      simpa [IsShut] using hshut
    exact iff_of_true ⟨_, rfl⟩ ⟨hopen.1, hopen.2, hlate, not_isFull_iff.mp hroom⟩
  · rw [if_neg hadmits]
    refine answers_refused hg hlate ?_
    rw [admits_iff, not_and] at hadmits
    by_cases hshut : s.IsShut
    · exact Or.inl hshut
    · simpa using Or.inr (hadmits hshut)

/-- **Every caller is answered with a cause**, whoever asks, and in whatever state a run leaves the
    scheduler. The strands of a job are asked for in the middle of moves, so for them it is any
    state at all. -/
theorem answered_with_causes (hs : Initial s) (ha : s.Admissible ms) :
    (∀ body name, (s.run ms).Answers .external ((s.run ms).spawnExternal body name).2) ∧
    (∀ body, (s.run ms).Answers .internal ((s.run ms).spawnDetached body).2) ∧
    (∀ p body, (s.run ms).Answers .internal ((s.run ms).spawnChild p body).2) ∧
    (∀ r : SpawnRequest B, (s.run ms).Answers r.admission ((s.run ms).spawn r).2) ∧
    ∀ (t : Scheduler V B) (r : SpawnRequest B), r.admission = .invocation →
      t.Answers .invocation (t.spawn r).2 := by
  have hg := hs.gated_run ha
  have hspawn : ∀ r : SpawnRequest B, (s.run ms).Answers r.admission ((s.run ms).spawn r).2 := by
    intro r
    rw [spawn_answer]
    exact answerTo_answers (Or.inr hg)
  refine ⟨fun body name => hspawn { body := body, admission := .external, name := name },
    fun body => hspawn { body := body, admission := .internal }, fun p body => ?_, hspawn,
    fun t r hr => ?_⟩
  · rw [spawnChild_answer]
    exact answerTo_answers (Or.inr hg)
  · rw [spawn_answer, hr]
    exact answerTo_answers (Or.inl rfl)

/-- A new scheduler with one worker, on which one strand may wait. -/
def narrow : Scheduler V B := { workers := 1, maxPending := some 1 }

theorem narrow_initial : Initial (narrow : Scheduler V B) :=
  ⟨{ workers := 1, maxPending := some 1 }, 1, Or.inl rfl⟩

/-- One strand is in a segment and another one waits. Whoever asks for a third is told of the limit,
    and a body that asks after the shutdown has begun is told of that. -/
theorem answered_with_causes_draining :
    let before : List (Move Nat Unit) := [.spawn () none, .dispatch, .spawn () none]
    let ms := before ++ [.beginShutdown .graceful]
    let full := narrow.run before
    let draining := narrow.run ms
    (full.Answers .internal (full.spawnDetached ()).2 ∧
      (full.spawnDetached ()).2 = .error (.overloaded 1)) ∧
    draining.Answers .internal (draining.spawnChild ⟨1⟩ ()).2 ∧
      (draining.spawnChild ⟨1⟩ ()).2 = .error .shutDown := by
  intro before ms full draining
  have ha : narrow.Admissible ms := by simp [ms, before, Admissible, Allows]
  obtain ⟨-, hfull, -⟩ := answered_with_causes narrow_initial (admissible_append.mp ha).1
  obtain ⟨-, -, hdraining, -⟩ := answered_with_causes narrow_initial ha
  exact ⟨⟨hfull (), rfl⟩, hdraining ⟨1⟩ (), rfl⟩

/-- So it is not so that a full queue is always named as the cause: a body that asks while the
    scheduler drains is told that it is shut down, and the queue would still take strands. -/
theorem not_overloaded_draining :
    ¬ ∀ (s : Scheduler Nat Unit) (ms : List (Move Nat Unit)) (body : Unit) (n : Nat),
      Initial s → s.Admissible ms → (s.run ms).queue.closed = false →
      (s.run ms).queue.aborted = false → (s.run ms).maxPending = some n →
      n ≤ (s.run ms).queue.length →
      ((s.run ms).spawnDetached body).2 = .error (.overloaded n) := by
  intro h
  have hcause := h narrow [.spawn () none, .dispatch, .spawn () none, .beginShutdown .graceful] () 1
    narrow_initial (by simp [Admissible, Allows]) rfl rfl rfl (by decide)
  cases hcause

end Scheduler
end CoopSched
