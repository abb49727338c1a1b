import CoopSched.Proofs.Scheduler.Stable

/-!
# Places — where a strand is, after any run

Moves come in any order, several strands are in the middle of a segment at once, and yet no strand
is ever in two places or in none. It is in the queue, or on a worker, or blocked on a bridge that
nobody has completed, or it has ended; the mark of a running strand is there just when its bridge
holds a payload that it has not been told (`one_place`). Only the clean-up at the end of a shutdown
takes ready strands out of the queue without running them.
-/

namespace CoopSched
namespace Scheduler

variable {V B : Type} {s : Scheduler V B} {ms : List (Move V B)}

/-- Where a strand can be. -/
inductive Place where
  | queued
  | held
  | parked
  | ended
deriving DecidableEq, Repr

/-- Is the strand there, and nowhere else? -/
def Place.Holds (s : Scheduler V B) (id : StrandId) (st : Strand V B) : Place → Prop
  | .queued => st.status = .runnable ∧ s.queue.waiting.count id = 1 ∧ id ∉ s.held
  | .held => (∃ notified, st.status = .running notified) ∧ s.held.count id = 1 ∧
      id ∉ s.queue.waiting
  | .parked => st.status = .blocked ∧ id ∉ s.queue.waiting ∧ id ∉ s.held ∧
      ∃ b bridge, st.bridge = some b ∧ s.bridge? b = some bridge ∧ bridge.isCompleted = false
  | .ended => st.status.isTerminal = true ∧ id ∉ s.queue.waiting ∧ id ∉ s.held ∧ st.bridge = none

/-- Under the rule that allows everything nobody has to keep to anything. -/
theorem respects_all (s : Scheduler V B) (m : Move V B) : Respects (fun _ _ => True) s m :=
  ⟨fun _ _ _ => trivial, fun _ _ _ _ _ _ _ => trivial⟩

theorem Initial.empty (h : Initial s) :
    s.strands = {} ∧ s.bridges = {} ∧ s.jobs = {} ∧ s.timers = {} ∧ s.queue = {} ∧ s.live = [] ∧
      s.held = [] ∧ s.terminated = false ∧ s.phase = .accepting := by
  obtain ⟨c, cores, h | h⟩ := h
  · unfold start at h
    split at h
    · cases h
    · obtain rfl := Except.ok.inj h
      exact ⟨rfl, rfl, rfl, rfl, rfl, rfl, rfl, rfl, rfl⟩
  · unfold startWithChannel start at h
    split at h
    · cases h
    · obtain rfl := Except.ok.inj h
      exact ⟨rfl, rfl, rfl, rfl, rfl, rfl, rfl, rfl, rfl⟩

/-- A new scheduler with one worker and no limit. -/
def single : Scheduler V B := { workers := 1, maxPending := none }

theorem single_initial : Initial (single : Scheduler V B) := ⟨{ workers := 1 }, 1, Or.inl rfl⟩

theorem get?_empty {α : Type} (n : Nat) : ({} : Table α).get? n = none := by
  cases n <;> simp [Table.get?]

theorem Initial.stable (h : Initial s) (Ok : BridgeId → Wakeup V → Prop) :
    Stable Ok false s := by
  obtain ⟨hstrands, hbridges, hjobs, htimers, hqueue, hlive, hheld, hterm, -⟩ := h.empty
  have hs : ∀ id, s.strand? id = none := fun id => by rw [strand?, hstrands, get?_empty]
  have hb : ∀ b, s.bridge? b = none := fun b => by rw [bridge?, hbridges, get?_empty]
  have hno : ∀ {p : Prop} id st, s.strand? id = some st → p := by
    intro p id st hst
    rw [hs id] at hst
    cases hst
  refine ⟨⟨0, ?_, fun id st _ _ hst => hno id st hst, fun id st hst => hno id st hst, ?_⟩, ?_, ?_,
    fun _ id st hst => hno id st hst, ?_, ?_⟩
  · intro j entry hj
    rw [job?, hjobs, get?_empty] at hj
    cases hj
  · intro gone
    rw [hterm] at gone
    cases gone
  · intro t timer ht
    rw [timer?, htimers, get?_empty] at ht
    cases ht
  · rw [hheld]
    refine ⟨by rw [hqueue]; exact List.nodup_nil, ?_, List.nodup_nil, ?_,
      fun id st hst => hno id st hst, ?_, fun id st hst => hno id st hst, fun _ => rfl⟩
    · intro id hid
      rw [hqueue] at hid
      cases hid
    · intro id
      refine ⟨fun hid => absurd hid List.not_mem_nil, ?_⟩
      rintro ⟨st, hst, -⟩
      exact hno id st hst
    · intro b id hbr
      rw [hb b] at hbr
      cases hbr
  · rw [hqueue, hheld]
    rfl
  · rw [hheld]
    exact Nat.zero_le _

/-- What holds between moves holds after every run that respects the rule. -/
theorem Stable.run {Ok : BridgeId → Wakeup V → Prop} {drained : Bool}
    (h : Stable Ok drained s) (ha : s.Admissible ms)
    (hr : ∀ before m rest, ms = before ++ m :: rest → Respects Ok (s.run before) m) :
    Stable Ok (drained || ms.any Move.isCleanUp) (s.run ms) := by
  -- On the moves. The flag remembers whether the clean-up has begun.
  induction ms generalizing s drained with
  | nil => simpa using h
  | cons m ms ih =>
    obtain ⟨hm, hms⟩ := ha
    rw [List.any_cons, ← Bool.or_assoc, run_cons]
    refine ih (h.after hm (hr [] m ms rfl)) hms ?_
    intro before m' rest heq
    exact hr (m :: before) m' rest (by rw [heq]; rfl)

theorem Initial.stable_run (h : Initial s) (ha : s.Admissible ms) :
    Stable (fun _ _ => True) (ms.any Move.isCleanUp) (s.run ms) := by
  have hrun := (h.stable (fun _ _ => True)).run ha fun _ m _ _ => respects_all _ m
  simpa using hrun

/-- The place that goes with a status. -/
def Status.place : Status → Place
  | .runnable => .queued
  | .running _ => .held
  | .blocked => .parked
  | .doneOk | .doneError => .ended

/-- A placed strand is where its status says, and nowhere else. -/
theorem Placed.holds_iff (h : Placed s.held s) (hq : Queued s) {id : StrandId} {st : Strand V B}
    (hst : s.strand? id = some st) (place : Place) :
    place.Holds s id st ↔ place = Status.place st.status := by
  have hheld := h.busy_iff_running hst
  have hfree : st.status.isRunning = false → id ∉ s.held := by
    intro hr hmem
    rw [hheld.mp hmem] at hr
    cases hr
  have hwait : st.status ≠ .runnable → id ∉ s.queue.waiting := h.not_waiting hst
  have hslot := h.slot id st hst
  constructor
  · intro hplace
    cases place with
    | queued =>
      rw [hplace.1]
      rfl
    | held =>
      obtain ⟨⟨n, hn⟩, -⟩ := hplace
      rw [hn]
      rfl
    | parked =>
      rw [hplace.1]
      rfl
    | ended =>
      obtain ⟨hend, -⟩ := hplace
      cases hs : st.status <;> rw [hs] at hend <;> first | rfl | cases hend
  · intro hplace
    cases hs : st.status with
    | runnable =>
      rw [hs] at hplace
      subst hplace
      exact ⟨hs, List.count_eq_one_of_mem h.waiting_nodup (hq id st hst hs),
        hfree (by rw [hs]; rfl)⟩
    | running n =>
      rw [hs] at hplace hheld
      subst hplace
      exact ⟨⟨n, hs⟩, List.count_eq_one_of_mem h.busy_nodup (hheld.mpr rfl),
        hwait (by rw [hs]; exact fun heq => by cases heq)⟩
    | blocked =>
      rw [hs] at hplace
      subst hplace
      obtain ⟨b, hb⟩ := hslot.exists_bridge (Or.inl hs)
      have hpending := hslot.unclaimed hb (Or.inl hs)
      exact ⟨hs, hwait (by rw [hs]; decide), hfree (by rw [hs]; rfl), b, _, hb, hpending, rfl⟩
    | doneOk =>
      rw [hs] at hplace
      subst hplace
      exact ⟨by rw [hs]; rfl, hwait (by rw [hs]; decide), hfree (by rw [hs]; rfl),
        hslot.terminal (by rw [hs]; rfl)⟩
    | doneError =>
      rw [hs] at hplace
      subst hplace
      exact ⟨by rw [hs]; rfl, hwait (by rw [hs]; decide), hfree (by rw [hs]; rfl),
        hslot.terminal (by rw [hs]; rfl)⟩

/-- A running strand has its mark just when its bridge holds a payload for it. -/
theorem Placed.notified_iff {busy : List StrandId} (h : Placed busy s) {id : StrandId}
    {st : Strand V B} (hst : s.strand? id = some st) {n : Bool} (hs : st.status = .running n) :
    n = true ↔ ∃ b w, st.bridge = some b ∧ s.bridge? b = some ⟨id, .holding w⟩ := by
  have hslot := h.slot id st hst
  constructor
  · rintro rfl
    obtain ⟨b, hb⟩ := hslot.exists_bridge (Or.inr hs)
    obtain ⟨w, hw⟩ := hslot.holding hb (Or.inr hs)
    exact ⟨b, w, hb, hw⟩
  · rintro ⟨b, w, hb, hw⟩
    cases n with
    | true => rfl
    | false =>
      rw [hslot.unclaimed hb (Or.inr hs)] at hw
      cases hw

/-- **One place for every strand.** After any run, until the clean-up of a shutdown begins, every
    admitted strand is in exactly one place. No more strands are on workers than there are, and a
    strand that has its mark is on a worker and has a payload that it has not been told. -/
theorem one_place (hs : Initial s) (ha : s.Admissible ms)
    (hms : ∀ m ∈ ms, Move.isCleanUp m = false) {id : StrandId} {st : Strand V B}
    (hst : (s.run ms).strand? id = some st) :
    (∃! place, Place.Holds (s.run ms) id st place) ∧
      (∀ n, st.status = .running n → (n = true ↔ ∃ b w, st.bridge = some b ∧
        (s.run ms).bridge? b = some ⟨id, .holding w⟩)) ∧
      (s.run ms).held.length ≤ (s.run ms).workers := by
  have hstable := hs.stable_run ha
  have hq : Queued (s.run ms) := hstable.queued (by simpa using hms)
  have hholds := hstable.placed.holds_iff hq hst
  refine ⟨⟨Status.place st.status, (hholds _).mpr rfl, fun place hp => (hholds place).mp hp⟩,
    fun n hn => hstable.placed.notified_iff hst hn, hstable.workers⟩

/-- A strand whose bridge is completed before it parks is on its worker, with its mark. -/
theorem one_place_completed_early : ∃ st : Strand Nat Unit,
    (single.run [.spawn () none, .dispatch, .park ⟨1⟩, .complete ⟨1⟩ (.ok 7)]).strand? ⟨1⟩ =
        some st ∧
      (∃! place, Place.Holds
        (single.run [.spawn () none, .dispatch, .park ⟨1⟩, .complete ⟨1⟩ (.ok 7)]) ⟨1⟩ st place) ∧
      st.status = .running true := by
  refine ⟨_, rfl, ?_, rfl⟩
  exact (one_place single_initial (by simp [Admissible, Allows]) (by decide) rfl).1

end Scheduler
end CoopSched
