import CoopSched.Proofs.Scheduler.Claims
import CoopSched.Proofs.Scheduler.Finishing
import CoopSched.Proofs.Scheduler.Takings

/-!
# Timers — from arming to the deadline

A timer is in one of three stages, and which one depends only on what was done with its handle and
on its bridge: it is armed as long as the handle is there, it has ended when the handle was used,
and if the handle was given up it goes on by itself until the bridge turns out to be completed
(`Accounts`). Whatever else happens on the scheduler does not matter to it (`Stable.after_timer?`),
so this can be told from the moves alone, up to the deadline (`armed_accounts`).
-/

namespace CoopSched
namespace Scheduler

variable {V B : Type} {drained : Bool} {s : Scheduler V B} {m : Move V B} {ms : List (Move V B)}
  {b : BridgeId} {t : TimerId} {timer : Timer} {x : Bridge V} {d now : Duration}

/-! ## Moves of a timer -/

/-- The timer that a move is about: its handle is used or given up, it looks at its bridge, or its
    deadline comes. -/
def Move.timer? : Move V B → Option TimerId
  | .disarmTimer t | .detachTimer t | .pollTimer t | .expireTimer t => some t
  | _ => none

/-- Has somebody completed the bridge? A bridge that is not there is as good as completed. -/
def isOver (s : Scheduler V B) (b : BridgeId) : Bool :=
  ((s.bridge? b).map (·.isCompleted)).getD true

theorem isOver_eq (hb : s.bridge? b = some x) : s.isOver b = x.isCompleted := by
  rw [isOver, hb, Option.map_some, Option.getD_some]

/-- What a move that is about a timer makes of it. -/
def timerAfter (s : Scheduler V B) (m : Move V B) (timer : Timer) : Timer :=
  match m with
  | .disarmTimer _ => timer.disarm
  | .detachTimer _ => timer.detach
  | .pollTimer _ => timer.poll (s.isOver timer.bridge)
  | .expireTimer _ => timer.expire.1
  | _ => timer

/-- Only the moves of the timers, and arming a new one, change them. -/
theorem Stable.timers_after (h : Stable (fun _ _ => True) drained s) (ha : s.Allows m)
    (hnone : m.timer? = none) (harm : ∀ b d now, m ≠ .armTimer b d now) :
    (s.after m).timers = s.timers := by
  cases hm : m.isSteady with
  | true => exact (h.steady_after ha hm).timers
  | false =>
    cases m with
    | armTimer b d now => exact absurd rfl (harm b d now)
    | dispatch =>
      have hd := h.placed.dispatched
      show s.dispatch.1.timers = s.timers
      generalize s.dispatch.1 = s', s.dispatch.2 = seg at hd
      cases hd <;> rfl
    | endSegment id body step =>
      obtain ⟨s', hsteady, heq⟩ := h.steady_endSegment ha body step
      show (s.endSegment id body step).timers = s.timers
      rw [heq]
      exact hsteady.timers
    | beginShutdown mode =>
      show ((s.beginShutdown mode).getD s).timers = s.timers
      unfold Scheduler.beginShutdown
      cases s.phase.enter? mode.phase <;> rfl
    | closeQueue | terminate | drain => rfl
    | disarmTimer | detachTimer | pollTimer | expireTimer => cases hnone
    | _ => cases hm

/-- What the completion at a deadline sets off leaves the timers alone. -/
theorem Stable.timers_expireTimer (h : Stable (fun _ _ => True) drained s) (t : TimerId) :
    (s.expireTimer t).timers = s.timers.update t.number fun timer => timer.expire.1 := by
  unfold Scheduler.expireTimer
  cases ht : s.timer? t with
  | none => exact (Table.update_eq_self fun timer hget => by cases ht.symm.trans hget).symm
  | some timer =>
    have hset : s.timers.update t.number (fun _ => timer.expire.1) =
        s.timers.update t.number fun timer => timer.expire.1 :=
      Table.update_congr fun old hold => by
      rw [Option.some.inj (ht.symm.trans hold)]
    dsimp only
    split
    · exact hset
    next e _ =>
      have hupdate := h.updateTimer t (f := fun _ => timer.expire.1) fun old hold => by
        rw [← Option.some.inj (ht.symm.trans hold)]
        exact timer.expire_bridge
      obtain ⟨n, hn⟩ := hupdate.sound
      have hchanges := changes_tryComplete (b := timer.bridge) (r := .err e) hn trivial
      exact hchanges.steady.timers.trans hset

/-- A move that is about a timer changes that one. -/
theorem Stable.timers_of_timer (h : Stable (fun _ _ => True) drained s) (hm : m.timer? = some t) :
    (s.after m).timers = s.timers.update t.number (s.timerAfter m) := by
  cases m with
  | disarmTimer _ | detachTimer _ =>
    obtain rfl := Option.some.inj hm
    rfl
  | pollTimer u =>
    obtain rfl := Option.some.inj hm
    show (s.pollTimer u).timers = _
    unfold Scheduler.pollTimer
    cases ht : s.timer? u with
    | none => exact (Table.update_eq_self fun timer hget => by cases ht.symm.trans hget).symm
    | some timer =>
      refine Table.update_congr fun old hold => ?_
      rw [Option.some.inj (ht.symm.trans hold)]
      rfl
  | expireTimer u =>
    obtain rfl := Option.some.inj hm
    exact h.timers_expireTimer u
  | _ => cases hm

/-- **A timer is changed by its own moves only.** -/
theorem Stable.after_timer? (h : Stable (fun _ _ => True) drained s) (ha : s.Allows m)
    (ht : s.timer? t = some timer) :
    (s.after m).timer? t = some (if m.timer? = some t then s.timerAfter m timer else timer) := by
  cases hm : m.timer? with
  | some u =>
    have hrow := timer?_update s u t (s.timerAfter m)
    rw [ht, Option.map_some, ← h.timers_of_timer hm] at hrow
    refine hrow.trans ?_
    simp only [Option.some.injEq]
    split <;> rfl
  | none =>
    rw [if_neg (by simp)]
    by_cases harm : ∃ b d now, m = .armTimer b d now
    · obtain ⟨b, d, now, rfl⟩ := harm
      show (((s.armTimer b d now).map (·.1)).getD s).timer? t = some timer
      unfold Scheduler.armTimer
      split
      · show (s.timers.add { bridge := b, duration := d }).get? t.number = some timer
        rw [Table.get?_add, if_neg (Nat.ne_of_lt (Table.lt_next_of_get? ht))]
        exact ht
      · exact ht
    · have hsame := h.timers_after ha hm fun b d now heq => harm ⟨b, d, now, heq⟩
      exact (congrArg (·.get? t.number) hsame).trans ht

/-! ## From arming to the deadline -/

/-- The handle of a timer is used before it is given up. -/
def Disarms (t : TimerId) (ms : List (Move V B)) : Prop :=
  ∃ early m late, ms = early ++ m :: late ∧ m = .disarmTimer t ∧ .detachTimer t ∉ early

theorem disarms_snoc : Disarms t (ms ++ [m]) ↔
    Disarms t ms ∨ m = .disarmTimer t ∧ .detachTimer t ∉ ms :=
  exists_split_snoc (P := fun early m => m = Move.disarmTimer t ∧ Move.detachTimer t ∉ early)

/-- What the stage of a timer says about the moves since it was armed. -/
def Accounts (s : Scheduler V B) (t : TimerId) (timer : Timer) (ms : List (Move V B)) : Prop :=
  match timer.stage with
  | .armed => .detachTimer t ∉ ms ∧ ¬ Disarms t ms
  | .detached => .detachTimer t ∈ ms ∧ ¬ Disarms t ms
  | .ended => Disarms t ms ∨
      .detachTimer t ∈ ms ∧ ¬ Disarms t ms ∧ s.isOver timer.bridge = true

theorem Accounts.of_other {s' : Scheduler V B} (h : s.Accounts t timer ms)
    (hm : m.timer? ≠ some t)
    (hover : s.isOver timer.bridge = true → s'.isOver timer.bridge = true) :
    s'.Accounts t timer (ms ++ [m]) := by
  have hdisarms : Disarms t (ms ++ [m]) ↔ Disarms t ms := by
    rw [disarms_snoc, or_iff_left]
    rintro ⟨rfl, -⟩
    exact hm rfl
  have hdetach : .detachTimer t ∈ ms ++ [m] ↔ .detachTimer t ∈ ms := by
    rw [List.mem_append, List.mem_singleton, or_iff_left]
    rintro rfl
    exact hm rfl
  unfold Accounts at h ⊢
  rw [hdisarms, hdetach]
  cases hs : timer.stage with
  | armed | detached =>
    rw [hs] at h
    exact h
  | ended =>
    rw [hs] at h
    exact h.imp_right fun ⟨hmem, hnot, hdone⟩ => ⟨hmem, hnot, hover hdone⟩

/-- Nothing is made of a timer that has ended. -/
theorem timerAfter_of_ended (hs : timer.stage = .ended) (m : Move V B) :
    s.timerAfter m timer = timer := by
  cases m <;> simp [timerAfter, Timer.disarm, Timer.detach, Timer.poll, Timer.expire, hs]

theorem Accounts.of_ended {s' : Scheduler V B} (h : s.Accounts t timer ms)
    (hs : timer.stage = .ended)
    (hover : s.isOver timer.bridge = true → s'.isOver timer.bridge = true) (m : Move V B) :
    s'.Accounts t timer (ms ++ [m]) := by
  unfold Accounts at h ⊢
  simp only [hs, disarms_snoc, List.mem_append] at h ⊢
  rcases h with hdis | ⟨hmem, hnot, hdone⟩
  · exact Or.inl (Or.inl hdis)
  · exact Or.inr ⟨Or.inl hmem, by simp [hmem, hnot], hover hdone⟩

/-- The use of the handle, its loss and a look at the bridge are accounted for. -/
theorem Accounts.of_own {s' : Scheduler V B} (h : s.Accounts t timer ms) (hm : m.timer? = some t)
    (hne : m ≠ .expireTimer t)
    (hover : s.isOver timer.bridge = true → s'.isOver timer.bridge = true) :
    s'.Accounts t (s.timerAfter m timer) (ms ++ [m]) := by
  by_cases hs : timer.stage = .ended
  · rw [timerAfter_of_ended hs]
    exact h.of_ended hs hover m
  unfold Accounts at h ⊢
  cases m with
  | disarmTimer u =>
    obtain rfl := Option.some.inj hm
    simp only [timerAfter, Timer.disarm, disarms_snoc, List.mem_append]
    cases hs : timer.stage with
    | armed =>
      simp only [hs] at h
      simp [h.1]
    | detached =>
      simp only [hs] at h ⊢
      exact ⟨Or.inl h.1, by simp [h.1, h.2]⟩
    | ended => contradiction
  | detachTimer u =>
    obtain rfl := Option.some.inj hm
    simp only [timerAfter, Timer.detach, disarms_snoc, List.mem_append]
    cases hs : timer.stage with
    | armed | detached =>
      simp only [hs] at h ⊢
      simp [h.2]
    | ended => contradiction
  | pollTimer u =>
    obtain rfl := Option.some.inj hm
    simp only [timerAfter, Timer.poll, disarms_snoc, List.mem_append]
    cases hs : timer.stage with
    | armed =>
      simp only [hs] at h ⊢
      simp [h.1, h.2]
    | detached =>
      simp only [hs] at h
      cases hdone : s.isOver timer.bridge with
      | true => simp [h.1, h.2, hover hdone]
      | false => simp [hs, h.1, h.2]
    | ended => contradiction
  | expireTimer u =>
    obtain rfl := Option.some.inj hm
    exact absurd rfl hne
  | _ => cases hm

/-- A bridge that is over stays so. -/
theorem Fates.isOver {Ok : BridgeId → Wakeup V → Prop} {s' : Scheduler V B} (h : Fates Ok s s')
    (hb : s.bridge? b = some x) (hover : s.isOver b = true) : s'.isOver b = true := by
  rw [isOver_eq hb, isCompleted_true] at hover
  obtain ⟨x', hb', hfate⟩ := h.old b x hb
  rw [isOver_eq hb', isCompleted_true]
  exact fun hp => hover (hfate.pending hp)

/-- A timer keeps its bridge and its duration. -/
theorem timerAfter_kept (s : Scheduler V B) (m : Move V B) (timer : Timer) :
    (s.timerAfter m timer).bridge = timer.bridge ∧
      (s.timerAfter m timer).duration = timer.duration := by
  cases m with
  | disarmTimer _ =>
    show timer.disarm.bridge = _ ∧ timer.disarm.duration = _
    unfold Timer.disarm
    split <;> exact ⟨rfl, rfl⟩
  | detachTimer _ =>
    show timer.detach.bridge = _ ∧ timer.detach.duration = _
    unfold Timer.detach
    split <;> exact ⟨rfl, rfl⟩
  | pollTimer _ =>
    show (timer.poll _).bridge = _ ∧ (timer.poll _).duration = _
    unfold Timer.poll
    split
    · split <;> exact ⟨rfl, rfl⟩
    · exact ⟨rfl, rfl⟩
    · exact ⟨rfl, rfl⟩
  | expireTimer _ =>
    show timer.expire.1.bridge = _ ∧ timer.expire.1.duration = _
    unfold Timer.expire
    split <;> exact ⟨rfl, rfl⟩
  | _ => exact ⟨rfl, rfl⟩

/-- **Up to its deadline the stage of a timer is accounted for by the moves since it was armed.** -/
theorem Initial.armed_accounts {before middle : List (Move V B)} (hs : Initial s)
    (ha : s.Admissible (before ++ .armTimer b d now :: middle)) (hd : now.fitsClock d = true)
    (hb : (s.run before).bridge? b = some x)
    (hnot : .expireTimer ⟨(s.run before).timers.next⟩ ∉ middle) :
    ∃ timer, (s.run (before ++ .armTimer b d now :: middle)).timer? ⟨(s.run before).timers.next⟩ =
        some timer ∧ timer.bridge = b ∧ timer.duration = d ∧
      (s.run (before ++ .armTimer b d now :: middle)).Accounts ⟨(s.run before).timers.next⟩ timer
        middle := by
  induction middle using List.reverseRecOn with
  | nil =>
    refine ⟨{ bridge := b, duration := d }, ?_, rfl, rfl, List.not_mem_nil, ?_⟩
    · rw [run_snoc]
      show (((s.run before).armTimer b d now |>.map (·.1)).getD (s.run before)).timer? _ = _
      rw [armTimer, if_pos hd]
      exact (Table.get?_add _ _ _).trans (if_pos rfl)
    · rintro ⟨early, m, late, heq, -⟩
      cases early <;> cases heq
  | append_singleton middle m ih =>
    rw [← List.cons_append, ← List.append_assoc] at ha ⊢
    obtain ⟨hprev, hm, -⟩ := admissible_append.mp ha
    rw [List.mem_append, List.mem_singleton, not_or] at hnot
    obtain ⟨timer, ht, rfl, rfl, hacc⟩ := ih hprev hnot.1
    have hstable := hs.stable_run hprev
    obtain ⟨hbefore, -⟩ := admissible_append.mp hprev
    obtain ⟨x', hb', -⟩ := ((hs.stable_run hbefore).fates_run
      (admissible_append.mp hprev).2).old _ x hb
    rw [← run_append] at hb'
    have hover := (hstable.apart hm (respects_all _ m)).fates.isOver hb'
    have hrow := hstable.after_timer? hm ht
    rw [run_snoc]
    refine ⟨_, hrow, ?_⟩
    split
    next hown =>
      obtain ⟨hbridge, hduration⟩ := timerAfter_kept _ m timer
      exact ⟨hbridge, hduration, hacc.of_own hown (Ne.symm hnot.2) hover⟩
    next hother => exact ⟨rfl, rfl, hacc.of_other hother hover⟩

end Scheduler
end CoopSched
