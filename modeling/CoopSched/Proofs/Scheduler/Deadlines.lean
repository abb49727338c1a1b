import CoopSched.Proofs.Scheduler.Parking
import CoopSched.Proofs.Scheduler.Timers

/-!
# Deadlines — timers race for the bridge of a parked strand

Any number of timers can be armed on a bridge, and each of them is one more completer for it. A
timer that is disarmed in time is out of the race. Any other one, whether its handle is still there
or was given up, completes the bridge at its deadline if nobody was faster, and if somebody was it
is as if it had never been armed.

The strand of the bridge is resumed for whoever comes first, as long as it has not been cancelled,
and for nobody else (`timers_race`). To be resumed is to come into the ready queue; when the workers
are gone there is no queue to come into, and resuming a strand is cancelling it.
-/

namespace CoopSched
namespace Scheduler

variable {V B : Type} {drained : Bool} {s : Scheduler V B} {m : Move V B}
  {ms middle : List (Move V B)} {k : StrandId} {b : BridgeId} {t : TimerId} {timer : Timer}
  {d : Duration}

/-! ## When a timer is due -/

/-- What a timer brings. -/
def timedOut (d : Duration) : Wakeup V :=
  .completed (.err ⟨.timedOut, "no completion within " ++ d.text⟩)

/-- A timer is armed on a bridge, and its deadline comes after the moves in between, which lead from
    there to `now`. -/
def Due (s : Scheduler V B) (ms : List (Move V B)) (b : BridgeId) (d : Duration) (t : TimerId)
    (middle : List (Move V B)) (now : Scheduler V B) : Prop :=
  ∃ before rest clock x,
    ms = before ++ .armTimer b d clock :: (middle ++ .expireTimer t :: rest) ∧
    t = ⟨(s.run before).timers.next⟩ ∧ clock.fitsClock d = true ∧
    (s.run before).bridge? b = some x ∧ .expireTimer t ∉ middle ∧
    now = s.run (before ++ .armTimer b d clock :: middle)

/-- With a timer that has ended nothing happens any more. -/
theorem after_of_ended (hm : m.timer? = some t) (ht : s.timer? t = some timer)
    (hs : timer.stage = .ended) : s.completes m = none ∧ s.after m = s := by
  have hsame : ∀ {f : Timer → Timer}, f timer = timer →
      { s with timers := s.timers.update t.number f } = s := fun {f} hf => by
    rw [Table.update_eq_self fun old hold => ?_]
    obtain rfl := Option.some.inj (ht.symm.trans hold)
    exact hf
  cases m with
  | disarmTimer u =>
    obtain rfl := Option.some.inj hm
    exact ⟨rfl, hsame (timerAfter_of_ended (s := s) hs (.disarmTimer u))⟩
  | detachTimer u =>
    obtain rfl := Option.some.inj hm
    exact ⟨rfl, hsame (timerAfter_of_ended (s := s) hs (.detachTimer u))⟩
  | pollTimer u =>
    obtain rfl := Option.some.inj hm
    refine ⟨rfl, ?_⟩
    show s.pollTimer u = s
    unfold Scheduler.pollTimer
    rw [ht]
    exact hsame (timerAfter_of_ended (s := s) hs (.pollTimer u))
  | expireTimer u =>
    obtain rfl := Option.some.inj hm
    have hexpire : timer.expire = (timer, none) := by
      unfold Timer.expire
      rw [hs]
    refine ⟨?_, ?_⟩
    · simp [completes, ht, hexpire]
    · show s.expireTimer u = s
      unfold Scheduler.expireTimer
      rw [ht]
      dsimp only
      rw [hexpire]
      exact hsame rfl
  | _ => cases hm

/-- When its deadline comes a timer has ended just if its handle was used in time, or if it was
    given up and the bridge had been completed already. -/
theorem Initial.due_stage (hs : Initial s) (ha : s.Admissible ms) {now : Scheduler V B}
    (hdue : Due s ms b d t middle now) :
    ∃ timer, now.timer? t = some timer ∧ timer.bridge = b ∧ timer.duration = d ∧
      (Disarms t middle → timer.stage = .ended) ∧
      (¬ Disarms t middle → now.isOver b = false → timer.stage ≠ .ended) := by
  obtain ⟨before, rest, clock, x, rfl, rfl, hd, hb, hnot, rfl⟩ := hdue
  rw [← List.cons_append, ← List.append_assoc] at ha
  obtain ⟨timer, ht, rfl, hduration, hacc⟩ :=
    hs.armed_accounts (admissible_append.mp ha).1 hd hb hnot
  refine ⟨timer, ht, rfl, hduration, fun hdis => ?_, fun hkept hopen hended => ?_⟩
  · unfold Accounts at hacc
    cases hstage : timer.stage with
    | ended => rfl
    | armed | detached =>
      rw [hstage] at hacc
      exact absurd hdis hacc.2
  · unfold Accounts at hacc
    rw [hended] at hacc
    rcases hacc with hdis | ⟨-, -, hover⟩
    · exact hkept hdis
    · exact absurd (hopen.symm.trans hover) (by decide)

/-- A bridge on which a timer is due is there. -/
theorem Initial.due_bridge (hs : Initial s) (ha : s.Admissible ms) {now : Scheduler V B}
    (hdue : Due s ms b d t middle now) :
    ∃ drained y, Stable (fun _ _ => True) drained now ∧ now.bridge? b = some y := by
  obtain ⟨before, rest, clock, x, rfl, rfl, -, hb, -, rfl⟩ := hdue
  rw [← List.cons_append, ← List.append_assoc] at ha
  have hnow := (admissible_append.mp ha).1
  obtain ⟨hbefore, hlater⟩ := admissible_append.mp hnow
  obtain ⟨y, hy, -⟩ := ((hs.stable_run hbefore).fates_run hlater).old b x hb
  exact ⟨_, y, hs.stable_run hnow, by rw [run_append]; exact hy⟩

theorem completes_expire (ht : s.timer? t = some timer) (hs : timer.stage ≠ .ended) :
    s.completes (.expireTimer t) = some (timer.bridge, timedOut timer.duration) := by
  have hexpire : timer.expire.2 = some timer.failure := by
    unfold Timer.expire
    cases hstage : timer.stage with
    | armed | detached => rfl
    | ended => exact absurd hstage hs
  simp only [completes, ht, Option.bind_some, hexpire, Option.map_some]
  rfl

/-! ## The law -/

/-- The race for the bridge of a strand in the course of a run. -/
structure Race (s : Scheduler V B) (ms : List (Move V B)) (k : StrandId) (b : BridgeId) :
    Prop where
  /-- A timer that was disarmed in time completes nothing. -/
  disarmed : ∀ d t middle now, Due s ms b d t middle now → Disarms t middle →
    now.completes (.expireTimer t) = none ∧ now.after (.expireTimer t) = now
  /-- Any other one completes the bridge at its deadline, if nobody has. -/
  wins : ∀ d t middle now, Due s ms b d t middle now → ¬ Disarms t middle →
    now.isOver b = false → now.completes (.expireTimer t) = some (b, timedOut d) ∧
      (now.after (.expireTimer t)).lying b = some (timedOut d)
  /-- If somebody has it leaves everything as it is, and complains to nobody. -/
  loses : ∀ d t middle now, Due s ms b d t middle now → now.isOver b = true →
    now.after (.expireTimer t) =
        { now with timers := (now.after (.expireTimer t)).timers } ∧
      ∀ r, now.tryComplete b r = (now, false)
  /-- Nor does it change anything to look at the bridge. A timer without a handle that finds it
      completed is over. -/
  polled : ∀ before t rest timer, ms = before ++ .pollTimer t :: rest →
    (s.run before).timer? t = some timer → timer.bridge = b →
    (s.run before).after (.pollTimer t) = { s.run before with
        timers := ((s.run before).after (.pollTimer t)).timers } ∧
      (timer.stage = .detached → (s.run before).isOver b = true →
        ((s.run before).after (.pollTimer t)).timer? t = some { timer with stage := .ended })
  /-- With a timer that is over nothing happens any more. -/
  spent : ∀ before m t rest timer, ms = before ++ m :: rest → m.timer? = some t →
    (s.run before).timer? t = some timer → timer.stage = .ended →
    (s.run before).completes m = none ∧ (s.run before).after m = s.run before
  /-- Of all completers the first one leaves his payload, and the later ones change nothing. -/
  first : ∀ before m rest w x, ms = before ++ m :: rest →
    (s.run before).completes m = some (b, w) → (s.run before).bridge? b = some x →
    (x.isCompleted = false → ((s.run before).after m).lying b = some w) ∧
      (x.isCompleted = true → (s.run before).after m =
        { s.run before with timers := ((s.run before).after m).timers })
  /-- The strand is resumed once for whoever comes first before it is cancelled, and is told what he
      brought. With the workers gone, resuming it is cancelling it, and it is not put into the queue
      for this bridge at all. -/
  resumed : ∀ before m rest w, ms = before ++ m :: rest → (s.run before).Acts m k b w →
    ((s.run before).terminated = false → entries s k b ms = 1) ∧
      ((s.run before).terminated = true → entries s k b ms = 0 ∧
        ∃ st', ((s.run before).after m).strand? k = some st' ∧ st'.status = .doneError) ∧
      (takings s b ms = [] ∨ takings s b ms = [w]) ∧
      ∀ early m' late segment st, ms = early ++ m' :: late →
        (s.run early).segment? m' = some segment → segment.strand = k →
        (s.run early).strand? k = some st → st.bridge = some b → segment.wakeup = w
  /-- It is resumed for nobody else. -/
  never : (∀ before m rest w, ms = before ++ m :: rest → ¬ (s.run before).Acts m k b w) →
    entries s k b ms = 0 ∧ takings s b ms = []

/-- **Timers and other completers race for the bridge of a parked strand**, in whatever order they
    come and whatever is done with the timers. -/
theorem timers_race (hs : Initial s) (ha : s.Admissible ms) (hparks : Parks s ms k b) :
    Race s ms k b where
  disarmed := by
    intro d t middle now hdue hdis
    obtain ⟨timer, ht, -, -, hended, -⟩ := hs.due_stage ha hdue
    exact after_of_ended rfl ht (hended hdis)
  wins := by
    intro d t middle now hdue hkept hopen
    obtain ⟨timer, ht, rfl, rfl, -, hlive⟩ := hs.due_stage ha hdue
    obtain ⟨drained, y, hstable, hb⟩ := hs.due_bridge ha hdue
    have hcompletes := completes_expire ht (hlive hkept hopen)
    rw [isOver_eq hb] at hopen
    exact ⟨hcompletes, (hstable.first_completion hcompletes hb (isCompleted_false.mp hopen)).1⟩
  loses := by
    intro d t middle now hdue hover
    obtain ⟨timer, ht, rfl, rfl, -, -⟩ := hs.due_stage ha hdue
    obtain ⟨drained, y, -, hb⟩ := hs.due_bridge ha hdue
    rw [isOver_eq hb] at hover
    have hlate := isCompleted_true.mp hover
    refine ⟨?_, fun r => tryComplete_late hb hlate r⟩
    by_cases hended : timer.stage = .ended
    · rw [(after_of_ended (m := .expireTimer t) rfl ht hended).2]
    · exact (late_completion (completes_expire ht hended) hb hlate).1
  polled := by
    rintro before t rest timer rfl ht rfl
    have hafter : (s.run before).after (.pollTimer t) = { s.run before with
        timers := (s.run before).timers.update t.number
          (·.poll ((s.run before).isOver timer.bridge)) } := by
      show (s.run before).pollTimer t = _
      unfold pollTimer
      rw [ht]
      rfl
    rw [hafter]
    refine ⟨rfl, fun hstage hover => ?_⟩
    rw [timer?_update, if_pos rfl, ht, Option.map_some, hover, Timer.poll, hstage]
    rfl
  spent := by
    rintro before m t rest timer rfl hm ht hended
    exact after_of_ended hm ht hended
  first := by
    rintro before m rest w x rfl hc hb
    exact ⟨fun hx => ((hs.split ha).1.first_completion hc hb (isCompleted_false.mp hx)).1,
      fun hx => (late_completion hc hb (isCompleted_true.mp hx)).1⟩
  resumed := by
    rintro before m rest w rfl hacts
    obtain ⟨halive, hgone⟩ := hs.resumed_for_first ha hparks hacts
    refine ⟨halive, hgone, ?_, fun early m' late segment st heq hseg hk hst hslot =>
      hs.told_first ha hacts heq hseg hk hst hslot⟩
    obtain ⟨x', hb', hx'⟩ := lying_eq_some.mp hacts.claims
    rcases takings_of_claim (hs.stable _) ha hacts.unclaimed hb' (by rw [hx']; simp) with
      hnil | ⟨w', hw', hone⟩
    · exact Or.inl hnil
    · obtain rfl := Bridge.Stage.holding.inj (hx'.symm.trans hw')
      exact Or.inr hone
  never := fun hnobody => ⟨hs.never_resumed ha hnobody, hs.never_taken ha hparks hnobody⟩

/-- A strand parks with two timers on its bridge. One is disarmed, and the handle of the other is
    given up; it fires, the real completer comes too late, and the strand is told of the timeout. -/
theorem timers_race_two :
    let ms : List (Move Nat Unit) := [.spawn () none, .dispatch, .park ⟨1⟩,
      .armTimer ⟨1⟩ ⟨0, 10000000⟩ ⟨5, 0⟩, .armTimer ⟨1⟩ ⟨0, 20000000⟩ ⟨5, 1⟩,
      .endSegment ⟨1⟩ () .park, .disarmTimer ⟨1⟩, .detachTimer ⟨2⟩, .pollTimer ⟨2⟩,
      .expireTimer ⟨1⟩, .expireTimer ⟨2⟩, .tryComplete ⟨1⟩ (.ok 7), .dispatch]
    Race single ms ⟨1⟩ ⟨1⟩ ∧ entries single ⟨1⟩ ⟨1⟩ ms = 1 ∧
      takings single ⟨1⟩ ms = [timedOut ⟨0, 20000000⟩] := by
  intro ms
  have ha : single.Admissible ms := by simp [ms, Admissible, Allows]; decide
  have hparks : Parks single ms ⟨1⟩ ⟨1⟩ :=
    ⟨_, .endSegment ⟨1⟩ () .park, _, (List.take_append_drop 5 ms).symm,
      ⟨(), .park, rfl, Or.inr rfl⟩, rfl, _, rfl, rfl⟩
  exact ⟨timers_race single_initial ha hparks, rfl, rfl⟩

end Scheduler
end CoopSched
