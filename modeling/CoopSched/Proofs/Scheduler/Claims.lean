import CoopSched.Proofs.Scheduler.Fates
import CoopSched.Proofs.Scheduler.Stable

/-!
# Claims — one completion of a bridge

Whoever completes a bridge that is pending claims it: his payload lies in it afterwards, whatever
his completion sets off. Whoever completes it later changes nothing and is turned away. That goes
for all kinds of completers, and for the timers as well.
-/

namespace CoopSched
namespace Scheduler

variable {V B : Type} {Ok : BridgeId → Wakeup V → Prop} {drained : Bool} {n : Nat}
  {s : Scheduler V B} {m : Move V B} {b : BridgeId} {x : Bridge V} {w : Wakeup V}

theorem isCompleted_false : x.isCompleted = false ↔ x.stage = .pending := by
  unfold Bridge.isCompleted
  cases x.stage <;> simp

theorem isCompleted_true : x.isCompleted = true ↔ x.stage ≠ .pending := by
  rw [← Bool.not_eq_false, ne_eq, isCompleted_false]

/-! ## The first one -/

theorem claim?_pending (hp : x.stage = .pending) (w : Wakeup V) :
    x.claim? w = some { x with stage := .holding w } := by
  unfold Bridge.claim?
  rw [hp]

/-- What a completion sets off does not touch the payload that it brought. -/
theorem deliver_lying (hn : Sound Ok n s) (hb : s.bridge? b = some x) (hp : x.stage = .pending)
    (w : Wakeup V) : (s.deliver b w).1.lying b = some w := by
  have hset : (s.setBridge b { x with stage := .holding w }).bridge? b =
      some { x with stage := .holding w } := bridge?_setBridge_self hb _
  have hafter : Bridges Ok True (s.setBridge b { x with stage := .holding w })
      (s.deliver b w).1 := by
    unfold deliver deliverWith
    rw [hb]
    dsimp only
    rw [claim?_pending hp]
    dsimp only
    cases hterm : s.terminated with
    | false =>
      rw [wakeWith_of_alive (s := s.setBridge b _) hterm]
      exact .wake (s := s.setBridge b _) hterm _
    | true =>
      have hcancel := cancels_cancel (s.setBridge b { x with stage := .holding w }) x.strand
        shutDownReason (hn.setBridge b _) hterm
      unfold wakeWith
      rw [if_pos (show (s.setBridge b { x with stage := .holding w }).terminated = true from hterm)]
      exact (Bridges.strike trivial x.strand).trans (hcancel.bridges.weaken fun _ => trivial)
  obtain ⟨x', hx', hon⟩ := hafter.old b _ hset
  refine lying_eq_some.mpr ⟨x', hx', ?_⟩
  rcases hon.stage with hs | ⟨hpending, -⟩
  · exact hs
  · cases hpending

/-- Is a completion taken for the first one? -/
def Accepts (s : Scheduler V B) : Move V B → Prop
  | .complete b r => ∀ k, (s.complete b r).2 ≠ .error (.alreadyCompleted k)
  | .deliver b payload => ∀ k, (s.deliver b payload).2 ≠ .error (.alreadyCompleted k)
  | .tryComplete b r => (s.tryComplete b r).2 = true
  | _ => True

theorem wakeWith_answer (s : Scheduler V B) (nested : Cancel V B) (id k : StrandId) :
    (s.wakeWith nested id).2 ≠ .error (.alreadyCompleted k) := by
  unfold wakeWith
  split
  · simp
  · split
    · simp
    next st hst => cases st.status <;> simp [Status.wake]

theorem deliver_accepted (hb : s.bridge? b = some x) (hp : x.stage = .pending) (w : Wakeup V)
    (k : StrandId) : (s.deliver b w).2 ≠ .error (.alreadyCompleted k) := by
  unfold deliver deliverWith
  rw [hb]
  dsimp only
  rw [claim?_pending hp]
  exact wakeWith_answer _ _ _ k

theorem tryComplete_pending (hb : s.bridge? b = some x) (hp : x.stage = .pending)
    (r : Outcome V) : s.tryComplete b r = ((s.deliver b (.completed r)).1, true) := by
  unfold tryComplete
  rw [hb]
  dsimp only
  rw [if_neg (by simp [isCompleted_false.mpr hp])]
  rfl

/-- A timer at its deadline is a completer for which others race. -/
theorem expireTimer_eq {t : TimerId} {timer : Timer} {e : Failure} (ht : s.timer? t = some timer)
    (he : timer.expire.2 = some e) :
    s.expireTimer t = ({ s with
      timers := s.timers.update t.number fun _ => timer.expire.1 }.tryComplete timer.bridge
        (.err e)).1 := by
  unfold expireTimer
  rw [ht]
  dsimp only
  rw [he]

/-- **The first completion claims the bridge**, and its payload lies in it. -/
theorem Stable.first_completion (h : Stable Ok drained s) (hc : s.completes m = some (b, w))
    (hb : s.bridge? b = some x) (hp : x.stage = .pending) :
    (s.after m).lying b = some w ∧ s.Accepts m := by
  obtain ⟨n, hn⟩ := h.sound
  cases m with
  | complete a r =>
    obtain ⟨rfl, rfl⟩ := Prod.mk.inj (Option.some.inj hc)
    exact ⟨deliver_lying hn hb hp _, deliver_accepted hb hp _⟩
  | tryComplete a r =>
    obtain ⟨rfl, rfl⟩ := Prod.mk.inj (Option.some.inj hc)
    have hfirst := tryComplete_pending hb hp r
    refine ⟨?_, ?_⟩
    · show (s.tryComplete a r).1.lying a = _
      rw [hfirst]
      exact deliver_lying hn hb hp _
    · show (s.tryComplete a r).2 = true
      rw [hfirst]
  | deliver a payload =>
    obtain ⟨rfl, rfl⟩ := Prod.mk.inj (Option.some.inj hc)
    exact ⟨deliver_lying hn hb hp _, deliver_accepted hb hp _⟩
  | expireTimer t =>
    obtain ⟨timer, ht, hmap⟩ := Option.bind_eq_some_iff.mp hc
    obtain ⟨e, he, heq⟩ := Option.map_eq_some_iff.mp hmap
    obtain ⟨rfl, rfl⟩ := Prod.mk.inj heq
    refine ⟨?_, trivial⟩
    show (s.expireTimer t).lying timer.bridge = _
    have hupdate := h.updateTimer t (f := fun _ => timer.expire.1) fun timer' ht' => by
      rw [← Option.some.inj (ht.symm.trans ht')]
      exact timer.expire_bridge
    obtain ⟨n, hn⟩ := hupdate.sound
    have hfirst := tryComplete_pending
      (s := { s with timers := s.timers.update t.number fun _ => timer.expire.1 }) hb hp (.err e)
    rw [expireTimer_eq ht he, hfirst]
    exact deliver_lying hn hb hp _
  | _ => cases hc

/-! ## The others -/

/-- Is a completion of a bridge of that strand turned away? A timer is told nothing. -/
def Refuses (s : Scheduler V B) (k : StrandId) : Move V B → Prop
  | .complete b r =>
      (s.complete b r).2 = .error (if s.isShutDown then .shutDown else .alreadyCompleted k)
  | .deliver b payload =>
      (s.deliver b payload).2 = .error (if s.isShutDown then .shutDown else .alreadyCompleted k)
  | .tryComplete b r => (s.tryComplete b r).2 = false
  | _ => True

theorem claim?_late (hx : x.stage ≠ .pending) (w : Wakeup V) : x.claim? w = none := by
  unfold Bridge.claim?
  cases hs : x.stage with
  | pending => exact absurd hs hx
  | _ => rfl

theorem deliverWith_late (nested : Cancel V B) (hb : s.bridge? b = some x)
    (hx : x.stage ≠ .pending) (w : Wakeup V) : s.deliverWith nested b w =
      (s, .error (if s.isShutDown then .shutDown else .alreadyCompleted x.strand)) := by
  unfold deliverWith
  rw [hb]
  dsimp only
  rw [claim?_late hx]

theorem deliver_late (hb : s.bridge? b = some x) (hx : x.stage ≠ .pending) (w : Wakeup V) :
    s.deliver b w = (s, .error (if s.isShutDown then .shutDown else .alreadyCompleted x.strand)) :=
  deliverWith_late cancel hb hx w

theorem tryComplete_late (hb : s.bridge? b = some x) (hx : x.stage ≠ .pending) (r : Outcome V) :
    s.tryComplete b r = (s, false) := by
  unfold tryComplete
  rw [hb]
  dsimp only
  rw [if_pos (isCompleted_true.mpr hx)]

/-- **A later completion changes nothing** but the timer that made it, and is turned away. -/
theorem late_completion (hc : s.completes m = some (b, w)) (hb : s.bridge? b = some x)
    (hx : x.stage ≠ .pending) :
    s.after m = { s with timers := (s.after m).timers } ∧ s.Refuses x.strand m := by
  have hsame : ∀ {s' : Scheduler V B}, s' = s → s' = { s with timers := s'.timers } := by
    rintro _ rfl
    rfl
  cases m with
  | complete a r =>
    obtain ⟨rfl, rfl⟩ := Prod.mk.inj (Option.some.inj hc)
    have hlate := deliver_late hb hx (.completed r)
    exact ⟨hsame (congrArg Prod.fst hlate), congrArg Prod.snd hlate⟩
  | tryComplete a r =>
    obtain ⟨rfl, rfl⟩ := Prod.mk.inj (Option.some.inj hc)
    have hlate := tryComplete_late hb hx r
    exact ⟨hsame (congrArg Prod.fst hlate), congrArg Prod.snd hlate⟩
  | deliver a payload =>
    obtain ⟨rfl, rfl⟩ := Prod.mk.inj (Option.some.inj hc)
    have hlate := deliver_late hb hx payload
    exact ⟨hsame (congrArg Prod.fst hlate), congrArg Prod.snd hlate⟩
  | expireTimer t =>
    obtain ⟨timer, ht, hmap⟩ := Option.bind_eq_some_iff.mp hc
    obtain ⟨e, he, heq⟩ := Option.map_eq_some_iff.mp hmap
    obtain ⟨rfl, rfl⟩ := Prod.mk.inj heq
    refine ⟨?_, trivial⟩
    have hlate := tryComplete_late
      (s := { s with timers := s.timers.update t.number fun _ => timer.expire.1 }) hb hx (.err e)
    show s.expireTimer t = { s with timers := (s.expireTimer t).timers }
    rw [expireTimer_eq ht he, hlate]
  | _ => cases hc

end Scheduler
end CoopSched
