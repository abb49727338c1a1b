import CoopSched.Proofs.Scheduler.Claims
import CoopSched.Proofs.Scheduler.Entries

/-!
# Handoff — a bridge is claimed once, taken once and wakes once

Many can race for a bridge, and they can come at any time: while the strand runs, while it is
blocked, after it has ended. The first one claims the bridge, and everybody later is turned away
and changes nothing. What the first one brought is all that is ever taken out, and the strand is
put into the queue for it once at most, by whichever comes second: the completer, or the end of the
segment (`handed_once`).

That is so as long as there are workers. When they are gone there is no queue to come into, and to
resume a strand is to cancel it: whoever claims the bridge of a blocked strand then ends the strand
himself.
-/

namespace CoopSched
namespace Scheduler

variable {V B : Type} {s : Scheduler V B} {ms before rest : List (Move V B)} {m : Move V B}
  {k : StrandId} {b : BridgeId} {w : Wakeup V}

/-- In the middle of a run, what holds of the moves so far. -/
theorem Initial.split (hs : Initial s) (ha : s.Admissible (before ++ m :: rest)) :
    Stable (fun _ _ => True) (before.any Move.isCleanUp) (s.run before) ∧ (s.run before).Allows m ∧
      ((s.run before).terminated = false → Queued ((s.run before).after m)) := by
  obtain ⟨hbefore, hm, -⟩ := admissible_append.mp ha
  refine ⟨hs.stable_run hbefore, hm, fun alive => ?_⟩
  have hclean := (hs.stable _).alive_run hbefore (fun _ m _ _ => respects_all _ m) alive
  refine ((hs.stable_run hbefore).after hm (respects_all _ m)).queued ?_
  rw [hclean.2, isCleanUp_of_alive hm alive]
  rfl

/-- One entry is all there is. -/
theorem Initial.entries_once (hs : Initial s) (ha : s.Admissible (before ++ m :: rest))
    (he : enters (s.run before) ((s.run before).after m) k b = 1) :
    entries s k b (before ++ m :: rest) = 1 := by
  have hle := entries_le_one (k := k) (b := b) (hs.stable fun _ _ => True) ha fun _ => rfl
  rw [entries_append, entries, he] at hle ⊢
  omega

/-- Nobody comes into the queue for a bridge that nobody has claimed. -/
theorem Initial.entries_unclaimed (hs : Initial s) (ha : s.Admissible ms)
    (hu : Unclaimed (s.run ms) b) : entries s k b ms = 0 := by
  induction ms using List.reverseRecOn with
  | nil => rfl
  | append_singleton ms m ih =>
    obtain ⟨hprev, hm, -⟩ := admissible_append.mp ha
    have hstable := hs.stable_run hprev
    rw [run_snoc] at hu
    have hbefore := (hstable.apart hm (respects_all _ m)).fates.unclaimed hu
    rw [entries_append, ih hprev hbefore, Nat.zero_add]
    refine Classical.byContradiction fun hne => ?_
    obtain ⟨-, -, -, w, -, -, -, hb⟩ := entered (hstable.after hm (respects_all _ m)).placed hne
    cases hu _ hb

/-- Nor does anybody come for a bridge that is claimed when the workers are gone. -/
theorem Initial.entries_of_gone (hs : Initial s) (ha : s.Admissible (before ++ rest))
    (hu : Unclaimed (s.run before) b) (gone : (s.run before).terminated = true) :
    entries s k b (before ++ rest) = 0 := by
  obtain ⟨hbefore, hrest⟩ := admissible_append.mp ha
  have hlater : entries (s.run before) k b rest = 0 := by
    refine entries_zero (hs.stable_run hbefore) hrest (fun alive => ?_) fun howes => ?_
    · cases alive.symm.trans gone
    · cases howes.1.symm.trans gone
  rw [entries_append, hs.entries_unclaimed hbefore hu, hlater]

end Scheduler
end CoopSched
