import CoopSched.Proofs.Peak.LiveChange

/-!
# Overcounts — how far the counter of the peak is from the peak

The true peak is the largest number of strands that were there at the same time, at any moment of a
run (`widest`). The counter of the peak never misses it, and is never more than one above it. It is
above it only if some move overcounts at the peak: somebody comes in that move, and somebody is
refused in it or ends, and before the move or after it there are as many strands as there ever were
(`peak_read`). While there are workers, one such move is enough. So one bounded job on an idle
scheduler already shows a peak that never was, if it launches one strand after the other.

Afterwards it depends on the order in which the clean-up takes strands off the live list and creates
others that are refused, and the counter may be right.
-/

namespace CoopSched

variable {V B : Type}

theorem length_bornIn (recs : List (Record V)) :
    (bornIn recs).length = recs.countP (Record.tells (·.counter? == some .created)) := by
  induction recs with
  | nil => rfl
  | cons rec recs ih =>
    rw [List.countP_cons, ← ih]
    match rec with
    | .answered .. => rfl
    | .event ⟨id, a⟩ =>
      cases a with
      | finished ok => cases ok <;> rfl
      | _ => rfl

theorem length_leaving (recs : List (Record V)) :
    (refusedIn recs).length + (goneIn recs).length =
      recs.countP (Record.tells Happening.leaves) := by
  induction recs with
  | nil => rfl
  | cons rec recs ih =>
    rw [List.countP_cons, ← ih]
    match rec with
    | .answered .. => rfl
    | .event ⟨id, a⟩ =>
      cases a with
      | rejected => exact Nat.succ_add _ _
      | finished ok => cases ok <;> rfl
      | _ => rfl

namespace Scheduler

variable {s : Scheduler V B} {ms before rest : List (Move V B)} {m m' : Move V B}

/-- What a move writes down. -/
def writes (s : Scheduler V B) (m : Move V B) : List (Record V) :=
  (s.after m).journal.toList.drop s.journal.toList.length

/-- Somebody comes in the move, and somebody is refused in it or ends. -/
def Overcounts (s : Scheduler V B) (m : Move V B) : Prop :=
  bornIn (s.writes m) ≠ [] ∧ (refusedIn (s.writes m) ≠ [] ∨ goneIn (s.writes m) ≠ [])

/-- The move overcounts, and as many strands as that are live before it or after it. -/
structure OvercountsAt (s : Scheduler V B) (m : Move V B) (peak : Nat) : Prop where
  overcounts : s.Overcounts m
  live : max s.live.length (s.after m).live.length = peak

/-! ## One move -/

/-- Everybody who was created was refused, has ended or is live. -/
theorem Initial.roll (hs : Initial s) (ha : s.Admissible ms) :
    (bornIn (s.run ms).journal.toList).length =
      (refusedIn (s.run ms).journal.toList).length +
        (goneIn (s.run ms).journal.toList).length + (s.run ms).live.length := by
  rw [length_bornIn, length_leaving]
  exact hs.created_run ha

/-- What a move does to the true peak, to the counter of the peak and to the live list. -/
structure PeakChange (s : Scheduler V B) (m : Move V B) : Prop where
  rises : widest (s.after m).journal.toList =
    max (widest s.journal.toList) (s.after m).live.length
  below : s.live.length ≤ widest s.journal.toList
  roll : s.live.length + (bornIn (s.writes m)).length =
    (refusedIn (s.writes m)).length + (goneIn (s.writes m)).length + (s.after m).live.length
  mono : s.counters.peakLive ≤ (s.after m).counters.peakLive
  peak : (s.after m).counters.peakLive ≤
    max s.counters.peakLive (shown s (s.after m) (bornIn (s.writes m)).length)
  reached : s.terminated = false →
    shown s (s.after m) (bornIn (s.writes m)).length ≤ (s.after m).counters.peakLive
  fewer : s.terminated = true → (s.after m).live.length ≤ s.live.length

theorem Initial.peakChange (hs : Initial s) (ha : s.Admissible (ms ++ [m])) :
    (s.run ms).PeakChange m := by
  obtain ⟨hbefore, hm, -⟩ := admissible_append.mp ha
  obtain ⟨pre, post, hchange⟩ := (hs.stable_run hbefore).liveChange hm
  have hwrites : (s.run ms).writes m = pre ++ post := by
    rw [writes, hchange.tells, List.drop_left]
  have hroll := hs.roll ha
  have hlast := hs.length_lastCrowd ha
  rw [run_snoc, hchange.tells] at hroll hlast
  have hnodup := hs.nodup_bornIn ha
  rw [run_snoc, hchange.tells, bornIn_append] at hnodup
  have hparted : Parted (s.run ms).journal.toList pre post :=
    { pre_refused := hchange.pre_refused
      stay := hchange.stay
      strangers := fun k hk hborn =>
        (List.disjoint_of_nodup_append hnodup) hborn (hchange.refused k hk) }
  have hwidest := hparted.widest_eq
  rw [hlast, ← hchange.tells] at hwidest
  have hbelow := length_crowd_le (le_refl (s.run ms).journal.toList.length)
  rw [hs.length_lastCrowd hbefore] at hbelow
  have hold := hs.roll hbefore
  rw [bornIn_append, refusedIn_append, goneIn_append, List.length_append, List.length_append,
    List.length_append] at hroll
  exact
    { rises := hwidest
      below := hbelow
      roll := by
        rw [hwrites]
        omega
      mono := hchange.mono
      peak := by rw [hwrites]; exact hchange.peak
      reached := by rw [hwrites]; exact hchange.reached
      fewer := hchange.fewer }

namespace PeakChange

/-- A move overcounts if strands are created in it, and not so many more are live after it. -/
theorem overcounts_iff (h : s.PeakChange m) : s.Overcounts m ↔ (bornIn (s.writes m)).length ≠ 0 ∧
    (s.after m).live.length ≠ s.live.length + (bornIn (s.writes m)).length := by
  have hroll := h.roll
  rw [Overcounts, ne_eq, ne_eq, ne_eq, ← List.length_eq_zero_iff, ← List.length_eq_zero_iff,
    ← List.length_eq_zero_iff]
  omega

/-- The counter is shown the live list after the move, or one strand more than before or after. -/
theorem shown_cases (h : s.PeakChange m) :
    shown s (s.after m) (bornIn (s.writes m)).length ≤ (s.after m).live.length ∧
        ¬ s.Overcounts m ∨
      shown s (s.after m) (bornIn (s.writes m)).length =
        max s.live.length (s.after m).live.length + 1 ∧ s.Overcounts m := by
  rw [h.overcounts_iff, shown]
  split_ifs <;> omega

theorem live_le (h : s.PeakChange m) (hp : widest s.journal.toList ≤ s.counters.peakLive) :
    (s.after m).live.length ≤ (s.after m).counters.peakLive := by
  have hmono := h.mono
  have hbelow := h.below
  cases gone : s.terminated with
  | true =>
    have hfewer := h.fewer gone
    omega
  | false =>
    have hreached := h.reached gone
    have hroll := h.roll
    rw [shown] at hreached
    split_ifs at hreached <;> omega

theorem reaches (h : s.PeakChange m) (hp : widest s.journal.toList ≤ s.counters.peakLive) :
    widest (s.after m).journal.toList ≤ (s.after m).counters.peakLive := by
  rw [h.rises]
  exact max_le (hp.trans h.mono) (h.live_le hp)

theorem bounded (h : s.PeakChange m)
    (hp : s.counters.peakLive ≤ widest s.journal.toList + 1) :
    (s.after m).counters.peakLive ≤ widest (s.after m).journal.toList + 1 := by
  have hpeak := h.peak
  have hbelow := h.below
  rw [h.rises]
  rcases h.shown_cases with ⟨hshown, -⟩ | ⟨hshown, -⟩ <;> omega

/-- If the counter is too high after a move, it was before, or the move overcounts at the peak. -/
theorem blamed (h : s.PeakChange m)
    (hp : s.counters.peakLive ≤ widest s.journal.toList + 1)
    (hover : (s.after m).counters.peakLive = widest (s.after m).journal.toList + 1) :
    s.counters.peakLive = widest s.journal.toList + 1 ∧
        widest (s.after m).journal.toList = widest s.journal.toList ∨
      s.OvercountsAt m (widest (s.after m).journal.toList) := by
  have hpeak := h.peak
  have hbelow := h.below
  have hwidest := h.rises
  rcases h.shown_cases with ⟨hshown, -⟩ | ⟨hshown, hcounts⟩
  · exact Or.inl (by omega)
  · by_cases hbefore : s.counters.peakLive = widest (s.after m).journal.toList + 1
    · exact Or.inl (by omega)
    · exact Or.inr ⟨hcounts, by omega⟩

/-- While there are workers, a move that overcounts at the peak makes the counter too high. -/
theorem exceeds (h : s.PeakChange m)
    (hp : s.counters.peakLive ≤ widest s.journal.toList + 1)
    (alive : s.terminated = false)
    (hover : s.OvercountsAt m (widest (s.after m).journal.toList)) :
    (s.after m).counters.peakLive = widest (s.after m).journal.toList + 1 := by
  obtain ⟨hcounts, hlive⟩ := hover
  have hreached := h.reached alive
  have hshown := (h.shown_cases.resolve_left fun hnot => hnot.2 hcounts).1
  rw [hshown, hlive] at hreached
  exact le_antisymm (h.bounded hp) hreached

end PeakChange

/-! ## Runs -/

/-- The true peak never becomes lower. -/
theorem Initial.widest_mono (hs : Initial s) (ha : s.Admissible (before ++ rest)) :
    widest (s.run before).journal.toList ≤ widest (s.run (before ++ rest)).journal.toList := by
  induction rest using List.reverseRecOn with
  | nil => rw [List.append_nil]
  | append_singleton rest m ih =>
    rw [← List.append_assoc] at ha ⊢
    have hchange := hs.peakChange ha
    rw [run_snoc, hchange.rises]
    exact (ih (admissible_append.mp ha).1).trans (le_max_left _ _)

theorem Initial.live_le_widest (hs : Initial s) (ha : s.Admissible (before ++ rest)) :
    (s.run before).live.length ≤ widest (s.run (before ++ rest)).journal.toList := by
  have hbefore := (admissible_append.mp ha).1
  rw [← hs.length_lastCrowd hbefore]
  exact (length_crowd_le le_rfl).trans (hs.widest_mono ha)

theorem Initial.height_le (hs : Initial s) (ha : s.Admissible (before ++ m :: rest)) :
    max (s.run before).live.length ((s.run before).after m).live.length ≤
      widest (s.run (before ++ m :: rest)).journal.toList := by
  refine max_le (hs.live_le_widest ha) ?_
  rw [List.append_cons] at ha ⊢
  rw [← run_snoc]
  exact hs.live_le_widest ha

/-- What the counter of the peak says after a run. -/
structure PeakRead (s : Scheduler V B) (ms : List (Move V B)) : Prop where
  /-- No moment is missed. -/
  reached : widest (s.run ms).journal.toList ≤ (s.run ms).stats.counted.peakLive
  /-- One strand too many is counted at most. -/
  bounded : (s.run ms).stats.counted.peakLive ≤ widest (s.run ms).journal.toList + 1
  /-- It is right unless a move overcounts at the peak. -/
  right : (∀ before m rest, ms = before ++ m :: rest →
      ¬ (s.run before).OvercountsAt m (widest (s.run ms).journal.toList)) →
    (s.run ms).stats.counted.peakLive = widest (s.run ms).journal.toList
  /-- And wrong if one does, as long as there are workers. -/
  exceeded : ∀ before m rest, ms = before ++ m :: rest → (s.run before).terminated = false →
    (s.run before).OvercountsAt m (widest (s.run ms).journal.toList) →
    (s.run ms).stats.counted.peakLive = widest (s.run ms).journal.toList + 1

theorem PeakRead.nil (hs : Initial s) : PeakRead s [] := by
  have hwidest : widest s.journal.toList = 0 := by
    rw [hs.journal]
    rfl
  have hpeak : s.stats.counted.peakLive = 0 := congrArg _ hs.counters
  rw [← run_nil s] at hwidest hpeak
  exact
    { reached := by rw [hwidest]; exact Nat.zero_le _
      bounded := by rw [hpeak]; exact Nat.zero_le _
      right := fun _ => hpeak.trans hwidest.symm
      exceeded := fun before m rest heq => absurd heq (by simp) }

theorem PeakRead.right_snoc (h : PeakRead s ms) (hs : Initial s) (ha : s.Admissible (ms ++ [m]))
    (hnone : ∀ before m' rest, ms ++ [m] = before ++ m' :: rest →
      ¬ (s.run before).OvercountsAt m' (widest (s.run (ms ++ [m])).journal.toList)) :
    (s.run (ms ++ [m])).stats.counted.peakLive = widest (s.run (ms ++ [m])).journal.toList := by
  have hchange := hs.peakChange ha
  have hbounded := hchange.bounded h.bounded
  rw [run_snoc] at hnone ⊢
  refine le_antisymm (Nat.le_of_lt_succ (lt_of_le_of_ne hbounded fun hover => ?_))
    (hchange.reaches h.reached)
  rcases hchange.blamed h.bounded hover with ⟨hbefore, hsame⟩ | hlast
  · -- Then it was too high before, and the move that is to blame is one of these.
    have hright := h.right fun before m' rest heq => by
      rw [← hsame]
      exact hnone before m' (rest ++ [m]) (by rw [heq, List.append_assoc, List.cons_append])
    exact Nat.succ_ne_self _ (hbefore.symm.trans hright)
  · exact hnone ms m [] rfl hlast

theorem PeakRead.exceeded_snoc (h : PeakRead s ms) (hs : Initial s)
    (ha : s.Admissible (ms ++ [m])) (heq : ms ++ [m] = before ++ m' :: rest)
    (alive : (s.run before).terminated = false)
    (hover : (s.run before).OvercountsAt m' (widest (s.run (ms ++ [m])).journal.toList)) :
    (s.run (ms ++ [m])).stats.counted.peakLive =
      widest (s.run (ms ++ [m])).journal.toList + 1 := by
  have hchange := hs.peakChange ha
  rcases (exists_split_snoc (P := fun before m' => (s.run before).terminated = false ∧
    (s.run before).OvercountsAt m' (widest (s.run (ms ++ [m])).journal.toList))).mp
    ⟨before, m', rest, heq, alive, hover⟩ with
    ⟨before, m', rest, rfl, alive, hover⟩ | ⟨alive, hover⟩
  · -- As many were live then, so the last move has not made the true peak higher.
    have hheight := hs.height_le (admissible_append.mp ha).1
    have hrises := hchange.rises
    rw [run_snoc] at hover ⊢
    have hsame : widest ((s.run (before ++ m' :: rest)).after m).journal.toList =
        widest (s.run (before ++ m' :: rest)).journal.toList := by
      have hlive := hover.live
      omega
    have hold := h.exceeded before m' rest rfl alive (hsame ▸ hover)
    refine le_antisymm (hchange.bounded h.bounded) ?_
    rw [hsame, ← hold]
    exact hchange.mono
  · rw [run_snoc] at hover ⊢
    exact hchange.exceeds h.bounded alive hover

theorem PeakRead.snoc (h : PeakRead s ms) (hs : Initial s) (ha : s.Admissible (ms ++ [m])) :
    PeakRead s (ms ++ [m]) where
  reached := by
    rw [run_snoc]
    exact (hs.peakChange ha).reaches h.reached
  bounded := by
    rw [run_snoc]
    exact (hs.peakChange ha).bounded h.bounded
  right := h.right_snoc hs ha
  exceeded := fun _ _ _ heq alive hover => h.exceeded_snoc hs ha heq alive hover

/-- **The counter of the peak is right, or one too high**, and it is known when. -/
theorem peak_read (hs : Initial s) (ha : s.Admissible ms) : PeakRead s ms := by
  induction ms using List.reverseRecOn with
  | nil => exact .nil hs
  | append_singleton ms m ih => exact (ih (admissible_append.mp ha).1).snoc hs ha

/-- A job launches its second strand when the first one has finished. -/
theorem peak_read_chained :
    let ms : List (Move Nat Unit) := [.invoke [10, 20] (fun _ _ => .ok ()) (.bounded 1) fun _ => [],
      .dispatch, .endSegment ⟨1⟩ () (.done (.ok 1)), .dispatch, .endSegment ⟨2⟩ () (.done (.ok 2))]
    PeakRead single ms ∧ (single.run ms).stats.counted.created = 2 ∧
      (single.run ms).stats.counted.peakLive = 2 ∧ widest (single.run ms).journal.toList = 1 := by
  intro ms
  have ha : single.Admissible ms := by simp [ms, Admissible, Allows]; decide
  exact ⟨peak_read single_initial ha, rfl, rfl, by decide⟩

/-- The counter is not the true peak. -/
theorem not_true_peak_chained :
    ¬ ∀ (s : Scheduler Nat Unit) (ms : List (Move Nat Unit)), Initial s → s.Admissible ms →
      (s.run ms).stats.counted.peakLive = widest (s.run ms).journal.toList := by
  intro h
  have hpeak := h single [.invoke [10, 20] (fun _ _ => .ok ()) (.bounded 1) fun _ => [], .dispatch,
    .endSegment ⟨1⟩ () (.done (.ok 1))] single_initial (by simp [Admissible, Allows]; decide)
  revert hpeak
  decide

end Scheduler
end CoopSched
