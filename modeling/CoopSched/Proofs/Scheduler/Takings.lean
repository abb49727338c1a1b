import CoopSched.Proofs.Scheduler.Places
import CoopSched.Proofs.Scheduler.Turns

/-!
# Takings — what is taken out of a bridge

A payload that lay in a bridge before a move and does not lie there after it has been taken. That
is a worker resuming the strand of the bridge, which is told the payload (`Apart.taken`). Over a
whole run at most one payload is taken out of a bridge, and it is the one that the first claim
brought (`takings_of_claim`).
-/

namespace CoopSched
namespace Scheduler

variable {V B : Type} {Ok : BridgeId → Wakeup V → Prop} {drained : Bool} {s s' : Scheduler V B}
  {m : Move V B} {ms rest : List (Move V B)} {b : BridgeId} {x : Bridge V} {w : Wakeup V}

/-- What was taken out of a bridge between two states. -/
def taken (s s' : Scheduler V B) (b : BridgeId) : List (Wakeup V) :=
  if (s'.lying b).isNone then (s.lying b).toList else []

/-- What is taken out of a bridge in the course of a run. -/
def takings (s : Scheduler V B) (b : BridgeId) : List (Move V B) → List (Wakeup V)
  | [] => []
  | m :: ms => taken s (s.after m) b ++ takings (s.after m) b ms

theorem takings_append :
    takings s b (ms ++ rest) = takings s b ms ++ takings (s.run ms) b rest := by
  induction ms generalizing s with
  | nil => rfl
  | cons m ms ih =>
    rw [List.cons_append, takings, takings, ih, List.append_assoc]
    rfl

theorem mem_taken : w ∈ taken s s' b ↔ s.lying b = some w ∧ s'.lying b = none := by
  unfold taken
  split
  next hnone => simp [Option.isNone_iff_eq_none.mp hnone]
  next hsome =>
    have hne : s'.lying b ≠ none := fun heq => hsome (by rw [heq]; rfl)
    simp [hne]

/-! ## Who takes it -/

theorem Bridges.lying {closing : Prop} (h : Bridges Ok closing s s') (hw : s.lying b = some w) :
    s'.lying b = some w := by
  obtain ⟨x, hx, hs⟩ := lying_eq_some.mp hw
  obtain ⟨x', hx', hon⟩ := h.old b x hx
  refine lying_eq_some.mpr ⟨x', hx', ?_⟩
  rcases hon.stage with hs' | ⟨hp, -⟩
  · exact hs'.trans hs
  · rw [hs] at hp
    cases hp

theorem lying_congr (h : s'.bridge? b = s.bridge? b) : s'.lying b = s.lying b := by
  rw [Scheduler.lying, Scheduler.lying, h]

/-- A payload leaves its bridge only with the strand that is resumed by it. -/
theorem Turn.taken {s₁ : Scheduler V B} (h : Turn s m s₁) (hw : s.lying b = some w) :
    s₁.lying b = some w ∨ ∃ segment, s.segment? m = some segment ∧ segment.wakeup = w ∧
      s.bridge? b = some ⟨segment.strand, .holding w⟩ := by
  have hne : (⟨s.bridges.next⟩ : BridgeId) ≠ b := by
    rintro rfl
    rw [Scheduler.lying, bridge?_next] at hw
    cases hw
  cases h with
  | quiet _ _ _ hstill => exact Or.inl ((lying_congr (hstill.bridges b)).trans hw)
  | issue _ _ _ _ _ _ hbridges =>
    exact Or.inl ((lying_congr ((hbridges b).trans (if_neg hne))).trans hw)
  | begun _ _ _ _ hbridges => exact Or.inl ((lying_congr (hbridges b)).trans hw)
  | @resumed _ id _ body b' w' hseg _ _ hb _ hbridges =>
    have hread := bridge?_of_update hbridges b
    split at hread
    next heq =>
      subst heq
      rw [lying_of_bridge? hb] at hw
      obtain rfl := Option.some.inj hw
      exact Or.inr ⟨_, hseg, rfl, hb⟩
    next => exact Or.inl ((lying_congr hread).trans hw)
  | ended _ _ _ _ _ _ hbridges => exact Or.inl ((hbridges fun _ _ => True).lying hw)
  | requeued _ _ _ _ _ _ hbridges => exact Or.inl ((lying_congr (hbridges b)).trans hw)
  | parked _ _ _ _ _ _ hbridges => exact Or.inl ((lying_congr (hbridges b)).trans hw)
  | awaiting _ _ _ _ _ _ hbridges =>
    exact Or.inl ((lying_congr ((hbridges b).trans (if_neg hne))).trans hw)

theorem Apart.taken (h : Apart Ok s m s') (hw : w ∈ taken s s' b) :
    ∃ segment, s.segment? m = some segment ∧ segment.wakeup = w ∧
      s.bridge? b = some ⟨segment.strand, .holding w⟩ := by
  obtain ⟨hbefore, hafter⟩ := mem_taken.mp hw
  obtain ⟨s₁, s₂, hturn, hd, htail⟩ := h
  rcases hturn.taken hbefore with hstays | htold
  · have hlies := hd.bridges.lying hstays
    rw [← lying_congr (htail.bridges b), hafter] at hlies
    cases hlies
  · exact htold

/-! ## Over a run -/

/-- Has nobody claimed the bridge? It may not even have been obtained. -/
def Unclaimed (s : Scheduler V B) (b : BridgeId) : Prop :=
  ∀ x, s.bridge? b = some x → x.stage = .pending

theorem Stable.fates_run (h : Stable (fun _ _ => True) drained s) (ha : s.Admissible ms) :
    Fates (fun _ _ => True) s (s.run ms) := by
  induction ms generalizing s drained with
  | nil => exact .of_same fun _ => rfl
  | cons m ms ih =>
    obtain ⟨hm, hms⟩ := ha
    have hr := respects_all s m
    exact (h.apart hm hr).fates.trans (ih (h.after hm hr) hms)

theorem Fates.unclaimed (h : Fates Ok s s') (hu : Unclaimed s' b) : Unclaimed s b := by
  intro x hx
  obtain ⟨x', hx', hfate⟩ := h.old b x hx
  exact hfate.pending (hu x' hx')

theorem Unclaimed.lying (h : Unclaimed s b) : s.lying b = none := by
  cases hl : s.lying b with
  | none => rfl
  | some w =>
    obtain ⟨x, hx, hs⟩ := lying_eq_some.mp hl
    rw [h x hx] at hs
    cases hs

theorem taken_of_none (h : s.lying b = none) : taken s s' b = [] := by
  unfold Scheduler.taken
  rw [h]
  split <;> rfl

theorem takings_unclaimed (h : Stable (fun _ _ => True) drained s) (ha : s.Admissible ms)
    (hu : Unclaimed (s.run ms) b) : takings s b ms = [] := by
  induction ms generalizing s drained with
  | nil => rfl
  | cons m ms ih =>
    have hnone := ((h.fates_run ha).unclaimed hu).lying
    obtain ⟨hm, hms⟩ := ha
    rw [takings, taken_of_none hnone, ih (h.after hm (respects_all s m)) hms hu]
    rfl

theorem takings_spent (h : Stable (fun _ _ => True) drained s) (ha : s.Admissible ms)
    (hb : s.bridge? b = some x) (hs : x.stage = .spent) : takings s b ms = [] := by
  induction ms generalizing s drained x with
  | nil => rfl
  | cons m ms ih =>
    obtain ⟨hm, hms⟩ := ha
    have hr := respects_all s m
    obtain ⟨x', hx', hfate⟩ := (h.apart hm hr).fates.old b x hb
    have hnone : s.lying b = none := by
      rw [lying_of_bridge? hb, Bridge.take?, hs]
      rfl
    rw [takings, taken_of_none hnone, ih (h.after hm hr) hms hx' (hfate.spent hs)]
    rfl

theorem takings_holding (h : Stable (fun _ _ => True) drained s) (ha : s.Admissible ms)
    (hb : s.bridge? b = some x) (hs : x.stage = .holding w) :
    takings s b ms = [] ∨ takings s b ms = [w] := by
  induction ms generalizing s drained x with
  | nil => exact Or.inl rfl
  | cons m ms ih =>
    obtain ⟨hm, hms⟩ := ha
    have hr := respects_all s m
    have hlies : s.lying b = some w := lying_eq_some.mpr ⟨x, hb, hs⟩
    obtain ⟨x', hx', hfate⟩ := (h.apart hm hr).fates.old b x hb
    rw [takings]
    -- Either the payload stays for the rest of the run, or it is taken here and nothing is left.
    rcases hfate.holding hs with hs' | hs'
    · have hstays : taken s (s.after m) b = [] := by
        unfold Scheduler.taken
        rw [lying_eq_some.mpr ⟨x', hx', hs'⟩]
        rfl
      rw [hstays, List.nil_append]
      exact ih (h.after hm hr) hms hx' hs'
    · right
      have hgone : (s.after m).lying b = none := by
        rw [lying_of_bridge? hx', Bridge.take?, hs']
        rfl
      rw [takings_spent (h.after hm hr) hms hx' hs', Scheduler.taken, hgone, hlies]
      rfl

/-- **What is taken out of a bridge is what its first claim brought**, and that once at most. If the
    first claim was a close nothing is ever taken. -/
theorem takings_of_claim {before : List (Move V B)} {x' : Bridge V}
    (h : Stable (fun _ _ => True) drained s) (ha : s.Admissible (before ++ m :: rest))
    (hu : Unclaimed (s.run before) b) (hx' : ((s.run before).after m).bridge? b = some x')
    (hclaimed : x'.stage ≠ .pending) :
    takings s b (before ++ m :: rest) = [] ∨
      ∃ w, x'.stage = .holding w ∧ takings s b (before ++ m :: rest) = [w] := by
  obtain ⟨hbefore, hm, hrest⟩ := admissible_append.mp ha
  have hmid := h.run hbefore fun _ m _ _ => respects_all _ m
  have hafter := hmid.after hm (respects_all _ m)
  rw [takings_append, takings_unclaimed h hbefore hu, List.nil_append, takings,
    taken_of_none hu.lying, List.nil_append]
  cases hs : x'.stage with
  | pending => exact absurd hs hclaimed
  | spent => exact Or.inl (takings_spent hafter hrest hx' hs)
  | holding w =>
    rcases takings_holding hafter hrest hx' hs with hnil | hone
    · exact Or.inl hnil
    · exact Or.inr ⟨w, rfl, hone⟩

end Scheduler
end CoopSched
