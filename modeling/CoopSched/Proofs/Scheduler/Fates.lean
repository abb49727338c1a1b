import CoopSched.Proofs.Scheduler.Parts

/-!
# Fates — what can become of a bridge

A bridge is pending, then somebody claims it or it is closed, and what was claimed is taken. `Fate`
is any part of that way. Whatever a move does, each old bridge meets a fate, and a new one brings
only what the rule allows (`Fates`).
-/

namespace CoopSched
namespace Scheduler

variable {V B : Type} {Ok : BridgeId → Wakeup V → Prop} {s s' : Scheduler V B}

/-- What lies in a bridge for its strand to take. -/
def lying (s : Scheduler V B) (b : BridgeId) : Option (Wakeup V) :=
  (s.bridge? b).bind fun x => x.take?.map (·.1)

theorem lying_of_bridge? {b : BridgeId} {x : Bridge V} (hx : s.bridge? b = some x) :
    s.lying b = x.take?.map (·.1) := by
  rw [lying, hx, Option.bind_some]

theorem lying_eq_some {b : BridgeId} {w : Wakeup V} :
    s.lying b = some w ↔ ∃ x, s.bridge? b = some x ∧ x.stage = .holding w := by
  constructor
  · intro h
    obtain ⟨x, hx, hmap⟩ := Option.bind_eq_some_iff.mp h
    refine ⟨x, hx, ?_⟩
    unfold Bridge.take? at hmap
    cases hs : x.stage with
    | holding w' =>
      simp only [hs, Option.map_some, Option.some.injEq] at hmap
      rw [hmap]
    | pending => simp [hs] at hmap
    | spent => simp [hs] at hmap
  · rintro ⟨x, hx, hs⟩
    rw [lying_of_bridge? hx, Bridge.take?, hs]
    rfl

/-- What can become of a bridge. -/
structure Fate (Ok : BridgeId → Wakeup V → Prop) (b : BridgeId) (x x' : Bridge V) : Prop where
  strand : x'.strand = x.strand
  stage : x'.stage = x.stage ∨
    (x.stage = .pending ∧ (x'.stage = .spent ∨ ∃ w, Ok b w ∧ x'.stage = .holding w)) ∨
    ∃ w, x.stage = .holding w ∧ x'.stage = .spent

theorem Fate.refl {b : BridgeId} (x : Bridge V) : Fate Ok b x x := ⟨rfl, Or.inl rfl⟩

theorem Fate.trans {b : BridgeId} {x x' x'' : Bridge V} (h : Fate Ok b x x')
    (h' : Fate Ok b x' x'') : Fate Ok b x x'' where
  strand := h'.strand.trans h.strand
  stage := by
    rcases h'.stage with hs' | ⟨hp, hs'⟩ | ⟨w, hw, hs'⟩
    · rw [hs']
      exact h.stage
    · rcases h.stage with hs | ⟨-, hs | ⟨w, -, hs⟩⟩ | ⟨w, -, hs⟩
      · exact Or.inr (Or.inl ⟨hs.symm.trans hp, hs'⟩)
      all_goals
        rw [hp] at hs
        cases hs
    · rcases h.stage with hs | ⟨hp, -⟩ | ⟨w', -, hs⟩
      · exact Or.inr (Or.inr ⟨w, hs.symm.trans hw, hs'⟩)
      · exact Or.inr (Or.inl ⟨hp, Or.inl hs'⟩)
      · rw [hw] at hs
        cases hs

theorem Onward.fate {closing : Prop} {b : BridgeId} {x x' : Bridge V}
    (h : Onward Ok closing b x x') : Fate Ok b x x' where
  strand := h.strand
  stage := by
    rcases h.stage with hs | ⟨hp, ⟨-, hs⟩ | hs⟩
    · exact Or.inl hs
    · exact Or.inr (Or.inl ⟨hp, Or.inl hs⟩)
    · exact Or.inr (Or.inl ⟨hp, Or.inr hs⟩)

/-- Once a bridge is claimed it is never pending again. -/
theorem Fate.pending {b : BridgeId} {x x' : Bridge V} (h : Fate Ok b x x')
    (hp : x'.stage = .pending) : x.stage = .pending := by
  rcases h.stage with hs | ⟨hp', -⟩ | ⟨w, -, hs⟩
  · exact hs.symm.trans hp
  · exact hp'
  · rw [hp] at hs
    cases hs

theorem Fate.spent {b : BridgeId} {x x' : Bridge V} (h : Fate Ok b x x')
    (hs : x.stage = .spent) : x'.stage = .spent := by
  rcases h.stage with hs' | ⟨hp, -⟩ | ⟨w, hw, -⟩
  · exact hs'.trans hs
  · rw [hs] at hp
    cases hp
  · rw [hs] at hw
    cases hw

/-- What lies in a bridge that was claimed before lay in it before. -/
theorem Fate.held {b : BridgeId} {x x' : Bridge V} {w : Wakeup V} (h : Fate Ok b x x')
    (hx : x.stage ≠ .pending) (hw : x'.stage = .holding w) : x.stage = .holding w := by
  rcases h.stage with hs | ⟨hp, -⟩ | ⟨-, -, hs⟩
  · exact hs.symm.trans hw
  · exact absurd hp hx
  · rw [hw] at hs
    cases hs

/-- A payload stays in its bridge until it is taken, and no other takes its place. -/
theorem Fate.holding {b : BridgeId} {x x' : Bridge V} {w : Wakeup V} (h : Fate Ok b x x')
    (hw : x.stage = .holding w) : x'.stage = .holding w ∨ x'.stage = .spent := by
  rcases h.stage with hs | ⟨hp, -⟩ | ⟨-, -, hs⟩
  · exact Or.inl (hs.trans hw)
  · rw [hw] at hp
    cases hp
  · exact Or.inr hs

/-- Where the bridges come from, whatever happens: each old one has met its fate, and a new one is
    pending or brings what the rule allows. -/
structure Fates (Ok : BridgeId → Wakeup V → Prop) (s s' : Scheduler V B) : Prop where
  old : ∀ b x, s.bridge? b = some x → ∃ x', s'.bridge? b = some x' ∧ Fate Ok b x x'
  new : ∀ b x', s.bridge? b = none → s'.bridge? b = some x' → ∀ w, x'.stage = .holding w → Ok b w

theorem Fates.back (h : Fates Ok s s') {b : BridgeId} {x' : Bridge V}
    (hx' : s'.bridge? b = some x') :
    s.bridge? b = none ∨ ∃ x, s.bridge? b = some x ∧ Fate Ok b x x' := by
  cases hb : s.bridge? b with
  | none => exact Or.inl rfl
  | some x =>
    obtain ⟨last, hlast, hfate⟩ := h.old b x hb
    rw [Option.some.inj (hlast.symm.trans hx')] at hfate
    exact Or.inr ⟨x, rfl, hfate⟩

theorem Fates.absent (h : Fates Ok s s') {b : BridgeId} (hb : s'.bridge? b = none) :
    s.bridge? b = none := by
  cases hx : s.bridge? b with
  | none => rfl
  | some x =>
    obtain ⟨x', hx', -⟩ := h.old b x hx
    rw [hb] at hx'
    cases hx'

/-- What lies in a bridge lay in it before, or the rule allows it. -/
theorem Fates.brought (h : Fates Ok s s') {b : BridgeId} {x' : Bridge V} {w : Wakeup V}
    (hx' : s'.bridge? b = some x') (hw : x'.stage = .holding w) :
    (∃ x, s.bridge? b = some x ∧ x.stage = .holding w) ∨ Ok b w := by
  rcases h.back hx' with hb | ⟨x, hx, hfate⟩
  · exact Or.inr (h.new b x' hb hx' w hw)
  · rcases hfate.stage with hs | ⟨-, hs | ⟨w', hok, hs⟩⟩ | ⟨-, -, hs⟩
    · exact Or.inl ⟨x, hx, hs.symm.trans hw⟩
    · rw [hw] at hs
      cases hs
    · rw [hw] at hs
      cases hs
      exact Or.inr hok
    · rw [hw] at hs
      cases hs

theorem Fates.of_bridges {closing : Prop} (h : Bridges Ok closing s s') : Fates Ok s s' where
  old := by
    intro b x hx
    obtain ⟨x', hx', hon⟩ := h.old b x hx
    exact ⟨x', hx', hon.fate⟩
  new := by
    intro b x' hnone hx'
    rw [h.new b hnone] at hx'
    cases hx'

theorem Fates.trans {s'' : Scheduler V B} (h : Fates Ok s s') (h' : Fates Ok s' s'') :
    Fates Ok s s'' where
  old := by
    intro b x hx
    obtain ⟨x', hx', hfate⟩ := h.old b x hx
    obtain ⟨x'', hx'', hfate'⟩ := h'.old b x' hx'
    exact ⟨x'', hx'', hfate.trans hfate'⟩
  new := by
    intro b x'' hnone hx'' w hw
    rcases h'.brought hx'' hw with ⟨x', hx', hs⟩ | hok
    · exact h.new b x' hnone hx' w hs
    · exact hok

theorem Fates.of_same (h : ∀ b, s'.bridge? b = s.bridge? b) : Fates Ok s s' where
  old := fun b x hx => ⟨x, (h b).trans hx, .refl x⟩
  new := by
    intro b x' hnone hx'
    rw [h b, hnone] at hx'
    cases hx'

/-- A bridge is issued. -/
theorem Fates.of_issue {id : StrandId} (h : ∀ b, s'.bridge? b =
    if (⟨s.bridges.next⟩ : BridgeId) = b then some ⟨id, .pending⟩ else s.bridge? b) :
    Fates Ok s s' where
  old := by
    intro b x hx
    refine ⟨x, ?_, .refl x⟩
    rw [h b, if_neg, hx]
    rintro rfl
    rw [bridge?_next] at hx
    cases hx
  new := by
    intro b x' hnone hx' w hw
    rw [h b, hnone] at hx'
    split at hx'
    · rw [← Option.some.inj hx'] at hw
      cases hw
    · cases hx'

/-- One bridge is changed, as bridges change. -/
theorem Fates.of_update {b : BridgeId} {f : Bridge V → Bridge V}
    (hbridges : s'.bridges = s.bridges.update b.number f)
    (hf : ∀ x, s.bridge? b = some x → Fate Ok b x (f x)) : Fates Ok s s' where
  old := by
    intro a x hx
    have hread := bridge?_of_update hbridges a
    rw [hx] at hread
    split at hread
    next heq =>
      subst heq
      exact ⟨f x, hread, hf x hx⟩
    next => exact ⟨x, hread, .refl x⟩
  new := by
    intro a x' hnone hx'
    rw [bridge?_of_update hbridges a, hnone] at hx'
    split at hx' <;> cases hx'

end Scheduler
end CoopSched
