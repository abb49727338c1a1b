import CoopSched.Proofs.Scheduler.Legs
import CoopSched.Proofs.Scheduler.Places

/-!
# Tracks — the scheduler keeps in step with its chronicle

The scheduler does not read the chronicle, and yet the two agree after every move: the payload that
the chronicle has for a bridge is the one that lies in it (`Carries`), every bridge that was
obtained is there and was obtained once (`Issues`), and the row of a strand says of its last
segment just as much as its next one has to know (`Logs`).
-/

namespace CoopSched
namespace Scheduler

variable {V B : Type} {Ok : BridgeId → Wakeup V → Prop} {drained : Bool} {s s₁ s' : Scheduler V B}
  {m : Move V B} {id : StrandId} {st st' : Strand V B}

/-! ## Payloads -/

/-- Is the payload of each bridge the one that lies in it, as the rule allows? -/
structure Carries (Ok : BridgeId → Wakeup V → Prop) (payload : BridgeId → Option (Wakeup V))
    (s : Scheduler V B) : Prop where
  pending : ∀ b x, s.bridge? b = some x → x.stage = .pending → payload b = none
  holding : ∀ b x w, s.bridge? b = some x → x.stage = .holding w → payload b = some w
  absent : ∀ b, s.bridge? b = none → payload b = none
  ok : ∀ b w, payload b = some w → Ok b w

theorem lying_none_of_stage {b : BridgeId} {x : Bridge V} (hx : s.bridge? b = some x)
    (hs : ∀ w, x.stage ≠ .holding w) : s.lying b = none := by
  cases hl : s.lying b with
  | none => rfl
  | some w =>
    obtain ⟨x', hx', hw⟩ := lying_eq_some.mp hl
    rw [← Option.some.inj (hx.symm.trans hx')] at hw
    exact absurd hw (hs w)

/-- What is first seen to lie in a bridge is its payload from then on. -/
theorem Carries.after {payload : BridgeId → Option (Wakeup V)} (h : Carries Ok payload s)
    (hf : Fates Ok s s') : Carries Ok (fun b => payload b <|> s'.lying b) s' := by
  refine ⟨?_, ?_, ?_, ?_⟩
  · intro b x' hx' hp
    have hnone : payload b = none := by
      rcases hf.back hx' with hb | ⟨x, hx, hfate⟩
      · exact h.absent b hb
      · exact h.pending b x hx (hfate.pending hp)
    rw [hnone, lying_none_of_stage hx' fun w hw => by rw [hp] at hw; cases hw]
    rfl
  · intro b x' w hx' hw
    rw [lying_eq_some.mpr ⟨x', hx', hw⟩]
    -- The first payload stays, so it has to be this one if there is one already.
    rcases hf.back hx' with hb | ⟨x, hx, hfate⟩
    · rw [h.absent b hb]
      rfl
    · by_cases hp : x.stage = .pending
      · rw [h.pending b x hx hp]
        rfl
      · rw [h.holding b x w hx (hfate.held hp hw)]
        rfl
  · intro b hb
    rw [h.absent b (hf.absent hb), lying, hb]
    rfl
  · intro b w hw
    have hsome : (payload b <|> s'.lying b) = some w := hw
    cases hp : payload b with
    | some w' =>
      rw [hp] at hsome
      rw [← Option.some.inj hsome]
      exact h.ok b w' hp
    | none =>
      rw [hp] at hsome
      obtain ⟨x', hx', hs⟩ := lying_eq_some.mp hsome
      rcases hf.brought hx' hs with ⟨x, hx, hheld⟩ | hok
      · rw [h.holding b x w hx hheld] at hp
        cases hp
      · exact hok

/-! ## Bridges that were obtained -/

/-- Is every bridge that was obtained there, and was it obtained once? -/
structure Issues (issued : List (StrandId × Origin × BridgeId)) (s : Scheduler V B) : Prop where
  there : ∀ id o b, (id, o, b) ∈ issued → ∃ x, s.bridge? b = some x ∧ x.strand = id
  once : (issued.map (·.2.2)).Nodup

/-- A bridge that a move obtains is new, and it is there after the move. -/
theorem Apart.issued {o : Origin} {b : BridgeId} (h : Apart Ok s m s')
    (hi : s.issued m = some (id, o, b)) :
    s.bridge? b = none ∧ ∃ x, s'.bridge? b = some x ∧ x.strand = id := by
  obtain ⟨s₁, s₂, hturn, hd, htail⟩ := h
  obtain ⟨rfl, -, hbridges⟩ := hturn.obtains hi
  obtain ⟨x, hx, hon⟩ := hd.bridges.old ⟨s.bridges.next⟩ ⟨id, .pending⟩
    ((hbridges _).trans (if_pos rfl))
  exact ⟨bridge?_next s, x, (htail.bridges _).trans hx, hon.strand⟩

theorem Issues.after {issued : List (StrandId × Origin × BridgeId)} (h : Issues issued s)
    (hmove : Apart Ok s m s') : Issues (issued ++ (s.issued m).toList) s' := by
  have hold : ∀ id o b, (id, o, b) ∈ issued → ∃ x, s'.bridge? b = some x ∧ x.strand = id := by
    intro id o b hmem
    obtain ⟨x, hx, rfl⟩ := h.there id o b hmem
    obtain ⟨x', hx', hfate⟩ := hmove.fates.old b x hx
    exact ⟨x', hx', hfate.strand⟩
  cases hi : s.issued m with
  | none => exact ⟨by simpa using hold, by simpa using h.once⟩
  | some entry =>
    obtain ⟨k, o, b⟩ := entry
    obtain ⟨hnew, hthere⟩ := hmove.issued hi
    refine ⟨?_, ?_⟩
    · intro id o' b' hmem
      rcases List.mem_append.mp hmem with hmem | hmem
      · exact hold id o' b' hmem
      · obtain ⟨rfl, heq⟩ := Prod.mk.inj (List.mem_singleton.mp hmem)
        obtain ⟨rfl, rfl⟩ := Prod.mk.inj heq
        exact hthere
    · rw [List.map_append]
      refine List.nodup_append.mpr ⟨h.once, List.nodup_singleton _, ?_⟩
      intro a ha a' ha' heq
      rw [List.mem_singleton.mp ha'] at heq
      obtain ⟨⟨k', o', b'⟩, hmem, rfl⟩ := List.mem_map.mp ha
      obtain ⟨x, hx, -⟩ := h.there k' o' b' hmem
      rw [show b' = b from heq, hnew] at hx
      cases hx

/-! ## Segments -/

variable {c : Chronicle V} {payload : BridgeId → Option (Wakeup V)} {legs : List (Leg V)}

theorem Told.handBridge (h : Told payload legs) (bridge? : Option (StrandId × Origin × BridgeId))
    (id : StrandId) : Told payload (handBridge bridge? id legs) := by
  unfold Scheduler.handBridge
  split
  · split
    · exact h.modifyHead fun _ => rfl
    · exact h
  · exact h

theorem Told.endLeg (h : Told payload legs) (conclusion? : Option (StrandId × Step V))
    (id : StrandId) : Told payload (endLeg conclusion? id legs) := by
  unfold Scheduler.endLeg
  split
  · split
    · exact h.modifyHead fun _ => rfl
    · exact h
  · exact h

/-- A strand that begins a segment is told what is due, and the other strands are told nothing. -/
theorem Told.next {legs : StrandId → List (Leg V)} (h : Told payload (legs id))
    (hdue : ∀ seg, s.segment? m = some seg → due payload (legs seg.strand) = some seg.wakeup) :
    Told payload (nextLegs s m id (legs id)) := by
  have hrest := (h.handBridge (s.issued m) id).endLeg m.conclusion? id
  unfold nextLegs
  cases hseg : s.segment? m with
  | none => exact hrest
  | some seg =>
    unfold beginLeg
    dsimp only
    split
    next hid =>
      refine ⟨?_, hrest⟩
      rw [← hdue seg hseg, hid]
      cases m with
      | dispatch => rfl
      | _ => cases hseg
    next => exact hrest

theorem bridges_endLeg (conclusion? : Option (StrandId × Step V)) (id : StrandId)
    (legs : List (Leg V)) :
    (endLeg conclusion? id legs).map (·.bridge) = legs.map (·.bridge) := by
  unfold endLeg
  split
  · split
    · cases legs <;> rfl
    · rfl
  · rfl

/-- The bridges that the segments of a strand obtained, the first one first. -/
def handed (legs : List (Leg V)) : List (Origin × BridgeId) := legs.reverse.filterMap (·.bridge)

theorem handed_congr {legs' : List (Leg V)} (h : legs'.map (·.bridge) = legs.map (·.bridge)) :
    handed legs' = handed legs := by
  have hmap : ∀ l : List (Leg V), handed l = (l.map (·.bridge)).reverse.filterMap id := by
    intro l
    rw [handed, ← List.map_reverse, List.filterMap_map]
    rfl
  rw [hmap, hmap, h]

theorem handed_beginLeg (segment? : Option (Segment V B)) (id : StrandId) (legs : List (Leg V)) :
    handed (beginLeg segment? id legs) = handed legs := by
  unfold beginLeg
  split
  · split
    · simp [handed]
    · rfl
  · rfl

/-- Every bridge that is obtained goes to the segment of its strand. -/
theorem handed_next {legs : StrandId → List (Leg V)}
    (hbare : ∀ k o b, s.issued m = some (k, o, b) →
      ∃ leg older, legs k = leg :: older ∧ leg.bridge = none) :
    handed (nextLegs s m id (legs id)) =
      handed (legs id) ++ ((s.issued m).toList.filter (·.1 = id)).map (·.2) := by
  unfold nextLegs
  rw [handed_beginLeg, handed_congr (bridges_endLeg _ _ _)]
  cases hi : s.issued m with
  | none => simp [handBridge]
  | some x =>
    obtain ⟨k, o, b⟩ := x
    unfold handBridge
    dsimp only
    split
    next hk =>
      obtain ⟨leg, older, hlegs, hleg⟩ := hbare k o b hi
      rw [← hk, hlegs]
      simp [handed, hleg]
    next hk => simp [hk]

/-! ## Everything together -/

/-- Does the chronicle agree with the scheduler? -/
structure Tracks (Ok : BridgeId → Wakeup V → Prop) (c : Chronicle V) (s : Scheduler V B) :
    Prop where
  told : ∀ id, Told c.payload (c.legs id)
  handed : ∀ id, handed (c.legs id) = (c.issued.filter (·.1 = id)).map (·.2)
  carries : Carries Ok c.payload s
  issues : Issues c.issued s
  logs : s.terminated = false → Logs c.legs s

/-- Every move keeps the scheduler in step with its chronicle. -/
theorem Tracks.after (h : Tracks Ok c s) (hs : Stable Ok drained s) (ha : s.Allows m)
    (hr : Respects Ok s m) : Tracks Ok (c.note s m) (s.after m) := by
  have hmove := hs.apart ha hr
  obtain ⟨s₁, s₂, hturn, hd, htail⟩ := id hmove
  refine ⟨fun id => ?_, fun id => ?_, h.carries.after hmove.fates, h.issues.after hmove, ?_⟩
  · have htold : Told c.payload (nextLegs s m id (c.legs id)) := by
      refine (h.told id).next fun seg hseg => ?_
      exact hturn.due (h.logs (segment_alive hseg)) h.carries.holding hseg
    exact htold.mono fun b w hw => Chronicle.note_payload hw
  · show Scheduler.handed (nextLegs s m id (c.legs id)) =
      ((c.issued ++ (s.issued m).toList).filter (·.1 = id)).map (·.2)
    rw [List.filter_append, List.map_append, ← h.handed id]
    exact handed_next fun k o b hi => hturn.handed (h.logs (hturn.issued_alive hs hi)) hi
  · intro alive
    obtain ⟨s₁, hturn, hrows⟩ := hmove.rows (hmove.alive alive)
    exact (hturn.logs (h.logs (hmove.alive alive))).later hrows

/-- The scheduler is in step with its chronicle after every run. -/
theorem Tracks.through {ms : List (Move V B)} (h : Tracks Ok c s) (hs : Stable Ok drained s)
    (ha : s.Admissible ms)
    (hr : ∀ before m rest, ms = before ++ m :: rest → Respects Ok (s.run before) m) :
    Tracks Ok (c.through s ms) (s.run ms) := by
  -- On the moves. The scheduler stays stable, so the next move can be taken apart as well.
  induction ms generalizing s c drained with
  | nil => exact h
  | cons m ms ih =>
    obtain ⟨hm, hms⟩ := ha
    have hfirst := hr [] m ms rfl
    refine ih (h.after hs hm hfirst) (hs.after hm hfirst) hms ?_
    intro before m' rest heq
    exact hr (m :: before) m' rest (by rw [heq]; rfl)

theorem Initial.tracks (h : Initial s) (Ok : BridgeId → Wakeup V → Prop) : Tracks Ok {} s := by
  obtain ⟨hstrands, hbridges, -⟩ := h.empty
  have hb : ∀ b, s.bridge? b = none := fun b => by rw [bridge?, hbridges, get?_empty]
  have hs : ∀ id, s.strand? id = none := fun id => by rw [strand?, hstrands, get?_empty]
  have hno : ∀ {p : Prop} b x, s.bridge? b = some x → p := by
    intro p b x hx
    rw [hb b] at hx
    cases hx
  refine ⟨fun _ => trivial, fun _ => rfl, ?_, ?_, fun _ => ?_⟩
  · exact ⟨fun b x hx => hno b x hx, fun b x w hx => hno b x hx, fun _ _ => rfl,
      fun b w hw => by cases hw⟩
  · exact ⟨fun id o b hmem => absurd hmem List.not_mem_nil, List.nodup_nil⟩
  · refine ⟨fun id st hst => ?_, fun _ _ => rfl⟩
    rw [hs id] at hst
    cases hst

end Scheduler
end CoopSched
