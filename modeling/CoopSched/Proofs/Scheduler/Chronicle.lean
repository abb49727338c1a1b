import CoopSched.Proofs.Scheduler.Fates
import CoopSched.Proofs.Scheduler.Move

/-!
# Chronicles — what the bodies were told, and why

The chronicle of a run is kept beside the scheduler, from what anybody can see: which segments
were begun and with which wakeup, how they ended, which bridges were obtained, and which payload
was the first to lie in a bridge. The scheduler reads none of it.

The law about wakeups is stated over the chronicle. The legs of a strand are its segments, the
latest first, and `due` says what the one after them is to be told; `Told` says that each of them
was told just that.
-/

namespace CoopSched
namespace Scheduler

variable {V B : Type}

/-! ## Legs -/

/-- A segment of a strand as its body saw it. -/
structure Leg (V : Type) where
  told : Wakeup V
  /-- The bridge that it obtained. -/
  bridge : Option (Origin × BridgeId) := none
  /-- What the body wanted at its end. -/
  ended : Option (Step V) := none
deriving Repr

/-- What the next segment is to be told, by what this one left behind and what came through the
    bridges; `none` as long as that is open. -/
def Leg.due (payload : BridgeId → Option (Wakeup V)) (leg : Leg V) : Option (Wakeup V) :=
  match leg.ended, leg.bridge with
  | some .yield, none => some .yielded
  | some .yield, some (_, b) => payload b
  | some .park, some (_, b) => payload b
  | some (.await _), some (.children, b) => payload b
  | _, _ => none

/-- What the next segment after these is to be told. -/
def due (payload : BridgeId → Option (Wakeup V)) : List (Leg V) → Option (Wakeup V)
  | [] => some .start
  | leg :: _ => leg.due payload

/-- Was each segment told what was due? -/
def Told (payload : BridgeId → Option (Wakeup V)) : List (Leg V) → Prop
  | [] => True
  | leg :: older => due payload older = some leg.told ∧ Told payload older

variable {payload payload' : BridgeId → Option (Wakeup V)} {legs : List (Leg V)}

@[simp] theorem due_cons (leg : Leg V) (older : List (Leg V)) :
    due payload (leg :: older) = leg.due payload := rfl

/-- After a leg the next is told that it yielded, or what comes through the bridge of the leg, or
    nothing. -/
theorem Leg.due_cases (leg : Leg V) :
    (∀ payload, leg.due payload = some .yielded) ∨
      (∃ o b, leg.bridge = some (o, b) ∧ ∀ payload, leg.due payload = payload b) ∨
      ∀ payload, leg.due payload = none := by
  obtain ⟨told, bridge, ended⟩ := leg
  unfold Leg.due
  rcases ended with _ | step
  · exact Or.inr (Or.inr fun _ => rfl)
  · rcases bridge with _ | ⟨o, b⟩
    · cases step with
      | yield => exact Or.inl fun _ => rfl
      | _ => exact Or.inr (Or.inr fun _ => rfl)
    · cases step with
      | yield => exact Or.inr (Or.inl ⟨o, b, rfl, fun _ => rfl⟩)
      | park => exact Or.inr (Or.inl ⟨o, b, rfl, fun _ => rfl⟩)
      | await mode =>
        cases o with
        | children => exact Or.inr (Or.inl ⟨_, b, rfl, fun _ => rfl⟩)
        | _ => exact Or.inr (Or.inr fun _ => rfl)
      | done outcome => exact Or.inr (Or.inr fun _ => rfl)

/-- What is due stays due when more payloads come in. -/
theorem due_mono (h : ∀ b w, payload b = some w → payload' b = some w) {w : Wakeup V}
    (hdue : due payload legs = some w) : due payload' legs = some w := by
  cases legs with
  | nil => exact hdue
  | cons leg older =>
    rw [due_cons] at hdue ⊢
    rcases leg.due_cases with hy | ⟨o, b, -, hb⟩ | hnone
    · rw [hy] at hdue ⊢
      exact hdue
    · rw [hb] at hdue ⊢
      exact h b w hdue
    · rw [hnone] at hdue
      cases hdue

theorem Told.mono (h : Told payload legs)
    (hmono : ∀ b w, payload b = some w → payload' b = some w) : Told payload' legs := by
  induction legs with
  | nil => trivial
  | cons leg older ih => exact ⟨due_mono hmono h.1, ih h.2⟩

theorem Told.modifyHead (h : Told payload legs) {f : Leg V → Leg V}
    (hf : ∀ leg, (f leg).told = leg.told) : Told payload (legs.modifyHead f) := by
  cases legs with
  | nil => trivial
  | cons leg older => exact ⟨h.1.trans (congrArg some (hf leg).symm), h.2⟩

/-- In a row of legs that were told what was due, each one was told what was due after the legs
    before it. -/
theorem Told.of_append {newer older : List (Leg V)} {leg : Leg V}
    (h : Told payload (newer ++ leg :: older)) : due payload older = some leg.told := by
  induction newer with
  | nil => exact h.1
  | cons latest newer ih => exact ih h.2

/-! ## Chronicles -/

/-- What is seen of a run. -/
structure Chronicle (V : Type) where
  /-- The segments of each strand, the latest first. -/
  legs : StrandId → List (Leg V) := fun _ => []
  /-- The bridges that were obtained, with their strands. -/
  issued : List (StrandId × Origin × BridgeId) := []
  /-- The payload that was the first to lie in a bridge. -/
  payload : BridgeId → Option (Wakeup V) := fun _ => none

/-- The segment of a strand obtains a bridge. -/
def handBridge (bridge? : Option (StrandId × Origin × BridgeId)) (id : StrandId)
    (legs : List (Leg V)) : List (Leg V) :=
  match bridge? with
  | some (k, o, b) =>
      if k = id then legs.modifyHead fun leg => { leg with bridge := some (o, b) } else legs
  | none => legs

/-- The segment of a strand ends. -/
def endLeg (conclusion? : Option (StrandId × Step V)) (id : StrandId) (legs : List (Leg V)) :
    List (Leg V) :=
  match conclusion? with
  | some (k, step) =>
      if k = id then legs.modifyHead fun leg => { leg with ended := some step } else legs
  | none => legs

/-- A segment of a strand begins. -/
def beginLeg (segment? : Option (Segment V B)) (id : StrandId) (legs : List (Leg V)) :
    List (Leg V) :=
  match segment? with
  | some segment => if segment.strand = id then { told := segment.wakeup } :: legs else legs
  | none => legs

/-- The segments of a strand after a move, if these are its segments before. -/
def nextLegs (s : Scheduler V B) (m : Move V B) (id : StrandId) (legs : List (Leg V)) :
    List (Leg V) :=
  beginLeg (s.segment? m) id (endLeg m.conclusion? id (handBridge (s.issued m) id legs))

namespace Chronicle

/-- Notes what is seen of a move. -/
def note (c : Chronicle V) (s : Scheduler V B) (m : Move V B) : Chronicle V where
  legs := fun id => nextLegs s m id (c.legs id)
  issued := c.issued ++ (s.issued m).toList
  payload := fun b => c.payload b <|> (s.after m).lying b

/-- Notes what is seen of moves in turn. -/
def through (c : Chronicle V) (s : Scheduler V B) : List (Move V B) → Chronicle V
  | [] => c
  | m :: ms => (c.note s m).through (s.after m) ms

variable {c : Chronicle V} {s : Scheduler V B} {m : Move V B} {ms rest : List (Move V B)}

theorem through_append : c.through s (ms ++ rest) = (c.through s ms).through (s.run ms) rest := by
  induction ms generalizing c s with
  | nil => rfl
  | cons m ms ih => exact ih

theorem note_payload {b : BridgeId} {w : Wakeup V} (h : c.payload b = some w) :
    (c.note s m).payload b = some w := by
  show (c.payload b <|> _) = some w
  rw [h]
  rfl

/-- The first payload of a bridge stays its payload. -/
theorem through_payload {b : BridgeId} {w : Wakeup V} (h : c.payload b = some w) :
    (c.through s ms).payload b = some w := by
  induction ms generalizing c s with
  | nil => exact h
  | cons m ms ih => exact ih (note_payload h)

theorem through_issued {x : StrandId × Origin × BridgeId} (h : x ∈ c.issued) :
    x ∈ (c.through s ms).issued := by
  induction ms generalizing c s with
  | nil => exact h
  | cons m ms ih => exact ih (List.mem_append_left _ h)

theorem mem_through_issued {before after : List (Move V B)} {x : StrandId × Origin × BridgeId}
    (h : (s.run before).issued m = some x) : x ∈ (c.through s (before ++ m :: after)).issued := by
  have hnote : x ∈ ((c.through s before).note (s.run before) m).issued := by
    apply List.mem_append_right _
    rw [h]
    exact List.mem_singleton.mpr rfl
  rw [through_append, through]
  exact through_issued hnote

end Chronicle

/-- What is seen of a run from its beginning. -/
def chronicle (s : Scheduler V B) (ms : List (Move V B)) : Chronicle V :=
  Chronicle.through {} s ms

theorem chronicle_snoc (s : Scheduler V B) (before : List (Move V B)) (m : Move V B) :
    chronicle s (before ++ [m]) = (chronicle s before).note (s.run before) m :=
  Chronicle.through_append

end Scheduler
end CoopSched
