import CoopSched.Proofs.Children.Family

/-!
# Ledgers — what is seen of a strand's children

The ledger of a strand is kept beside the scheduler, from what anybody can see: which children
finished, for which children the strand waits, and when the bridge of such a wait is completed. The
scheduler reads none of it. A batch is what settled since the batch before; it is closed when the
bridge of the wait is completed.

The group of a strand is nothing but its ledger and the number of its young children
(`Ledger.group`), and what the group fires is the batch that the ledger closes (`Ledger.closing`).
-/

namespace CoopSched

variable {V B : Type}

/-- What a wait brings: the outcomes, or under `allOk` the failure that came first. -/
def WaitMode.deliver (mode : WaitMode) (outcomes : List (ChildOutcome V)) :
    Outcome (List (ChildOutcome V)) :=
  match mode with
  | .allOk =>
      match outcomes.findSome? (·.outcome.failure?) with
      | some e => .err e
      | none => .ok outcomes
  | .all | .any => .ok outcomes

/-- Is a wait over, with these outcomes still to deliver and so many children that have not
    ended? -/
def WaitMode.Met (mode : WaitMode) (fresh : List (ChildOutcome V)) (young : Nat) : Prop :=
  match mode with
  | .all | .allOk => young = 0
  | .any => fresh ≠ [] ∨ young = 0

theorem WaitMode.Met.mono {mode : WaitMode} {fresh : List (ChildOutcome V)} {n n' : Nat}
    (h : mode.Met fresh n) (hn : n' ≤ n) : mode.Met fresh n' := by
  have hzero : n = 0 → n' = 0 := fun h0 => Nat.le_zero.mp (hn.trans h0.le)
  cases mode with
  | any => exact Or.imp id hzero h
  | _ => exact hzero h

/-- A batch of outcomes, with the wait that it was taken for. -/
structure Batch (V : Type) where
  mode : WaitMode
  bridge : BridgeId
  outcomes : List (ChildOutcome V)
deriving Repr, DecidableEq

/-- What is seen of the children of a strand. -/
structure Ledger (V : Type) where
  /-- The batches that were taken, the first one first. -/
  batches : List (Batch V) := []
  /-- The outcomes since the last batch, in settling order. -/
  fresh : List (ChildOutcome V) := []
  /-- The wait that nothing was delivered for yet. -/
  wait : Option (WaitMode × BridgeId) := none
deriving Repr, DecidableEq

namespace Scheduler

/-- The child of a strand that a move finishes, and with what. -/
def settles (s : Scheduler V B) (p : StrandId) (m : Move V B) : Option (ChildOutcome V) :=
  (s.finishes m).bind fun (k, r) => if (s.kid? p k).isSome then some ⟨k, r⟩ else none

/-- The wait for children that a move begins for a strand, with its bridge. -/
def awaits (s : Scheduler V B) (p : StrandId) (m : Move V B) : Option (WaitMode × BridgeId) :=
  match m, s.issued m with
  | .endSegment _ _ (.await mode), some (k, _, b) => if k = p then some (mode, b) else none
  | _, _ => none

end Scheduler

namespace Ledger

open Scheduler

variable {l l' : Ledger V} {s : Scheduler V B} {p k : StrandId} {m : Move V B}
  {ms : List (Move V B)} {mode : WaitMode} {b : BridgeId} {n : Nat}

/-- All outcomes, in settling order. -/
def outcomes (l : Ledger V) : List (ChildOutcome V) := l.batches.flatMap (·.outcomes) ++ l.fresh

/-- The bridges of the waits, the first one first. -/
def bridges (l : Ledger V) : List BridgeId :=
  l.batches.map (·.bridge) ++ (l.wait.map (·.2)).toList

/-- The ledger with the outcome of a child that a move finishes, and with the wait that it begins. A
    strand that finishes waits for nothing. -/
def enter (l : Ledger V) (s : Scheduler V B) (p : StrandId) (m : Move V B) : Ledger V :=
  { l with
    fresh := l.fresh ++ (s.settles p m).toList
    wait := if (s.finishes m).map (·.1) = some p then none else s.awaits p m <|> l.wait }

/-- Closes the batch if the bridge of the wait has been completed. -/
def close (l : Ledger V) (s : Scheduler V B) : Ledger V :=
  match l.wait with
  | some (mode, b) =>
      if (s.bridge? b).any (·.isCompleted) then
        { batches := l.batches ++ [⟨mode, b, l.fresh⟩] }
      else l
  | none => l

/-- Notes what is seen of a move. -/
def note (l : Ledger V) (s : Scheduler V B) (p : StrandId) (m : Move V B) : Ledger V :=
  (l.enter s p m).close (s.after m)

/-- Notes what is seen of moves in turn. -/
def through (l : Ledger V) (s : Scheduler V B) (p : StrandId) : List (Move V B) → Ledger V
  | [] => l
  | m :: ms => (l.note s p m).through (s.after m) p ms

theorem through_append {rest : List (Move V B)} :
    l.through s p (ms ++ rest) = (l.through s p ms).through (s.run ms) p rest := by
  induction ms generalizing l s with
  | nil => rfl
  | cons m ms ih => exact ih

theorem enter_outcomes : (l.enter s p m).outcomes = l.outcomes ++ (s.settles p m).toList :=
  (List.append_assoc ..).symm

theorem close_outcomes : (l.close s).outcomes = l.outcomes := by
  unfold close
  split
  · split
    · simp [outcomes]
    · rfl
  · rfl

theorem note_outcomes : (l.note s p m).outcomes = l.outcomes ++ (s.settles p m).toList :=
  close_outcomes.trans enter_outcomes

theorem finishes_ne (hlast : ∀ r, s.finishes m ≠ some (p, r)) :
    (s.finishes m).map (·.1) ≠ some p := by
  intro h
  obtain ⟨⟨k, r⟩, hfin, rfl⟩ := Option.map_eq_some_iff.mp h
  exact hlast r hfin

theorem enter_idle (hsettles : s.settles p m = none) (hawaits : s.awaits p m = none)
    (hlast : ∀ r, s.finishes m ≠ some (p, r)) : l.enter s p m = l := by
  simp [enter, hsettles, hawaits, finishes_ne hlast]

theorem enter_wait (h : (l.enter s p m).wait = some (mode, b)) :
    s.awaits p m = some (mode, b) ∨ l.wait = some (mode, b) := by
  simp only [enter] at h
  split at h
  · cases h
  · cases hw : s.awaits p m with
    | none =>
      rw [hw] at h
      exact Or.inr h
    | some w =>
      rw [hw] at h
      exact Or.inl h

/-! ## The group of a strand -/

/-- The group of a strand with this ledger and so many children that have not ended. -/
def group (l : Ledger V) (young : Nat) : Group V where
  outstanding := young
  settled := l.fresh
  firstFailure := l.fresh.findSome? (·.outcome.failure?)
  waiter := l.wait

theorem isSatisfied_group : (l.group n).isSatisfied mode = true ↔ mode.Met l.fresh n := by
  cases mode <;> simp [Group.isSatisfied, group, WaitMode.Met]

theorem batch_group : (l.group n).batch mode = mode.deliver l.fresh := by
  cases mode <;> rfl

/-- One more outcome settles, and perhaps the wait is over then. -/
theorem settle_group (id : StrandId) (r : Outcome V) :
    (l.group n).settle id r =
      ((group { l with fresh := l.fresh ++ [⟨id, r⟩] } (n - 1)).fire.1,
        .recorded (group { l with fresh := l.fresh ++ [⟨id, r⟩] } (n - 1)).fire.2) := by
  have hfirst : (l.fresh ++ [ChildOutcome.mk id r]).findSome? (·.outcome.failure?) =
      (l.fresh.findSome? (·.outcome.failure?) <|> r.failure?) := by
    rw [List.findSome?_append, List.findSome?_singleton]
    cases l.fresh.findSome? (·.outcome.failure?) <;> rfl
  simp only [group, hfirst]
  rfl

/-- What becomes of a ledger when a move is through: its wait is not over, or it brought a batch. -/
inductive Closing (p : StrandId) (n : Nat) (l : Ledger V) (s : Scheduler V B) : Ledger V → Prop
  | pending (h : ∀ mode b, l.wait = some (mode, b) →
      s.bridge? b = some ⟨p, .pending⟩ ∧ ¬ mode.Met l.fresh n) : Closing p n l s l
  | batch {mode : WaitMode} {b : BridgeId} (hwait : l.wait = some (mode, b))
      (hmet : mode.Met l.fresh n)
      (hb : s.bridge? b = some ⟨p, .holding (.children (mode.deliver l.fresh))⟩) :
      Closing p n l s { batches := l.batches ++ [⟨mode, b, l.fresh⟩] }

theorem close_pending (h : ∀ mode b, l.wait = some (mode, b) → s.bridge? b = some ⟨p, .pending⟩) :
    l.close s = l := by
  unfold close
  split
  next mode b hwait =>
    rw [h mode b hwait]
    rfl
  next => rfl

theorem Closing.of_pending (h : ∀ mode b, l.wait = some (mode, b) →
    s.bridge? b = some ⟨p, .pending⟩ ∧ ¬ mode.Met l.fresh n) : Closing p n l s (l.close s) := by
  rw [close_pending fun mode b hwait => (h mode b hwait).1]
  exact .pending h

/-- A wait that was on is still on, or it is over and has its batch. -/
theorem Closing.of_wait (h : Closing p n l s l') (hwait : l.wait = some (mode, b)) :
    l'.wait = some (mode, b) ∨ ⟨mode, b, l.fresh⟩ ∈ l'.batches ∧ mode.Met l.fresh n := by
  cases h with
  | pending h => exact Or.inl hwait
  | batch hw hmet hb =>
    obtain ⟨rfl, rfl⟩ := Prod.mk.inj (Option.some.inj (hw.symm.trans hwait))
    exact Or.inr ⟨List.mem_append_right _ (List.mem_singleton.mpr rfl), hmet⟩

theorem Closing.mem_batches (h : Closing p n l s l') {batch : Batch V}
    (hb : batch ∈ l.batches) : batch ∈ l'.batches := by
  cases h with
  | pending h => exact hb
  | batch hw hmet hb' => exact List.mem_append_left _ hb

theorem Closing.bridges_eq (h : Closing p n l s l') : l'.bridges = l.bridges := by
  cases h with
  | pending h => rfl
  | batch hw hmet hb => simp [bridges, hw]

/-- **What the group fires is the batch that the ledger closes.** -/
theorem closing
    (hfired : ∀ d, (l.group n).fire.2 = some d →
      s.bridge? d.bridge = some ⟨p, .holding d.payload⟩)
    (hstill : (l.group n).fire.2 = none → ∀ mode b, l.wait = some (mode, b) →
      s.bridge? b = some ⟨p, .pending⟩) :
    (l.group n).fire.1 = (l.close s).group n ∧ Closing p n l s (l.close s) := by
  cases hwait : l.wait with
  | none =>
    have hidle : (l.group n).fire = (l.group n, none) := by
      simp only [Group.fire, group, hwait]
    have hno : ∀ mode b, l.wait ≠ some (mode, b) := by
      intro mode b h
      rw [hwait] at h
      cases h
    rw [hidle, close_pending (p := p) fun mode b h => absurd h (hno mode b)]
    exact ⟨rfl, .pending fun mode b h => absurd h (hno mode b)⟩
  | some w =>
    obtain ⟨mode, b⟩ := w
    by_cases hmet : mode.Met l.fresh n
    · have hfire : (l.group n).fire =
          (Ledger.group {} n, some ⟨b, .children (mode.deliver l.fresh)⟩) := by
        rw [← batch_group (n := n), Group.fire, show (l.group n).waiter = some (mode, b) from hwait]
        dsimp only
        rw [if_pos (isSatisfied_group.mpr hmet)]
        rfl
      have hb := hfired _ (by rw [hfire])
      have hclose : l.close s = { batches := l.batches ++ [⟨mode, b, l.fresh⟩] } := by
        rw [close, hwait]
        dsimp only
        rw [hb]
        rfl
      rw [hfire, hclose]
      exact ⟨rfl, .batch hwait hmet hb⟩
    · have hfire : (l.group n).fire = (l.group n, none) := by
        rw [Group.fire, show (l.group n).waiter = some (mode, b) from hwait]
        dsimp only
        rw [if_neg fun h => hmet (isSatisfied_group.mp h)]
      have hpending := hstill (by rw [hfire])
      rw [hfire, close_pending hpending]
      refine ⟨rfl, .pending fun mode' b' h => ⟨hpending mode' b' h, ?_⟩⟩
      rw [hwait] at h
      obtain ⟨rfl, rfl⟩ := Prod.mk.inj (Option.some.inj h)
      exact hmet

end Ledger

/-- What is seen of the children of a strand in a run. -/
def Scheduler.ledger (s : Scheduler V B) (p : StrandId) (ms : List (Move V B)) : Ledger V :=
  Ledger.through {} s p ms

theorem Scheduler.ledger_snoc (s : Scheduler V B) (p : StrandId) (before : List (Move V B))
    (m : Move V B) :
    s.ledger p (before ++ [m]) = (s.ledger p before).note (s.run before) p m :=
  Ledger.through_append

end CoopSched
