import CoopSched.Proofs.Children.Ledger
import CoopSched.Proofs.Log

/-!
# Shares — who gets the outcome of a child

The log of a group is the calls that its parent and its children made on it, with what each of them
was answered. The ledger is kept from the log alone: a batch is what settled since the batch before,
and it ends where a wait is delivered. As long as the parent is there, its group is that ledger and
the number of its young children, and afterwards only the number is left (`Kept`).

So every outcome goes to somebody, once, and in the order in which the children finished: with a
batch, with the list that the parent leaves when it finishes, or back to its child
(`conserves_serve`). And a wait is delivered at the first moment at which its condition holds, not
later and not twice (`Course.first`).
-/

namespace CoopSched

variable {V : Type}

/-- What a batch was delivered as. An error stands for the outcomes that it replaced. -/
def Batch.delivery (batch : Batch V) : Delivery V :=
  ⟨batch.bridge, .children (batch.mode.deliver batch.outcomes)⟩

/-- The wait that a batch was taken for. -/
def Batch.wait (batch : Batch V) : WaitMode × BridgeId := (batch.mode, batch.bridge)

instance (mode : WaitMode) (fresh : List (ChildOutcome V)) (young : Nat) :
    Decidable (mode.Met fresh young) :=
  match mode with
  | .all | .allOk => inferInstanceAs (Decidable (young = 0))
  | .any =>
      match fresh with
      | [] => decidable_of_iff (young = 0) (by simp [WaitMode.Met])
      | _ :: _ => .isTrue (.inl (List.cons_ne_nil _ _))

namespace Ledger

/-- The batch ends here if a wait was delivered. -/
def turn (l : Ledger V) (fired : Option (Delivery V)) : Ledger V :=
  match fired, l.wait with
  | some _, some (mode, b) => { batches := l.batches ++ [⟨mode, b, l.fresh⟩] }
  | _, _ => l

/-- What is due: the batch of a wait that is over. -/
def due (l : Ledger V) (young : Nat) : Option (Delivery V) :=
  match l.wait with
  | some (mode, b) =>
      if mode.Met l.fresh young then some ⟨b, .children (mode.deliver l.fresh)⟩ else none
  | none => none

variable {l : Ledger V} {n : Nat} {mode : WaitMode} {b : BridgeId} {d : Delivery V}

theorem due_of_wait (h : l.wait = some (mode, b)) :
    l.due n = if mode.Met l.fresh n then some ⟨b, .children (mode.deliver l.fresh)⟩ else none := by
  simp only [due, h]

theorem due_of_no_wait (h : l.wait = none) : l.due n = none := by
  simp only [due, h]

theorem due_mono {n' : Nat} (h : l.due n' = none) (hn : n' ≤ n) : l.due n = none := by
  cases hwait : l.wait with
  | none => exact due_of_no_wait hwait
  | some w =>
    rw [due_of_wait hwait] at h ⊢
    exact if_neg fun hmet => by simp [hmet.mono hn] at h

theorem turn_outcomes (l : Ledger V) (fired : Option (Delivery V)) :
    (l.turn fired).outcomes = l.outcomes := by
  unfold turn
  split
  · simp [outcomes]
  · rfl

theorem turn_waits (l : Ledger V) (fired : Option (Delivery V)) :
    (l.turn fired).batches.map Batch.wait ++ (l.turn fired).wait.toList =
      l.batches.map Batch.wait ++ l.wait.toList := by
  unfold turn
  split
  next hwait => simp [hwait, Batch.wait]
  next => rfl

/-- What is due is what the batch is delivered as. -/
theorem turn_due_deliveries (l : Ledger V) (n : Nat) :
    (l.turn (l.due n)).batches.map Batch.delivery =
      l.batches.map Batch.delivery ++ (l.due n).toList := by
  unfold due turn
  cases hwait : l.wait with
  | none => simp
  | some w =>
    obtain ⟨mode, b⟩ := w
    by_cases hmet : mode.Met l.fresh n <;> simp [hmet, Batch.delivery]

/-- What was due is delivered, so nothing is due any more. -/
theorem due_turn_due (l : Ledger V) (n : Nat) : (l.turn (l.due n)).due n = none := by
  cases hdue : l.due n with
  | none => exact hdue
  | some d =>
    unfold turn
    split
    · rfl
    next hwait =>
      cases h : l.wait with
      | none => exact due_of_no_wait h
      | some w => exact absurd h (hwait d w.1 w.2 rfl)

/-- A group fires what is due, and its batch ends. -/
theorem fire_group (l : Ledger V) (n : Nat) :
    (l.group n).fire = ((l.turn (l.due n)).group n, l.due n) := by
  unfold Group.fire due turn
  cases hwait : l.wait with
  | none => simp [group, hwait]
  | some w =>
    obtain ⟨mode, b⟩ := w
    rw [show (l.group n).waiter = some (mode, b) from hwait]
    by_cases hmet : mode.Met l.fresh n
    · simp only [isSatisfied_group.mpr hmet, if_pos hmet, batch_group]
      rfl
    · simp only [if_neg (isSatisfied_group.not.mpr hmet), if_neg hmet]

end Ledger

namespace Group

open Ledger

/-- A call on a group, of the parent or of a child. -/
inductive Call (V : Type) where
  | add
  | remove
  /-- A child has finished. -/
  | settle (child : ChildOutcome V)
  | arm (mode : WaitMode) (bridge : BridgeId)
  /-- The parent has finished. -/
  | close
deriving DecidableEq, Repr

/-- What a call on a group is answered. -/
inductive Reply (V : Type) where
  | done
  | settled (s : Settlement V)
  | armed (fired : Option (Delivery V))
  | closed (left : List (ChildOutcome V))
deriving DecidableEq, Repr

/-- Makes one call. -/
def call (g : Group V) : Call V → Group V × Reply V
  | .add => (g.add, .done)
  | .remove => (g.remove, .done)
  | .settle child =>
      let settled := g.settle child.id child.outcome
      (settled.1, .settled settled.2)
  | .arm mode b => ((g.arm mode b).1, .armed (g.arm mode b).2)
  | .close => (g.close.1, .closed g.close.2)

/-- Makes calls in turn. -/
def serve (g : Group V) (calls : List (Call V)) : Group V × Log (Call V) (Reply V) :=
  Log.serve call g calls

/-- May the call be made? A parent waits for one thing at a time, and not once it has finished. It
    takes no child back while it waits. -/
def Permits (g : Group V) : Call V → Prop
  | .arm .. => g.waiter = none ∧ g.closed = false
  | .remove => g.waiter = none
  | .add | .settle _ | .close => True

/-- Every call may be made when it is made. -/
def Orderly (g : Group V) (calls : List (Call V)) : Prop := Log.Orderly call Permits g calls

/-- A run of calls on a new group, each of which may be made. -/
abbrev Course (log : Log (Call V) (Reply V)) (g : Group V) : Prop :=
  Log.Course call Permits {} log g

/-! ## What a log says -/

/-- What is delivered with a call, through the bridge of a wait. -/
def delivery? : Call V × Reply V → Option (Delivery V)
  | (_, .settled (.recorded fired)) | (_, .armed fired) => fired
  | _ => none

/-- The child that finishes with a call. -/
def child? : Call V × Reply V → Option (ChildOutcome V)
  | (.settle child, _) => some child
  | _ => none

/-- The outcome that a group takes. -/
def taken? : Call V × Reply V → Option (ChildOutcome V)
  | (.settle child, .settled (.recorded _)) => some child
  | _ => none

/-- The wait that begins with a call. -/
def wait? : Call V × Reply V → Option (WaitMode × BridgeId)
  | (.arm mode b, _) => some (mode, b)
  | _ => none

/-- The outcome that a call hands back. -/
def returned? : Call V × Reply V → Option (ChildOutcome V)
  | (.settle child, .settled (.returned r)) => some ⟨child.id, r⟩
  | _ => none

/-- The outcomes that a call finds left. -/
def left : Call V × Reply V → List (ChildOutcome V)
  | (_, .closed outcomes) => outcomes
  | _ => []

/-- The children that finished, in turn. -/
def finished (log : Log (Call V) (Reply V)) : List (ChildOutcome V) := log.filterMap child?

/-- The waits that began, in turn. -/
def armed (log : Log (Call V) (Reply V)) : List (WaitMode × BridgeId) := log.filterMap wait?

/-- What is left when the parent finishes. -/
def leftover (log : Log (Call V) (Reply V)) : List (ChildOutcome V) := log.flatMap left

/-- What is handed back, in turn. -/
def returned (log : Log (Call V) (Reply V)) : List (ChildOutcome V) := log.filterMap returned?

/-- Has the parent finished? -/
def IsClosed (log : Log (Call V) (Reply V)) : Prop := .close ∈ log.map Prod.fst

/-- How many children are outstanding with one more call. -/
def count (young : Nat) : Call V × Reply V → Nat
  | (.add, _) => young + 1
  | (.remove, _) | (.settle _, _) => young - 1
  | (.arm .., _) | (.close, _) => young

/-- How many children are outstanding, as a group counts them: never fewer than none. -/
def young (log : Log (Call V) (Reply V)) : Nat := log.foldl count 0

/-- The ledger with the outcome that a call brings, or with the wait that begins with it. -/
def entered (l : Ledger V) (e : Call V × Reply V) : Ledger V :=
  { l with fresh := l.fresh ++ (taken? e).toList, wait := wait? e <|> l.wait }

/-- Notes what is seen of one call. -/
def note (l : Ledger V) : Call V × Reply V → Ledger V
  | (.close, _) => { l with fresh := [], wait := none }
  | e => (entered l e).turn (delivery? e)

/-- The ledger of a log. -/
def ledger (log : Log (Call V) (Reply V)) : Ledger V := log.foldl note {}

/-- Is a wait over, that began when the log read `before`, with the calls `since`? -/
def IsOver (mode : WaitMode) (before since : Log (Call V) (Reply V)) : Prop :=
  mode.Met ((ledger before).fresh ++ finished since) (young (before ++ since))

variable {log before mid since after : Log (Call V) (Reply V)} {g g' : Group V} {c : Call V}
  {reply : Reply V} {e : Call V × Reply V} {mode : WaitMode} {b : BridgeId} {d : Delivery V}

theorem young_snoc (log : Log (Call V) (Reply V)) (e : Call V × Reply V) :
    young (log ++ [e]) = count (young log) e :=
  Log.foldl_snoc count 0 log e

theorem ledger_snoc (log : Log (Call V) (Reply V)) (e : Call V × Reply V) :
    ledger (log ++ [e]) = note (ledger log) e :=
  Log.foldl_snoc note {} log e

theorem finished_snoc (log : Log (Call V) (Reply V)) (e : Call V × Reply V) :
    finished (log ++ [e]) = finished log ++ (child? e).toList :=
  Log.filterMap_snoc child? log e

theorem armed_snoc (log : Log (Call V) (Reply V)) (e : Call V × Reply V) :
    armed (log ++ [e]) = armed log ++ (wait? e).toList :=
  Log.filterMap_snoc wait? log e

theorem returned_snoc (log : Log (Call V) (Reply V)) (e : Call V × Reply V) :
    returned (log ++ [e]) = returned log ++ (returned? e).toList :=
  Log.filterMap_snoc returned? log e

theorem leftover_snoc (log : Log (Call V) (Reply V)) (e : Call V × Reply V) :
    leftover (log ++ [e]) = leftover log ++ left e :=
  Log.flatMap_snoc left log e

theorem isClosed_snoc (log : Log (Call V) (Reply V)) (e : Call V × Reply V) :
    IsClosed (log ++ [e]) ↔ IsClosed log ∨ e.1 = .close :=
  Log.mem_calls_snoc log e .close

/-! ## One call -/

theorem note_of_ne_close (l : Ledger V) (h : e.1 ≠ .close) :
    note l e = (entered l e).turn (delivery? e) := by
  unfold note
  split
  · exact absurd rfl h
  · rfl

theorem entered_idle (l : Ledger V) (htaken : taken? e = none) (hwait : wait? e = none) :
    entered l e = l := by
  simp only [entered, htaken, hwait, Option.toList_none, List.append_nil]
  rfl

theorem entered_outcomes (l : Ledger V) (e : Call V × Reply V) :
    (entered l e).outcomes = l.outcomes ++ (taken? e).toList :=
  (List.append_assoc ..).symm

theorem permits_wait {l : Ledger V} {n : Nat} (hc : (l.group n).Permits c)
    (hwait : wait? (c, reply) ≠ none) : l.wait = none := by
  cases c with
  | arm mode b => exact hc.1
  | _ => exact absurd rfl hwait

theorem entered_waits {l : Ledger V} (h : wait? e ≠ none → l.wait = none) :
    (entered l e).batches.map Batch.wait ++ (entered l e).wait.toList =
      l.batches.map Batch.wait ++ l.wait.toList ++ (wait? e).toList := by
  cases hwait : wait? e with
  | none => simp [entered, hwait]
  | some w => simp [entered, hwait, h (by simp [hwait])]

theorem note_idle (l : Ledger V) (hclose : e.1 ≠ .close) (htaken : taken? e = none)
    (hwait : wait? e = none) (hdelivery : delivery? e = none) : note l e = l := by
  rw [note_of_ne_close l hclose, entered_idle l htaken hwait, hdelivery]
  rfl

/-- What a call does and answers as long as the parent is there: whatever is due goes out. -/
structure Noted (l : Ledger V) (n : Nat) (g : Group V) (e : Call V × Reply V) : Prop where
  group : g = (note l e).group (count n e)
  delivery : delivery? e = (entered l e).due (count n e)
  taken : taken? e = child? e
  left : left e = []
  returned : returned? e = none

/-- Nothing is due before a call is made: so a parent that takes a child back waits for nothing, and
    one that has another child waits as before. -/
theorem noted_call {l : Ledger V} {n : Nat} (hidle : l.due n = none)
    (hpermits : (l.group n).Permits c) (hc : c ≠ .close) :
    Noted l n ((l.group n).call c).1 (c, ((l.group n).call c).2) := by
  cases c with
  | add =>
    have hdue : l.due (n + 1) = none := due_mono hidle (Nat.le_succ n)
    show Noted l n (l.group (n + 1)) (.add, .done)
    refine ⟨by rw [note_idle l hc rfl rfl rfl]; rfl, ?_, rfl, rfl, rfl⟩
    rw [entered_idle l rfl rfl]
    exact hdue.symm
  | remove =>
    have hdue : l.due (n - 1) = none := due_of_no_wait hpermits
    show Noted l n (l.group (n - 1)) (.remove, .done)
    refine ⟨by rw [note_idle l hc rfl rfl rfl]; rfl, ?_, rfl, rfl, rfl⟩
    rw [entered_idle l rfl rfl]
    exact hdue.symm
  | settle child =>
    have hcall : (l.group n).call (.settle child) =
        (((entered l (.settle child, .settled (.recorded none))).group (n - 1)).fire.1,
          .settled (.recorded
            ((entered l (.settle child, .settled (.recorded none))).group (n - 1)).fire.2)) :=
      congrArg (fun t : Group V × Settlement V => (t.1, Reply.settled t.2))
        (settle_group child.id child.outcome)
    rw [hcall, fire_group]
    exact ⟨by rw [note_of_ne_close l hc]; rfl, rfl, rfl, rfl, rfl⟩
  | arm mode b =>
    have hcall : (l.group n).call (.arm mode b) =
        ((Ledger.group { l with wait := some (mode, b) } n).fire.1,
          .armed (Ledger.group { l with wait := some (mode, b) } n).fire.2) := rfl
    have hl (fired : Option (Delivery V)) : entered l (.arm mode b, .armed fired) =
        { l with wait := some (mode, b) } :=
      congrArg (fun fresh => { l with fresh := fresh, wait := some (mode, b) }) (List.append_nil _)
    rw [hcall, fire_group]
    refine ⟨?_, by rw [hl]; rfl, rfl, rfl, rfl⟩
    rw [note_of_ne_close l hc, hl]
    rfl
  | close => exact absurd rfl hc

theorem Noted.due {l : Ledger V} {n : Nat} (h : Noted l n g e) (hc : e.1 ≠ .close) :
    (Group.note l e).due (count n e) = none := by
  rw [note_of_ne_close l hc, h.delivery]
  exact due_turn_due _ _

/-- What a call does and answers when the parent has finished: it hands back what it brings. -/
structure Spent (l : Ledger V) (n : Nat) (g : Group V) (e : Call V × Reply V) : Prop where
  group : g = { outstanding := count n e, closed := true }
  note : note l e = l
  delivery : delivery? e = none
  begun : wait? e = none
  left : left e = []
  returned : returned? e = child? e

theorem spent_call {l : Ledger V} {n : Nat} (hfresh : l.fresh = []) (hwait : l.wait = none)
    (hpermits : ({ outstanding := n, closed := true } : Group V).Permits c) :
    Spent l n (({ outstanding := n, closed := true } : Group V).call c).1
      (c, (({ outstanding := n, closed := true } : Group V).call c).2) := by
  cases c with
  | arm mode b => cases hpermits.2
  | close =>
    have hnote : { l with fresh := [], wait := none } = l := by rw [← hfresh, ← hwait]
    exact ⟨rfl, hnote, rfl, rfl, rfl, rfl⟩
  | add => exact ⟨rfl, note_idle l (by simp) rfl rfl rfl, rfl, rfl, rfl, rfl⟩
  | remove => exact ⟨rfl, note_idle l (by simp) rfl rfl rfl, rfl, rfl, rfl, rfl⟩
  | settle child => exact ⟨rfl, note_idle l (by simp) rfl rfl rfl, rfl, rfl, rfl, rfl⟩

/-! ## All calls -/

/-- The group is what its log says. -/
structure Kept (log : Log (Call V) (Reply V)) (g : Group V) : Prop where
  opened : ¬ IsClosed log →
    g = (ledger log).group (young log) ∧ (ledger log).due (young log) = none
  /-- A parent that has finished holds nothing. -/
  shut : IsClosed log → g = { outstanding := young log, closed := true } ∧
    (ledger log).fresh = [] ∧ (ledger log).wait = none

/-- What the calls of a log brought is what went out with them, and what is still there. -/
structure Accounted (log : Log (Call V) (Reply V)) : Prop where
  children : (ledger log).outcomes ++ (leftover log ++ returned log) = finished log
  deliveries : log.filterMap delivery? = (ledger log).batches.map Batch.delivery
  waits : ∃ last : Option (WaitMode × BridgeId),
    armed log = (ledger log).batches.map Batch.wait ++ last.toList ∧
      (¬ IsClosed log → last = (ledger log).wait)
  opened : ¬ IsClosed log → leftover log = [] ∧ returned log = []

/-- **A call keeps the group in step with its log.** -/
theorem Kept.call (h : Kept log g) (hc : g.Permits c) :
    Kept (log ++ [(c, (g.call c).2)]) (g.call c).1 := by
  by_cases hclosed : IsClosed log
  · obtain ⟨rfl, hfresh, hwait⟩ := h.shut hclosed
    have hspent := spent_call hfresh hwait hc
    refine ⟨fun hopen => absurd ((isClosed_snoc ..).mpr (.inl hclosed)) hopen, fun _ => ?_⟩
    rw [young_snoc, ledger_snoc, hspent.note]
    exact ⟨hspent.group, hfresh, hwait⟩
  · obtain ⟨rfl, hidle⟩ := h.opened hclosed
    by_cases hlast : c = .close
    · subst hlast
      refine ⟨fun hopen => absurd ((isClosed_snoc ..).mpr (.inr rfl)) hopen, fun _ => ?_⟩
      rw [young_snoc, ledger_snoc]
      exact ⟨rfl, rfl, rfl⟩
    · have hnoted := noted_call hidle hc hlast
      have hopen : ¬ IsClosed (log ++ [(c, (((ledger log).group (young log)).call c).2)]) :=
        fun hshut => ((isClosed_snoc ..).mp hshut).elim hclosed hlast
      refine ⟨fun _ => ?_, fun hshut => absurd hshut hopen⟩
      rw [young_snoc, ledger_snoc]
      exact ⟨hnoted.group, hnoted.due hlast⟩

theorem Accounted.call (h : Accounted log) (hkept : Kept log g) (hc : g.Permits c) :
    Accounted (log ++ [(c, (g.call c).2)]) := by
  by_cases hclosed : IsClosed log
  · obtain ⟨rfl, hfresh, hwait⟩ := hkept.shut hclosed
    have hspent := spent_call hfresh hwait hc
    obtain ⟨last, hlast, -⟩ := h.waits
    refine ⟨?_, ?_, ⟨last, ?_, fun hopen => ?_⟩, fun hopen => ?_⟩
    · rw [leftover_snoc, returned_snoc, finished_snoc, ledger_snoc, hspent.note, hspent.left,
        hspent.returned, List.append_nil, ← h.children]
      simp only [List.append_assoc]
    · rw [Log.filterMap_snoc, ledger_snoc, hspent.note, hspent.delivery, h.deliveries]
      exact List.append_nil _
    · rw [armed_snoc, ledger_snoc, hspent.note, hspent.begun, ← hlast]
      exact List.append_nil _
    · exact absurd ((isClosed_snoc ..).mpr (.inl hclosed)) hopen
    · exact absurd ((isClosed_snoc ..).mpr (.inl hclosed)) hopen
  · obtain ⟨rfl, hidle⟩ := hkept.opened hclosed
    obtain ⟨last, hlast, hpending⟩ := h.waits
    obtain rfl := hpending hclosed
    obtain ⟨hleft, hback⟩ := h.opened hclosed
    by_cases hend : c = .close
    · subst hend
      have hleftover : left (Call.close, (((ledger log).group (young log)).call .close).2) =
          (ledger log).fresh := rfl
      have hshut := (isClosed_snoc log (Call.close, (((ledger log).group (young log)).call
        .close).2)).mpr (.inr rfl)
      refine ⟨?_, ?_, ⟨(ledger log).wait, ?_, fun hopen => absurd hshut hopen⟩,
        fun hopen => absurd hshut hopen⟩
      · rw [leftover_snoc, returned_snoc, finished_snoc, ledger_snoc, hleftover, hleft, hback,
          ← h.children, hleft, hback]
        simp [note, outcomes, returned?, child?]
      · rw [Log.filterMap_snoc, h.deliveries, ledger_snoc]
        exact List.append_nil _
      · rw [armed_snoc, hlast, ledger_snoc]
        exact List.append_nil _
    · have hnoted := noted_call hidle hc hend
      have hnote := note_of_ne_close (ledger log)
        (e := (c, (((ledger log).group (young log)).call c).2)) hend
      refine ⟨?_, ?_, ⟨_, ?_, fun _ => rfl⟩, fun _ => ?_⟩
      · rw [leftover_snoc, returned_snoc, finished_snoc, ledger_snoc, hnote, turn_outcomes,
          entered_outcomes, hnoted.taken, hnoted.left, hnoted.returned, ← h.children, hleft, hback]
        simp only [List.append_nil, Option.toList_none]
      · rw [Log.filterMap_snoc, ledger_snoc, h.deliveries, hnote, hnoted.delivery,
          turn_due_deliveries]
        rfl
      · rw [armed_snoc, ledger_snoc, hnote, turn_waits, entered_waits (permits_wait hc), hlast]
      · rw [leftover_snoc, returned_snoc, hnoted.left, hnoted.returned, hleft, hback]
        exact ⟨rfl, rfl⟩

theorem Course.kept (h : Course log g) : Kept log g := by
  induction h with
  | nil => exact ⟨fun _ => ⟨rfl, rfl⟩, fun hclosed => by simp [IsClosed] at hclosed⟩
  | snoc _ hc ih => exact ih.call hc

theorem Course.accounted (h : Course log g) : Accounted log := by
  induction h with
  | nil => exact ⟨rfl, rfl, ⟨none, rfl, fun _ => rfl⟩, fun _ => ⟨rfl, rfl⟩⟩
  | snoc hcourse hc ih => exact ih.call (Course.kept hcourse) hc

/-- What a call delivers as long as the parent is there: what is due then. -/
theorem Course.noted (h : Course (log ++ [e]) g) (hopen : ¬ IsClosed (log ++ [e])) :
    Noted (ledger log) (young log) g e := by
  obtain ⟨g', hcourse, hpermits, hg, he⟩ := h.last
  rw [isClosed_snoc, not_or] at hopen
  obtain ⟨rfl, hidle⟩ := (Course.kept hcourse).opened hopen.1
  have hnoted := noted_call hidle hpermits hopen.2
  rwa [← hg, ← he] at hnoted

/-- Nothing is delivered once the parent has finished. -/
theorem Course.silent (h : Course (log ++ [e]) g) (hclosed : IsClosed (log ++ [e])) :
    delivery? e = none := by
  obtain ⟨g', hcourse, hpermits, hg, he⟩ := h.last
  obtain ⟨c, reply⟩ := e
  obtain hclosed | rfl := (isClosed_snoc ..).mp hclosed
  · obtain ⟨rfl, hfresh, hwait⟩ := (Course.kept hcourse).shut hclosed
    have hspent := spent_call hfresh hwait hpermits
    rw [← he] at hspent
    exact hspent.delivery
  · obtain rfl : reply = .closed _ := he
    rfl

/-! ## One wait -/

/-- A wait is over with the last of these calls, and was not over before. -/
structure Ends (mode : WaitMode) (before mid : Log (Call V) (Reply V)) (e : Call V × Reply V) :
    Prop where
  opened : ¬ IsClosed (mid ++ [e])
  isOver : IsOver mode before (mid ++ [e])
  first : ∀ since, since ≠ [] → since <+: mid → ¬ IsOver mode before since

/-- As long as nothing is delivered for a wait, everything that settles is kept for it. -/
theorem Course.awaiting (h : Course (before ++ mid ++ [e]) g)
    (hopen : ¬ IsClosed (before ++ mid ++ [e]))
    (hstart : (mid ++ [e]).head?.map Prod.fst = some (.arm mode b))
    (hquiet : ∀ x ∈ mid, delivery? x = none) :
    (entered (ledger (before ++ mid)) e).fresh = (ledger before).fresh ++ finished (mid ++ [e]) ∧
      (entered (ledger (before ++ mid)) e).wait = some (mode, b) := by
  induction mid using List.reverseRecOn generalizing e g with
  | nil =>
    obtain ⟨c, reply⟩ := e
    obtain rfl : c = .arm mode b := Option.some.inj hstart
    rw [List.append_nil]
    exact ⟨rfl, rfl⟩
  | append_singleton mid x ih =>
    obtain ⟨g', hcourse, hpermits, -, -⟩ := h.last
    have htaken := (h.noted hopen).taken
    have hopen' : ¬ IsClosed (before ++ (mid ++ [x])) :=
      fun hclosed => hopen ((isClosed_snoc ..).mpr (.inl hclosed))
    have hstart' : (mid ++ [x]).head?.map Prod.fst = some (.arm mode b) := by
      cases mid <;> exact hstart
    obtain ⟨rfl, -⟩ := (Course.kept hcourse).opened hopen'
    rw [← List.append_assoc] at hcourse hopen' ⊢
    obtain ⟨hfresh, hwait⟩ := ih hcourse hopen' hstart' fun y hy => hquiet y (by simp [hy])
    have hclose : x.1 ≠ .close := fun hx => hopen' ((isClosed_snoc ..).mpr (.inr hx))
    have hledger : ledger (before ++ mid ++ [x]) = entered (ledger (before ++ mid)) x := by
      rw [ledger_snoc, note_of_ne_close _ hclose, hquiet x (by simp)]
      rfl
    rw [← hledger] at hfresh hwait
    have hnone : wait? e = none := by
      by_contra hne
      obtain ⟨c, reply⟩ := e
      rw [← List.append_assoc] at hpermits
      rw [permits_wait hpermits hne] at hwait
      cases hwait
    constructor
    · rw [finished_snoc, entered, hfresh, htaken]
      exact List.append_assoc ..
    · rw [entered, hnone, hwait]
      rfl

theorem Course.delivery_eq (h : Course (before ++ mid ++ [e]) g)
    (hopen : ¬ IsClosed (before ++ mid ++ [e]))
    (hstart : (mid ++ [e]).head?.map Prod.fst = some (.arm mode b))
    (hquiet : ∀ x ∈ mid, delivery? x = none) :
    delivery? e = some d ↔ IsOver mode before (mid ++ [e]) ∧
      d = ⟨b, .children (mode.deliver ((ledger before).fresh ++ finished (mid ++ [e])))⟩ := by
  obtain ⟨hfresh, hwait⟩ := h.awaiting hopen hstart hquiet
  rw [(h.noted hopen).delivery, due_of_wait hwait, hfresh, IsOver, ← List.append_assoc,
    young_snoc]
  by_cases hmet : mode.Met ((ledger before).fresh ++ finished (mid ++ [e]))
      (count (young (before ++ mid)) e)
  · simp [hmet, eq_comm]
  · simp [hmet]

theorem Course.opened (h : Course (before ++ e :: after) g) (he : e.1 = .arm mode b) :
    ¬ IsClosed before := by
  obtain ⟨g', harm⟩ := h.upTo
  obtain ⟨g'', hbefore, hpermits, -⟩ := harm.last
  intro hclosed
  rw [he, ((Course.kept hbefore).shut hclosed).1] at hpermits
  cases hpermits.2

/-- A wait is on with every call between the one that began it and the last one. -/
theorem Course.delivery_eq_of_prefix {x : Call V × Reply V}
    (h : Course (before ++ mid ++ e :: after) g)
    (hstart : (mid ++ [e]).head?.map Prod.fst = some (.arm mode b))
    (hopen : ¬ IsClosed (before ++ mid)) (hsince : since ++ [x] <+: mid)
    (hquiet : ∀ y ∈ since, delivery? y = none) :
    delivery? x = some d ↔ IsOver mode before (since ++ [x]) ∧
      d = ⟨b, .children (mode.deliver ((ledger before).fresh ++ finished (since ++ [x])))⟩ := by
  obtain ⟨rest, rfl⟩ := hsince
  have hcourse : Course (before ++ since ++ x :: (rest ++ e :: after)) g := by simpa using h
  obtain ⟨g', hcourse⟩ := hcourse.upTo
  have hopen' : ¬ IsClosed (before ++ since ++ [x]) := by
    intro hclosed
    refine hopen ?_
    simp only [IsClosed, List.map_append, List.mem_append] at hclosed ⊢
    tauto
  have hstart' : (since ++ [x]).head?.map Prod.fst = some (.arm mode b) := by
    cases since <;> exact hstart
  exact Course.delivery_eq hcourse hopen' hstart' hquiet

/-- Nothing is delivered before a wait is over. -/
theorem Course.quiet (h : Course (before ++ mid ++ e :: after) g)
    (hstart : (mid ++ [e]).head?.map Prod.fst = some (.arm mode b))
    (hopen : ¬ IsClosed (before ++ mid)) (hends : Ends mode before mid e) (hsince : since <+: mid) :
    ∀ x ∈ since, delivery? x = none := by
  induction since using List.reverseRecOn with
  | nil => simp
  | append_singleton since x ih =>
    have hquiet := ih ((List.prefix_append _ _).trans hsince)
    have hx : delivery? x = none := by
      by_contra hne
      obtain ⟨d, hd⟩ := Option.ne_none_iff_exists'.mp hne
      have hover := ((h.delivery_eq_of_prefix hstart hopen hsince hquiet).mp hd).1
      exact hends.first _ (by simp) hsince hover
    intro y hy
    obtain hy | hy := List.mem_append.mp hy
    · exact hquiet y hy
    · rwa [List.mem_singleton.mp hy]

/-- **A wait is delivered at the first moment at which it is over.** -/
theorem Course.first (h : Course (before ++ mid ++ e :: after) g)
    (hstart : (mid ++ [e]).head?.map Prod.fst = some (.arm mode b)) :
    (delivery? e = some d ∧ ∀ x ∈ mid, delivery? x = none) ↔
      Ends mode before mid e ∧
        d = ⟨b, .children (mode.deliver ((ledger before).fresh ++ finished (mid ++ [e])))⟩ := by
  obtain ⟨g', hlast⟩ := h.upTo
  have hbefore : ¬ IsClosed before := by
    cases mid with
    | nil => exact Course.opened (by simpa using h) (Option.some.inj hstart)
    | cons x mid => exact Course.opened (by simpa using h) (Option.some.inj hstart)
  have hopen_iff : ¬ IsClosed (before ++ mid ++ [e]) ↔ ¬ IsClosed (mid ++ [e]) := by
    simp only [IsClosed, List.map_append, List.mem_append] at hbefore ⊢
    tauto
  have hopen_mid : ¬ IsClosed (before ++ mid ++ [e]) → ¬ IsClosed (before ++ mid) :=
    mt fun hclosed => (isClosed_snoc ..).mpr (.inl hclosed)
  constructor
  · rintro ⟨hd, hquiet⟩
    have hopen : ¬ IsClosed (before ++ mid ++ [e]) := by
      intro hclosed
      rw [Course.silent hlast hclosed] at hd
      cases hd
    obtain ⟨hover, hd⟩ := (Course.delivery_eq hlast hopen hstart hquiet).mp hd
    refine ⟨⟨hopen_iff.mp hopen, hover, fun since hne hsince hearly => ?_⟩, hd⟩
    obtain ⟨since, x, rfl⟩ := (List.eq_nil_or_concat' since).resolve_left hne
    have hx : delivery? x = none := hquiet x (hsince.subset (by simp))
    have hbegun : ∀ y ∈ since, delivery? y = none :=
      fun y hy => hquiet y (hsince.subset (List.mem_append_left _ hy))
    rw [(h.delivery_eq_of_prefix hstart (hopen_mid hopen) hsince hbegun).mpr ⟨hearly, rfl⟩] at hx
    cases hx
  · rintro ⟨hends, hd⟩
    have hopen := hopen_iff.mpr hends.opened
    have hquiet := h.quiet hstart (hopen_mid hopen) hends List.prefix_rfl
    exact ⟨(Course.delivery_eq hlast hopen hstart hquiet).mpr ⟨hends.isOver, hd⟩, hquiet⟩

/-- What a new group does with its calls. -/
structure Conserves (calls : List (Call V)) (log : Log (Call V) (Reply V)) (g : Group V) :
    Prop where
  /-- Every call is made, and answered. -/
  calls : log.map Prod.fst = calls
  /-- What goes out with the batches in turn, what is left when the parent finishes, and what is
      handed back is what the children brought, in the order in which they finished. -/
  children : (ledger log).outcomes ++ (leftover log ++ returned log) = finished log
  /-- The batches are what is delivered, the first one first. -/
  deliveries : log.filterMap delivery? = (ledger log).batches.map Batch.delivery
  /-- The parent waits for one batch after the other. -/
  waits : ∃ last : Option (WaitMode × BridgeId),
    armed log = (ledger log).batches.map Batch.wait ++ last.toList ∧
      (¬ IsClosed log → last = g.waiter)
  /-- A wait is delivered with the call with which it is over for the first time. -/
  first : ∀ before mid e after mode b d, log = before ++ mid ++ e :: after →
    (mid ++ [e]).head?.map Prod.fst = some (.arm mode b) →
    ((delivery? e = some d ∧ ∀ x ∈ mid, delivery? x = none) ↔
      Ends mode before mid e ∧
        d = ⟨b, .children (mode.deliver ((ledger before).fresh ++ finished (mid ++ [e])))⟩)
  silent : ∀ before e after, log = before ++ e :: after → IsClosed before → delivery? e = none
  /-- As long as the parent is there, the group keeps what was not delivered, and the first failure
      among that. -/
  opened : ¬ IsClosed log → g.settled = (ledger log).fresh ∧
    g.firstFailure = g.settled.findSome? (·.outcome.failure?)
  closed : IsClosed log → (ledger log).fresh = []

/-- **No outcome of a child is lost or doubled**, and no wait is delivered late or twice. -/
theorem conserves_serve (calls : List (Call V)) (h : ({} : Group V).Orderly calls) :
    Conserves calls (({} : Group V).serve calls).2 (({} : Group V).serve calls).1 := by
  have hcourse : Course (({} : Group V).serve calls).2 (({} : Group V).serve calls).1 :=
    Log.course_serve h
  have haccounted := hcourse.accounted
  refine
    { calls := Log.serve_calls call {} calls
      children := haccounted.children
      deliveries := haccounted.deliveries
      waits := ?_
      first := ?_
      silent := ?_
      opened := ?_
      closed := fun hclosed => ((Course.kept hcourse).shut hclosed).2.1 }
  · obtain ⟨last, hlast, hwait⟩ := haccounted.waits
    refine ⟨last, hlast, fun hopen => ?_⟩
    rw [hwait hopen, ((Course.kept hcourse).opened hopen).1]
    rfl
  · intro before mid e after mode b d heq hstart
    rw [heq] at hcourse
    exact hcourse.first hstart
  · intro before e after heq hclosed
    rw [heq] at hcourse
    obtain ⟨g', hlast⟩ := hcourse.upTo
    exact Course.silent hlast ((isClosed_snoc ..).mpr (.inl hclosed))
  · intro hopen
    obtain ⟨hg, -⟩ := (Course.kept hcourse).opened hopen
    rw [hg]
    exact ⟨rfl, rfl⟩

/-- Three kinds of waits on one group, and children that finish after their parent. -/
def mixedCalls : List (Call Nat) :=
  [.add, .add, .add, .settle ⟨⟨1⟩, .err ⟨.failed, "early"⟩⟩, .arm .any ⟨0⟩, .arm .allOk ⟨1⟩,
    .settle ⟨⟨2⟩, .ok 20⟩, .settle ⟨⟨3⟩, .ok 30⟩, .add, .add, .remove, .arm .allOk ⟨2⟩,
    .settle ⟨⟨4⟩, .err ⟨.failed, "late"⟩⟩, .add, .add, .settle ⟨⟨5⟩, .ok 50⟩, .arm .all ⟨3⟩, .close,
    .settle ⟨⟨6⟩, .ok 60⟩]

/-- The failure that went out with the first batch does not fail the second. -/
example : (({} : Group Nat).serve mixedCalls).2.filterMap delivery? =
    [⟨⟨0⟩, .children (.ok [⟨⟨1⟩, .err ⟨.failed, "early"⟩⟩])⟩,
      ⟨⟨1⟩, .children (.ok [⟨⟨2⟩, .ok 20⟩, ⟨⟨3⟩, .ok 30⟩])⟩,
      ⟨⟨2⟩, .children (.err ⟨.failed, "late"⟩)⟩] := rfl

theorem conserves_mixedCalls :
    ({} : Group Nat).Orderly mixedCalls ∧
      Conserves mixedCalls (({} : Group Nat).serve mixedCalls).2
        (({} : Group Nat).serve mixedCalls).1 := by
  have horderly : ({} : Group Nat).Orderly mixedCalls := by
    simp [mixedCalls, Orderly, Log.Orderly, Permits, call, Group.add, Group.remove, Group.settle,
      Group.arm, Group.fire, Group.isSatisfied]
  exact ⟨horderly, conserves_serve mixedCalls horderly⟩

end Group
end CoopSched
