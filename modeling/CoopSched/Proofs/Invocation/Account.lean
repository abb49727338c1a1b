import CoopSched.Proofs.Job.Answer
import CoopSched.Proofs.Scheduler.Orderly
import Mathlib.Data.List.ReduceOption

/-!
# Invocations — what there is to say about one

An `Invocation` is a job that launches its own strands. To tell its story two lists are enough: the
calls of its callable in index order, each with the number of the strand that was made of the body,
and the exits of those strands in the order of time. Whatever the scheduler knows about the job, its
strands and the journal follows from the two.

A journal is read for certain strands only (`noted`), and for a kind of milestone: births and exits.
How many of the strands are under way at a moment is the difference of the two numbers, and a bound
on it is one for every beginning of the journal (`NeverMore`).
-/

namespace CoopSched

variable {V B : Type}

/-- A job that launches its own strands. -/
structure Invocation (V B : Type) where
  job : JobId
  inputs : List V
  callable : Nat → V → Except Panic B
  concurrency : Concurrency

namespace Invocation

/-- The callable returns a body for each of the inputs. -/
def IsTotal (inv : Invocation V B) : Prop :=
  ∀ i v, inv.inputs[i]? = some v → ∃ body, inv.callable i v = .ok body

/-- How many strands may be under way at once. -/
def width (inv : Invocation V B) : Nat := inv.concurrency.initial inv.inputs.length

/-- The drive of the job after so many calls: the inputs of those are taken. -/
def driveAfter (inv : Invocation V B) (n : Nat) : Drive V B where
  inputs := List.replicate n none ++ (inv.inputs.drop n).map some
  callable := inv.callable
  chained := inv.concurrency.isChained

theorem driveAfter_zero (inv : Invocation V B) :
    inv.driveAfter 0 = ⟨inv.inputs.map some, inv.callable, inv.concurrency.isChained⟩ := by
  simp [driveAfter]

/-- The input of the next call is still there. -/
theorem driveAfter_getElem? (inv : Invocation V B) {n : Nat} {v : V}
    (h : inv.inputs[n]? = some v) : (inv.driveAfter n).inputs[n]? = some (some v) := by
  simp [driveAfter, List.getElem?_append_right, h]

/-- A call takes its input. -/
theorem driveAfter_set (inv : Invocation V B) {n : Nat} (h : n < inv.inputs.length) :
    { inv.driveAfter n with inputs := (inv.driveAfter n).inputs.set n none } =
      inv.driveAfter (n + 1) := by
  have hdrop : (inv.inputs.drop n).map some =
      some inv.inputs[n] :: (inv.inputs.drop (n + 1)).map some := by
    rw [List.drop_eq_getElem_cons h, List.map_cons]
  simp only [driveAfter, hdrop, Drive.mk.injEq, and_true]
  rw [List.set_append_right _ _ (by simp), List.length_replicate, Nat.sub_self, List.set_cons_zero,
    List.replicate_succ', List.append_assoc, List.singleton_append]

end Invocation

/-- How a strand of a job came to its end. -/
inductive Ending (V : Type) where
  /-- It finished, with this outcome. -/
  | finished (outcome : Outcome V)
  /-- A shutdown cancelled it. -/
  | cancelled (reason : Failure)
  /-- The scheduler refused it. -/
  | refused
deriving DecidableEq, Repr

namespace Ending

/-- What the job is told. -/
def outcome : Ending V → Outcome V
  | .finished r => r
  | .cancelled reason => .err reason
  | .refused => .err Refusal.shutDown.toFailure

/-- What the observers are told. -/
def happening : Ending V → Happening
  | .finished r => .finished r.isOk
  | .cancelled _ => .cancelled
  | .refused => .rejected

theorem isEnd_happening (e : Ending V) : e.happening.isEnd = true := by
  cases e <;> rfl

end Ending

/-- The end of the strand for an index. -/
structure Exit (V : Type) where
  index : Nat
  strand : StrandId
  ending : Ending V
deriving DecidableEq, Repr

/-- What an exit submits to the job. -/
def Exit.submission (x : Exit V) : Nat × Outcome V := (x.index, x.ending.outcome)

/-- What an exit looks like in the journal. -/
def Exit.event (x : Exit V) : Event := ⟨x.strand, x.ending.happening⟩

/-! ## Reading the journal -/

/-- Does a strand come? -/
def Happening.isBirth : Happening → Bool
  | .created => true
  | _ => false

/-- The events of a kind about some strands. -/
def noted (kind : Happening → Bool) (ids : List StrandId) (recs : List (Record V)) : List Event :=
  recs.filterMap fun
    | .event e => if kind e.happening ∧ e.strand ∈ ids then some e else none
    | .answered .. => none

/-- The answers of a job. -/
def answersOf (j : JobId) (recs : List (Record V)) : List (Outcome (List V)) :=
  recs.filterMap fun
    | .event _ => none
    | .answered j' answer => if j' = j then some answer else none

/-- Does the record say nothing about the coming and going of these strands? -/
def Record.IsSilent (ids : List StrandId) : Record V → Prop
  | .event e => e.happening.isMilestone = true → e.strand ∉ ids
  | .answered .. => True

variable {kind : Happening → Bool} {ids : List StrandId} {recs recs' : List (Record V)}

@[simp] theorem noted_append :
    noted kind ids (recs ++ recs') = noted kind ids recs ++ noted kind ids recs' :=
  List.filterMap_append

theorem noted_beginning (kind : Happening → Bool) (ids : List StrandId) (h : recs <+: recs') :
    List.Sublist (noted kind ids recs) (noted kind ids recs') :=
  h.sublist.filterMap _

@[simp] theorem answersOf_append (j : JobId) :
    answersOf j (recs ++ recs') = answersOf j recs ++ answersOf j recs' :=
  List.filterMap_append

theorem noted_silent (hkind : ∀ h, kind h = true → h.isMilestone = true)
    (h : ∀ rec ∈ recs, rec.IsSilent ids) : noted kind ids recs = [] := by
  rw [noted, List.filterMap_eq_nil_iff]
  intro rec hrec
  cases rec with
  | event e =>
    have hsilent := h _ hrec
    exact if_neg fun hnot => hsilent (hkind _ hnot.1) hnot.2
  | answered j answer => rfl

/-- A strand that the journal does not mention yet makes no difference. -/
theorem noted_new (hkind : ∀ h, kind h = true → h.isMilestone = true) {k : StrandId}
    (h : ∀ rec ∈ recs, rec.IsSilent [k]) : noted kind (ids ++ [k]) recs = noted kind ids recs := by
  refine List.filterMap_congr fun rec hrec => ?_
  cases rec with
  | event e =>
    have hsilent := h _ hrec
    refine if_congr ?_ rfl rfl
    rw [List.mem_append]
    refine and_congr_right fun hk => or_iff_left (hsilent (hkind _ hk))
  | answered j answer => rfl

theorem Record.IsSilent.of_idle {rec : Record V} (h : rec.isIdle = true) : rec.IsSilent ids := by
  cases rec with
  | event e =>
    intro hmilestone
    simp [Record.isIdle, hmilestone] at h
  | answered j answer => trivial

theorem answersOf_nil {j : JobId} (h : ∀ rec ∈ recs, ∀ answer, rec ≠ .answered j answer) :
    answersOf j recs = [] := by
  rw [answersOf, List.filterMap_eq_nil_iff]
  intro rec hrec
  cases rec with
  | event e => rfl
  | answered j' answer =>
    refine if_neg fun heq => ?_
    exact h _ hrec answer (heq ▸ rfl)

theorem Happening.isMilestone_of_isBirth (h : Happening) (hb : h.isBirth = true) :
    h.isMilestone = true := by
  cases h <;> first | rfl | cases hb

theorem Happening.isMilestone_of_isEnd (h : Happening) (he : h.isEnd = true) :
    h.isMilestone = true := by
  cases h <;> first | rfl | cases he

/-! ## How many are under way -/

/-- After no beginning of the journal are more than so many of the strands under way: created, and
    not gone. -/
def NeverMore (bound : Nat) (ids : List StrandId) (recs : List (Record V)) : Prop :=
  ∀ beginning, beginning <+: recs →
    (noted Happening.isBirth ids beginning).length ≤
      (noted Happening.isEnd ids beginning).length + bound

theorem NeverMore.append {bound : Nat} (h : NeverMore bound ids recs)
    (hmore : ∀ more, more <+: recs' →
      (noted Happening.isBirth ids recs).length + (noted Happening.isBirth ids more).length ≤
        (noted Happening.isEnd ids recs).length + (noted Happening.isEnd ids more).length + bound) :
    NeverMore bound ids (recs ++ recs') := by
  intro beginning hbegins
  rcases List.prefix_or_prefix_of_prefix hbegins (List.prefix_append recs recs') with
    hold | ⟨more, rfl⟩
  · exact h beginning hold
  · have := hmore more ((List.prefix_append_right_inj recs).mp hbegins)
    simp only [noted_append, List.length_append]
    omega

theorem NeverMore.mono {bound bound' : Nat} (h : NeverMore bound ids recs)
    (hle : bound ≤ bound') : NeverMore bound' ids recs := by
  intro beginning hbegins
  have := h beginning hbegins
  omega

/-- Records without a birth among them do not break the bound. -/
theorem NeverMore.append_of_no_birth {bound : Nat} (h : NeverMore bound ids recs)
    (hbirth : noted Happening.isBirth ids recs' = []) : NeverMore bound ids (recs ++ recs') := by
  refine h.append fun more hm => ?_
  have hall := h recs List.prefix_rfl
  have hsub := noted_beginning Happening.isBirth ids hm
  rw [hbirth, List.sublist_nil] at hsub
  rw [hsub, List.length_nil]
  omega

/-- One birth does not break the bound, if there is room for it. -/
theorem NeverMore.append_of_birth {bound : Nat} (h : NeverMore bound ids recs)
    (hbirth : (noted Happening.isBirth ids recs').length ≤ 1)
    (hroom : (noted Happening.isBirth ids recs).length <
      (noted Happening.isEnd ids recs).length + bound) : NeverMore bound ids (recs ++ recs') := by
  refine h.append fun more hm => ?_
  have hle := (noted_beginning Happening.isBirth ids hm).length_le
  omega

theorem NeverMore.new {bound : Nat} (h : NeverMore bound ids recs) {k : StrandId}
    (hnew : ∀ rec ∈ recs, rec.IsSilent [k]) : NeverMore bound (ids ++ [k]) recs := by
  intro beginning hbegins
  have hsilent : ∀ rec ∈ beginning, rec.IsSilent [k] := fun rec hrec =>
    hnew rec (hbegins.subset hrec)
  rw [noted_new Happening.isMilestone_of_isBirth hsilent,
    noted_new Happening.isMilestone_of_isEnd hsilent]
  exact h beginning hbegins

end CoopSched
