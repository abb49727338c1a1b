import CoopSched.Job
import CoopSched.Proofs.Log

/-!
# Sessions — a job and the calls that are made on it

Two kinds of calls reach a job: a submission resolves an index, a claim hands one out. A session
is a job with all the calls made on it, in the order in which they take effect, and with what each
of them was answered.

The callback of a job may call the job itself. It runs when the job has changed and before the
submission that fired it returns, so the calls it makes stand right behind that submission, in
front of everything that was still to come. A callback that panics has made the calls up to the
panic and makes no more; the job does not notice, so a panic needs no case of its own.
-/

namespace CoopSched
namespace Job

variable {V : Type} {j : Job V}

/-- A call on a job. -/
inductive Call (V : Type) where
  | submit (index : Nat) (r : Outcome V)
  | claim

/-- What a call on a job is answered. -/
inductive Reply (V : Type) where
  /-- The submission was taken. The last one brings the answer, and the callback runs on it. -/
  | accepted (answer : Option (Outcome (List V)))
  | refused (cause : Refusal)
  | claimed (index : Option Nat)

/-- Makes one call. -/
def call (j : Job V) : Call V → Job V × Reply V
  | .submit index r =>
      match j.submit index r with
      | .ok (j', answer) => (j', .accepted answer)
      | .error cause => (j, .refused cause)
  | .claim => (j.claim.1, .claimed j.claim.2)

/-- The calls that a callback makes on its own job because of a reply. -/
def Reply.echoes (callback : Outcome (List V) → List (Call V)) : Reply V → List (Call V)
  | .accepted (some answer) => callback answer
  | .accepted none | .refused _ | .claimed _ => []

theorem call_submit_none {j : Job V} {index : Nat} {r : Outcome V}
    (h : j.slots[index]? = none) :
    j.call (.submit index r) = (j, .refused (.indexOutOfRange index j.length)) := by
  simp only [call, submit, h]

theorem call_submit_resolved {j : Job V} {index : Nat} {r : Outcome V} {slot : Slot V}
    (h : j.slots[index]? = some slot) (hr : slot.isUnresolved = false) :
    j.call (.submit index r) = (j, .refused (.slotResolved index)) := by
  simp only [call, submit, h, hr, Bool.false_eq_true, if_false]

/-- The job after an index was resolved, whether or not it was the last one. -/
def resolved (j : Job V) (index : Nat) (r : Outcome V) : Job V :=
  { j with
    slots := j.slots.set index (.ofOutcome r)
    firstFailure := j.firstFailure <|> r.failure?.map (index, ·)
    remaining := j.remaining - 1 }

theorem call_submit_unresolved {j : Job V} {index : Nat} {r : Outcome V} {slot : Slot V}
    (h : j.slots[index]? = some slot) (hr : slot.isUnresolved = true) :
    j.call (.submit index r) =
      if j.remaining = 1 then
        ((j.resolved index r).finish.1, .accepted (some (j.resolved index r).finish.2))
      else (j.resolved index r, .accepted none) := by
  by_cases h1 : j.remaining = 1 <;> simp [call, submit, resolved, h, hr, h1]

/-- A refused call leaves the job as it was. -/
theorem call_refused {j : Job V} {c : Call V} {cause : Refusal}
    (h : (j.call c).2 = .refused cause) : (j.call c).1 = j := by
  cases c with
  | claim => simp [call] at h
  | submit index r =>
    simp only [call] at h ⊢
    split at h
    · simp at h
    · rfl

@[simp] theorem finish_remaining (j : Job V) : j.finish.1.remaining = j.remaining := by
  unfold finish takeValues
  split <;> rfl

/-- The only submission that brings the answer is the one that resolves the last slot. -/
theorem call_fired {j : Job V} {c : Call V} {answer : Outcome (List V)}
    (h : (j.call c).2 = .accepted (some answer)) :
    j.remaining = 1 ∧ (j.call c).1.remaining = 0 := by
  cases c with
  | claim => simp [call] at h
  | submit index r =>
    cases hs : j.slots[index]? with
    | none => rw [call_submit_none hs] at h; simp at h
    | some slot =>
      cases hr : slot.isUnresolved with
      | false => rw [call_submit_resolved hs hr] at h; simp at h
      | true =>
        rw [call_submit_unresolved hs hr] at h ⊢
        by_cases h1 : j.remaining = 1
        · simp [h1, resolved]
        · simp [h1] at h

theorem call_remaining_le (j : Job V) (c : Call V) : (j.call c).1.remaining ≤ j.remaining := by
  cases c with
  | claim => exact Nat.le_refl _
  | submit index r =>
    cases hs : j.slots[index]? with
    | none => simp [call_submit_none hs]
    | some slot =>
      cases hr : slot.isUnresolved with
      | false => simp [call_submit_resolved hs hr]
      | true =>
        rw [call_submit_unresolved hs hr]
        by_cases h1 : j.remaining = 1 <;> simp [h1, resolved]

/-! ## What is resolved stays resolved -/

/-- Is there no result missing for an index? -/
def IsResolved (j : Job V) (index : Nat) : Prop :=
  ∀ slot, j.slots[index]? = some slot → slot.isUnresolved = false

/-- A job has gone on. It has the indices that it had, a result is where it was unless it has gone
    into the answer, and the failure that was recorded first stays the first. -/
structure Onward (j j' : Job V) : Prop where
  length : j'.length = j.length
  slots : ∀ (i : Nat) (slot' : Slot V), j'.slots[i]? = some slot' →
    ∃ slot, j.slots[i]? = some slot ∧
      (slot.isUnresolved = false → slot' = slot ∨ slot' = .taken)
  failure : ∀ f, j.firstFailure = some f → j'.firstFailure = some f

theorem Onward.of_same {j' : Job V} (h : j'.slots = j.slots)
    (hfailure : j'.firstFailure = j.firstFailure) : j.Onward j' where
  length := congrArg List.length h
  slots := fun _ slot' hslot => ⟨slot', h ▸ hslot, fun _ => Or.inl rfl⟩
  failure := fun _ hf => hfailure.trans hf

theorem Onward.refl (j : Job V) : j.Onward j := .of_same rfl rfl

theorem Onward.trans {j' j'' : Job V} (h : j.Onward j') (h' : j'.Onward j'') : j.Onward j'' where
  length := h'.length.trans h.length
  slots := by
    intro i slot'' hslot''
    obtain ⟨slot', hslot', hback'⟩ := h'.slots i slot'' hslot''
    obtain ⟨slot, hslot, hback⟩ := h.slots i slot' hslot'
    refine ⟨slot, hslot, fun hr => ?_⟩
    rcases hback hr with rfl | rfl
    · exact hback' hr
    · exact Or.inr ((hback' rfl).elim id id)
  failure := fun f hf => h'.failure f (h.failure f hf)

theorem IsResolved.onward {j' : Job V} {index : Nat} (h : j.IsResolved index)
    (hon : j.Onward j') : j'.IsResolved index := by
  intro slot' hslot'
  obtain ⟨slot, hslot, hback⟩ := hon.slots index slot' hslot'
  rcases hback (h slot hslot) with rfl | rfl
  · exact h slot' hslot
  · rfl

theorem onward_resolved {index : Nat} {slot : Slot V} (h : j.slots[index]? = some slot)
    (hr : slot.isUnresolved = true) (r : Outcome V) : j.Onward (j.resolved index r) where
  length := List.length_set
  slots := by
    intro i slot' hslot'
    rw [resolved, List.getElem?_set] at hslot'
    split at hslot'
    next heq =>
      subst heq
      refine ⟨slot, h, fun hno => ?_⟩
      cases hr.symm.trans hno
    next => exact ⟨slot', hslot', fun _ => Or.inl rfl⟩
  failure := by
    intro f hf
    rw [resolved, hf]
    rfl

theorem onward_finish (j : Job V) : j.Onward j.finish.1 := by
  unfold finish
  split
  · exact .of_same rfl rfl
  · refine ⟨List.length_map _, fun i slot' hslot' => ?_, fun f hf => hf⟩
    rw [takeValues, List.getElem?_map] at hslot'
    obtain ⟨slot, hslot, rfl⟩ := Option.map_eq_some_iff.mp hslot'
    exact ⟨slot, hslot, fun _ => Or.inr rfl⟩

theorem isResolved_resolved (j : Job V) (index : Nat) (r : Outcome V) :
    (j.resolved index r).IsResolved index := by
  intro slot hslot
  rw [resolved, List.getElem?_set_self'] at hslot
  obtain ⟨old, -, rfl⟩ := Option.map_eq_some_iff.mp hslot
  cases r <;> rfl

/-- A submission that is taken resolves its index, and nothing else comes undone. -/
theorem submit_ok {j' : Job V} {index : Nat} {r : Outcome V}
    {answer : Option (Outcome (List V))} (h : j.submit index r = .ok (j', answer)) :
    j.Onward j' ∧ j'.IsResolved index := by
  have hres := j.isResolved_resolved index r
  have hfin := (j.resolved index r).onward_finish
  unfold submit at h
  split at h
  · cases h
  next slot hslot =>
    split at h
    next hr =>
      have hon := onward_resolved hslot hr r
      dsimp only at h
      split at h
      · obtain ⟨rfl, -⟩ := Prod.mk.inj (Except.ok.inj h)
        exact ⟨hon.trans hfin, hres.onward hfin⟩
      · obtain ⟨rfl, -⟩ := Prod.mk.inj (Except.ok.inj h)
        exact ⟨hon, hres⟩
    next => cases h

/-- A submission is refused only if its index is resolved, or is none. -/
theorem isResolved_of_refused {index : Nat} {r : Outcome V} {cause : Refusal}
    (h : j.submit index r = .error cause) : j.IsResolved index := by
  intro slot hslot
  unfold submit at h
  rw [hslot] at h
  dsimp only at h
  cases hr : slot.isUnresolved with
  | false => rfl
  | true =>
    rw [hr, if_pos rfl] at h
    split at h <;> cases h

/-- A result has come for an index, and the job has gone on since: the index is resolved, and it is
    with this result that it was, unless there had been one before. -/
structure Takes (j : Job V) (index : Nat) (r : Outcome V) (j' : Job V) : Prop where
  onward : j.Onward j'
  resolved : j'.IsResolved index
  result : ¬ j.IsResolved index →
    ∃ job answer, j.submit index r = .ok (job, answer) ∧ job.Onward j'

theorem takes_of_ok {j' : Job V} {index : Nat} {r : Outcome V}
    {answer : Option (Outcome (List V))} (h : j.submit index r = .ok (j', answer)) :
    j.Takes index r j' where
  onward := (submit_ok h).1
  resolved := (submit_ok h).2
  result := fun _ => ⟨j', answer, h, .refl j'⟩

theorem takes_of_refused {index : Nat} {r : Outcome V} {cause : Refusal}
    (h : j.submit index r = .error cause) : j.Takes index r j where
  onward := .refl j
  resolved := isResolved_of_refused h
  result := fun hno => absurd (isResolved_of_refused h) hno

theorem Takes.trans {j' j'' : Job V} {index : Nat} {r : Outcome V} (h : j.Takes index r j')
    (hon : j'.Onward j'') : j.Takes index r j'' where
  onward := h.onward.trans hon
  resolved := h.resolved.onward hon
  result := by
    intro hno
    obtain ⟨job, answer, hsubmit, hsince⟩ := h.result hno
    exact ⟨job, answer, hsubmit, hsince.trans hon⟩

/-- Makes calls in turn, and those of the callback where they fall. Answers what was called and
    what was replied. -/
def serve (callback : Outcome (List V) → List (Call V)) (j : Job V) :
    List (Call V) → Job V × Log (Call V) (Reply V)
  | [] => (j, [])
  | c :: rest =>
      let served := serve callback (j.call c).1 ((j.call c).2.echoes callback ++ rest)
      (served.1, (c, (j.call c).2) :: served.2)
termination_by calls => (if j.remaining = 0 then 0 else 1, calls.length)
decreasing_by
  -- A callback runs once, so either nothing is left to resolve now or there is a call less.
  have hle := j.call_remaining_le c
  rcases hreply : (j.call c).2 with ⟨_ | answer⟩ | cause | index
  case accepted.some =>
    obtain ⟨h1, h0⟩ := call_fired hreply
    exact Prod.Lex.left _ _ (by simp [h0, h1])
  all_goals
    by_cases h0 : (j.call c).1.remaining = 0 <;> by_cases h1 : j.remaining = 0
    · exact Prod.lex_def.mpr (Or.inr ⟨by simp [h0, h1], by simp [Reply.echoes]⟩)
    · exact Prod.lex_def.mpr (Or.inl (by simp [h0, h1]))
    · omega
    · exact Prod.lex_def.mpr (Or.inr ⟨by simp [h0, h1], by simp [Reply.echoes]⟩)

/-! ## What a log says -/

/-- The submissions that were taken, in the order of time. -/
def accepted (log : Log (Call V) (Reply V)) : List (Nat × Outcome V) :=
  log.filterMap fun
    | (.submit index r, .accepted _) => some (index, r)
    | _ => none

/-- The answers that were given, in the order of time. The callback runs once for each. -/
def answers (log : Log (Call V) (Reply V)) : List (Outcome (List V)) :=
  log.filterMap fun
    | (_, .accepted answer) => answer
    | _ => none

/-- What the claims were answered, in the order of time. -/
def claims (log : Log (Call V) (Reply V)) : List (Option Nat) :=
  log.filterMap fun
    | (_, .claimed index) => some index
    | _ => none

/-- A job, the answers it gave and all the calls that were made on it. -/
structure Session (V : Type) where
  job : Job V
  answers : List (Outcome (List V))
  log : Log (Call V) (Reply V)

/-- Creates a job over so many indices and makes calls on it. -/
def session (length : Nat) (callback : Outcome (List V) → List (Call V)) (calls : List (Call V)) :
    Session V :=
  let started : Job V × Option (Outcome (List V)) := start length
  let served := started.1.serve callback ((started.2.map callback).getD [] ++ calls)
  ⟨served.1, started.2.toList ++ answers served.2, served.2⟩

end Job
end CoopSched
