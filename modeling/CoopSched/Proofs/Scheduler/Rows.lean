import CoopSched.Scheduler.Completion
import Mathlib.Data.Finset.Card

/-!
# Rows — what a change of the scheduler leaves of its tables

Every function of the scheduler changes a few rows of a few tables and leaves the rest. The lemmas
here read a row after one of the small changes out of which all functions are made.
-/

namespace CoopSched

@[simp] theorem StrandId.number_inj {i k : StrandId} : i.number = k.number ↔ i = k := by
  cases i
  cases k
  simp

@[simp] theorem BridgeId.number_inj {a b : BridgeId} : a.number = b.number ↔ a = b := by
  cases a
  cases b
  simp

@[simp] theorem JobId.number_inj {a b : JobId} : a.number = b.number ↔ a = b := by
  cases a
  cases b
  simp

namespace Table

variable {α : Type}

/-- Only numbers that were handed out have a row. -/
theorem lt_next_of_get? {t : Table α} {n : Nat} {a : α} (h : t.get? n = some a) : n < t.next := by
  cases n with
  | zero => simp [get?] at h
  | succ n =>
    have hsome : ∃ r, t.rows[n]? = some r := by
      cases hr : t.rows[n]? with
      | none => simp [get?, hr] at h
      | some r => exact ⟨r, rfl⟩
    obtain ⟨r, hr⟩ := hsome
    obtain ⟨hlt, -⟩ := Array.getElem?_eq_some_iff.mp hr
    simpa [next] using hlt

theorem get?_next (t : Table α) : t.get? t.next = none := by
  cases h : t.get? t.next with
  | none => rfl
  | some a => exact absurd (lt_next_of_get? h) (Nat.lt_irrefl _)

/-- Only what a change does to the row that is there counts. -/
theorem update_congr {t : Table α} {n : Nat} {f g : α → α}
    (h : ∀ a, t.get? n = some a → f a = g a) : t.update n f = t.update n g := by
  cases n with
  | zero => rfl
  | succ n =>
    show Table.mk _ = Table.mk _
    congr 1
    refine Array.ext_getElem? fun i => ?_
    rw [Array.getElem?_modify, Array.getElem?_modify]
    split
    next heq =>
      subst heq
      cases hr : t.rows[n]? with
      | none => rfl
      | some row =>
        cases row with
        | none => rfl
        | some a =>
          have hget : t.get? (n + 1) = some a := by simp [get?, hr]
          simp [h a hget]
    next => rfl

theorem update_eq_self {t : Table α} {n : Nat} {f : α → α}
    (h : ∀ a, t.get? n = some a → f a = a) : t.update n f = t := by
  rw [update_congr (g := id) h]
  cases n with
  | zero => rfl
  | succ n =>
    show Table.mk (t.rows.modify n (Option.map id)) = t
    rw [Option.map_id]
    refine congrArg Table.mk (Array.ext (by simp) ?_)
    intro i h1 h2
    rw [Array.getElem_modify]
    split <;> rfl

theorem update_update (t : Table α) (n : Nat) (f g : α → α) :
    (t.update n f).update n g = t.update n (g ∘ f) := by
  cases n with
  | zero => rfl
  | succ n =>
    show Table.mk ((t.rows.modify n (Option.map f)).modify n (Option.map g)) =
      Table.mk (t.rows.modify n (Option.map (g ∘ f)))
    refine congrArg Table.mk (Array.ext (by simp) ?_)
    intro i h1 h2
    simp only [Array.getElem_modify]
    split <;> simp

end Table

namespace Scheduler

variable {V B : Type} {s : Scheduler V B}

/-! ## Strands -/

theorem strand?_updateStrand (s : Scheduler V B) (i k : StrandId) (f : Strand V B → Strand V B) :
    (s.updateStrand i f).strand? k = if i = k then (s.strand? k).map f else s.strand? k := by
  simp only [strand?, updateStrand, Table.get?_update, StrandId.number_inj]

@[simp] theorem strand?_updateStrand_self (s : Scheduler V B) (i : StrandId)
    (f : Strand V B → Strand V B) : (s.updateStrand i f).strand? i = (s.strand? i).map f := by
  rw [strand?_updateStrand, if_pos rfl]

@[simp] theorem strand?_setBridge (s : Scheduler V B) (b : BridgeId) (x : Bridge V)
    (id : StrandId) : (s.setBridge b x).strand? id = s.strand? id := rfl

@[simp] theorem strand?_emit (s : Scheduler V B) (i : StrandId) (h : Happening) (k : StrandId) :
    (s.emit i h).strand? k = s.strand? k := rfl

@[simp] theorem strand?_count (s : Scheduler V B) (c : Counter) (id : StrandId) :
    (s.count c).strand? id = s.strand? id := rfl

theorem strand?_of_update {s' : Scheduler V B} {id : StrandId} {f : Strand V B → Strand V B}
    (h : s'.strands = s.strands.update id.number f) (k : StrandId) :
    s'.strand? k = if id = k then (s.strand? k).map f else s.strand? k := by
  rw [← strand?_updateStrand]
  simp only [strand?, updateStrand, h]

theorem strand?_of_update_some {s' : Scheduler V B} {id : StrandId} {st : Strand V B}
    {f : Strand V B → Strand V B} (h : s'.strands = s.strands.update id.number f)
    (hst : s.strand? id = some st) (k : StrandId) :
    s'.strand? k = if id = k then some (f st) else s.strand? k := by
  rw [strand?_of_update h]
  split
  next hk => rw [← hk, hst, Option.map_some]
  next => rfl

theorem strand?_next (s : Scheduler V B) : s.strand? ⟨s.strands.next⟩ = none :=
  s.strands.get?_next

/-! ## Bridges -/

theorem bridge?_setBridge (s : Scheduler V B) (a b : BridgeId) (x : Bridge V) :
    (s.setBridge a x).bridge? b =
      if a = b then (s.bridge? b).map (fun _ => x) else s.bridge? b := by
  simp only [bridge?, setBridge, Table.get?_update, BridgeId.number_inj]

theorem bridge?_setBridge_self {b : BridgeId} {old : Bridge V} (h : s.bridge? b = some old)
    (x : Bridge V) : (s.setBridge b x).bridge? b = some x := by
  rw [bridge?_setBridge, if_pos rfl, h]
  rfl

theorem bridge?_of_update {s' : Scheduler V B} {b : BridgeId} {f : Bridge V → Bridge V}
    (h : s'.bridges = s.bridges.update b.number f) (a : BridgeId) :
    s'.bridge? a = if b = a then (s.bridge? a).map f else s.bridge? a := by
  simp only [bridge?, h, Table.get?_update, BridgeId.number_inj]

/-- Bridges of other strands do not see the change of a bridge. -/
theorem bridge?_of_update_iff {s' : Scheduler V B} {b : BridgeId} {x : Bridge V}
    {f : Bridge V → Bridge V} (h : s'.bridges = s.bridges.update b.number f)
    (hb : s.bridge? b = some x) (hf : (f x).strand = x.strand) {k : StrandId}
    (hk : x.strand ≠ k) (a : BridgeId) (stage : Bridge.Stage V) :
    s'.bridge? a = some ⟨k, stage⟩ ↔ s.bridge? a = some ⟨k, stage⟩ := by
  rw [bridge?_of_update h]
  split
  next heq =>
    subst heq
    rw [hb, Option.map_some, Option.some.injEq, Option.some.injEq]
    constructor
    · intro hx
      exact absurd (hf.symm.trans (congrArg Bridge.strand hx)) hk
    · intro hx
      exact absurd (congrArg Bridge.strand hx) hk
  next => exact Iff.rfl

@[simp] theorem bridge?_updateStrand (s : Scheduler V B) (i : StrandId)
    (f : Strand V B → Strand V B) (b : BridgeId) : (s.updateStrand i f).bridge? b = s.bridge? b :=
  rfl

@[simp] theorem bridge?_emit (s : Scheduler V B) (i : StrandId) (h : Happening) (b : BridgeId) :
    (s.emit i h).bridge? b = s.bridge? b := rfl

@[simp] theorem bridge?_count (s : Scheduler V B) (c : Counter) (b : BridgeId) :
    (s.count c).bridge? b = s.bridge? b := rfl

/-! ## Jobs -/

theorem job?_updateJob (s : Scheduler V B) (i k : JobId) (f : JobEntry V B → JobEntry V B) :
    (s.updateJob i f).job? k = if i = k then (s.job? k).map f else s.job? k := by
  simp only [job?, updateJob, Table.get?_update, JobId.number_inj]

end Scheduler
end CoopSched
