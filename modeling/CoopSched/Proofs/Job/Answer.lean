import CoopSched.Proofs.Job.Session
import Mathlib.Data.List.Perm.Subperm

/-!
# What a job answers, and when

A job keeps five figures: the slots, the number of them that are unresolved, the failure recorded
first, the index to be claimed next, and whether the answer is still to come. `Stands` says what
each of them is, given nothing but the submissions accepted so far and the number of claims. One
call carries `Stands` from one list of accepted submissions to the next (`Stands.call`), and a
session is calls (`Stands.serve`).

The answer is the one place where the figures have to agree with each other: it reads the values
out of the slots because no failure was recorded, and it finds a value in each of them because
nothing is left to resolve (`Filled.answers`). So the failure that speaks of an unresolved slot is
not one that a job makes up.
-/

namespace CoopSched
namespace Job

variable {V : Type} {length k : Nat} {acc : List (Nat × Outcome V)} {j : Job V}

/-- The first failure among accepted submissions, with its index. -/
def firstFailing (acc : List (Nat × Outcome V)) : Option (Nat × Failure) :=
  acc.findSome? fun p => p.2.failure?.map (p.1, ·)

/-- The answer that belongs to accepted submissions: all values in index order, or the failure
    that was accepted first. -/
def Answers (length : Nat) (acc : List (Nat × Outcome V)) : Outcome (List V) → Prop
  | .ok vs =>
      vs.length = length ∧ (∀ p ∈ acc, p.2.isOk = true) ∧
        ∀ (i : Nat) (v : V), vs[i]? = some v ↔ (i, .ok v) ∈ acc
  | .err e =>
      ∃ before i after, acc = before ++ (i, .err e) :: after ∧ ∀ p ∈ before, p.2.isOk = true

/-- The figures of a job, when just these submissions were accepted and so many claims made. -/
structure Stands (length : Nat) (acc : List (Nat × Outcome V)) (k : Nat) (j : Job V) : Prop where
  slots_length : j.slots.length = length
  index_lt : ∀ p ∈ acc, p.1 < length
  index_nodup : (acc.map Prod.fst).Nodup
  unresolved_iff : ∀ i slot, j.slots[i]? = some slot →
    (slot.isUnresolved = true ↔ i ∉ acc.map Prod.fst)
  holds : acc.length < length → ∀ p ∈ acc, j.slots[p.1]? = some (.ofOutcome p.2)
  remaining_add : j.remaining + acc.length = length
  first : j.firstFailure = firstFailing acc
  cursor : j.cursor = k
  complete_iff : j.isComplete = true ↔ acc.length = length

/-- The slots and the figures say that just these submissions were accepted. Whether the answer
    is still to come is another question. -/
structure Filled (length : Nat) (acc : List (Nat × Outcome V)) (j : Job V) : Prop where
  slots_length : j.slots.length = length
  index_lt : ∀ p ∈ acc, p.1 < length
  index_nodup : (acc.map Prod.fst).Nodup
  holds : ∀ p ∈ acc, j.slots[p.1]? = some (.ofOutcome p.2)
  remaining_add : j.remaining + acc.length = length
  first : j.firstFailure = firstFailing acc

/-! ## Lists of accepted submissions -/

theorem firstFailing_append (acc : List (Nat × Outcome V)) (i : Nat) (r : Outcome V) :
    firstFailing (acc ++ [(i, r)]) = (firstFailing acc <|> r.failure?.map (i, ·)) := by
  unfold firstFailing
  rw [List.findSome?_append]
  cases List.findSome? (fun p => p.2.failure?.map (p.1, ·)) acc <;>
    cases h : r.failure? <;> simp [h]

theorem firstFailing_eq_none_iff : firstFailing acc = none ↔ ∀ p ∈ acc, p.2.isOk = true := by
  simp [firstFailing, List.findSome?_eq_none_iff, Outcome.failure?_eq_none_iff]

theorem firstFailing_eq_some {i : Nat} {e : Failure} (h : firstFailing acc = some (i, e)) :
    ∃ before after, acc = before ++ (i, .err e) :: after ∧ ∀ p ∈ before, p.2.isOk = true := by
  induction acc with
  | nil => simp [firstFailing] at h
  | cons p rest ih =>
    obtain ⟨n, r⟩ := p
    cases r with
    | err e' =>
      have heq : (n, e') = (i, e) := by simpa [firstFailing, Outcome.failure?] using h
      obtain ⟨rfl, rfl⟩ := Prod.mk.inj heq
      exact ⟨[], rest, rfl, by simp⟩
    | ok v =>
      have hrest : firstFailing rest = some (i, e) := by
        simpa [firstFailing, Outcome.failure?] using h
      obtain ⟨before, after, rfl, hok⟩ := ih hrest
      refine ⟨(n, .ok v) :: before, after, rfl, ?_⟩
      intro p hp
      rcases List.mem_cons.mp hp with rfl | hp
      · rfl
      · exact hok p hp

theorem subperm_range (hlt : ∀ p ∈ acc, p.1 < length) (hnd : (acc.map Prod.fst).Nodup) :
    List.Subperm (acc.map Prod.fst) (List.range length) := by
  apply hnd.subperm
  intro n hn
  obtain ⟨p, hp, rfl⟩ := List.mem_map.mp hn
  exact List.mem_range.mpr (hlt p hp)

/-- When as many different indices as there are have been accepted, each of them has. -/
theorem mem_of_full (hlt : ∀ p ∈ acc, p.1 < length) (hnd : (acc.map Prod.fst).Nodup)
    (hfull : acc.length = length) {i : Nat} (hi : i < length) : i ∈ acc.map Prod.fst := by
  have hperm : List.Perm (acc.map Prod.fst) (List.range length) :=
    (subperm_range hlt hnd).perm_of_length_le (by simp [hfull])
  exact hperm.mem_iff.mpr (List.mem_range.mpr hi)

theorem mapM_value? {slots : List (Slot V)} (h : ∀ slot ∈ slots, ∃ v, slot = .value v) :
    ∃ vs, slots.mapM Slot.value? = some vs ∧ slots = vs.map .value := by
  induction slots with
  | nil => exact ⟨[], rfl, rfl⟩
  | cons slot rest ih =>
    obtain ⟨v, rfl⟩ := h slot List.mem_cons_self
    obtain ⟨vs, hvs, hrest⟩ := ih fun s hs => h s (List.mem_cons_of_mem _ hs)
    exact ⟨v :: vs, by simp [List.mapM_cons, Slot.value?, hvs], by rw [hrest]; rfl⟩

/-! ## The submission that resolves a slot -/

theorem Stands.remaining_eq_one_iff (h : Stands length acc k j) :
    j.remaining = 1 ↔ acc.length + 1 = length := by
  have := h.remaining_add
  omega

/-- Resolving an index that was not accepted yet adds it to the accepted ones. -/
theorem Stands.resolved (h : Stands length acc k j) {i : Nat} {slot : Slot V} {r : Outcome V}
    (hs : j.slots[i]? = some slot) (hr : slot.isUnresolved = true) :
    Filled length (acc ++ [(i, r)]) (j.resolved i r) := by
  obtain ⟨hi, -⟩ := List.getElem?_eq_some_iff.mp hs
  have hnew : i ∉ acc.map Prod.fst := (h.unresolved_iff i slot hs).mp hr
  have hlen := h.slots_length
  -- The indices accepted so far leave out `i`, so they are fewer than all of them.
  have hless : acc.length < length := by
    rcases Nat.lt_or_ge acc.length length with hlt | hge
    · exact hlt
    · have hadd := h.remaining_add
      exact absurd (mem_of_full h.index_lt h.index_nodup (by omega) (hlen ▸ hi)) hnew
  refine ⟨?_, ?_, ?_, ?_, ?_, ?_⟩
  · simpa [Job.resolved] using hlen
  · intro p hp
    rcases List.mem_append.mp hp with hp | hp
    · exact h.index_lt p hp
    · rw [List.mem_singleton.mp hp]
      exact hlen ▸ hi
  · rw [List.map_append, List.nodup_append]
    refine ⟨h.index_nodup, by simp, ?_⟩
    intro a ha b hb
    rw [List.map_singleton, List.mem_singleton] at hb
    subst hb
    exact fun heq => hnew (heq ▸ ha)
  · intro p hp
    rcases List.mem_append.mp hp with hp | hp
    · have hne : i ≠ p.1 := fun heq => hnew (heq ▸ List.mem_map_of_mem hp)
      simpa [Job.resolved, List.getElem?_set_ne hne] using h.holds hless p hp
    · rw [List.mem_singleton.mp hp]
      simp [Job.resolved, hi]
  · have hadd := h.remaining_add
    simp only [Job.resolved, List.length_append, List.length_singleton]
    omega
  · rw [firstFailing_append, ← h.first]
    rfl

/-- The answer of a job is the one that belongs to what was accepted, for every index. -/
theorem Filled.answers (h : Filled length acc j) (hfull : acc.length = length) :
    Answers length acc j.finish.2 := by
  have hlen := h.slots_length
  have hall : ∀ {i}, i < length → i ∈ acc.map Prod.fst :=
    mem_of_full h.index_lt h.index_nodup hfull
  cases hf : firstFailing acc with
  | some p =>
    obtain ⟨i, e⟩ := p
    have hfin : j.finish.2 = .err e := by simp [finish, h.first, hf]
    rw [hfin]
    obtain ⟨before, after, hacc, hok⟩ := firstFailing_eq_some hf
    exact ⟨before, i, after, hacc, hok⟩
  | none =>
    have hok := firstFailing_eq_none_iff.mp hf
    have hvalue : ∀ i r, (i, r) ∈ acc → ∃ v, r = .ok v := by
      intro i r hp
      have := hok _ hp
      cases r with
      | ok v => exact ⟨v, rfl⟩
      | err e => simp [Outcome.isOk] at this
    have hslots : ∀ slot ∈ j.slots, ∃ v, slot = .value v := by
      intro slot hs
      obtain ⟨i, hi, rfl⟩ := List.mem_iff_getElem.mp hs
      obtain ⟨p, hp, hpi⟩ := List.mem_map.mp (hall (hlen ▸ hi))
      obtain ⟨v, hv⟩ := hvalue p.1 p.2 hp
      refine ⟨v, ?_⟩
      have := h.holds p hp
      rw [hpi, List.getElem?_eq_getElem hi, hv] at this
      exact Option.some.inj this
    obtain ⟨vs, hvs, hmap⟩ := mapM_value? hslots
    have hfin : j.finish.2 = .ok vs := by simp [finish, h.first, hf, takeValues, hvs]
    rw [hfin]
    refine ⟨by rw [← hlen, hmap, List.length_map], hok, ?_⟩
    intro i v
    have hread : ∀ w, j.slots[i]? = some (.value w) ↔ vs[i]? = some w := by
      intro w
      rw [hmap, List.getElem?_map]
      cases vs[i]? <;> simp
    constructor
    · intro hi
      obtain ⟨hlt', -⟩ := List.getElem?_eq_some_iff.mp hi
      have hi' : i < length := by rw [← hlen, hmap, List.length_map]; exact hlt'
      obtain ⟨p, hp, hpi⟩ := List.mem_map.mp (hall hi')
      obtain ⟨w, hw⟩ := hvalue p.1 p.2 hp
      have hslot := h.holds p hp
      rw [hpi, hw] at hslot
      have hw' : vs[i]? = some w := (hread w).mp hslot
      rw [hi, Option.some.injEq] at hw'
      have hpe : p = (i, .ok v) := Prod.ext hpi (by rw [hw, hw'])
      exact hpe ▸ hp
    · intro hp
      exact (hread v).mp (h.holds _ hp)

/-- When every index was accepted no slot is unresolved, and giving the answer makes none so. -/
theorem Filled.finish_resolved (h : Filled length acc j) (hfull : acc.length = length) {n : Nat}
    {slot : Slot V} (hn : j.finish.1.slots[n]? = some slot) :
    slot.isUnresolved = false ∧ n < length := by
  have hlen := h.slots_length
  unfold finish takeValues at hn
  split at hn
  · -- A failure is the answer, and the slots stay as they are.
    obtain ⟨hn', rfl⟩ := List.getElem?_eq_some_iff.mp hn
    have hlt : n < length := hlen ▸ hn'
    obtain ⟨p, hp, rfl⟩ := List.mem_map.mp (mem_of_full h.index_lt h.index_nodup hfull hlt)
    have hslot := h.holds p hp
    rw [List.getElem?_eq_getElem hn', Option.some.injEq] at hslot
    refine ⟨?_, hlt⟩
    simp only [hslot]
    cases p.2 <;> rfl
  · simp only [List.getElem?_map, Option.map_eq_some_iff] at hn
    obtain ⟨old, hold, rfl⟩ := hn
    obtain ⟨hn', -⟩ := List.getElem?_eq_some_iff.mp hold
    exact ⟨rfl, hlen ▸ hn'⟩

/-- The figures of a job that has given its answer. -/
theorem Filled.finish (h : Filled length acc j) (hfull : acc.length = length)
    (hcursor : j.cursor = k) : Stands length acc k j.finish.1 where
  slots_length := by
    unfold Job.finish takeValues
    split <;> simpa using h.slots_length
  index_lt := h.index_lt
  index_nodup := h.index_nodup
  unresolved_iff := by
    intro n slot hn
    obtain ⟨hres, hlt⟩ := h.finish_resolved hfull hn
    simp only [hres, Bool.false_eq_true, false_iff, not_not]
    exact mem_of_full h.index_lt h.index_nodup hfull hlt
  holds := fun hless => absurd hfull (Nat.ne_of_lt hless)
  remaining_add := by simpa using h.remaining_add
  first := by
    rw [← h.first]
    unfold Job.finish takeValues
    split <;> rfl
  cursor := by
    unfold Job.finish takeValues
    split <;> exact hcursor
  complete_iff := by
    have hcomplete : j.finish.1.isComplete = true := by
      unfold Job.finish isComplete
      split <;> rfl
    simp only [hcomplete, true_iff]
    exact hfull

/-- The figures of a job that has resolved an index and still waits for others. -/
theorem Stands.more (h : Stands length acc k j) {i : Nat} {slot : Slot V} {r : Outcome V}
    (hs : j.slots[i]? = some slot) (hr : slot.isUnresolved = true)
    (hmore : acc.length + 1 ≠ length) : Stands length (acc ++ [(i, r)]) k (j.resolved i r) := by
  have hfilled := h.resolved (r := r) hs hr
  obtain ⟨hi, -⟩ := List.getElem?_eq_some_iff.mp hs
  refine
    { slots_length := hfilled.slots_length, index_lt := hfilled.index_lt,
      index_nodup := hfilled.index_nodup, unresolved_iff := ?_, holds := fun _ => hfilled.holds,
      remaining_add := hfilled.remaining_add, first := hfilled.first, cursor := h.cursor,
      complete_iff := ?_ }
  · intro n slot' hn
    rw [List.map_append, List.mem_append, not_or]
    by_cases hni : i = n
    · subst hni
      have hslot : slot' = .ofOutcome r := by simpa [Job.resolved, hi, eq_comm] using hn
      rw [hslot]
      cases r <;> simp [Slot.ofOutcome, Slot.isUnresolved]
    · have hn' : j.slots[n]? = some slot' := by
        simpa [Job.resolved, List.getElem?_set_ne hni] using hn
      rw [h.unresolved_iff n slot' hn']
      simp [eq_comm, hni]
  · have hadd := hfilled.remaining_add
    simp only [List.length_append, List.length_singleton] at hadd
    have hopen : ¬ j.isComplete = true := by
      intro hc
      have := h.complete_iff.mp hc
      omega
    have hnot : ¬ (acc ++ [(i, r)]).length = length := by simpa using hmore
    exact ⟨fun hc => absurd hc hopen, fun hc => absurd hc hnot⟩

/-! ## One call -/

/-- What a call is to be answered when just these submissions were accepted and so many claims
    made: a submission is accepted if its index is one of the job and was not accepted before, and
    it brings the answer if it is the last. -/
def Replies (length : Nat) (acc : List (Nat × Outcome V)) (k : Nat) :
    Call V → Reply V → Prop
  | .submit i r, reply =>
      if length ≤ i then reply = .refused (.indexOutOfRange i length)
      else if i ∈ acc.map Prod.fst then reply = .refused (.slotResolved i)
      else if acc.length + 1 = length then
        ∃ answer, reply = .accepted (some answer) ∧ Answers length (acc ++ [(i, r)]) answer
      else reply = .accepted none
  | .claim, reply => reply = .claimed (if k < length then some k else none)

/-- **One call answers what it must, and the figures stand again.** -/
theorem Stands.call (h : Stands length acc k j) (c : Call V) :
    Replies length acc k c (j.call c).2 ∧
      Stands length (acc ++ accepted [(c, (j.call c).2)])
        (k + (claims [(c, (j.call c).2)]).length) (j.call c).1 := by
  cases c with
  | claim =>
    refine ⟨by simp [Replies, Job.call, claim, Job.length, h.slots_length, h.cursor], ?_⟩
    simpa [Job.call, claim, accepted, claims] using
      { h with cursor := by simp [h.cursor] }
  | submit i r =>
    cases hs : j.slots[i]? with
    | none =>
      have hge : length ≤ i := h.slots_length ▸ List.getElem?_eq_none_iff.mp hs
      rw [call_submit_none hs]
      refine ⟨?_, by simpa [accepted, claims] using h⟩
      simp [Replies, hge, Job.length, h.slots_length]
    | some slot =>
      obtain ⟨hi, -⟩ := List.getElem?_eq_some_iff.mp hs
      have hi' : ¬ length ≤ i := by have := h.slots_length; omega
      cases hr : slot.isUnresolved with
      | false =>
        have hmem : i ∈ acc.map Prod.fst := by
          by_contra hnot
          rw [(h.unresolved_iff i slot hs).mpr hnot] at hr
          simp at hr
        rw [call_submit_resolved hs hr]
        exact ⟨by simp [Replies, hi', if_pos hmem], by simpa [accepted, claims] using h⟩
      | true =>
        have hnew : i ∉ acc.map Prod.fst := (h.unresolved_iff i slot hs).mp hr
        rw [call_submit_unresolved hs hr]
        by_cases h1 : j.remaining = 1
        · have hlast : acc.length + 1 = length := h.remaining_eq_one_iff.mp h1
          have hfull : (acc ++ [(i, r)]).length = length := by simpa using hlast
          have hfilled := h.resolved (r := r) hs hr
          rw [if_pos h1]
          refine ⟨?_, hfilled.finish hfull h.cursor⟩
          simp only [Replies, if_neg hi', if_neg hnew, if_pos hlast]
          exact ⟨_, rfl, hfilled.answers hfull⟩
        · have hmore : acc.length + 1 ≠ length := fun heq => h1 (h.remaining_eq_one_iff.mpr heq)
          rw [if_neg h1]
          refine ⟨?_, h.more hs hr hmore⟩
          simp only [Replies, if_neg hi', if_neg hnew, if_neg hmore]

end Job
end CoopSched
