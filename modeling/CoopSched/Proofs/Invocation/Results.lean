import CoopSched.Proofs.Invocation.Start
import Mathlib.Data.Set.List

/-!
# Results — what the callback of an invocation is told

The callable of an invocation is called on the indices in turn, each with its own input, and each
body becomes the strand for its index. The strand ends by itself, whatever became of the others, or
a shutdown cuts it off, or it was refused in the first place. When the last one has its exit the
callback runs: on the values in index order, or on the failure that came first in time
(`results_follow`).
-/

namespace CoopSched
namespace Scheduler

variable {V B : Type} {inv : Invocation V B} {Ended : StrandId → Outcome V → Prop}
  {calls : List (Option StrandId)} {launched : List StrandId} {exits : List (Exit V)}
  {due : Option (Exit V)} {s : Scheduler V B} {m : Move V B} {before rest : List (Move V B)}

/-- How far an invocation has come whose callable returns a body for each input: the strands by
    index, and their exits in the order of time. -/
structure Results (inv : Invocation V B) (Ended : StrandId → Outcome V → Prop)
    (launched : List StrandId) (exits : List (Exit V)) (s : Scheduler V B) : Prop where
  /-- The inputs of the indices so far have gone into the callable, and those of the others are
      still there. -/
  taken : ∃ entry, s.job? inv.job = some entry ∧
    entry.drive = some (inv.driveAfter launched.length)
  /-- The callable was called on the index and its own input, and its body became the strand. -/
  made : ∀ i k, launched[i]? = some k →
    ∃ v body, inv.inputs[i]? = some v ∧ inv.callable i v = .ok body ∧
      ∀ st, s.strand? k = some st → st.hook = some ⟨inv.job, i⟩ ∧ st.StartsWith body
  hooked : ∀ k st i, s.strand? k = some st → st.hook = some ⟨inv.job, i⟩ → launched[i]? = some k
  /-- Each strand was created once, in the order of the indices. -/
  births : noted Happening.isBirth launched s.journal.toList = launched.map (⟨·, .created⟩)
  ascending : launched.Pairwise fun k k' => k.number < k'.number
  /-- The exits stand in the order of time, and no index has two. -/
  ends : noted Happening.isEnd launched s.journal.toList = exits.map Exit.event
  once : (exits.map Exit.index).Nodup
  /-- A strand is finished with an outcome of its own, or a shutdown cancelled it, or it was refused
      and is not there. -/
  exit : ∀ x ∈ exits, launched[x.index]? = some x.strand ∧ x.ending.Holds Ended s x.strand
  /-- A strand without an exit has not ended, whatever became of the others. -/
  going : ∀ i k, launched[i]? = some k → (i ∉ exits.map Exit.index ↔
    ∃ st, s.strand? k = some st ∧ st.status.isTerminal = false)
  /-- The callback runs once, when every index has its exit. -/
  answered : (answersOf inv.job s.journal.toList).length =
    if exits.length = inv.inputs.length then 1 else 0
  /-- A buffer has the value of each strand at its index. -/
  values : ∀ vs, .ok vs ∈ answersOf inv.job s.journal.toList →
    vs.length = inv.inputs.length ∧ ∀ i, i < inv.inputs.length → ∃ k v,
      launched[i]? = some k ∧ vs[i]? = some v ∧ Ended k (.ok v) ∧ ∀ r, Ended k r → r = .ok v
  /-- If a strand has failed, the callback is told the first failure in time. -/
  failure : ∀ answer ∈ answersOf inv.job s.journal.toList,
    (∃ x ∈ exits, x.ending.outcome.isOk = false) →
    ∃ earlier x later e, exits = earlier ++ x :: later ∧
      (∀ y ∈ earlier, y.ending.outcome.isOk = true) ∧ x.ending.outcome = .err e ∧ answer = .err e

/-! ## A body for each input -/

/-- If the callable returns a body for each input, each call so far has made a strand. -/
theorem Crew.exists_launched (h : Crew inv Ended calls exits due s) (ht : inv.IsTotal) :
    ∃ launched : List StrandId, launched.map some = calls := by
  have hrange : calls ∈ Set.range (List.map some) := by
    rw [Set.range_list_map]
    intro c hc
    cases c with
    | some k => exact ⟨k, rfl⟩
    | none =>
      obtain ⟨i, hi⟩ := List.getElem?_of_mem hc
      obtain ⟨v, p, hv, hp⟩ := h.lost i hi
      obtain ⟨body, hbody⟩ := ht i v hv
      rw [hp] at hbody
      cases hbody
  exact hrange

theorem getElem?_map_some {i : Nat} {k : StrandId} :
    (launched.map some)[i]? = some (some k) ↔ launched[i]? = some k := by
  simp

/-- Only a strand that finished with a value has one. -/
theorem value_of_holds {e : Ending V} {k : StrandId} {v : V} (h : e.Holds Ended s k)
    (hv : e.outcome = .ok v) : Ended k (.ok v) := by
  cases e with
  | finished r =>
    obtain rfl : r = .ok v := hv
    exact h.1
  | _ => cases hv

/-! ## Answers -/

/-- Behind each value that was submitted there is a strand that finished with it. -/
theorem Crew.values (h : Crew inv Ended (launched.map some) exits none s)
    (hunique : ∀ k r r', Ended k r → Ended k r' → r = r') {vs : List V}
    (ha : Job.Answers inv.inputs.length (exits.map Exit.submission) (.ok vs)) :
    vs.length = inv.inputs.length ∧ ∀ i, i < inv.inputs.length → ∃ k v,
      launched[i]? = some k ∧ vs[i]? = some v ∧ Ended k (.ok v) ∧ ∀ r, Ended k r → r = .ok v := by
  obtain ⟨hlength, -, hvalues⟩ := ha
  refine ⟨hlength, fun i hi => ?_⟩
  obtain ⟨v, hv⟩ : ∃ v, vs[i]? = some v := ⟨_, List.getElem?_eq_getElem (hlength ▸ hi)⟩
  obtain ⟨x, hx, hsubmission⟩ := List.mem_map.mp ((hvalues i v).mp hv)
  obtain ⟨rfl, hout⟩ := Prod.mk.inj hsubmission
  obtain ⟨hcall, hholds⟩ := h.exit x (List.mem_append_left _ hx)
  have hended := value_of_holds hholds hout
  exact ⟨x.strand, v, getElem?_map_some.mp hcall, hv, hended,
    fun r hr => hunique _ _ _ hr hended⟩

/-- A failure among the exits is what the job answers with, and the first one counts. -/
theorem answers_failure {answer : Outcome (List V)}
    (ha : Job.Answers inv.inputs.length (exits.map Exit.submission) answer)
    (hfail : ∃ x ∈ exits, x.ending.outcome.isOk = false) :
    ∃ earlier x later e, exits = earlier ++ x :: later ∧
      (∀ y ∈ earlier, y.ending.outcome.isOk = true) ∧ x.ending.outcome = .err e ∧
      answer = .err e := by
  cases answer with
  | ok vs =>
    obtain ⟨x, hx, hbad⟩ := hfail
    obtain ⟨-, hok, -⟩ := ha
    have hgood : x.ending.outcome.isOk = true := hok _ (List.mem_map_of_mem hx)
    rw [hbad] at hgood
    cases hgood
  | err e =>
    obtain ⟨before, i, after, hsplit, hok⟩ := ha
    obtain ⟨earlier, tail, rfl, hbefore, htail⟩ := List.map_eq_append_iff.mp hsplit
    obtain ⟨x, later, rfl, hx, -⟩ := List.map_eq_cons_iff.mp htail
    refine ⟨earlier, x, later, e, rfl, fun y hy => ?_, (Prod.mk.inj hx).2, rfl⟩
    exact hok (Exit.submission y) (hbefore ▸ List.mem_map_of_mem hy)

/-! ## The whole -/

/-- What a crew says about the results, if each of its calls made a strand. -/
theorem Crew.results (h : Crew inv Ended (launched.map some) exits none s)
    (hunique : ∀ k r r', Ended k r → Ended k r' → r = r') :
    Results inv Ended launched exits s := by
  have hids : (launched.map some).reduceOption = launched := by
    simp [List.reduceOption]
  obtain ⟨entry, n, hj, hdrive, -, -⟩ := h.entry
  have hanswer : ∀ answer ∈ answersOf inv.job s.journal.toList,
      Job.Answers inv.inputs.length (exits.map Exit.submission) answer := by
    intro answer hmem
    have hanswers := h.answers
    split at hanswers
    · obtain ⟨answer', hone, hans⟩ := hanswers
      rw [hone] at hmem
      exact List.mem_singleton.mp hmem ▸ hans
    · rw [hanswers] at hmem
      cases hmem
  refine
    { taken := ⟨entry, hj, by rw [hdrive, List.length_map]⟩
      made := fun i k hi => h.made i k (getElem?_map_some.mpr hi)
      hooked := fun k st i hst hhook => getElem?_map_some.mp (h.hooked k st i hst hhook)
      births := by rw [← hids, h.births, hids]
      ascending := ?_
      ends := by rw [← hids, h.ends, Option.toList_none, List.append_nil]
      once := by simpa using h.indices
      exit := fun x hx => ?_
      going := fun i k hi => ?_
      answered := ?_
      values := fun vs hvs => h.values hunique (hanswer _ hvs)
      failure := fun answer hmem hfail => answers_failure (hanswer answer hmem) hfail }
  · rw [List.pairwise_iff_getElem]
    intro i i' hi hi' hlt
    exact h.ascending i i' _ _ hlt (getElem?_map_some.mpr (List.getElem?_eq_getElem hi))
      (getElem?_map_some.mpr (List.getElem?_eq_getElem hi'))
  · obtain ⟨hcall, hholds⟩ := h.exit x (List.mem_append_left _ hx)
    exact ⟨getElem?_map_some.mp hcall, hholds⟩
  · have hcall := getElem?_map_some.mpr hi
    have hindex : i ∈ exits.map Exit.index ↔
        k ∈ (exits ++ (none : Option (Exit V)).toList).map Exit.strand := by
      rw [Option.toList_none, List.append_nil]
      constructor <;> intro hmem <;> obtain ⟨x, hx, rfl⟩ := List.mem_map.mp hmem
      · have heq := (h.exit x (List.mem_append_left _ hx)).1.symm.trans hcall
        exact Option.some.inj (Option.some.inj heq) ▸ List.mem_map_of_mem hx
      · have heq := h.index_unique (h.exit x (List.mem_append_left _ hx)).1 hcall
        exact heq ▸ List.mem_map_of_mem hx
    rw [hindex, h.gone k (List.mem_of_getElem? hcall)]
    push Not
    simp only [ne_eq, Bool.not_eq_true]
  · have hanswers := h.answers
    split at hanswers
    next hfull =>
      obtain ⟨answer, hone, -⟩ := hanswers
      rw [hone, if_pos hfull]
      rfl
    next hmore =>
      rw [hanswers, if_neg hmore]
      rfl

/-- **An invocation brings the results of its strands**, over every run in which nobody else uses
    the handle of its job: the callable is called on each index at most once, in order and with its
    own input; a buffer has at each index the value with which the strand for it finished; and of
    failures the first in time is told, while the other strands go on. -/
theorem results_follow (hs : Initial s) (ha : s.Admissible (before ++ m :: rest))
    (hstart : (s.run before).starts m = some inv) (ht : inv.IsTotal)
    (halone : ∀ m ∈ rest, ¬ m.Handles inv.job) :
    ∃ launched exits, Results inv (EndedIn s (before ++ m :: rest)) launched exits
      (s.run (before ++ m :: rest)) := by
  obtain ⟨calls, exits, hcrew, -⟩ := hs.staffed_run ha hstart halone
  obtain ⟨launched, rfl⟩ := hcrew.exists_launched ht
  exact ⟨launched, exits, hcrew.results fun k r r' => hs.endedIn_unique ha⟩

/-- The second strand of three finishes first and fails; the others go on to their ends, and the
    callback is told the failure. -/
theorem results_follow_second_fails :
    let inv : Invocation Nat Unit := ⟨⟨1⟩, [5, 6, 7], fun _ _ => .ok (), .unbounded⟩
    let start : Move Nat Unit := .invoke inv.inputs inv.callable inv.concurrency fun _ => []
    let rest : List (Move Nat Unit) := [.dispatch, .endSegment ⟨1⟩ () .yield, .dispatch,
      .endSegment ⟨2⟩ () (.done (.err ⟨.failed, "no"⟩)), .dispatch,
      .endSegment ⟨3⟩ () (.done (.ok 70)), .dispatch, .endSegment ⟨1⟩ () (.done (.ok 50))]
    (∃ launched exits, Results inv (EndedIn single (start :: rest)) launched exits
      (single.run (start :: rest))) ∧
      answersOf ⟨1⟩ (single.run (start :: rest)).journal.toList = [.err ⟨.failed, "no"⟩] := by
  intro inv start rest
  have ha : single.Admissible ([] ++ start :: rest) := by
    simp [start, rest, Admissible, Allows]
    decide
  have hstart : (single.run []).starts start = some inv := rfl
  have ht : inv.IsTotal := fun i v _ => ⟨(), rfl⟩
  have halone : ∀ m ∈ rest, ¬ m.Handles inv.job := by simp [rest, Move.Handles]
  have hresults := results_follow single_initial ha hstart ht halone
  rw [List.nil_append] at hresults
  refine ⟨hresults, ?_⟩
  simp only [start, rest, inv]
  rfl

end Scheduler
end CoopSched
