import CoopSched.Proofs.Invocation.Results

/-!
# Windows — how many strands of an invocation are under way

A bounded invocation keeps a window of strands: each one that ends makes room for the next, and it
is launched before anything else happens. So between two moves the window is full, unless there is
nothing left to launch; in the middle of a move it is never more than full, for the next strand is
made only when the one before has gone (`window_kept`). A shutdown does not change that: a strand
that is refused has gone at once, and its index is resolved with the refusal.
-/

namespace CoopSched

/-- How many strands are under way while so many indices are unresolved. -/
def Concurrency.window (c : Concurrency) (remaining : Nat) : Nat :=
  match c with
  | .unbounded => remaining
  | .bounded n => min (max 1 n) remaining

theorem Concurrency.initial_le_window {c : Concurrency} {n inputs : Nat} (h : c = .bounded n) :
    c.initial inputs ≤ max 1 n := by
  subst h
  simp only [Concurrency.initial]
  omega

namespace Scheduler

variable {V B : Type} {inv : Invocation V B} {Ended : StrandId → Outcome V → Prop}
  {launched : List StrandId} {exits : List (Exit V)} {k : Nat}
  {s : Scheduler V B} {m : Move V B} {before rest : List (Move V B)}

/-- The numbers of the strands of a job that have not ended. -/
def underway (s : Scheduler V B) (j : JobId) : Finset Nat :=
  s.unfinished.filter fun n => ((s.strand? ⟨n⟩).bind (·.hook)).map (·.job) = some j

/-- What an invocation keeps to, besides its results. -/
structure Window (inv : Invocation V B) (Ended : StrandId → Outcome V → Prop)
    (launched : List StrandId) (exits : List (Exit V)) (s : Scheduler V B) : Prop
    extends Results inv Ended launched exits s where
  /-- The window is full, or has all that is left. -/
  full : ∃ entry, s.job? inv.job = some entry ∧
    (s.underway inv.job).card = inv.concurrency.window entry.job.remaining
  /-- It is never more than full, at no moment in the course of a move. -/
  never : ∀ n, inv.concurrency = .bounded n → NeverMore (max 1 n) launched s.journal.toList
  /-- The job was told of the exits, each under its index, and of nothing else. -/
  told : ∃ entry claims, s.job? inv.job = some entry ∧
    Job.Stands inv.inputs.length (exits.map Exit.submission) claims entry.job
  /-- A strand that was refused resolves its index with the refusal. -/
  refused : ∀ i k, launched[i]? = some k → s.strand? k = none →
    ∃ e, (i, .err e) ∈ exits.map Exit.submission ∧ e.kind = .rejected
  /-- An index waits to be launched only while the window is full. -/
  waits : launched.length < inv.inputs.length →
    ∃ n, inv.concurrency = .bounded n ∧ (s.underway inv.job).card = max 1 n
  /-- The callback has run just when no strand is under way any more. -/
  drained : (answersOf inv.job s.journal.toList).length = if s.underway inv.job = ∅ then 1 else 0

/-! ## Counting -/

theorem mem_underway {j : JobId} {n : Nat} :
    n ∈ s.underway j ↔ ∃ st i, s.strand? ⟨n⟩ = some st ∧ st.hook = some ⟨j, i⟩ ∧
      st.status.isTerminal = false := by
  rw [underway, Finset.mem_filter, mem_unfinished]
  constructor
  · rintro ⟨⟨st, hst, hend⟩, hhook⟩
    rw [hst, Option.bind_some] at hhook
    obtain ⟨⟨j', i⟩, hlaunched, rfl⟩ := Option.map_eq_some_iff.mp hhook
    exact ⟨st, i, hst, hlaunched, hend⟩
  · rintro ⟨st, i, hst, hhook, hend⟩
    refine ⟨⟨st, hst, hend⟩, ?_⟩
    rw [hst, Option.bind_some, hhook]
    rfl

theorem Results.numbers_nodup (h : Results inv Ended launched exits s) :
    (launched.map StrandId.number).Nodup := by
  rw [List.Nodup, List.pairwise_map]
  exact h.ascending.imp Nat.ne_of_lt

theorem Results.index_unique (h : Results inv Ended launched exits s) {i i' : Nat} {k : StrandId}
    (hi : launched[i]? = some k) (hi' : launched[i']? = some k) : i = i' := by
  obtain ⟨hlt, -⟩ := List.getElem?_eq_some_iff.mp hi
  exact (List.getElem?_inj hlt (.of_map _ h.numbers_nodup)).mp (hi.trans hi'.symm)

theorem Results.exits_nodup (h : Results inv Ended launched exits s) :
    (exits.map fun x => x.strand.number).Nodup := by
  refine (List.Nodup.of_map _ h.once).map_on fun x hx y hy heq => ?_
  have hstrand : x.strand = y.strand := StrandId.number_inj.mp heq
  refine List.inj_on_of_nodup_map h.once hx hy (h.index_unique (h.exit x hx).1 ?_)
  rw [hstrand]
  exact (h.exit y hy).1

/-- Those are under way that were launched and have no exit. -/
theorem Results.underway_eq (h : Results inv Ended launched exits s) :
    s.underway inv.job = (launched.map StrandId.number).toFinset \
      (exits.map fun x => x.strand.number).toFinset := by
  ext n
  simp only [mem_underway, Finset.mem_sdiff, List.mem_toFinset, List.mem_map]
  constructor
  · rintro ⟨st, i, hst, hhook, hend⟩
    have hi := h.hooked _ st i hst hhook
    refine ⟨⟨⟨n⟩, List.mem_of_getElem? hi, rfl⟩, ?_⟩
    rintro ⟨x, hx, rfl⟩
    exact (h.going i _ hi).mpr ⟨st, hst, hend⟩
      (h.index_unique (h.exit x hx).1 hi ▸ List.mem_map_of_mem hx)
  · rintro ⟨⟨k, hk, rfl⟩, hno⟩
    obtain ⟨i, hi⟩ := List.getElem?_of_mem hk
    obtain ⟨st, hst, hend⟩ := (h.going i k hi).mp fun hmem => by
      obtain ⟨x, hx, rfl⟩ := List.mem_map.mp hmem
      have hstrand := Option.some.inj ((h.exit x hx).1.symm.trans hi)
      exact hno ⟨x, hx, congrArg StrandId.number hstrand⟩
    obtain ⟨v, body, -, -, hrow⟩ := h.made i k hi
    exact ⟨st, i, hst, (hrow st hst).1, hend⟩

theorem Results.card_underway (h : Results inv Ended launched exits s) :
    (s.underway inv.job).card + exits.length = launched.length := by
  have hsub : (exits.map fun x => x.strand.number).toFinset ⊆
      (launched.map StrandId.number).toFinset := by
    intro n hn
    obtain ⟨x, hx, rfl⟩ := List.mem_map.mp (List.mem_toFinset.mp hn)
    exact List.mem_toFinset.mpr
      (List.mem_map_of_mem (List.mem_of_getElem? (h.exit x hx).1))
  have hle := Finset.card_le_card hsub
  rw [h.underway_eq, Finset.card_sdiff_of_subset hsub]
  rw [List.toFinset_card_of_nodup h.numbers_nodup, List.toFinset_card_of_nodup h.exits_nodup,
    List.length_map, List.length_map] at *
  omega

/-! ## The width of the window -/

/-- If the calls are ahead of the exits by the width, or have come to the last index, the window is
    full or has all that is left. -/
theorem Wide.window {remaining : Nat}
    (h : Wide inv inv.width (launched.map some) exits s)
    (hremaining : remaining + exits.length = inv.inputs.length)
    (hcard : k + exits.length = launched.length) :
    k = inv.concurrency.window remaining := by
  have hahead := h.ahead
  rw [List.length_map] at hahead
  cases hc : inv.concurrency <;>
    simp only [Invocation.width, hc, Concurrency.initial, Concurrency.isChained, if_true,
      Bool.false_eq_true, if_false, Concurrency.window] at hahead ⊢ <;> omega

theorem Wide.waits (h : Wide inv inv.width (launched.map some) exits s)
    (hcard : k + exits.length = launched.length) (hlt : launched.length < inv.inputs.length) :
    ∃ n, inv.concurrency = .bounded n ∧ k = max 1 n := by
  have hahead := h.ahead
  rw [List.length_map] at hahead
  cases hc : inv.concurrency with
  | unbounded =>
    simp only [Invocation.width, hc, Concurrency.initial, Concurrency.isChained,
      Bool.false_eq_true, if_false] at hahead
    omega
  | bounded n =>
    simp only [Invocation.width, hc, Concurrency.initial, Concurrency.isChained, if_true] at hahead
    exact ⟨n, rfl, by omega⟩

/-! ## The whole -/

/-- What is kept by a crew of full width. -/
theorem Results.window (h : Results inv Ended launched exits s)
    (hcrew : Crew inv Ended (launched.map some) exits none s)
    (hwide : Wide inv inv.width (launched.map some) exits s) :
    Window inv Ended launched exits s := by
  obtain ⟨entry, claims, hj, -, hstands, -⟩ := hcrew.entry
  have hcard := h.card_underway
  have hremaining := hstands.remaining_add
  rw [List.length_map] at hremaining
  have hfull := hwide.window hremaining hcard
  refine
    { h with
      full := ⟨entry, hj, hfull⟩
      never := fun n hn => ?_
      told := ⟨entry, claims, hj, hstands⟩
      refused := fun i k hi hnone => ?_
      waits := fun hlt => hwide.waits hcard hlt
      drained := ?_ }
  · have hnever := (hwide.never (by rw [hn]; rfl)).mono
      (show inv.width ≤ max 1 n from Concurrency.initial_le_window hn)
    rwa [show (launched.map some).reduceOption = launched by simp [List.reduceOption]] at hnever
  · have hmem : i ∈ exits.map Exit.index := by
      by_contra hnot
      obtain ⟨st, hst, -⟩ := (h.going i k hi).mp hnot
      rw [hnone] at hst
      cases hst
    obtain ⟨x, hx, rfl⟩ := List.mem_map.mp hmem
    obtain ⟨hstrand, hholds⟩ := h.exit x hx
    obtain rfl := Option.some.inj (hstrand.symm.trans hi)
    obtain ⟨i, k, ending⟩ := x
    cases ending with
    | finished r =>
      obtain ⟨-, st, hst⟩ := hholds
      rw [hnone] at hst
      cases hst
    | cancelled reason =>
      obtain ⟨-, -, st, hst⟩ := hholds
      rw [hnone] at hst
      cases hst
    | refused => exact ⟨_, List.mem_map_of_mem hx, rfl⟩
  · rw [h.answered]
    refine if_congr ?_ rfl rfl
    rw [← Finset.card_eq_zero]
    have hlaunched : launched.length ≤ inv.inputs.length := by simpa using hcrew.calls_le
    -- A window is at least one strand wide, so nobody is under way only when nothing remains.
    cases hc : inv.concurrency <;> simp only [hc, Concurrency.window] at hfull <;> omega

/-- **An invocation keeps its window**, at every boundary between two moves of a run in which nobody
    else uses the handle of its job, shutdowns included. -/
theorem window_kept (hs : Initial s) (ha : s.Admissible (before ++ m :: rest))
    (hstart : (s.run before).starts m = some inv) (ht : inv.IsTotal)
    (halone : ∀ m ∈ rest, ¬ m.Handles inv.job) :
    ∃ launched exits, Window inv (EndedIn s (before ++ m :: rest)) launched exits
      (s.run (before ++ m :: rest)) := by
  obtain ⟨calls, exits, hcrew, hwide⟩ := hs.staffed_run ha hstart halone
  obtain ⟨launched, rfl⟩ := hcrew.exists_launched ht
  have hresults := hcrew.results fun k r r' => hs.endedIn_unique ha
  exact ⟨launched, exits, hresults.window hcrew (hwide ht)⟩

/-- A shutdown comes when two of three strands are under way. The third is refused when the first
    finishes, the second is cut off at the end, and the callback is told the refusal. -/
theorem window_kept_shut_down :
    let inv : Invocation Nat Unit := ⟨⟨1⟩, [5, 6, 7], fun _ _ => .ok (), .bounded 2⟩
    let start : Move Nat Unit := .invoke inv.inputs inv.callable inv.concurrency fun _ => []
    let rest : List (Move Nat Unit) := [.dispatch, .beginShutdown .immediate,
      .endSegment ⟨1⟩ () (.done (.ok 50)), .closeQueue, .terminate, .drain, .cancel ⟨2⟩]
    (∃ launched exits, Window inv (EndedIn single (start :: rest)) launched exits
      (single.run (start :: rest))) ∧
      answersOf ⟨1⟩ (single.run (start :: rest)).journal.toList =
        [.err Refusal.shutDown.toFailure] := by
  intro inv start rest
  have ha : single.Admissible ([] ++ start :: rest) := by
    simp [start, rest, Admissible, Allows]
    decide
  have hstart : (single.run []).starts start = some inv := rfl
  have ht : inv.IsTotal := fun i v _ => ⟨(), rfl⟩
  have halone : ∀ m ∈ rest, ¬ m.Handles inv.job := by simp [rest, Move.Handles]
  have hwindow := window_kept single_initial ha hstart ht halone
  rw [List.nil_append] at hwindow
  refine ⟨hwindow, ?_⟩
  simp only [start, rest, inv]
  rfl

end Scheduler
end CoopSched
