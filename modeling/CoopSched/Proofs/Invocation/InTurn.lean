import CoopSched.Proofs.Invocation.Line
import CoopSched.Proofs.Invocation.Window
import CoopSched.Proofs.Outcome.Gathered
import CoopSched.Proofs.Outcome.Joined

/-!
# In turn — one worker takes the strands of an invocation by index

On one worker, strands that finish with their first segment finish in the order in which they were
launched, and that is the order of the indices: an unbounded invocation has launched them all before
the first one runs, and a window launches the next one behind those that still wait. So the first
failure in time is the one with the lowest index, and the concurrency of the invocation makes no
difference to what its callback is told (`answered_in_turn`). The other strands of the scheduler may
do whatever they like.
-/

namespace CoopSched

variable {V B : Type}

/-- All the values in order, or the first failure. -/
def Outcome.sequence : List (Outcome V) → Outcome (List V)
  | [] => .ok []
  | .ok v :: rest => (sequence rest).map (v :: ·)
  | .err e :: _ => .err e

theorem Outcome.sequence_values (vs : List V) : sequence (vs.map .ok) = .ok vs := by
  induction vs with
  | nil => rfl
  | cons v vs ih => rw [List.map_cons, sequence, ih, map]

theorem Outcome.sequence_failure {before after : List (Outcome V)} {e : Failure}
    (h : ∀ r ∈ before, r.isOk = true) : sequence (before ++ .err e :: after) = .err e := by
  induction before with
  | nil => rfl
  | cons r before ih =>
    obtain ⟨hr, hbefore⟩ := List.forall_mem_cons.mp h
    cases r with
    | ok v => rw [List.cons_append, sequence, ih hbefore, map]
    | err e => cases hr

theorem getElem_of_map_eq_range {α : Type} {f : α → Nat} {l : List α} {n i : Nat}
    (h : l.map f = List.range n) (hi : i < l.length) : f l[i] = i := by
  have hat : (l.map f)[i]? = (List.range n)[i]? := by rw [h]
  have hlength : l.length = n := by simpa using congrArg List.length h
  simpa [hi, hlength ▸ hi] using hat

/-- Submissions in the order of their indices are answered in this order. -/
theorem Job.Answers.eq_sequence {length : Nat} {acc : List (Nat × Outcome V)}
    {answer : Outcome (List V)} (h : Answers length acc answer)
    (hacc : acc.map Prod.fst = List.range length) :
    answer = Outcome.sequence (acc.map Prod.snd) := by
  cases answer with
  | err e =>
    obtain ⟨before, i, after, rfl, hok⟩ := h
    rw [List.map_append, List.map_cons, Outcome.sequence_failure (List.forall_mem_map.mpr hok)]
  | ok vs =>
    obtain ⟨hlength, hok, hvalues⟩ := h
    have hsame : acc.length = length := by simpa using congrArg List.length hacc
    suffices heq : acc.map Prod.snd = vs.map .ok by rw [heq, Outcome.sequence_values]
    refine List.ext_getElem (by simp [hlength, hsame]) fun i hi _ => ?_
    rw [List.length_map] at hi
    have hindex := getElem_of_map_eq_range hacc hi
    have hmem := List.getElem_mem hi
    have hgood := hok _ hmem
    obtain ⟨⟨n, r⟩, hp⟩ : ∃ p, acc[i] = p := ⟨_, rfl⟩
    rw [hp] at hindex hmem hgood
    obtain rfl : n = i := hindex
    cases r with
    | err e => cases hgood
    | ok v =>
      obtain ⟨_, hv⟩ := List.getElem?_eq_some_iff.mp ((hvalues n v).mpr hmem)
      simp [hp, hv]

/-- The exits in a journal stand there as the departures do. -/
theorem noted_isEnd_strands (ids : List StrandId) (recs : List (Record V)) :
    (noted Happening.isEnd ids recs).map Event.strand =
      (departures recs).filter (· ∈ ids) := by
  induction recs with
  | nil => rfl
  | cons rec recs ih =>
    rw [← List.singleton_append, noted_append, departures_append, List.map_append,
      List.filter_append, ih]
    congr 1
    cases rec with
    | answered j answer => rfl
    | event e =>
      cases hend : e.happening.isEnd <;> by_cases hid : e.strand ∈ ids <;>
        simp [noted, departures, hend, hid]

namespace Scheduler

variable {inv : Invocation V B} {result : V → Outcome V} {Ended : StrandId → Outcome V → Prop}
  {launched : List StrandId} {exits : List (Exit V)} {j : JobId} {s : Scheduler V B}
  {m : Move V B} {ms before rest : List (Move V B)}

/-! ## The line in the course of a run -/

theorem Initial.lined (hs : Initial s) (hone : s.workers = 1) :
    Lined j s.held s.held s := by
  obtain ⟨hstrands, -, -, -, hqueue, -, hheld, halive, -⟩ := hs.empty
  have hprocession : s.procession [] = [] := by
    rw [procession, hs.journal, hqueue]
    rfl
  rw [hheld]
  refine
    { workers := hone, held := hheld, alive := halive,
      numbered := by simp [hprocession], ascending := by simp [hprocession],
      awake := fun k st i hst => ?_ }
  rw [strand?, hstrands, get?_empty] at hst
  cases hst

/-- The workers stay as long as no shutdown has begun. -/
theorem Initial.not_terminate (hs : Initial s) (ha : s.Admissible (ms ++ [m]))
    (hopen : (s.run ms).isStopping = false) : m ≠ .terminate := by
  rintro rfl
  obtain ⟨hprev, hm, -⟩ := admissible_append.mp ha
  cases hopen.symm.trans (hs.gated_run hprev (Or.inl hm.1))

theorem isCancelling_of_open (hopen : s.isStopping = false) : s.isCancelling = false := by
  rw [isStopping, Phase.isStopping, bne_eq_false_iff_eq] at hopen
  rw [isCancelling, hopen]
  rfl

/-- **The strands of a job that finish with their first segment stay in line**, in every run on one
    worker, before a shutdown. -/
theorem Initial.lined_run (hs : Initial s) (hone : s.workers = 1) (ha : s.Admissible ms)
    (hopen : (s.run ms).isStopping = false)
    (hdone : ∀ done id body step todo, ms = done ++ .endSegment id body step :: todo →
      (s.run done).serves j id = true → step.isDone = true) :
    Lined j (s.run ms).held (s.run ms).held (s.run ms) := by
  induction ms using List.reverseRecOn with
  | nil => exact hs.lined hone
  | append_singleton ms m ih =>
    obtain ⟨hprev, hm, -⟩ := admissible_append.mp ha
    have hopen' : (s.run ms).isStopping = false := by
      rw [← Bool.not_eq_true] at hopen ⊢
      exact fun hstop => hopen ((hs.advances_run ha).isStopping hstop)
    have hline := ih hprev hopen' fun done id body step todo heq =>
      hdone done id body step (todo ++ [m]) (by rw [heq]; simp)
    rw [run_snoc]
    refine hline.after (hs.stable_run hprev) hm (isCancelling_of_open hopen')
      (hs.not_terminate ha hopen') ?_
    rintro id body step rfl
    exact hdone ms id body step [] rfl

/-! ## Exits in order -/

/-- The strands of an invocation are numbered by index. -/
theorem Results.index_lt (h : Results inv Ended launched exits s) {i i' : Nat} {k k' : StrandId}
    (hi : launched[i]? = some k) (hi' : launched[i']? = some k') (hlt : k.number < k'.number) :
    i < i' := by
  obtain ⟨hbound, hk⟩ := List.getElem?_eq_some_iff.mp hi
  obtain ⟨hbound', hk'⟩ := List.getElem?_eq_some_iff.mp hi'
  rcases Nat.lt_trichotomy i i' with hless | rfl | hmore
  · exact hless
  · obtain rfl := Option.some.inj (hi.symm.trans hi')
    exact absurd hlt (Nat.lt_irrefl _)
  · have hgt := List.pairwise_iff_getElem.mp h.ascending _ _ hbound' hbound hmore
    rw [hk, hk'] at hgt
    exact absurd hlt (Nat.lt_asymm hgt)

/-- The strands of the job come to their ends by index. -/
theorem Results.exits_ascending (h : Results inv Ended launched exits s)
    {held busy : List StrandId} (hline : Lined inv.job held busy s)
    (hrows : ∀ x ∈ exits, ∃ st, s.strand? x.strand = some st) :
    (exits.map Exit.index).Pairwise (· < ·) := by
  have hstrands : exits.map Exit.strand =
      (departures s.journal.toList).filter (· ∈ launched) := by
    rw [← noted_isEnd_strands, h.ends, List.map_map]
    rfl
  have hserves : ∀ k ∈ exits.map Exit.strand, s.serves inv.job k = true := by
    rintro k hk
    obtain ⟨x, hx, rfl⟩ := List.mem_map.mp hk
    obtain ⟨st, hst⟩ := hrows x hx
    obtain ⟨v, body, -, -, hrow⟩ := h.made x.index x.strand (h.exit x hx).1
    exact serves_iff.mpr ⟨st, x.index, hst, (hrow st hst).1⟩
  -- They are some of those who serve the job and have gone, and these went in order.
  have hsub : (exits.map Exit.strand).Sublist ((s.procession busy).filter (s.serves inv.job)) := by
    rw [← List.filter_eq_self.mpr hserves, hstrands, procession, List.append_assoc]
    exact (List.filter_sublist.trans (List.sublist_append_left _ _)).filter _
  have hnumbers := hline.ascending.sublist hsub
  rw [List.pairwise_map] at hnumbers ⊢
  exact hnumbers.imp_of_mem fun hx hy => h.index_lt (h.exit _ hx).1 (h.exit _ hy).1

/-- Indices that ascend, as many as there are, are all of them. -/
theorem eq_range_of_ascending {is : List Nat} {n : Nat} (h : is.Pairwise (· < ·))
    (hlength : is.length = n) (hlt : ∀ i ∈ is, i < n) : is = List.range n := by
  have hperm : List.Perm is (List.range n) := by
    refine (List.Nodup.subperm (h.imp Nat.ne_of_lt) fun i hi => ?_).perm_of_length_le ?_
    · exact List.mem_range.mpr (hlt i hi)
    · rw [List.length_range, hlength]
  exact hperm.eq_of_pairwise (fun a b _ _ hab hba => absurd hab (Nat.lt_asymm hba)) h
    List.pairwise_lt_range

/-! ## Bodies that finish with their first segment -/

/-- Does a segment of a strand of the invocation finish it, with the outcome that goes with its
    input? -/
def Suits (inv : Invocation V B) (result : V → Outcome V) (s : Scheduler V B) : Move V B → Prop
  | .endSegment id _ step => ∀ hook ∈ (s.strand? id).bind (·.hook), hook.job = inv.job →
      ∀ v ∈ inv.inputs[hook.index]?, step = .done (result v)
  | _ => True

/-- The strands of the invocation finish with their first segment, each with the outcome that goes
    with its input. -/
def Plain (inv : Invocation V B) (result : V → Outcome V) (s : Scheduler V B) :
    List (Move V B) → Prop
  | [] => True
  | m :: ms => Suits inv result s m ∧ Plain inv result (s.after m) ms

theorem plain_append : Plain inv result s (before ++ rest) ↔
    Plain inv result s before ∧ Plain inv result (s.run before) rest := by
  induction before generalizing s with
  | nil => simp [Plain]
  | cons m before ih => simp only [List.cons_append, Plain, ih, run_cons, and_assoc]

/-- A strand of a plain invocation has an input, and ends its segment with the outcome for it. -/
theorem Plain.step_eq {done todo : List (Move V B)} {id : StrandId} {body : B} {step : Step V}
    (hplain : Plain inv result s (done ++ .endSegment id body step :: todo)) (hs : Initial s)
    (ha : s.Admissible (done ++ .endSegment id body step :: todo))
    (h : Results inv Ended launched exits (s.run (done ++ .endSegment id body step :: todo)))
    {st : Strand V B} {i : Nat} (hst : (s.run done).strand? id = some st)
    (hhook : st.hook = some ⟨inv.job, i⟩) :
    ∃ v, inv.inputs[i]? = some v ∧ step = .done (result v) := by
  obtain ⟨st', hst', hsame, -⟩ := hs.row_run ha hst
  obtain ⟨v, _, hv, -⟩ := h.made i id (h.hooked id st' i hst' (hsame.trans hhook))
  have hserves : (⟨inv.job, i⟩ : Hook) ∈ ((s.run done).strand? id).bind (·.hook) := by
    rw [hst]
    exact hhook
  obtain ⟨-, hsuits, -⟩ := plain_append.mp hplain
  exact ⟨v, hv, hsuits _ hserves rfl v hv⟩

/-- A strand of a plain invocation has finished with the outcome that goes with its input. -/
theorem Plain.outcome (hplain : Plain inv result s ms) (hs : Initial s) (ha : s.Admissible ms)
    (h : Results inv Ended launched exits (s.run ms)) {i : Nat} {k : StrandId} {r : Outcome V}
    (hi : launched[i]? = some k) (hended : EndedIn s ms k r) :
    ∃ v, inv.inputs[i]? = some v ∧ r = result v := by
  obtain ⟨done, m, todo, rfl, hfinishes⟩ := hended
  obtain ⟨st, st', hst, hst', hhook, -⟩ := hs.finishes_row ha hfinishes
  obtain ⟨_, _, -, -, hrow⟩ := h.made i k hi
  obtain ⟨body, step, rfl, -, hconclusion⟩ := finishes_eq hfinishes
  obtain ⟨v, hv, rfl⟩ := hplain.step_eq hs ha h hst (hhook.symm.trans (hrow st' hst').1)
  exact ⟨v, hv, (Option.some.inj hconclusion).symm⟩

theorem Plain.isDone (hplain : Plain inv result s ms) (hs : Initial s) (ha : s.Admissible ms)
    (h : Results inv Ended launched exits (s.run ms)) {done todo : List (Move V B)} {id : StrandId}
    {body : B} {step : Step V} (hms : ms = done ++ .endSegment id body step :: todo)
    (hserves : (s.run done).serves inv.job id = true) : step.isDone = true := by
  subst hms
  obtain ⟨st, i, hst, hhook⟩ := serves_iff.mp hserves
  obtain ⟨v, -, rfl⟩ := hplain.step_eq hs ha h hst hhook
  rfl

/-- Without a shutdown each strand that has ended has finished. -/
theorem Crew.finished {calls : List (Option StrandId)} (h : Crew inv Ended calls exits none s)
    (hgated : Gated s) (hover : s.isShutDown = false) (hopen : s.isStopping = false) {x : Exit V}
    (hx : x ∈ exits) :
    ∃ r, x.ending = .finished r ∧ Ended x.strand r ∧ ∃ st, s.strand? x.strand = some st := by
  have hmem := List.mem_append_left (none : Option (Exit V)).toList hx
  obtain ⟨-, hholds⟩ := h.exit x hmem
  cases hending : x.ending with
  | finished r =>
    rw [hending] at hholds
    exact ⟨r, rfl, hholds⟩
  | cancelled reason =>
    rw [hending] at hholds
    cases hover.symm.trans hholds.2.1
  | refused => cases hopen.symm.trans (hgated (h.refusals x hmem hending))

/-- If every index has its exit and the exits came by index, the outcomes stand as the inputs do. -/
theorem outcomes_eq {inputs : List V} (hindices : exits.map Exit.index = List.range inputs.length)
    (h : ∀ x ∈ exits, ∃ v, inputs[x.index]? = some v ∧ x.ending.outcome = result v) :
    exits.map (·.ending.outcome) = inputs.map result := by
  have hlength : exits.length = inputs.length := by simpa using congrArg List.length hindices
  refine List.ext_getElem (by simp [hlength]) fun i hi hi' => ?_
  rw [List.length_map] at hi hi'
  obtain ⟨v, hv, hout⟩ := h exits[i] (List.getElem_mem hi)
  rw [getElem_of_map_eq_range hindices hi, List.getElem?_eq_getElem hi'] at hv
  rw [List.getElem_map, List.getElem_map, hout, Option.some.inj hv]

/-- What the job answers with when its exits came by index. -/
theorem Results.answer_eq_sequence (h : Results inv Ended launched exits s)
    {held busy : List StrandId} (hline : Lined inv.job held busy s)
    (hrows : ∀ x ∈ exits, ∃ st, s.strand? x.strand = some st)
    (houtcome : ∀ x ∈ exits, ∃ v, inv.inputs[x.index]? = some v ∧ x.ending.outcome = result v)
    (hfull : exits.length = inv.inputs.length) {answer : Outcome (List V)}
    (hanswer : Job.Answers inv.inputs.length (exits.map Exit.submission) answer) :
    answer = Outcome.sequence (inv.inputs.map result) := by
  have hindices : exits.map Exit.index = List.range inv.inputs.length := by
    refine eq_range_of_ascending (h.exits_ascending hline hrows)
      (by rw [List.length_map, hfull]) fun i hi => ?_
    obtain ⟨x, hx, rfl⟩ := List.mem_map.mp hi
    obtain ⟨v, hv, -⟩ := houtcome x hx
    exact (List.getElem?_eq_some_iff.mp hv).1
  have heq := hanswer.eq_sequence (by
    rw [List.map_map]
    exact hindices)
  rw [heq, List.map_map, ← outcomes_eq hindices houtcome]
  rfl

/-- A strand that serves a job in line is on the worker, or waits for it, or has ended. -/
theorem Lined.place {held busy : List StrandId} (hline : Lined j held busy s)
    (hplaced : Placed s.held s) (hqueued : Queued s) {n : Nat} (hn : n ∈ s.underway j) :
    ⟨n⟩ ∈ s.held ∨ ⟨n⟩ ∈ s.queue.waiting := by
  obtain ⟨st, i, hst, hhook, hend⟩ := mem_underway.mp hn
  cases hstatus : st.status with
  | runnable => exact Or.inr (hqueued _ st hst hstatus)
  | running mark => exact Or.inl ((hplaced.busy_iff _).mpr ⟨st, hst, by rw [hstatus]; rfl⟩)
  | blocked => exact absurd hstatus (hline.awake _ st i hst hhook)
  | _ =>
    rw [hstatus] at hend
    cases hend

/-! ## The whole -/

/-- **A single worker takes the strands of an invocation by index**, whatever the concurrency of the
    invocation is and whoever else is there: if its bodies finish with their first segment, with an
    outcome that goes with the input, then the callback is told all the values in the order of the
    inputs, or the failure with the lowest index. Neither depends on the concurrency. It has been
    told when no strand of the invocation is left, and those that are left are on the worker or wait
    for it. -/
theorem answered_in_turn (hs : Initial s) (hone : s.workers = 1)
    (ha : s.Admissible (before ++ m :: rest)) (hstart : (s.run before).starts m = some inv)
    (ht : inv.IsTotal) (halone : ∀ m ∈ rest, ¬ m.Handles inv.job)
    (hopen : (s.run (before ++ m :: rest)).isStopping = false)
    (hplain : Plain inv result s (before ++ m :: rest)) :
    answersOf inv.job (s.run (before ++ m :: rest)).journal.toList =
        (if (s.run (before ++ m :: rest)).underway inv.job = ∅
          then [Outcome.sequence (inv.inputs.map result)] else []) ∧
      ∀ n ∈ (s.run (before ++ m :: rest)).underway inv.job,
        ⟨n⟩ ∈ (s.run (before ++ m :: rest)).held ∨
          ⟨n⟩ ∈ (s.run (before ++ m :: rest)).queue.waiting := by
  obtain ⟨calls, exits, hcrew, hwide⟩ := hs.staffed_run ha hstart halone
  obtain ⟨launched, rfl⟩ := hcrew.exists_launched ht
  have hresults := hcrew.results fun k r r' => hs.endedIn_unique ha
  have hwindow := hresults.window hcrew (hwide ht)
  have hline : Lined inv.job _ _ (s.run (before ++ m :: rest)) :=
    hs.lined_run hone ha hopen fun done id body step todo hms =>
      hplain.isDone hs ha hresults hms
  have hover : (s.run (before ++ m :: rest)).isShutDown = false := by
    rw [← Bool.not_eq_true] at hopen ⊢
    exact fun hover => hopen (hs.isStopping_of_isShutDown ha hover)
  have hfinished := fun x (hx : x ∈ exits) => hcrew.finished (hs.gated_run ha) hover hopen hx
  have houtcome : ∀ x ∈ exits, ∃ v, inv.inputs[x.index]? = some v ∧
      x.ending.outcome = result v := by
    intro x hx
    obtain ⟨r, hending, hended, -⟩ := hfinished x hx
    rw [hending]
    exact hplain.outcome hs ha hresults (hresults.exit x hx).1 hended
  refine ⟨?_, fun n hn => hline.place (hs.stable_run ha).placed
    (hs.queued_run ha hline.alive) hn⟩
  have hdrained := hwindow.drained
  split at hdrained
  next hnobody =>
    have hfull : exits.length = inv.inputs.length := by
      by_contra hmore
      rw [hresults.answered, if_neg hmore] at hdrained
      cases hdrained
    have hanswers := hcrew.answers
    rw [if_pos hfull] at hanswers
    obtain ⟨answer, hone, hanswer⟩ := hanswers
    rw [hone, if_pos hnobody, hresults.answer_eq_sequence hline (fun x hx => ?_) houtcome hfull
      hanswer]
    obtain ⟨-, -, -, hrow⟩ := hfinished x hx
    exact hrow
  next hsomebody =>
    rw [if_neg hsomebody]
    exact List.eq_nil_of_length_eq_zero hdrained

/-- Two of three strands are under way at a time, another strand yields between them, and the two
    later ones fail. The callback is told the failure of the second. -/
theorem answered_in_turn_two_fail :
    let inv : Invocation Nat Unit := ⟨⟨1⟩, [5, 6, 7], fun _ _ => .ok (), .bounded 2⟩
    let result : Nat → Outcome Nat := fun v =>
      if v = 5 then .ok 50 else .err ⟨.failed, if v = 6 then "six" else "seven"⟩
    let start : Move Nat Unit := .invoke inv.inputs inv.callable inv.concurrency fun _ => []
    let rest : List (Move Nat Unit) := [.dispatch, .endSegment ⟨1⟩ () .yield, .dispatch,
      .endSegment ⟨2⟩ () (.done (result 5)), .dispatch, .endSegment ⟨3⟩ () (.done (result 6)),
      .dispatch, .endSegment ⟨1⟩ () .yield, .dispatch, .endSegment ⟨4⟩ () (.done (result 7))]
    answersOf ⟨1⟩ (single.run (.spawn () none :: start :: rest)).journal.toList =
      [.err ⟨.failed, "six"⟩] := by
  intro inv result start rest
  have ha : single.Admissible ([.spawn () none] ++ start :: rest) := by
    simp [start, rest, Admissible, Allows]
    decide
  have hstart : (single.run [.spawn () none]).starts start = some inv := rfl
  have ht : inv.IsTotal := fun i v _ => ⟨(), rfl⟩
  have halone : ∀ m ∈ rest, ¬ m.Handles inv.job := by simp [rest, Move.Handles]
  have hplain : Plain inv result single ([.spawn () none] ++ start :: rest) := by
    simp only [List.singleton_append, start, rest, inv, result, Plain, Suits]
    decide
  have hopen : (single.run ([.spawn () none] ++ start :: rest)).isStopping = false := by
    simp only [start, rest, inv, result]
    decide
  have hnobody : (single.run ([.spawn () none] ++ start :: rest)).underway inv.job = ∅ := by
    simp only [start, rest, inv, result]
    decide
  have hturn := (answered_in_turn single_initial rfl ha hstart ht halone hopen hplain).1
  rw [if_pos hnobody, List.singleton_append] at hturn
  exact hturn

end Scheduler
end CoopSched
