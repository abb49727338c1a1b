import CoopSched.Proofs.Invocation.Crew

/-!
# Launching — what the job of a crew does

A due exit is submitted to the job, and the last one brings the answer (`Crew.submit`). A launch
claims the next index, calls the callable on it and has the strand made; `Attempt` has one
constructor for each way in which that can go, and the crew after it (`Crew.attempt`).
-/

namespace CoopSched
namespace Scheduler

variable {V B : Type} {inv : Invocation V B} {Ended : StrandId → Outcome V → Prop}
  {calls : List (Option StrandId)} {exits : List (Exit V)} {due : Option (Exit V)}
  {s s₁ : Scheduler V B}

/-! ## An exit is submitted -/

theorem submit_of_call {j j' : Job V} {index : Nat} {r : Outcome V}
    {answer : Option (Outcome (List V))}
    (h : j.call (.submit index r) = (j', .accepted answer)) :
    j.submit index r = .ok (j', answer) := by
  simp only [Job.call] at h
  split at h
  next job answer' heq =>
    obtain ⟨rfl, hreply⟩ := Prod.mk.inj h
    rw [heq, Job.Reply.accepted.inj hreply]
  next => cases (Prod.mk.inj h).2

/-- The crew when the job has been told of a due exit. -/
theorem Crew.told {x : Exit V} (h : Crew inv Ended calls exits (some x) s)
    (hstrands : s₁.strands = s.strands) (hover : s₁.isShutDown = s.isShutDown)
    (hqueue : s₁.queue = s.queue) (horderly : Orderly s₁)
    (hentry : ∃ entry k, s₁.job? inv.job = some entry ∧
      entry.drive = some (inv.driveAfter calls.length) ∧
      Job.Stands inv.inputs.length ((exits ++ [x]).map Exit.submission) k entry.job ∧
      calls.length = min k inv.inputs.length)
    {recs : List (Record V)} (htells : Tells s s₁ recs)
    (hsilent : ∀ rec ∈ recs, ∀ ids, rec.IsSilent ids)
    (hanswers : if (exits ++ [x]).length = inv.inputs.length
      then ∃ answer, answersOf inv.job s₁.journal.toList = [answer] ∧
        Job.Answers inv.inputs.length ((exits ++ [x]).map Exit.submission) answer
      else answersOf inv.job s₁.journal.toList = []) :
    Crew inv Ended calls (exits ++ [x]) none s₁ := by
  have hrow : ∀ k, s₁.strand? k = s.strand? k := fun k => by rw [strand?, strand?, hstrands]
  have hall : exits ++ [x] ++ (none : Option (Exit V)).toList = exits ++ (some x).toList := by simp
  have hnoted : ∀ kind : Happening → Bool, (∀ h, kind h = true → h.isMilestone = true) →
      noted kind calls.reduceOption s₁.journal.toList =
        noted kind calls.reduceOption s.journal.toList := by
    intro kind hkind
    rw [htells, noted_append, noted_silent hkind fun rec hrec => hsilent rec hrec _,
      List.append_nil]
  refine
    { orderly := horderly, entry := hentry, lost := h.lost, made := ?_,
      before := hstrands.symm ▸ h.before, ascending := h.ascending, hooked := ?_, gone := ?_,
      exit := ?_, refusals := ?_, indices := hall.symm ▸ h.indices,
      births := (hnoted _ Happening.isMilestone_of_isBirth).trans h.births,
      ends := hall.symm ▸ (hnoted _ Happening.isMilestone_of_isEnd).trans h.ends,
      answers := hanswers }
  · intro i k hi
    rw [hrow]
    exact h.made i k hi
  · intro k st i hst
    rw [hrow] at hst
    exact h.hooked k st i hst
  · intro k hk
    rw [hall, hrow]
    exact h.gone k hk
  · rw [hall]
    intro y hy
    obtain ⟨hcall, hholds⟩ := h.exit y hy
    refine ⟨hcall, ?_⟩
    unfold Ending.Holds at hholds ⊢
    rw [hrow, hover]
    exact hholds
  · rw [hall, IsShut, hqueue]
    exact h.refusals

/-- A job with an exit due has not answered yet. -/
theorem Crew.unanswered {x : Exit V} (h : Crew inv Ended calls exits (some x) s) :
    answersOf inv.job s.journal.toList = [] := by
  have hshort : ¬ exits.length = inv.inputs.length := by
    have hle := h.exits_le
    have hle' := h.calls_le
    simp only [Option.toList_some, List.length_append, List.length_singleton] at hle
    omega
  have hanswers := h.answers
  rwa [if_neg hshort] at hanswers

/-- **A job accepts a due exit**, and answers if that is the last one. -/
theorem Crew.accepts {x : Exit V} (h : Crew inv Ended calls exits (some x) s) {job : Job V}
    {k : Nat} (hstands : Job.Stands inv.inputs.length (exits.map Exit.submission) k job) :
    ∃ job' answer, job.submit x.index x.ending.outcome = .ok (job', answer) ∧
      Job.Stands inv.inputs.length ((exits ++ [x]).map Exit.submission) k job' ∧
      if (exits ++ [x]).length = inv.inputs.length
        then ∃ a, answer = some a ∧
          Job.Answers inv.inputs.length ((exits ++ [x]).map Exit.submission) a
        else answer = none := by
  obtain ⟨hreply, hnext⟩ := hstands.call (.submit x.index x.ending.outcome)
  obtain ⟨hlt, -⟩ := List.getElem?_eq_some_iff.mp (h.exit x (by simp)).1
  have hle := h.calls_le
  have hindex : ¬ inv.inputs.length ≤ x.index := by omega
  have hnew : x.index ∉ (exits.map Exit.submission).map Prod.fst := by
    have hindices := h.indices
    simp only [Option.toList_some, List.map_append, List.nodup_append, List.map_cons, List.map_nil,
      List.mem_singleton] at hindices
    rw [List.map_map]
    exact fun hmem => hindices.2.2 x.index hmem x.index rfl rfl
  have hlast : (exits.map Exit.submission).length + 1 = inv.inputs.length ↔
      (exits ++ [x]).length = inv.inputs.length := by simp
  simp only [Job.Replies, if_neg hindex, if_neg hnew, hlast] at hreply
  split at hreply
  next hfull =>
    obtain ⟨a, hreply, hanswers⟩ := hreply
    rw [hreply] at hnext
    refine ⟨_, some a, submit_of_call (Prod.ext rfl hreply), ?_, ?_⟩
    · simpa [Job.accepted, Job.claims, Exit.submission] using hnext
    · rw [if_pos hfull]
      exact ⟨a, rfl, by simpa [Exit.submission] using hanswers⟩
  next hfull =>
    rw [hreply] at hnext
    refine ⟨_, none, submit_of_call (Prod.ext rfl hreply), ?_, ?_⟩
    · simpa [Job.accepted, Job.claims, Exit.submission] using hnext
    · rw [if_neg hfull]

/-- **A due exit is submitted**, and accepted. If it was the last one the callback runs on the
    answer, and otherwise nothing more happens. -/
theorem Crew.submit {x : Exit V} (h : Crew inv Ended calls exits (some x) s)
    (nested : Cancel V B) :
    ∃ s₁ effects recs, Crew inv Ended calls (exits ++ [x]) none s₁ ∧ Tells s s₁ recs ∧
      (∀ rec ∈ recs, ∀ ids, rec.IsSilent ids) ∧
      (s.submitWith nested inv.job x.index x.ending.outcome).1 = s₁.performWith nested effects ∧
      (effects = [] ∨ (exits ++ [x]).length = inv.inputs.length) := by
  obtain ⟨entry, k, hj, hdrive, hstands, hcalls⟩ := h.entry
  obtain ⟨job, answer, hsubmit, hnext, hanswer⟩ := h.accepts hstands
  have hread : (s.updateJob inv.job fun e => { e with job := job }).job? inv.job =
      some { entry with job := job } := by
    rw [job?_updateJob, if_pos rfl, hj, Option.map_some]
  have hupdated : Orderly (s.updateJob inv.job fun e => { e with job := job }) :=
    watches_orderly.change (.job s (fun hf => hf) fun _ => rfl) h.orderly
  by_cases hfull : (exits ++ [x]).length = inv.inputs.length
  · rw [if_pos hfull] at hanswer
    obtain ⟨a, rfl, hanswers⟩ := hanswer
    have hsilent : ∀ rec ∈ [(Record.answered inv.job a : Record V)], ∀ ids,
        rec.IsSilent ids := by
      intro rec hrec ids
      rw [List.mem_singleton.mp hrec]
      trivial
    refine ⟨{ (s.updateJob inv.job fun e => { e with job := job }) with
        journal := s.journal.push (.answered inv.job a) }, entry.callback a,
      [.answered inv.job a], ?_, .push rfl, hsilent, ?_, Or.inr hfull⟩
    · refine h.told rfl rfl rfl (watches_orderly.change (.answered (fun hf => hf) hread a) hupdated)
        ⟨_, k, hread, hdrive, hnext, hcalls⟩ (.push rfl) hsilent ?_
      rw [if_pos hfull]
      refine ⟨a, ?_, hanswers⟩
      show answersOf inv.job (s.journal.push (.answered inv.job a)).toList = [a]
      rw [Array.toList_push, answersOf_append, h.unanswered]
      simp [answersOf]
    · simp only [submitWith, hj, hsubmit, answerWith, hread]
      rfl
  · rw [if_neg hfull] at hanswer
    subst hanswer
    have hsilent : ∀ rec ∈ ([] : List (Record V)), ∀ ids, rec.IsSilent ids :=
      fun _ hrec => absurd hrec List.not_mem_nil
    refine ⟨s.updateJob inv.job fun e => { e with job := job }, [], [], ?_, .of_journal rfl,
      hsilent, ?_, Or.inl rfl⟩
    · refine h.told rfl rfl rfl hupdated ⟨_, k, hread, hdrive, hnext, hcalls⟩ (.of_journal rfl)
        hsilent ?_
      rw [if_neg hfull]
      exact h.unanswered
    · simp only [submitWith, hj, hsubmit]
      rfl

/-! ## The next index is called -/

/-- A journal in order does not mention the number that is handed out next. -/
theorem Orderly.silent (h : Orderly s) :
    ∀ rec ∈ s.journal.toList, rec.IsSilent [⟨s.strands.next⟩] := by
  intro rec hrec
  have hwithin := h.journal rec hrec
  cases rec with
  | answered j answer => trivial
  | event e =>
    intro hmilestone hmem
    have hlt := hwithin hmilestone
    rw [List.mem_singleton.mp hmem] at hlt
    exact Nat.lt_irrefl _ hlt

theorem getElem?_concat {α : Type} {l : List α} {a b : α} {i : Nat}
    (h : (l ++ [a])[i]? = some b) : l[i]? = some b ∨ i = l.length ∧ a = b := by
  rw [List.getElem?_append] at h
  split at h
  · exact Or.inl h
  next hge =>
    obtain ⟨hlt, hb⟩ := List.getElem?_eq_some_iff.mp h
    rw [List.length_singleton] at hlt
    refine Or.inr ⟨by omega, ?_⟩
    simpa using hb

theorem getElem?_concat_of_some {α : Type} {l : List α} {a b : α} {i : Nat}
    (h : l[i]? = some b) : (l ++ [a])[i]? = some b := by
  obtain ⟨hlt, -⟩ := List.getElem?_eq_some_iff.mp h
  rw [List.getElem?_append_left hlt, h]

/-- What one more call of the callable changes. A body makes a strand with the next number, and if
    the strand is not there its exit is due. -/
structure Call (inv : Invocation V B) (calls : List (Option StrandId)) (exits : List (Exit V))
    (v : V) (c : Option StrandId) (due : Option (Exit V)) (recs : List (Record V))
    (s s₁ : Scheduler V B) : Prop where
  input : inv.inputs[calls.length]? = some v
  orderly : Orderly s₁
  shut : s₁.isShutDown = s.isShutDown
  queue : s.IsShut → s₁.IsShut
  entry : ∃ entry k, s₁.job? inv.job = some entry ∧
    entry.drive = some (inv.driveAfter (calls.length + 1)) ∧
    Job.Stands inv.inputs.length (exits.map Exit.submission) k entry.job ∧
    calls.length + 1 = min k inv.inputs.length
  next : s.strands.next ≤ s₁.strands.next
  old : ∀ k, k.number < s.strands.next → s₁.strand? k = s.strand? k
  lost : c = none → ∃ p, inv.callable calls.length v = .error p
  made : ∀ k, c = some k → k = ⟨s.strands.next⟩ ∧ s.strands.next < s₁.strands.next ∧
    ∃ body, inv.callable calls.length v = .ok body ∧
      ∀ st, s₁.strand? k = some st →
        st = Strand.create body none none (some ⟨inv.job, calls.length⟩)
  new : ∀ k st, s.strands.next ≤ k.number → s₁.strand? k = some st → c = some k
  refused : ∀ x, due = some x → x.index = calls.length ∧ c = some x.strand ∧ x.ending = .refused ∧
    s₁.IsShut
  gone : ∀ k, c = some k → (s₁.strand? k = none ↔ due.isSome = true)
  tells : Tells s s₁ recs
  births : noted Happening.isBirth (calls.reduceOption ++ c.toList) recs =
    c.toList.map (⟨·, .created⟩)
  ends : noted Happening.isEnd (calls.reduceOption ++ c.toList) recs = due.toList.map Exit.event
  answers : answersOf inv.job recs = []

section

variable {c : Option StrandId} {v : V} {recs : List (Record V)}

/-- Strands that were made before are as they were. -/
theorem Crew.call_old (h : Crew inv Ended calls exits none s)
    (hc : Call inv calls exits v c due recs s s₁) {k : StrandId} (hk : some k ∈ calls) :
    s₁.strand? k = s.strand? k :=
  hc.old _ (h.before _ hk)

/-- The strand that the call makes was not made before. -/
theorem Crew.call_fresh (h : Crew inv Ended calls exits none s)
    (hc : Call inv calls exits v c due recs s s₁) {k : StrandId} (hk : c = some k) :
    some k ∉ calls := by
  intro hmem
  have hlt := h.before _ hmem
  rw [(hc.made k hk).1] at hlt
  exact Nat.lt_irrefl _ hlt

/-- The observers are told about the strand that the call makes what they are told now. -/
theorem Crew.call_noted (h : Crew inv Ended calls exits none s)
    (hc : Call inv calls exits v c due recs s s₁) {kind : Happening → Bool}
    (hkind : ∀ h, kind h = true → h.isMilestone = true) :
    noted kind (calls ++ [c]).reduceOption s₁.journal.toList =
      noted kind calls.reduceOption s.journal.toList ++
        noted kind (calls.reduceOption ++ c.toList) recs := by
  rw [hc.tells, noted_append, List.reduceOption_append, List.reduceOption_singleton]
  cases c with
  | none => rw [Option.toList_none, List.append_nil]
  | some k =>
    obtain ⟨rfl, -⟩ := hc.made k rfl
    rw [Option.toList_some, noted_new hkind h.orderly.silent]

/-- The new strand comes after those that were made before. -/
theorem Crew.call_ascending (h : Crew inv Ended calls exits none s)
    (hc : Call inv calls exits v c due recs s s₁) (i i' : Nat) (k k' : StrandId) (hlt : i < i')
    (hi : (calls ++ [c])[i]? = some (some k)) (hi' : (calls ++ [c])[i']? = some (some k')) :
    k.number < k'.number := by
  rcases getElem?_concat hi' with hi' | ⟨rfl, hc'⟩
  · rcases getElem?_concat hi with hi | ⟨rfl, -⟩
    · exact h.ascending i i' k k' hlt hi hi'
    · obtain ⟨hlt', -⟩ := List.getElem?_eq_some_iff.mp hi'
      omega
  · rcases getElem?_concat hi with hi | ⟨rfl, -⟩
    · rw [(hc.made k' hc').1]
      exact h.before k (List.mem_of_getElem? hi)
    · exact absurd hlt (Nat.lt_irrefl _)

/-- The new strand is gone just when it was refused. -/
theorem Call.gone_iff (hc : Call inv calls exits v c due recs s s₁) {k : StrandId}
    (hk : c = some k) : k ∈ due.toList.map Exit.strand ↔
      ∀ st, s₁.strand? k = some st → st.status.isTerminal = true := by
  obtain ⟨-, -, body, -, hcreated⟩ := hc.made k hk
  constructor
  · intro hmem st hst
    obtain ⟨x, hx, -⟩ := List.mem_map.mp hmem
    have hnone := (hc.gone k hk).mpr (by rw [Option.mem_toList.mp hx]; rfl)
    rw [hnone] at hst
    cases hst
  · intro hend
    have hnone : s₁.strand? k = none := by
      rw [Option.eq_none_iff_forall_ne_some]
      intro st hst
      have hterm := hend st hst
      rw [hcreated st hst] at hterm
      cases hterm
    obtain ⟨x, hx⟩ := Option.isSome_iff_exists.mp ((hc.gone k hk).mp hnone)
    obtain rfl := Option.some.inj (hk.symm.trans (hc.refused x hx).2.1)
    exact List.mem_map_of_mem (Option.mem_toList.mpr hx)

theorem Crew.call_gone (h : Crew inv Ended calls exits none s)
    (hc : Call inv calls exits v c due recs s s₁) (k : StrandId) (hk : some k ∈ calls ++ [c]) :
    k ∈ (exits ++ due.toList).map Exit.strand ↔
      ∀ st, s₁.strand? k = some st → st.status.isTerminal = true := by
  rw [List.map_append, List.mem_append]
  rcases List.mem_append.mp hk with hk | hk
  · have hdue : k ∉ due.toList.map Exit.strand := by
      intro hmem
      obtain ⟨x, hx, rfl⟩ := List.mem_map.mp hmem
      exact h.call_fresh hc (hc.refused x (Option.mem_toList.mp hx)).2.1 hk
    rw [or_iff_left hdue, h.call_old hc hk]
    simpa using h.gone k hk
  · have hnew := (List.mem_singleton.mp hk).symm
    have hexits : k ∉ exits.map Exit.strand := by
      intro hmem
      obtain ⟨x, hx, rfl⟩ := List.mem_map.mp hmem
      obtain ⟨hcall, -⟩ := h.exit x (List.mem_append_left _ hx)
      exact h.call_fresh hc hnew (List.mem_of_getElem? hcall)
    rw [or_iff_right hexits]
    exact hc.gone_iff hnew

theorem Crew.call_exit (h : Crew inv Ended calls exits none s)
    (hc : Call inv calls exits v c due recs s s₁) (x : Exit V) (hx : x ∈ exits ++ due.toList) :
    (calls ++ [c])[x.index]? = some (some x.strand) ∧ x.ending.Holds Ended s₁ x.strand := by
  rcases List.mem_append.mp hx with hx | hx
  · obtain ⟨hcall, hholds⟩ := h.exit x (List.mem_append_left _ hx)
    refine ⟨getElem?_concat_of_some hcall, ?_⟩
    unfold Ending.Holds at hholds ⊢
    rw [h.call_old hc (List.mem_of_getElem? hcall), hc.shut]
    exact hholds
  · have hsome := Option.mem_toList.mp hx
    obtain ⟨hindex, hnew, hending, -⟩ := hc.refused x hsome
    refine ⟨by rw [hindex, ← hnew, List.getElem?_concat_length], ?_⟩
    rw [hending]
    exact (hc.gone _ hnew).mpr (by rw [hsome]; rfl)

theorem Crew.call_indices (h : Crew inv Ended calls exits none s)
    (hc : Call inv calls exits v c due recs s s₁) :
    ((exits ++ due.toList).map Exit.index).Nodup := by
  rw [List.map_append, List.nodup_append]
  refine ⟨by simpa using h.indices, ?_, ?_⟩
  · cases due <;> simp
  · intro i hi i' hi' heq
    obtain ⟨x, hx, rfl⟩ := List.mem_map.mp hi
    obtain ⟨y, hy, rfl⟩ := List.mem_map.mp hi'
    obtain ⟨hlt, -⟩ := List.getElem?_eq_some_iff.mp (h.exit x (List.mem_append_left _ hx)).1
    rw [heq, (hc.refused y (Option.mem_toList.mp hy)).1] at hlt
    exact Nat.lt_irrefl _ hlt

/-- **The crew when the callable was called once more.** -/
theorem Crew.called (h : Crew inv Ended calls exits none s)
    (hc : Call inv calls exits v c due recs s s₁) :
    Crew inv Ended (calls ++ [c]) exits due s₁ where
  orderly := hc.orderly
  entry := by simpa using hc.entry
  lost := by
    intro i hi
    rcases getElem?_concat hi with hi | ⟨rfl, hnone⟩
    · exact h.lost i hi
    · obtain ⟨p, hp⟩ := hc.lost hnone
      exact ⟨v, p, hc.input, hp⟩
  made := by
    intro i k hi
    rcases getElem?_concat hi with hi | ⟨rfl, hnew⟩
    · rw [h.call_old hc (List.mem_of_getElem? hi)]
      exact h.made i k hi
    · obtain ⟨-, -, body, hbody, hst⟩ := hc.made k hnew
      refine ⟨v, body, hc.input, hbody, fun st hst' => ?_⟩
      rw [hst st hst']
      exact ⟨rfl, fun _ _ => ⟨rfl, rfl, rfl⟩⟩
  before := by
    intro k hk
    rcases List.mem_append.mp hk with hk | hk
    · exact Nat.lt_of_lt_of_le (h.before k hk) hc.next
    · obtain ⟨rfl, hlt, -⟩ := hc.made k (List.mem_singleton.mp hk).symm
      exact hlt
  ascending := h.call_ascending hc
  hooked := by
    intro k st i hst hhook
    rcases Nat.lt_or_ge k.number s.strands.next with hlt | hge
    · exact getElem?_concat_of_some (h.hooked k st i ((hc.old k hlt).symm.trans hst) hhook)
    · have hnew := hc.new k st hge hst
      obtain ⟨-, -, body, -, hcreated⟩ := hc.made k hnew
      rw [hcreated st hst] at hhook
      obtain ⟨-, rfl⟩ := Hook.mk.inj (Option.some.inj hhook)
      rw [hnew, List.getElem?_concat_length]
  gone := h.call_gone hc
  exit := h.call_exit hc
  refusals := by
    intro x hx hrefused
    rcases List.mem_append.mp hx with hx | hx
    · exact hc.queue (h.refusals x (List.mem_append_left _ hx) hrefused)
    · exact (hc.refused x (Option.mem_toList.mp hx)).2.2.2
  indices := h.call_indices hc
  births := by
    rw [h.call_noted hc Happening.isMilestone_of_isBirth, h.births, hc.births,
      List.reduceOption_append, List.reduceOption_singleton, List.map_append]
  ends := by
    rw [h.call_noted hc Happening.isMilestone_of_isEnd, h.ends, hc.ends, Option.toList_none,
      List.append_nil, List.map_append]
  answers := by
    rw [hc.tells, answersOf_append, hc.answers, List.append_nil]
    exact h.answers

end

/-- What can come of launching the next strand of the job. -/
inductive Attempt (inv : Invocation V B) (Ended : StrandId → Outcome V → Prop)
    (calls : List (Option StrandId)) (exits : List (Exit V)) (s : Scheduler V B)
    (nested : Cancel V B) (rounds : Nat) : Scheduler V B × Option Panic → Prop
  /-- There is no index left. -/
  | exhausted {s₁ : Scheduler V B} (hall : calls.length = inv.inputs.length)
      (hcrew : Crew inv Ended calls exits none s₁) (hjournal : s₁.journal = s.journal) :
      Attempt inv Ended calls exits s nested rounds (s₁, none)
  | panicked {s₁ : Scheduler V B} {v : V} {p : Panic} (hv : inv.inputs[calls.length]? = some v)
      (hp : inv.callable calls.length v = .error p)
      (hcrew : Crew inv Ended (calls ++ [none]) exits none s₁) :
      Attempt inv Ended calls exits s nested rounds (s₁, some p)
  | launched {s₁ : Scheduler V B} (hlt : calls.length < inv.inputs.length)
      (hcrew : Crew inv Ended (calls ++ [some ⟨s.strands.next⟩]) exits none s₁)
      (htells : Tells s s₁ [.event ⟨⟨s.strands.next⟩, .created⟩]) :
      Attempt inv Ended calls exits s nested rounds (s₁, none)
  /-- The exit is submitted at once, and a chained job goes on to the next index. -/
  | refused {s₁ : Scheduler V B} (hlt : calls.length < inv.inputs.length)
      (hcrew : Crew inv Ended (calls ++ [some ⟨s.strands.next⟩]) exits
        (some ⟨calls.length, ⟨s.strands.next⟩, .refused⟩) s₁)
      (htells : Tells s s₁ [.event ⟨⟨s.strands.next⟩, .created⟩,
        .event ⟨⟨s.strands.next⟩, .rejected⟩]) :
      Attempt inv Ended calls exits s nested rounds
        (if inv.concurrency.isChained then
          launchNextWith nested inv.job rounds
            (s₁.submitWith nested inv.job calls.length (Ending.refused (V := V)).outcome).1
        else
          ((s₁.submitWith nested inv.job calls.length (Ending.refused (V := V)).outcome).1, none))

/-- A launch takes the input, and has the strand made of the body for it. -/
theorem launch_eq (s : Scheduler V B) (inv : Invocation V B) {n : Nat} {v : V}
    (hv : inv.inputs[n]? = some v) :
    s.launch inv.job (inv.driveAfter n) n =
      match inv.callable n v with
      | .error p =>
          (s.updateJob inv.job fun e => { e with drive := some (inv.driveAfter (n + 1)) },
            .panicked p)
      | .ok body =>
          match (s.updateJob inv.job fun e =>
              { e with drive := some (inv.driveAfter (n + 1)) }).spawn
              { body := body, admission := .invocation, hook := some ⟨inv.job, n⟩ } with
          | (s, .ok _) => (s, .launched)
          | (s, .error e) => (s, .refused e.toFailure) := by
  obtain ⟨hlt, -⟩ := List.getElem?_eq_some_iff.mp hv
  unfold launch
  rw [inv.driveAfter_getElem? hv, Option.join_some, inv.driveAfter_set hlt]
  rfl

/-- The index is claimed and its input taken before the callable is called. -/
structure Taken (inv : Invocation V B) (calls : List (Option StrandId)) (exits : List (Exit V))
    (s s₁ : Scheduler V B) : Prop where
  orderly : Orderly s₁
  entry : ∃ entry k, s₁.job? inv.job = some entry ∧
    entry.drive = some (inv.driveAfter (calls.length + 1)) ∧
    Job.Stands inv.inputs.length (exits.map Exit.submission) k entry.job ∧
    calls.length + 1 = min k inv.inputs.length
  strands : s₁.strands = s.strands
  journal : s₁.journal = s.journal
  shut : s₁.isShutDown = s.isShutDown
  queue : s₁.queue = s.queue

theorem Taken.isShut (h : Taken inv calls exits s s₁) (hshut : s.IsShut) : s₁.IsShut := by
  rwa [IsShut, h.queue]

/-- A launch calls the callable on the next index, and goes on with what comes of that. -/
theorem Crew.launchNext_eq (h : Crew inv Ended calls exits none s) (nested : Cancel V B)
    (rounds : Nat) {v : V} (hv : inv.inputs[calls.length]? = some v) :
    ∃ s₁, Taken inv calls exits s s₁ ∧
      launchNextWith nested inv.job (rounds + 1) s =
        match inv.callable calls.length v with
        | .error p => (s₁, some p)
        | .ok body =>
            match s₁.spawn
              { body := body, admission := .invocation, hook := some ⟨inv.job, calls.length⟩ } with
            | (s, .ok _) => (s, none)
            | (s, .error e) =>
                if inv.concurrency.isChained then
                  launchNextWith nested inv.job rounds
                    (s.submitWith nested inv.job calls.length (.err e.toFailure)).1
                else ((s.submitWith nested inv.job calls.length (.err e.toFailure)).1, none) := by
  obtain ⟨entry, k, hj, hdrive, hstands, hcalls⟩ := h.entry
  obtain ⟨hlt, -⟩ := List.getElem?_eq_some_iff.mp hv
  obtain rfl : k = calls.length := by omega
  have hlength : entry.job.length = inv.inputs.length := hstands.slots_length
  refine ⟨(s.updateJob inv.job fun e => { e with job := entry.job.claim.1 }).updateJob inv.job
    fun e => { e with drive := some (inv.driveAfter (calls.length + 1)) },
    ⟨?_, ?_, rfl, rfl, rfl, rfl⟩, ?_⟩
  · exact watches_orderly.change (.job _ (fun hf => hf) fun _ => rfl)
      (watches_orderly.change (.job s (fun hf => hf) fun _ => rfl) h.orderly)
  · refine ⟨{ entry with
      job := entry.job.claim.1, drive := some (inv.driveAfter (calls.length + 1)) },
      calls.length + 1, ?_, rfl, ?_, by omega⟩
    · rw [job?_updateJob, if_pos rfl, job?_updateJob, if_pos rfl, hj]
      rfl
    · simpa [Job.call, Job.accepted, Job.claims, Job.claim] using (hstands.call .claim).2
  · conv_lhs => unfold launchNextWith
    have hindex : entry.job.claim.2 = some calls.length := by
      simp only [Job.claim, hstands.cursor, hlength, if_pos hlt]
    simp only [hj, hdrive, hindex, launch_eq _ inv hv]
    cases inv.callable calls.length v with
    | error p => rfl
    | ok body =>
      dsimp only
      generalize spawn _ _ = result
      obtain ⟨s', r⟩ := result
      cases r <;> rfl

/-- What the job sees of a spawn: its records, and that its own row and the shutdown are as they
    were. -/
structure Makes (recs : List (Record V)) (s₁ s₂ : Scheduler V B) : Prop where
  orderly : Orderly s₂
  jobs : s₂.jobs = s₁.jobs
  shut : s₂.isShutDown = s₁.isShutDown
  queue : s₁.IsShut → s₂.IsShut
  tells : Tells s₁ s₂ recs

/-- The body makes a strand, and the strand is admitted. -/
theorem Crew.admitted (h : Crew inv Ended calls exits none s) {v : V} {body : B}
    (hv : inv.inputs[calls.length]? = some v) (htaken : Taken inv calls exits s s₁)
    (hcall : inv.callable calls.length v = .ok body) {s₂ : Scheduler V B}
    (hstrands : s₂.strands =
      s₁.strands.add (Strand.create body none none (some ⟨inv.job, calls.length⟩)))
    (hmakes : Makes [.event ⟨⟨s.strands.next⟩, .created⟩] s₁ s₂) :
    Crew inv Ended (calls ++ [some ⟨s.strands.next⟩]) exits none s₂ := by
  have hread : ∀ k, s₂.strand? k = if k.number = s.strands.next
      then some (Strand.create body none none (some ⟨inv.job, calls.length⟩))
      else s.strand? k := fun k => by
    rw [strand?, hstrands, Table.get?_add, htaken.strands]
    rfl
  have hnext : s₂.strands.next = s.strands.next + 1 := by
    rw [hstrands, Table.next_add, htaken.strands]
  have hcall' : Call inv calls exits v (some ⟨s.strands.next⟩) none
      [.event ⟨⟨s.strands.next⟩, .created⟩] s s₂ :=
    { input := hv
      orderly := hmakes.orderly
      shut := hmakes.shut.trans htaken.shut
      queue := fun h => hmakes.queue (htaken.isShut h)
      entry := by
        rw [job?, hmakes.jobs]
        exact htaken.entry
      next := by omega
      old := fun k hlt => (hread k).trans (if_neg (Nat.ne_of_lt hlt))
      lost := fun hc => by cases hc
      made := by
        intro k hc
        obtain rfl := Option.some.inj hc
        refine ⟨rfl, by omega, body, hcall, fun st hst => ?_⟩
        exact Option.some.inj (hst.symm.trans ((hread _).trans (if_pos rfl)))
      new := by
        intro k st hge hst
        by_cases hk : k.number = s.strands.next
        · rw [← hk]
        · have hold := ((hread k).trans (if_neg hk)).symm.trans hst
          exact absurd (Table.lt_next_of_get? hold) (Nat.not_lt.mpr hge)
      refused := fun _ hx => by cases hx
      gone := by
        intro k hc
        obtain rfl := Option.some.inj hc
        refine iff_of_false (fun hnone => ?_) (by simp)
        exact absurd (((hread _).trans (if_pos rfl)).symm.trans hnone) (by simp)
      tells := (Tells.of_journal htaken.journal).trans hmakes.tells
      births := by simp [noted, Happening.isBirth]
      ends := by simp [noted, Happening.isEnd]
      answers := rfl }
  exact h.called hcall'

/-- The body makes a strand, and the strand is refused. -/
theorem Crew.refused (h : Crew inv Ended calls exits none s) {v : V} {body : B}
    (hv : inv.inputs[calls.length]? = some v) (htaken : Taken inv calls exits s s₁)
    (hcall : inv.callable calls.length v = .ok body) {s₂ : Scheduler V B}
    (hstrands : s₂.strands = (s₁.strands.add (Strand.create body none none
      (some ⟨inv.job, calls.length⟩))).erase s₁.strands.next)
    (hmakes : Makes [.event ⟨⟨s.strands.next⟩, .created⟩, .event ⟨⟨s.strands.next⟩, .rejected⟩]
      s₁ s₂) (hshut : s₂.IsShut) :
    Crew inv Ended (calls ++ [some ⟨s.strands.next⟩]) exits
      (some ⟨calls.length, ⟨s.strands.next⟩, .refused⟩) s₂ := by
  have hread : ∀ k, s₂.strand? k = s.strand? k := by
    intro k
    rw [strand?, strand?, hstrands, Table.get?_erase, Table.get?_add, htaken.strands]
    by_cases hn : s.strands.next = k.number
    · rw [if_pos hn, ← hn, s.strands.get?_next]
    · rw [if_neg hn, if_neg (Ne.symm hn)]
  have hnext : s₂.strands.next = s.strands.next + 1 := by
    rw [hstrands, Table.next_erase, Table.next_add, htaken.strands]
  have hnone : s₂.strand? ⟨s.strands.next⟩ = none := (hread _).trans (strand?_next s)
  have hcall' : Call inv calls exits v (some ⟨s.strands.next⟩)
      (some ⟨calls.length, ⟨s.strands.next⟩, .refused⟩)
      [.event ⟨⟨s.strands.next⟩, .created⟩, .event ⟨⟨s.strands.next⟩, .rejected⟩] s s₂ :=
    { input := hv
      orderly := hmakes.orderly
      shut := hmakes.shut.trans htaken.shut
      queue := fun h => hmakes.queue (htaken.isShut h)
      entry := by
        rw [job?, hmakes.jobs]
        exact htaken.entry
      next := by omega
      old := fun k _ => hread k
      lost := fun hc => by cases hc
      made := by
        intro k hc
        obtain rfl := Option.some.inj hc
        refine ⟨rfl, by omega, body, hcall, fun st hst => ?_⟩
        rw [hnone] at hst
        cases hst
      new := by
        intro k st hge hst
        have hold := (hread k).symm.trans hst
        exact absurd (Table.lt_next_of_get? hold) (Nat.not_lt.mpr hge)
      refused := by
        rintro x hx
        obtain rfl := Option.some.inj hx
        exact ⟨rfl, rfl, rfl, hshut⟩
      gone := by
        intro k hc
        obtain rfl := Option.some.inj hc
        exact iff_of_true hnone rfl
      tells := (Tells.of_journal htaken.journal).trans hmakes.tells
      births := by simp [noted, Happening.isBirth]
      ends := by simp [noted, Happening.isEnd, Exit.event, Ending.happening]
      answers := rfl }
  exact h.called hcall'

/-- The callable panics, and no strand is made. -/
theorem Crew.panicked (h : Crew inv Ended calls exits none s) {v : V} {p : Panic}
    (hv : inv.inputs[calls.length]? = some v) (htaken : Taken inv calls exits s s₁)
    (hcall : inv.callable calls.length v = .error p) :
    Crew inv Ended (calls ++ [none]) exits none s₁ := by
  have hread : ∀ k, s₁.strand? k = s.strand? k := fun k => by
    rw [strand?, strand?, htaken.strands]
  have hcall' : Call inv calls exits v none none [] s s₁ :=
    { input := hv
      orderly := htaken.orderly
      shut := htaken.shut
      queue := htaken.isShut
      entry := htaken.entry
      next := by rw [htaken.strands]
      old := fun k _ => hread k
      lost := fun _ => ⟨p, hcall⟩
      made := fun _ hc => by cases hc
      new := by
        intro k st hge hst
        rw [hread] at hst
        exact absurd (Table.lt_next_of_get? hst) (Nat.not_lt.mpr hge)
      refused := fun _ hx => by cases hx
      gone := fun _ hc => by cases hc
      tells := .of_journal htaken.journal
      births := rfl
      ends := rfl
      answers := rfl }
  exact h.called hcall'

/-- **The crew after a launch**, whatever comes of it. -/
theorem Crew.attempt (h : Crew inv Ended calls exits none s) (nested : Cancel V B)
    (rounds : Nat) :
    Attempt inv Ended calls exits s nested rounds
      (launchNextWith nested inv.job (rounds + 1) s) := by
  rcases Nat.lt_or_ge calls.length inv.inputs.length with hlt | hge
  · obtain ⟨v, hv⟩ : ∃ v, inv.inputs[calls.length]? = some v :=
      ⟨_, List.getElem?_eq_getElem hlt⟩
    obtain ⟨s₁, htaken, heq⟩ := h.launchNext_eq nested rounds hv
    rw [heq]
    cases hcall : inv.callable calls.length v with
    | error p => exact .panicked hv hcall (h.panicked hv htaken hcall)
    | ok body =>
      have horderly := htaken.orderly.spawn
        { body := body, admission := .invocation, hook := some ⟨inv.job, calls.length⟩ }
        (by
          rintro hook heq
          obtain rfl := Option.some.inj heq
          obtain ⟨entry, k, hj, -⟩ := htaken.entry
          exact Table.lt_next_of_get? hj)
      dsimp only
      rcases spawn_told s₁
        { body := body, admission := .invocation, hook := some ⟨inv.job, calls.length⟩ } with
        ⟨hext, -⟩ | ⟨counters, channel, hspawn⟩ | ⟨counters, channel, hspawn⟩
      · cases hext
      · rw [hspawn] at horderly ⊢
        have hmakes : Makes [.event ⟨⟨s.strands.next⟩, .created⟩] s₁ _ :=
          ⟨horderly, rfl, rfl, id, by rw [Tells, Array.toList_push, htaken.strands]⟩
        exact .launched hlt (h.admitted hv htaken hcall rfl hmakes)
          ((Tells.of_journal htaken.journal).trans hmakes.tells)
      · rw [hspawn] at horderly ⊢
        have hmakes : Makes [.event ⟨⟨s.strands.next⟩, .created⟩,
            .event ⟨⟨s.strands.next⟩, .rejected⟩] s₁ _ :=
          ⟨horderly, rfl, rfl, id, by simp [Tells, htaken.strands]⟩
        have hshut : s₁.IsShut := isShut_of_spawn rfl (congrArg Prod.snd hspawn)
        exact .refused hlt (h.refused hv htaken hcall rfl hmakes hshut)
          ((Tells.of_journal htaken.journal).trans hmakes.tells)
  · obtain ⟨entry, k, hj, hdrive, hstands, hcalls⟩ := h.entry
    have hle := h.calls_le
    have hlength : entry.job.length = inv.inputs.length := hstands.slots_length
    have hindex : entry.job.claim.2 = none := by
      simp only [Job.claim, hstands.cursor, hlength, if_neg (show ¬ k < inv.inputs.length by omega)]
    unfold launchNextWith
    simp only [hj, hdrive, hindex]
    refine .exhausted (by omega) { h with
      orderly := watches_orderly.change (.job s (fun hf => hf) fun _ => rfl) h.orderly
      entry := ⟨{ entry with job := entry.job.claim.1 }, k + 1, ?_, hdrive, ?_, by omega⟩ } rfl
    · rw [job?_updateJob, if_pos rfl, hj]
      rfl
    · simpa [Job.call, Job.accepted, Job.claims, Job.claim] using (hstands.call .claim).2

end Scheduler
end CoopSched
