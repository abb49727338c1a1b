import CoopSched.Proofs.Invocation.Account
import CoopSched.Proofs.Invocation.Beside

/-!
# The crew of a job — what an invocation's calls and exits say about the scheduler

`Crew` is the agreement between the two lists that tell the story of an invocation and the scheduler
itself: the drive has lost the inputs of the calls made so far, the figures of the job stand for the
exits, each call that returned a body made a strand of that body, and this strand has ended just
when it has an exit. The journal tells the same story in the same order.

A strand ends a moment before its job is told. In between its exit is *due*.
-/

namespace CoopSched

variable {V B : Type}

/-- What is true of a strand that has ended so. -/
def Ending.Holds (Ended : StrandId → Outcome V → Prop) (s : Scheduler V B) (k : StrandId) :
    Ending V → Prop
  | .finished r => Ended k r ∧ ∃ st, s.strand? k = some st
  | .cancelled reason =>
      reason.kind = .cancelled ∧ s.isShutDown = true ∧ ∃ st, s.strand? k = some st
  | .refused => s.strand? k = none

namespace Scheduler

variable {inv : Invocation V B} {Ended : StrandId → Outcome V → Prop}
  {calls : List (Option StrandId)} {exits : List (Exit V)} {due : Option (Exit V)}
  {s s' : Scheduler V B}

/-- The invocation has come so far: these calls were made, these strands have ended. -/
structure Crew (inv : Invocation V B) (Ended : StrandId → Outcome V → Prop)
    (calls : List (Option StrandId)) (exits : List (Exit V)) (due : Option (Exit V))
    (s : Scheduler V B) : Prop where
  orderly : Orderly s
  entry : ∃ entry k, s.job? inv.job = some entry ∧
    entry.drive = some (inv.driveAfter calls.length) ∧
    Job.Stands inv.inputs.length (exits.map Exit.submission) k entry.job ∧
    calls.length = min k inv.inputs.length
  lost : ∀ i, calls[i]? = some none →
    ∃ v p, inv.inputs[i]? = some v ∧ inv.callable i v = .error p
  made : ∀ i k, calls[i]? = some (some k) →
    ∃ v body, inv.inputs[i]? = some v ∧ inv.callable i v = .ok body ∧
      ∀ st, s.strand? k = some st → st.hook = some ⟨inv.job, i⟩ ∧ st.StartsWith body
  before : ∀ k, some k ∈ calls → k.number < s.strands.next
  ascending : ∀ (i i' : Nat) (k k' : StrandId), i < i' → calls[i]? = some (some k) →
    calls[i']? = some (some k') → k.number < k'.number
  hooked : ∀ k st i, s.strand? k = some st → st.hook = some ⟨inv.job, i⟩ →
    calls[i]? = some (some k)
  gone : ∀ k, some k ∈ calls → (k ∈ (exits ++ due.toList).map Exit.strand ↔
    ∀ st, s.strand? k = some st → st.status.isTerminal = true)
  exit : ∀ x ∈ exits ++ due.toList, calls[x.index]? = some (some x.strand) ∧
    x.ending.Holds Ended s x.strand
  refusals : ∀ x ∈ exits ++ due.toList, x.ending = .refused → s.IsShut
  indices : ((exits ++ due.toList).map Exit.index).Nodup
  births : noted Happening.isBirth calls.reduceOption s.journal.toList =
    calls.reduceOption.map (⟨·, .created⟩)
  ends : noted Happening.isEnd calls.reduceOption s.journal.toList =
    (exits ++ due.toList).map Exit.event
  answers : if exits.length = inv.inputs.length
    then ∃ answer, answersOf inv.job s.journal.toList = [answer] ∧
      Job.Answers inv.inputs.length (exits.map Exit.submission) answer
    else answersOf inv.job s.journal.toList = []

/-! ## What the lists alone say -/

/-- A strand was made by one call only. -/
theorem Crew.index_unique (h : Crew inv Ended calls exits due s) {i i' : Nat} {k : StrandId}
    (hi : calls[i]? = some (some k)) (hi' : calls[i']? = some (some k)) : i = i' := by
  rcases Nat.lt_trichotomy i i' with hlt | heq | hlt
  · exact absurd (h.ascending i i' k k hlt hi hi') (Nat.lt_irrefl _)
  · exact heq
  · exact absurd (h.ascending i' i k k hlt hi' hi) (Nat.lt_irrefl _)

theorem Crew.calls_le (h : Crew inv Ended calls exits due s) :
    calls.length ≤ inv.inputs.length := by
  obtain ⟨entry, k, -, -, -, hcalls⟩ := h.entry
  omega

/-- There are no more exits than calls, since an index has at most one. -/
theorem Crew.exits_le (h : Crew inv Ended calls exits due s) :
    (exits ++ due.toList).length ≤ calls.length := by
  have hsub : (exits ++ due.toList).map Exit.index ⊆ List.range calls.length := by
    intro i hi
    obtain ⟨x, hx, rfl⟩ := List.mem_map.mp hi
    obtain ⟨hlt, -⟩ := List.getElem?_eq_some_iff.mp (h.exit x hx).1
    exact List.mem_range.mpr hlt
  have hle := (h.indices.subperm hsub).length_le
  rwa [List.length_map, List.length_range] at hle

/-! ## What goes on beside the job -/

/-- An old strand after something that the job does not notice. -/
theorem Beside.row {j : JobId} (hb : Beside j s s') {k : StrandId} {st' : Strand V B}
    (hlt : k.number < s.strands.next) (hst' : s'.strand? k = some st') :
    ∃ st, s.strand? k = some st ∧ st'.hook = st.hook ∧
      ∀ i, st.hook = some ⟨j, i⟩ → Stays st st' := by
  obtain ⟨st, hst⟩ := (hb.new k st' hst').resolve_right fun h => absurd h.1 (Nat.not_le.mpr hlt)
  obtain ⟨last, hlast, hhook, hstays⟩ := hb.old k st hst
  obtain rfl := Option.some.inj (hlast.symm.trans hst')
  exact ⟨st, hst, hhook, hstays⟩

/-- Records that spare the job say nothing about its crew. -/
theorem Crew.silent (h : Crew inv Ended calls exits due s) {rec : Record V}
    (hspares : rec.Spares s inv.job) : rec.IsSilent calls.reduceOption := by
  cases rec with
  | answered j answer => trivial
  | event e =>
    intro hmilestone hmem
    have hcalled := List.reduceOption_mem_iff.mp hmem
    obtain ⟨i, hi⟩ := List.getElem?_of_mem hcalled
    obtain ⟨v, body, -, -, hrow⟩ := h.made i _ hi
    rcases hspares hmilestone with hnew | ⟨st, hst, hhook⟩
    · exact absurd (h.before _ hcalled) (Nat.not_lt.mpr hnew)
    · exact hhook _ (hrow st hst).1 rfl

theorem Beside.holds {j : JobId} (hb : Beside j s s') {e : Ending V} {k : StrandId}
    (h : e.Holds Ended s k) (hlt : k.number < s.strands.next) : e.Holds Ended s' k := by
  have hrow : (∃ st, s.strand? k = some st) → ∃ st', s'.strand? k = some st' := by
    rintro ⟨st, hst⟩
    obtain ⟨st', hst', -⟩ := hb.old k st hst
    exact ⟨st', hst'⟩
  cases e with
  | finished r => exact ⟨h.1, hrow h.2⟩
  | cancelled reason => exact ⟨h.1, hb.shut h.2.1, hrow h.2.2⟩
  | refused =>
    have hnone : s.strand? k = none := h
    show s'.strand? k = none
    rw [Option.eq_none_iff_forall_ne_some]
    intro st' hst'
    obtain ⟨st, hst, -⟩ := hb.row hlt hst'
    rw [hnone] at hst
    cases hst

/-- What the job does not notice changes nothing about its crew. -/
theorem Crew.beside (h : Crew inv Ended calls exits due s) (hb : Beside inv.job s s')
    (horderly : Orderly s') : Crew inv Ended calls exits due s' := by
  obtain ⟨recs, htells, hspares⟩ := hb.tells
  have hsilent : ∀ rec ∈ recs, rec.IsSilent calls.reduceOption := fun rec hrec =>
    h.silent (hspares rec hrec)
  have hnoted : ∀ kind : Happening → Bool, (∀ h, kind h = true → h.isMilestone = true) →
      noted kind calls.reduceOption s'.journal.toList =
        noted kind calls.reduceOption s.journal.toList := by
    intro kind hkind
    rw [htells, noted_append, noted_silent hkind hsilent, List.append_nil]
  have hanswers : answersOf inv.job s'.journal.toList = answersOf inv.job s.journal.toList := by
    have hnone : answersOf inv.job recs = [] := by
      refine answersOf_nil ?_
      rintro rec hrec answer rfl
      exact hspares _ hrec rfl
    rw [htells, answersOf_append, hnone, List.append_nil]
  refine
    { orderly := horderly, entry := by rw [hb.job]; exact h.entry, lost := h.lost, made := ?_,
      before := fun k hk => Nat.lt_of_lt_of_le (h.before k hk) hb.next,
      ascending := h.ascending, hooked := ?_, gone := ?_, exit := ?_,
      refusals := fun x hx hrefused => hb.queue (h.refusals x hx hrefused), indices := h.indices,
      births := (hnoted _ Happening.isMilestone_of_isBirth).trans h.births,
      ends := (hnoted _ Happening.isMilestone_of_isEnd).trans h.ends,
      answers := by rw [hanswers]; exact h.answers }
  · intro i k hi
    obtain ⟨v, body, hv, hbody, hrow⟩ := h.made i k hi
    refine ⟨v, body, hv, hbody, fun st' hst' => ?_⟩
    obtain ⟨st, hst, hhook, hstays⟩ := hb.row (h.before k (List.mem_of_getElem? hi)) hst'
    obtain ⟨hhook', hstarts⟩ := hrow st hst
    exact ⟨hhook.trans hhook', (hstays i hhook').starts body hstarts⟩
  · intro k st' i hst' hhook'
    rcases hb.new k st' hst' with ⟨st, hst⟩ | ⟨-, hother⟩
    · obtain ⟨last, hlast, hhook, -⟩ := hb.old k st hst
      obtain rfl := Option.some.inj (hlast.symm.trans hst')
      exact h.hooked k st i hst (hhook.symm.trans hhook')
    · exact absurd rfl (hother _ hhook')
  · intro k hk
    rw [h.gone k hk]
    obtain ⟨i, hi⟩ := List.getElem?_of_mem hk
    obtain ⟨v, body, -, -, hseat⟩ := h.made i k hi
    constructor
    · intro hend st' hst'
      obtain ⟨st, hst, -, hstays⟩ := hb.row (h.before k hk) hst'
      rw [(hstays i (hseat st hst).1).ended]
      exact hend st hst
    · intro hend st hst
      obtain ⟨st', hst', -, hstays⟩ := hb.old k st hst
      rw [← (hstays i (hseat st hst).1).ended]
      exact hend st' hst'
  · intro x hx
    obtain ⟨hcall, hholds⟩ := h.exit x hx
    exact ⟨hcall, hb.holds hholds (h.before _ (List.mem_of_getElem? hcall))⟩

/-! ## A strand of the job ends -/

/-- A strand ends, and nobody has been told but the observers. -/
structure Leaves (s s₁ : Scheduler V B) (id : StrandId) (st : Strand V B) (ending : Ending V) :
    Prop where
  row : s.strand? id = some st
  strands : ∃ f, s₁.strands = s.strands.update id.number f ∧ (f st).hook = st.hook ∧
    (f st).status.isTerminal = true
  jobs : s₁.jobs = s.jobs
  shut : s₁.isShutDown = s.isShutDown
  queue : s₁.queue = s.queue
  tells : ∃ idle idle', Tells s s₁ (idle ++ .event ⟨id, ending.happening⟩ :: idle') ∧
    (∀ rec ∈ idle, rec.isIdle = true) ∧ ∀ rec ∈ idle', rec.isIdle = true

theorem leaves_cut {id : StrandId} {st : Strand V B} (hst : s.strand? id = some st)
    (reason : Failure) : Leaves s (s.cut id st.bridge) id st (.cancelled reason) := by
  obtain ⟨counters, journal, channel, heq⟩ := cut_eq hst
  obtain ⟨idle, htells, hidle⟩ := cut_tells s id st.bridge
  exact ⟨hst, ⟨Strand.cut, by rw [heq], rfl, rfl⟩, by rw [heq], by rw [heq]; rfl, by rw [heq],
    idle, [], htells, hidle, fun _ hrec => absurd hrec List.not_mem_nil⟩

theorem leaves_markFinished {id : StrandId} {st : Strand V B} (hst : s.strand? id = some st)
    (outcome : Outcome V) :
    Leaves s (s.markFinished id outcome.isOk) id st (.finished outcome) := by
  obtain ⟨counters, journal, channel, heq⟩ := markFinished_eq s id outcome.isOk
  obtain ⟨idle, htells, hidle⟩ := markFinished_tells s id outcome.isOk
  exact ⟨hst, ⟨Strand.finished outcome.isOk, by rw [heq], rfl, Status.finished_terminal _⟩,
    by rw [heq], by rw [heq]; rfl, by rw [heq], [], idle, htells,
    fun _ hrec => absurd hrec List.not_mem_nil, hidle⟩

theorem Leaves.strand? {s₁ : Scheduler V B} {id : StrandId} {st : Strand V B} {ending : Ending V}
    (hl : Leaves s s₁ id st ending) (k : StrandId) : ∃ st₁, st₁.hook = st.hook ∧
      st₁.status.isTerminal = true ∧ s₁.strand? k = if id = k then some st₁ else s.strand? k := by
  obtain ⟨f, hstrands, hhook, hend⟩ := hl.strands
  exact ⟨f st, hhook, hend, strand?_of_update_some hstrands hl.row k⟩

/-- What the observers are told when a strand ends. -/
theorem Leaves.noted {s₁ : Scheduler V B} {id : StrandId} {st : Strand V B} {ending : Ending V}
    (hl : Leaves s s₁ id st ending) {kind : Happening → Bool} {ids : List StrandId}
    (hkind : ∀ h, kind h = true → h.isMilestone = true) (hid : id ∈ ids) :
    noted kind ids s₁.journal.toList = noted kind ids s.journal.toList ++
      if kind ending.happening then [⟨id, ending.happening⟩] else [] := by
  obtain ⟨idle, idle', htells, hidle, hidle'⟩ := hl.tells
  have hsilent : ∀ recs : List (Record V), (∀ rec ∈ recs, rec.isIdle = true) →
      CoopSched.noted kind ids recs = [] :=
    fun recs hrecs => noted_silent hkind fun rec hrec => .of_idle (hrecs rec hrec)
  have hone : CoopSched.noted kind ids [Record.event (V := V) ⟨id, ending.happening⟩] =
      if kind ending.happening then [⟨id, ending.happening⟩] else [] := by
    by_cases hends : kind ending.happening = true <;> simp [CoopSched.noted, hid, hends]
  rw [htells, ← List.singleton_append, noted_append, noted_append, noted_append, hsilent idle hidle,
    hsilent idle' hidle', hone, List.nil_append, List.append_nil]

theorem Leaves.answersOf {s₁ : Scheduler V B} {id : StrandId} {st : Strand V B}
    {ending : Ending V} (hl : Leaves s s₁ id st ending) (j : JobId) :
    answersOf j s₁.journal.toList = answersOf j s.journal.toList := by
  obtain ⟨idle, idle', htells, hidle, hidle'⟩ := hl.tells
  have hnone : CoopSched.answersOf j (idle ++ .event ⟨id, ending.happening⟩ :: idle') = [] := by
    refine answersOf_nil ?_
    rintro rec hrec answer rfl
    rcases List.mem_append.mp hrec with hrec | hrec
    · cases hidle _ hrec
    · rcases List.mem_cons.mp hrec with heq | hrec
      · cases heq
      · cases hidle' _ hrec
  rw [htells, answersOf_append, hnone, List.append_nil]

theorem Leaves.other {s₁ : Scheduler V B} {id : StrandId} {st : Strand V B} {ending : Ending V}
    (hl : Leaves s s₁ id st ending) {k : StrandId} (hk : k ≠ id) :
    s₁.strand? k = s.strand? k := by
  obtain ⟨_, -, -, heq⟩ := hl.strand? k
  rw [heq, if_neg (Ne.symm hk)]

section

variable {s₁ : Scheduler V B} {id : StrandId} {st : Strand V B} {i : Nat} {ending : Ending V}

/-- A strand of the job that has not ended has no exit yet. -/
theorem Crew.stays (h : Crew inv Ended calls exits none s) (hst : s.strand? id = some st)
    (hend : st.status.isTerminal = false) (hcall : calls[i]? = some (some id)) :
    id ∉ exits.map Exit.strand := by
  intro hgone
  have hterm := (h.gone id (List.mem_of_getElem? hcall)).mp (by simpa using hgone) st hst
  rw [hend] at hterm
  cases hterm

/-- What the strand that ends is to the job afterwards. -/
theorem Leaves.hooked (hl : Leaves s s₁ id st ending) {k : StrandId} {st' : Strand V B}
    (hst' : s₁.strand? k = some st') : ∃ last, s.strand? k = some last ∧ st'.hook = last.hook ∧
      (st' = last ∨ st'.status.isTerminal = true) := by
  by_cases hk : k = id
  · subst hk
    obtain ⟨st₁, hhook₁, hend₁, hid⟩ := hl.strand? k
    rw [if_pos rfl] at hid
    obtain rfl := Option.some.inj (hid.symm.trans hst')
    exact ⟨st, hl.row, hhook₁, Or.inr hend₁⟩
  · exact ⟨st', (hl.other hk).symm.trans hst', rfl, Or.inl rfl⟩

theorem Crew.leave_gone (h : Crew inv Ended calls exits none s) (hl : Leaves s s₁ id st ending)
    (k : StrandId) (hk : some k ∈ calls) :
    k ∈ (exits ++ [(⟨i, id, ending⟩ : Exit V)]).map Exit.strand ↔
      ∀ st, s₁.strand? k = some st → st.status.isTerminal = true := by
  simp only [List.map_append, List.map_cons, List.map_nil, List.mem_append, List.mem_singleton]
  by_cases hkid : k = id
  · subst hkid
    obtain ⟨st₁, -, hend₁, hid⟩ := hl.strand? k
    rw [if_pos rfl] at hid
    refine iff_of_true (Or.inr rfl) fun st' hst' => ?_
    obtain rfl := Option.some.inj (hid.symm.trans hst')
    exact hend₁
  · rw [or_iff_left hkid, hl.other hkid]
    simpa using h.gone k hk

theorem Crew.leave_exit (h : Crew inv Ended calls exits none s) (hl : Leaves s s₁ id st ending)
    (hstays : id ∉ exits.map Exit.strand) (hcall : calls[i]? = some (some id))
    (hholds : ending.Holds Ended s₁ id) (x : Exit V) (hx : x ∈ exits ++ [⟨i, id, ending⟩]) :
    calls[x.index]? = some (some x.strand) ∧ x.ending.Holds Ended s₁ x.strand := by
  rcases List.mem_append.mp hx with hx | hx
  · obtain ⟨hcall', hholds'⟩ := h.exit x (List.mem_append_left _ hx)
    have hne : x.strand ≠ id := fun heq => hstays (heq ▸ List.mem_map_of_mem hx)
    refine ⟨hcall', ?_⟩
    unfold Ending.Holds at hholds' ⊢
    rw [hl.other hne, hl.shut]
    exact hholds'
  · obtain rfl := List.mem_singleton.mp hx
    exact ⟨hcall, hholds⟩

theorem Crew.leave_indices (h : Crew inv Ended calls exits none s)
    (hstays : id ∉ exits.map Exit.strand) (hcall : calls[i]? = some (some id)) :
    ((exits ++ [(⟨i, id, ending⟩ : Exit V)]).map Exit.index).Nodup := by
  have hnot : i ∉ exits.map Exit.index := by
    intro hi
    obtain ⟨x, hx, rfl⟩ := List.mem_map.mp hi
    obtain ⟨hcall', -⟩ := h.exit x (List.mem_append_left _ hx)
    have heq : x.strand = id := by simpa [hcall'] using hcall
    exact hstays (heq ▸ List.mem_map_of_mem hx)
  have hnodup : (exits.map Exit.index).Nodup := by simpa using h.indices
  simpa [List.nodup_append] using ⟨hnodup, fun x hx heq => hnot (heq ▸ List.mem_map_of_mem hx)⟩

/-- **A strand of the job ends; its exit is due.** -/
theorem Crew.leave (h : Crew inv Ended calls exits none s) (hl : Leaves s s₁ id st ending)
    (hend : st.status.isTerminal = false) (hhook : st.hook = some ⟨inv.job, i⟩)
    (horderly : Orderly s₁) (hholds : ending.Holds Ended s₁ id) :
    Crew inv Ended calls exits (some ⟨i, id, ending⟩) s₁ := by
  have hcall := h.hooked id st i hl.row hhook
  have hmem := List.reduceOption_mem_iff.mpr (List.mem_of_getElem? hcall)
  have hstays := h.stays hl.row hend hcall
  have hnext : s₁.strands.next = s.strands.next := by
    obtain ⟨f, hstrands, -⟩ := hl.strands
    rw [hstrands, Table.next_update]
  refine
    { orderly := horderly
      entry := by
        rw [job?, hl.jobs]
        exact h.entry
      lost := h.lost
      made := ?_
      before := by
        rw [hnext]
        exact h.before
      ascending := h.ascending
      hooked := ?_
      gone := h.leave_gone hl
      exit := h.leave_exit hl hstays hcall hholds
      refusals := ?_
      indices := h.leave_indices hstays hcall
      births := ?_
      ends := ?_
      answers := by
        rw [hl.answersOf]
        exact h.answers }
  · intro n k hn
    obtain ⟨v, body, hv, hbody, hrow⟩ := h.made n k hn
    refine ⟨v, body, hv, hbody, fun st' hst' => ?_⟩
    obtain ⟨last, hlast, hhook', rfl | hend'⟩ := hl.hooked hst'
    · exact hrow st' hlast
    · refine ⟨hhook'.trans (hrow last hlast).1, fun _ hrun => ?_⟩
      rw [hend'] at hrun
      cases hrun
  · intro k st' n hst' hhook'
    obtain ⟨last, hlast, hsame, -⟩ := hl.hooked hst'
    exact h.hooked k last n hlast (hsame.symm.trans hhook')
  · intro x hx hrefused
    rw [IsShut, hl.queue]
    rcases List.mem_append.mp hx with hx | hx
    · exact h.refusals x (List.mem_append_left _ hx) hrefused
    · -- Whoever was refused was never there, and this strand is.
      obtain rfl := List.mem_singleton.mp hx
      obtain rfl : ending = .refused := hrefused
      obtain ⟨st₁, -, -, hrow⟩ := hl.strand? id
      cases (hrow.trans (if_pos rfl)).symm.trans hholds
  · rw [hl.noted Happening.isMilestone_of_isBirth hmem, h.births]
    cases ending <;> simp [Ending.happening, Happening.isBirth]
  · rw [hl.noted Happening.isMilestone_of_isEnd hmem, h.ends, ending.isEnd_happening, if_pos rfl]
    simp [Exit.event]

end

end Scheduler
end CoopSched
