import CoopSched.Proofs.Invocation.Beside

/-!
# Lines — the strands of a job stand in the order of their indices

Strands that have gone, then the strands on the workers, then those that wait: that is a procession
in which a strand only ever moves to the front. One that is taken from the queue keeps its place,
and so does one that finishes, as long as there is one worker. New strands join at the end, and they
have larger numbers than all before them. Only a strand that yields, or that was blocked, joins
again (`Grows`).

So the strands of a job that never do the one or the other stand in the order of their numbers in it
(`Lined`), however many of them there are at a time and whoever stands between them.
-/

namespace CoopSched

variable {V B : Type}

/-- The strands that have gone, in the order in which the journal says so. -/
def departures (recs : List (Record V)) : List StrandId :=
  recs.filterMap fun
    | .event e => if e.happening.isEnd then some e.strand else none
    | .answered .. => none

@[simp] theorem departures_append (recs recs' : List (Record V)) :
    departures (recs ++ recs') = departures recs ++ departures recs' :=
  List.filterMap_append

theorem departures_idle {recs : List (Record V)} (h : ∀ rec ∈ recs, rec.isIdle = true) :
    departures recs = [] := by
  rw [departures, List.filterMap_eq_nil_iff]
  intro rec hrec
  have hidle := h rec hrec
  match rec with
  | .answered .. => rfl
  | .event ⟨id, happening⟩ => cases happening <;> first | rfl | cases hidle

namespace Scheduler

variable {j : JobId} {held busy : List StrandId} {s s' : Scheduler V B} {id k : StrandId}
  {st : Strand V B}

theorem Tells.departures {recs : List (Record V)} (h : Tells s s' recs) :
    departures s'.journal.toList = departures s.journal.toList ++ departures recs := by
  rw [h, departures_append]

/-- Was the strand launched for the job? -/
def serves (s : Scheduler V B) (j : JobId) (k : StrandId) : Bool :=
  ((s.strand? k).bind (·.hook)).map (·.job) = some j

theorem serves_iff : s.serves j k = true ↔
    ∃ st i, s.strand? k = some st ∧ st.hook = some ⟨j, i⟩ := by
  rw [serves, decide_eq_true_eq]
  constructor
  · intro h
    obtain ⟨⟨j', i⟩, hhook, rfl⟩ := Option.map_eq_some_iff.mp h
    obtain ⟨st, hst, hst'⟩ := Option.bind_eq_some_iff.mp hhook
    exact ⟨st, i, hst, hst'⟩
  · rintro ⟨st, i, hst, hhook⟩
    rw [hst, Option.bind_some, hhook]
    rfl

/-- Everybody who has gone, who is busy and who waits, in this order. -/
def procession (s : Scheduler V B) (busy : List StrandId) : List StrandId :=
  departures s.journal.toList ++ busy ++ s.queue.waiting

/-- On one worker, with these strands on it, the strands of the job stand in order. -/
structure Lined (j : JobId) (held busy : List StrandId) (s : Scheduler V B) : Prop where
  workers : s.workers = 1
  held : s.held = held
  alive : s.terminated = false
  numbered : ∀ k ∈ s.procession busy, k.number < s.strands.next
  awake : ∀ k st i, s.strand? k = some st → st.hook = some ⟨j, i⟩ → st.status ≠ .blocked
  ascending : ((s.procession busy).filter (s.serves j)).Pairwise fun k k' => k.number < k'.number

/-! ## The procession grows -/

/-- Somebody may have joined the procession at its end: a new strand, or one that does not serve the
    job. Nobody who serves it has gone. -/
structure Grows (j : JobId) (s s' : Scheduler V B) : Prop where
  workers : s'.workers = s.workers
  held : s'.held = s.held
  alive : s'.terminated = s.terminated
  next : s.strands.next ≤ s'.strands.next
  serves : ∀ k, k.number < s.strands.next → s'.serves j k = s.serves j k
  awake : ∀ k st' i, s'.strand? k = some st' → st'.hook = some ⟨j, i⟩ → st'.status = .blocked →
    ∃ st, s.strand? k = some st ∧ st.hook = some ⟨j, i⟩ ∧ st.status = .blocked
  queue : ∃ joins : Option StrandId, s'.queue.waiting = s.queue.waiting ++ joins.toList ∧
    ∀ k, joins = some k → k.number < s'.strands.next ∧
      (s'.serves j k = true → s.strands.next ≤ k.number)
  gone : ∃ recs, Tells s s' recs ∧
    ∀ k ∈ departures recs, k.number < s'.strands.next ∧ s'.serves j k = false

theorem Grows.filter_eq (hg : Grows j s s') {l : List StrandId}
    (hl : ∀ k ∈ l, k.number < s.strands.next) :
    l.filter (s'.serves j) = l.filter (s.serves j) :=
  List.filter_congr fun k hk => hg.serves k (hl k hk)

/-- Who joins comes after all the others of the job. -/
theorem Lined.grows (h : Lined j held busy s) (hg : Grows j s s') : Lined j held busy s' := by
  obtain ⟨recs, htells, hgone⟩ := hg.gone
  obtain ⟨joins, hqueue, hjoins⟩ := hg.queue
  have hnumbered := h.numbered
  simp only [procession, List.mem_append] at hnumbered
  have hline : (s'.procession busy).filter (s'.serves j) =
      (s.procession busy).filter (s.serves j) ++ joins.toList.filter (s'.serves j) := by
    have hnone : (departures recs).filter (s'.serves j) = [] :=
      List.filter_eq_nil_iff.mpr fun k hk => by simp [(hgone k hk).2]
    simp only [procession, htells.departures, hqueue, List.filter_append, hnone,
      List.nil_append, List.append_assoc,
      hg.filter_eq fun k hk => hnumbered k (Or.inl (Or.inl hk)),
      hg.filter_eq fun k hk => hnumbered k (Or.inl (Or.inr hk)),
      hg.filter_eq fun k hk => hnumbered k (Or.inr hk)]
  refine
    { workers := hg.workers.trans h.workers, held := hg.held.trans h.held,
      alive := hg.alive.trans h.alive, numbered := ?_, awake := ?_, ascending := ?_ }
  · intro k hk
    simp only [procession, htells.departures, hqueue, List.mem_append] at hk
    rcases hk with ((hk | hk) | hk) | hk | hk
    · exact Nat.lt_of_lt_of_le (hnumbered k (Or.inl (Or.inl hk))) hg.next
    · exact (hgone k hk).1
    · exact Nat.lt_of_lt_of_le (hnumbered k (Or.inl (Or.inr hk))) hg.next
    · exact Nat.lt_of_lt_of_le (hnumbered k (Or.inr hk)) hg.next
    · exact (hjoins k (Option.mem_toList.mp hk)).1
  · intro k st' i hst' hhook hs
    obtain ⟨st, hst, hhook', hs'⟩ := hg.awake k st' i hst' hhook hs
    exact h.awake k st i hst hhook' hs'
  · rw [hline, List.pairwise_append]
    refine ⟨h.ascending, ?_, ?_⟩
    · cases joins with
      | none => exact List.Pairwise.nil
      | some k => exact (List.pairwise_singleton _ k).sublist List.filter_sublist
    · intro k hk k' hk'
      obtain ⟨hmem, hserves⟩ := List.mem_filter.mp hk'
      have hge := (hjoins k' (Option.mem_toList.mp hmem)).2 hserves
      exact Nat.lt_of_lt_of_le (h.numbered k (List.mem_filter.mp hk).1) hge

/-- No row has changed. -/
theorem Grows.of_same (hworkers : s'.workers = s.workers) (hheld : s'.held = s.held)
    (halive : s'.terminated = s.terminated) (hstrands : s'.strands = s.strands)
    (hqueue : s'.queue.waiting = s.queue.waiting)
    (hgone : ∃ recs, Tells s s' recs ∧ departures recs = []) : Grows j s s' := by
  have hrow : ∀ k, s'.strand? k = s.strand? k := fun k => by rw [strand?, strand?, hstrands]
  refine
    { workers := hworkers, held := hheld, alive := halive, next := by rw [hstrands],
      serves := fun k _ => by rw [Scheduler.serves, Scheduler.serves, hrow], awake := ?_,
      queue := ⟨none, by rw [hqueue]; simp, by simp⟩, gone := ?_ }
  · intro k st' i hst' hhook hs
    exact ⟨st', (hrow k).symm.trans hst', hhook, hs⟩
  · obtain ⟨recs, htells, hnone⟩ := hgone
    exact ⟨recs, htells, by simp [hnone]⟩

theorem Hushed.departures (h : Hushed s s') :
    ∃ recs, Tells s s' recs ∧ departures recs = [] := by
  obtain ⟨recs, htells, hidle⟩ := h
  exact ⟨recs, htells, departures_idle hidle⟩

/-- The row of a strand has changed, and the strand may have joined the queue if it does not serve
    the job. -/
theorem Grows.of_row {f : Strand V B → Strand V B} (hst : s.strand? id = some st)
    (hstrands : s'.strands = s.strands.update id.number f) (hhook : (f st).hook = st.hook)
    (hawake : (f st).status = .blocked → st.status = .blocked ∨ s.serves j id = false)
    (hworkers : s'.workers = s.workers) (hheld : s'.held = s.held)
    (halive : s'.terminated = s.terminated)
    (hqueue : s'.queue.waiting = s.queue.waiting ∨
      s'.queue.waiting = s.queue.waiting ++ [id] ∧ s.serves j id = false)
    (hhushed : Hushed s s') : Grows j s s' := by
  have hrow := strand?_of_update_some hstrands hst
  have hserves : ∀ k, s'.serves j k = s.serves j k := by
    intro k
    rw [Scheduler.serves, Scheduler.serves, hrow]
    split
    next hk =>
      rw [← hk, hst, Option.bind_some, Option.bind_some, hhook]
    next => rfl
  obtain ⟨recs, htells, hnone⟩ := hhushed.departures
  refine
    { workers := hworkers, held := hheld, alive := halive,
      next := by rw [hstrands, Table.next_update], serves := fun k _ => hserves k, awake := ?_,
      queue := ?_, gone := ⟨recs, htells, by simp [hnone]⟩ }
  · intro k st' i hst' hhook' hs
    rw [hrow] at hst'
    split at hst'
    next hk =>
      obtain rfl := Option.some.inj hst'
      subst hk
      refine ⟨st, hst, hhook ▸ hhook', (hawake hs).resolve_right fun hno => ?_⟩
      rw [serves_iff.mpr ⟨st, i, hst, hhook ▸ hhook'⟩] at hno
      cases hno
    next => exact ⟨st', hst', hhook', hs⟩
  · rcases hqueue with hsame | ⟨hjoins, hno⟩
    · exact ⟨none, by rw [hsame]; simp, by simp⟩
    · refine ⟨some id, hjoins, fun k hk => ?_⟩
      obtain rfl := Option.some.inj hk
      rw [hserves, hno, hstrands, Table.next_update]
      exact ⟨Table.lt_next_of_get? hst, fun hf => by cases hf⟩

/-- A new strand joins at the end, unless it is refused. -/
theorem Grows.spawn (s : Scheduler V B) (r : SpawnRequest B) : Grows j s (s.spawn r).1 := by
  rcases spawn_told s r with ⟨-, heq⟩ | ⟨counters, channel, heq⟩ | ⟨counters, channel, heq⟩
  · rw [heq]
    exact .of_same rfl rfl rfl rfl rfl ⟨[], .of_journal rfl, rfl⟩
  · rw [heq]
    have hread : ∀ k : StrandId, (s.strands.add (Strand.create r.body r.name r.parent r.hook)).get?
        k.number = if k.number = s.strands.next then
          some (Strand.create r.body r.name r.parent r.hook) else s.strand? k := fun k =>
      Table.get?_add _ _ _
    refine
      { workers := rfl, held := rfl, alive := rfl, next := by simp [Table.next_add],
        serves := fun k hk => ?_, awake := fun k st' i hst' hhook hs => ?_,
        queue := ⟨some ⟨s.strands.next⟩, rfl, fun k hk => ?_⟩,
        gone := ⟨_, .push rfl, by simp [CoopSched.departures, Happening.isEnd]⟩ }
    · rw [Scheduler.serves, Scheduler.serves, strand?, hread, if_neg (Nat.ne_of_lt hk)]
    · rw [strand?, hread] at hst'
      split at hst'
      · rw [← Option.some.inj hst'] at hs
        cases hs
      · exact ⟨st', hst', hhook, hs⟩
    · obtain rfl := Option.some.inj hk
      exact ⟨by simp [Table.next_add], fun _ => le_rfl⟩
  · rw [heq]
    have hread : ∀ k : StrandId,
        ((s.strands.add (Strand.create r.body r.name r.parent r.hook)).erase
          s.strands.next).get? k.number = s.strand? k := by
      intro k
      rw [Table.get?_erase, Table.get?_add]
      by_cases hk : s.strands.next = k.number
      · rw [if_pos hk, strand?, ← hk, s.strands.get?_next]
      · rw [if_neg hk, if_neg (Ne.symm hk), strand?]
    refine
      { workers := rfl, held := rfl, alive := rfl,
        next := by simp [Table.next_add, Table.next_erase],
        serves := fun k _ => by rw [Scheduler.serves, Scheduler.serves, strand?, hread],
        awake := fun k st' i hst' hhook hs => ⟨st', (hread k).symm.trans hst', hhook, hs⟩,
        queue := ⟨none, by simp, by simp⟩,
        gone := ⟨[.event ⟨⟨s.strands.next⟩, .created⟩, .event ⟨⟨s.strands.next⟩, .rejected⟩],
          by simp [Tells], fun k hk => ?_⟩ }
    obtain rfl : k = ⟨s.strands.next⟩ := by
      simpa [CoopSched.departures, Happening.isEnd] using hk
    refine ⟨by simp [Table.next_add, Table.next_erase], ?_⟩
    rw [Scheduler.serves, strand?, hread, strand?_next]
    rfl

/-! ## What ends nobody -/

/-- Of the strands of the job nobody is blocked, so nobody joins again when it is woken. -/
theorem Lined.wake (h : Lined j held busy s) (id : StrandId) : Lined j held busy (s.wake id) := by
  cases hst : s.strand? id with
  | none =>
    rw [wake_none hst]
    exact h
  | some st =>
    have hhushed := hushed_wake h.alive id
    obtain ⟨counters, journal, channel, heq⟩ := wake_eq h.alive hst
    rw [heq] at hhushed ⊢
    refine h.grows (.of_row (f := Strand.woken) hst rfl rfl (fun hs => ?_) rfl rfl rfl ?_ hhushed)
    · unfold Strand.woken at hs
      cases hstatus : st.status <;> simp [hstatus, Status.wake] at hs
    · by_cases hblocked : st.status = .blocked
      · refine Or.inr ⟨by rw [if_pos hblocked]; rfl, ?_⟩
        by_contra hserves
        obtain ⟨st', i, hst', hhook⟩ := serves_iff.mp (Bool.eq_true_of_not_eq_false hserves)
        obtain rfl := Option.some.inj (hst.symm.trans hst')
        exact h.awake id st i hst hhook hblocked
      · exact Or.inl (by rw [if_neg hblocked])

/-- **What a move sets off leaves the line in order.** -/
theorem bears_lined : Bears (fun _ => False) (fun _ => True) (Lined (V := V) (B := B) j held busy)
    where
  update := by
    intro s s' hr h
    cases hr with
    | setBridge hb x =>
      exact h.grows (.of_same rfl rfl rfl rfl rfl ⟨[], .of_journal rfl, rfl⟩)
    | wake alive id => exact h.wake id
    | answered hj hentry answer =>
      exact h.grows (.of_same rfl rfl rfl rfl rfl ⟨_, .push rfl, rfl⟩)
    | job hj hf hslots =>
      exact h.grows (.of_same rfl rfl rfl rfl rfl ⟨[], .of_journal rfl, rfl⟩)
    | addJob entry hj hok =>
      exact h.grows (.of_same rfl rfl rfl rfl rfl ⟨[], .of_journal rfl, rfl⟩)
    | launch body hook hj hentry => exact h.grows (.spawn s _)
  callbacks := fun _ _ _ => trivial

/-- There are workers, so no completion cancels anybody. -/
theorem Lined.absorbs (nested : Cancel V B) : Absorbs (Lined j held busy) nested := by
  intro s id h gone
  rw [h.alive] at gone
  cases gone

/-! ## Parts of moves -/

/-- A row changes, and nothing that the line is made of. -/
theorem Lined.of_update (h : Lined j held busy s) {f : Strand V B → Strand V B}
    (hstrands : s'.strands = s.strands.update id.number f)
    (hf : ∀ st, (f st).hook = st.hook ∧ (f st).status = st.status)
    (hworkers : s'.workers = s.workers) (hheld : s'.held = s.held)
    (halive : s'.terminated = s.terminated) (hqueue : s'.queue.waiting = s.queue.waiting)
    (hjournal : s'.journal = s.journal) : Lined j held busy s' := by
  cases hst : s.strand? id with
  | none =>
    have hsame : s'.strands = s.strands :=
      hstrands.trans (Table.update_eq_self fun st hget => by cases hst.symm.trans hget)
    exact h.grows (.of_same hworkers hheld halive hsame hqueue ⟨[], .of_journal hjournal, rfl⟩)
  | some st =>
    exact h.grows (.of_row hst hstrands (hf st).1 (fun hs => Or.inl ((hf st).2 ▸ hs)) hworkers hheld
      halive (Or.inl hqueue) (.of_journal hjournal))

theorem Lined.issue (h : Lined j held busy s) (id : StrandId) :
    Lined j held busy (s.issueBridge id).1 :=
  h.of_update (f := fun st => { st with bridge := some ⟨s.bridges.next⟩ }) rfl (fun _ => ⟨rfl, rfl⟩)
    rfl rfl rfl rfl rfl

theorem Lined.keepBody (h : Lined j held busy s) (id : StrandId) (body : B) :
    Lined j held busy (s.keepBody id body) :=
  h.of_update (f := fun st => { st with body := some body }) rfl (fun _ => ⟨rfl, rfl⟩) rfl rfl rfl
    rfl rfl

theorem Lined.children (h : Lined j held busy s) (id : StrandId)
    (f : Strand V B → Group V) :
    Lined j held busy (s.updateStrand id fun st => { st with children := f st }) :=
  h.of_update rfl (fun _ => ⟨rfl, rfl⟩) rfl rfl rfl rfl rfl

theorem Lined.retire (h : Lined j held busy s) (id : StrandId) (kept : Option (Outcome V)) :
    Lined j held busy (s.retire id kept) :=
  h.of_update (f := (·.publish kept)) rfl (fun _ => ⟨rfl, rfl⟩) rfl rfl rfl rfl rfl

theorem Lined.join (h : Lined j held busy s) (id : StrandId) :
    Lined j held busy (((s.join id).map (·.1)).getD s) := by
  rcases join_cases s id with heq | ⟨outcome, heq⟩
  · rw [heq]
    exact h
  · rw [heq]
    exact h.of_update (f := fun st => { st with outcome := outcome }) rfl (fun _ => ⟨rfl, rfl⟩)
      rfl rfl rfl rfl rfl

theorem Lined.report (h : Lined j held busy s) (id : StrandId) (outcome : Outcome V) :
    Lined j held busy (s.reportUnhandled id outcome) := by
  have hhushed := hushed_reportUnhandled s id outcome
  obtain ⟨journal, channel, heq⟩ := s.reportUnhandled_eq id outcome
  rw [heq] at hhushed ⊢
  exact h.grows (.of_same rfl rfl rfl rfl rfl hhushed.departures)

theorem Lined.spawnChild (h : Lined j held busy s) (parent : StrandId) (body : B) :
    Lined j held busy (s.spawnChild parent body).1 := by
  have hadd := h.children parent fun st => st.children.add
  have hspawn := hadd.grows
    (.spawn _ { body := body, admission := .internal, parent := some parent })
  unfold Scheduler.spawnChild
  dsimp only
  split
  next heq =>
    rw [heq] at hspawn
    exact hspawn
  next heq =>
    rw [heq] at hspawn
    exact hspawn.children parent fun st => st.children.remove

/-- A strand that does not serve the job leaves its worker. -/
theorem Lined.drop (h : Lined j held [id] s) (hno : s.serves j id = false) :
    Lined j held [] s := by
  refine { h with numbered := fun k hk => h.numbered k ?_, ascending := ?_ }
  · simp only [procession, List.append_nil, List.mem_append] at hk ⊢
    exact hk.imp Or.inl fun h => h
  · have hascending := h.ascending
    have hskip : [id].filter (s.serves j) = [] := by simp [hno]
    simpa only [procession, List.filter_append, hskip, List.filter_nil] using hascending

theorem Lined.block (h : Lined j held busy s) (hst : s.strand? id = some st)
    (hrun : st.status.isRunning = true) (hno : s.serves j id = false) :
    Lined j held busy (s.block id) := by
  obtain ⟨mark, hs⟩ := Status.exists_of_running hrun
  have hhushed := hushed_block s id
  obtain ⟨counters, journal, channel, heq⟩ := block_running hst hs
  rw [heq] at hhushed ⊢
  refine h.grows (.of_row (f := Strand.parked mark) hst rfl rfl (fun _ => Or.inr hno) rfl rfl rfl ?_
    hhushed)
  cases mark with
  | true => exact Or.inr ⟨rfl, hno⟩
  | false => exact Or.inl rfl

theorem Lined.requeue (h : Lined j held busy s) (hst : s.strand? id = some st)
    (hrun : st.status.isRunning = true) (hno : s.serves j id = false) :
    Lined j held busy (s.requeue id) := by
  obtain ⟨mark, hs⟩ := Status.exists_of_running hrun
  rw [requeue_running hst hs]
  exact h.grows (.of_row (f := Strand.requeued) hst rfl rfl (fun _ => Or.inr hno) rfl rfl rfl
    (Or.inr ⟨rfl, hno⟩) (.of_journal rfl))

/-- The strand that moves to the front keeps its place in the procession. -/
theorem Lined.advance (h : Lined j held busy s) {held' busy' : List StrandId}
    {f : Strand V B → Strand V B} (hst : s.strand? id = some st)
    (hstrands : s'.strands = s.strands.update id.number f) (hhook : (f st).hook = st.hook)
    (hawake : (f st).status ≠ .blocked) (hworkers : s'.workers = s.workers)
    (hheld : s'.held = held') (halive : s'.terminated = s.terminated)
    (hsame : s'.procession busy' = s.procession busy) : Lined j held' busy' s' := by
  have hrow := strand?_of_update_some hstrands hst
  have hserves : s'.serves j = s.serves j := by
    funext k
    rw [Scheduler.serves, Scheduler.serves, hrow]
    split
    next hk => rw [← hk, hst, Option.bind_some, Option.bind_some, hhook]
    next => rfl
  refine
    { workers := hworkers.trans h.workers, held := hheld, alive := halive.trans h.alive,
      numbered := ?_, awake := ?_, ascending := ?_ }
  · rw [hsame, hstrands, Table.next_update]
    exact h.numbered
  · intro k st' i hst' hhook'
    rw [hrow] at hst'
    split at hst'
    · rwa [← Option.some.inj hst']
    · exact h.awake k st' i hst' hhook'
  · rw [hsame, hserves]
    exact h.ascending

/-- The only busy strand finishes, and so nobody goes before it who is in front of it. -/
theorem Lined.markFinished (h : Lined j held [id] s) (hst : s.strand? id = some st) (ok : Bool) :
    Lined j held [] (s.markFinished id ok) := by
  obtain ⟨idle, htells, hidle⟩ := markFinished_tells s id ok
  have hgone : departures (.event ⟨id, .finished ok⟩ :: idle : List (Record V)) = [id] := by
    rw [← List.singleton_append, departures_append, departures_idle hidle]
    rfl
  obtain ⟨counters, journal, channel, heq⟩ := markFinished_eq s id ok
  rw [heq] at htells ⊢
  refine h.advance (f := Strand.finished ok) hst rfl rfl ?_ rfl h.held rfl ?_
  · cases ok <;> simp [Strand.finished, Status.finished]
  · simp only [procession, htells.departures, hgone, List.append_nil]

theorem Lined.finish (h : Lined j held [id] s) (hst : s.strand? id = some st)
    (hrun : st.status.isRunning = true) (outcome : Outcome V) :
    Lined j held [] (s.finish id outcome) := by
  obtain ⟨mark, hs⟩ := Status.exists_of_running hrun
  have hmarked := h.markFinished hst outcome.isOk
  rw [finish_running hst hs]
  refine Lined.retire ?_ id _
  unfold handOver
  split
  · exact bears_lined.resolveWith (Lined.absorbs _) hmarked (fun hf => hf) outcome
  split
  next parent ps hp =>
    have hsettled := hmarked.children parent fun _ => (ps.children.settle id outcome).1
    dsimp only
    split
    next fired hfired =>
      exact bears_lined.deliverFired (Lined.absorbs _) hsettled fun _ _ => trivial
    · exact hsettled.report id _
  · exact hmarked.report id outcome

theorem Lined.blockOnChildren (h : Lined j held busy s) (hst : s.strand? id = some st)
    (hrun : st.status.isRunning = true) (hno : s.serves j id = false) (mode : WaitMode) :
    Lined j held busy (s.blockOnChildren id mode) := by
  have hrow := (issueBridge_strand? hst id).trans (if_pos rfl)
  have hno' : (s.issueBridge id).1.serves j id = false := by
    rw [Scheduler.serves, hrow, Option.bind_some]
    rwa [Scheduler.serves, hst, Option.bind_some] at hno
  have hblock := (h.issue id).block hrow hrun hno'
  unfold Scheduler.blockOnChildren
  dsimp only
  split
  · exact hblock
  next st' hst' =>
    exact bears_lined.deliverFired (Lined.absorbs _) (hblock.children id fun _ => _)
      fun _ _ => trivial

/-- What comes after a segment. A strand that serves the job finishes with its first one. -/
theorem Lined.follow (h : Lined j held [id] s) (hst : s.strand? id = some st)
    (hrun : st.status.isRunning = true) (body : B) {step : Step V}
    (hdone : s.serves j id = true → step.isDone = true) :
    Lined j held [] (s.follow id body step) := by
  have hfinish := h.finish hst hrun
  have hrow := (keepBody_strand? hst body id).trans (if_pos rfl)
  have hkeep : step.isDone = false → Lined j held [] (s.keepBody id body) ∧
      (s.keepBody id body).serves j id = false := by
    intro hgoes
    have hno : s.serves j id = false := by
      rw [← Bool.not_eq_true]
      intro hserves
      rw [hdone hserves] at hgoes
      cases hgoes
    refine ⟨(h.drop hno).keepBody id body, ?_⟩
    rw [Scheduler.serves, hrow, Option.bind_some]
    rwa [Scheduler.serves, hst, Option.bind_some] at hno
  unfold Scheduler.follow
  cases step with
  | done outcome => exact hfinish outcome
  | yield =>
    obtain ⟨hkept, hno⟩ := hkeep rfl
    dsimp only
    split
    · exact hkept.block hrow hrun hno
    · exact hkept.requeue hrow hrun hno
  | park =>
    obtain ⟨hkept, hno⟩ := hkeep rfl
    dsimp only
    split
    · exact hkept.block hrow hrun hno
    · exact hfinish _
  | await mode =>
    obtain ⟨hkept, hno⟩ := hkeep rfl
    dsimp only
    split
    · exact hfinish _
    · exact hkept.blockOnChildren hrow hrun hno mode

/-! ## Moves -/

/-- Who is held is the only one, since there is one worker. -/
theorem Lined.held_eq {Ok : BridgeId → Wakeup V → Prop} {drained : Bool}
    (h : Lined j held busy s) (hs : Stable Ok drained s) (hid : id ∈ s.held) : s.held = [id] := by
  have hle := hs.workers
  rw [h.workers] at hle
  cases hheld : s.held with
  | nil => cases hheld ▸ hid
  | cons a rest =>
    rw [hheld] at hid hle
    obtain rfl : rest = [] := List.length_eq_zero_iff.mp (by simpa using hle)
    rw [List.mem_singleton.mp hid]

theorem Lined.endSegment {Ok : BridgeId → Wakeup V → Prop} {drained : Bool}
    (h : Lined j s.held s.held s) (hs : Stable Ok drained s) (hid : id ∈ s.held)
    (hopen : s.isCancelling = false) (body : B) {step : Step V}
    (hdone : s.serves j id = true → step.isDone = true) :
    Lined j (s.endSegment id body step).held (s.endSegment id body step).held
      (s.endSegment id body step) := by
  obtain ⟨st, hst, hrun⟩ := (hs.placed.busy_iff id).mp hid
  rw [h.held_eq hs hid] at h
  have hfollow := h.follow hst hrun body hdone
  have hempty : ((s.follow id body step).release id).held = [] := by
    show (s.follow id body step).held.erase id = []
    rw [hfollow.held, List.erase_cons_head]
  unfold Scheduler.endSegment
  rw [hopen, Bool.false_and, if_neg Bool.false_ne_true, hempty]
  exact { hfollow with held := hempty }

theorem Lined.dispatch (h : Lined j s.held s.held s) (hp : Placed busy s) :
    Lined j s.dispatch.1.held s.dispatch.1.held s.dispatch.1 := by
  have hhushed := hushed_dispatch hp
  have hd := hp.dispatched
  generalize s.dispatch.1 = s' at hd hhushed ⊢
  generalize s.dispatch.2 = seg at hd
  obtain ⟨recs, htells, hnone⟩ := hhushed.departures
  cases hd with
  | idle _ => exact h
  | plain counters journal channel hcan hq hst hs hslot hbody =>
    refine h.advance hst rfl rfl (by simp [Strand.begun]) rfl rfl rfl ?_
    simp [procession, htells.departures, hnone, hq]
  | resumed counters journal channel hcan hq hst hs hslot hb hbody =>
    refine h.advance hst rfl rfl (by simp [Strand.begun]) rfl rfl rfl ?_
    simp [procession, htells.departures, hnone, hq]

/-- Bridges, timers, counters and the phase may change. -/
theorem Lined.still (h : Lined j held busy s) (hworkers : s'.workers = s.workers)
    (hheld : s'.held = s.held) (halive : s'.terminated = s.terminated)
    (hstrands : s'.strands = s.strands) (hqueue : s'.queue.waiting = s.queue.waiting)
    (hjournal : s'.journal = s.journal) : Lined j held busy s' :=
  h.grows (.of_same hworkers hheld halive hstrands hqueue ⟨[], .of_journal hjournal, rfl⟩)

theorem Lined.expireTimer (h : Lined j held busy s) (t : TimerId) :
    Lined j held busy (s.expireTimer t) := by
  unfold Scheduler.expireTimer
  split
  · exact h
  next timer ht =>
    have hexpired : Lined j held busy
        { s with timers := s.timers.update t.number fun _ => timer.expire.1 } :=
      h.still rfl rfl rfl rfl rfl rfl
    dsimp only
    split
    · exact hexpired
    · exact bears_lined.tryComplete (Lined.absorbs _) hexpired trivial _

theorem Lined.beginShutdown (h : Lined j held busy s) (mode : ShutdownMode) :
    Lined j held busy ((s.beginShutdown mode).getD s) := by
  unfold Scheduler.beginShutdown
  cases s.phase.enter? mode.phase with
  | none => exact h
  | some phase =>
    refine h.still rfl rfl rfl rfl ?_ rfl
    simp only [Option.map_some, Option.getD_some]
    split <;> rfl

/-- **Every move leaves the line of a job in order**, as long as the strands of the job finish with
    their first segment and the workers stay. -/
theorem Lined.after {Ok : BridgeId → Wakeup V → Prop} {drained : Bool} {m : Move V B}
    (h : Lined j s.held s.held s) (hs : Stable Ok drained s) (ha : s.Allows m)
    (hopen : s.isCancelling = false) (hstay : m ≠ .terminate)
    (hdone : ∀ id body step, m = .endSegment id body step → s.serves j id = true →
      step.isDone = true) :
    Lined j (s.after m).held (s.after m).held (s.after m) := by
  have own : ∀ {s' : Scheduler V B}, Lined j s.held s.held s' → Lined j s'.held s'.held s' := by
    intro s' h'
    rwa [h'.held]
  cases m with
  | spawn body name => exact own (h.grows (.spawn s _))
  | park id =>
    refine own (show Lined j _ _ (s.park id).1 from ?_)
    rcases park_cases s id with ⟨e, heq⟩ | ⟨st, hst, hrun, hslot, heq⟩ <;> rw [heq]
    · exact h
    · exact h.issue id
  | complete b r => exact own (bears_lined.deliver (Lined.absorbs _) h trivial _)
  | tryComplete b r => exact own (bears_lined.tryComplete (Lined.absorbs _) h trivial r)
  | deliver b payload => exact own (bears_lined.deliver (Lined.absorbs _) h trivial payload)
  | invoke inputs callable concurrency callback =>
    exact own (bears_lined.invoke (Lined.absorbs _) h (fun hf => hf) inputs callable concurrency
      fun _ _ _ _ => trivial)
  | createJob length callback =>
    exact own (bears_lined.addJob (Lined.absorbs _) h (fun hf => hf) length none
      fun _ _ _ _ => trivial)
  | submit j' index r =>
    exact own (bears_lined.submitWith (Lined.absorbs _) h (fun hf => hf) index r)
  | claim j' => exact own (bears_lined.claim h fun hf => hf)
  | armTimer b d now =>
    refine own ?_
    obtain ⟨timers, heq⟩ := after_armTimer s b d now
    rw [heq]
    exact h.still rfl rfl rfl rfl rfl rfl
  | disarmTimer t => exact own (h.still rfl rfl rfl rfl rfl rfl)
  | detachTimer t => exact own (h.still rfl rfl rfl rfl rfl rfl)
  | pollTimer t =>
    refine own ?_
    obtain ⟨timers, heq⟩ := after_pollTimer s t
    rw [heq]
    exact h.still rfl rfl rfl rfl rfl rfl
  | expireTimer t => exact own (h.expireTimer t)
  | join id => exact own (h.join id)
  | drainChannel =>
    refine own (show Lined j _ _ ((s.drainChannel.map (·.1)).getD s) from ?_)
    unfold Scheduler.drainChannel
    cases s.channel with
    | none => exact h
    | some c => exact h.still rfl rfl rfl rfl rfl rfl
  | spawnDetached id body => exact own (h.grows (.spawn s _))
  | spawnChild id body => exact own (h.spawnChild id body)
  | invokeParked id inputs callable concurrency =>
    refine own (show Lined j _ _ (s.invokeParked id inputs callable concurrency).1 from ?_)
    rcases invokeParked_cases s id inputs callable concurrency with
      ⟨-, heq⟩ | ⟨st, hst, hrun, hslot, hpark, heq⟩ <;> rw [heq]
    · exact h
    · exact bears_lined.drive (Lined.absorbs _) (h.issue id) (fun hf => hf) inputs callable
        concurrency fun _ _ _ _ => trivial
  | dispatch => exact h.dispatch hs.placed
  | endSegment id body step =>
    exact h.endSegment hs ha hopen body (hdone id body step rfl)
  | beginShutdown mode => exact own (h.beginShutdown mode)
  | closeQueue => exact own (h.still rfl rfl rfl rfl rfl rfl)
  | terminate => exact absurd rfl hstay
  | drain => exact absurd (h.alive.symm.trans ha) (by decide)
  | cancel id => exact absurd (h.alive.symm.trans ha.1) (by decide)

end Scheduler
end CoopSched
