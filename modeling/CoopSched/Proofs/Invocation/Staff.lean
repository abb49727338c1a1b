import CoopSched.Proofs.Invocation.Launching
import CoopSched.Proofs.Job.Course

/-!
# Staffing — what an invocation keeps up

Each strand of a bounded invocation that ends has the next one launched, and so the number of calls
runs ahead of the number of exits by the same distance, until there is no index left (`Wide`). With
the agreement of the crew this is `Staffed`, and every move keeps it (`watches_staffed`).

The one place where anything can come in between is the callback of the job itself. When it runs
every index has its exit, no strand of the job is left, and whatever the callback sets off finds the
job `Complete`.
-/

namespace CoopSched
namespace Scheduler

variable {V B : Type} {inv : Invocation V B} {Ended : StrandId → Outcome V → Prop}
  {calls : List (Option StrandId)} {exits : List (Exit V)} {due : Option (Exit V)} {k : Nat}
  {nested : Cancel V B} {s s₁ s' : Scheduler V B}

/-- The calls run ahead of the exits by `k`, or have come to the last index. Without a bound on the
    strands the calls do not wait for exits at all. -/
structure Wide (inv : Invocation V B) (k : Nat) (calls : List (Option StrandId))
    (exits : List (Exit V)) (s : Scheduler V B) : Prop where
  le : k ≤ inv.width
  ahead : calls.length =
    min (if inv.concurrency.isChained then k + exits.length else k) inv.inputs.length
  never : inv.concurrency.isChained = true →
    NeverMore inv.width calls.reduceOption s.journal.toList

/-- A strand may be put to work, and with it there are `k` at a time. -/
def Room (inv : Invocation V B) (k : Nat) (calls : List (Option StrandId)) (exits : List (Exit V))
    (s : Scheduler V B) : Prop :=
  ∃ k', k = k' + 1 ∧ k ≤ inv.width ∧ Wide inv k' calls exits s

/-- The invocation has come to some point, with `k` strands at a time. -/
def Staffed (inv : Invocation V B) (Ended : StrandId → Outcome V → Prop) (k : Nat)
    (s : Scheduler V B) : Prop :=
  ∃ calls exits, Crew inv Ended calls exits none s ∧ (inv.IsTotal → Wide inv k calls exits s)

/-- Every index of the invocation has its exit. -/
def Complete (inv : Invocation V B) (Ended : StrandId → Outcome V → Prop) (k : Nat)
    (s : Scheduler V B) : Prop :=
  ∃ calls exits, Crew inv Ended calls exits none s ∧ exits.length = inv.inputs.length ∧
    (inv.IsTotal → Wide inv k calls exits s)

theorem Complete.staffed (h : Complete inv Ended k s) : Staffed inv Ended k s := by
  obtain ⟨calls, exits, hcrew, -, hwide⟩ := h
  exact ⟨calls, exits, hcrew, hwide⟩

/-! ## The distance between calls and exits -/

theorem Wide.tells (h : Wide inv k calls exits s) {recs : List (Record V)}
    (htells : Tells s s₁ recs)
    (hbirth : noted Happening.isBirth calls.reduceOption recs = []) :
    Wide inv k calls exits s₁ :=
  ⟨h.le, h.ahead, fun hc => htells ▸ (h.never hc).append_of_no_birth hbirth⟩

/-- The next index is called, for one strand more at a time. -/
theorem Wide.call (h : Wide inv k calls exits s) (hcrew : Crew inv Ended calls exits none s)
    (hlt : calls.length < inv.inputs.length) (hk : k < inv.width) {recs : List (Record V)}
    (htells : Tells s s₁ recs)
    (hbirth : ∀ ids, (noted Happening.isBirth ids recs).length ≤ 1) :
    Wide inv (k + 1) (calls ++ [some ⟨s.strands.next⟩]) exits s₁ where
  le := hk
  ahead := by
    have hcalls := h.ahead
    rw [List.length_append, List.length_singleton]
    split at hcalls
    next hc => rw [if_pos hc]; omega
    next hc => rw [if_neg hc]; omega
  never := by
    intro hc
    have hcalls := h.ahead
    rw [if_pos hc] at hcalls
    have hlength := List.reduceOption_length_le calls
    have hnew := h.never hc |>.new hcrew.orderly.silent
    rw [htells, List.reduceOption_append, List.reduceOption_singleton, Option.toList_some]
    refine hnew.append_of_birth (hbirth _) ?_
    rw [noted_new Happening.isMilestone_of_isBirth hcrew.orderly.silent,
      noted_new Happening.isMilestone_of_isEnd hcrew.orderly.silent, hcrew.births, hcrew.ends]
    simp only [List.length_map, Option.toList_none, List.append_nil]
    omega

theorem Wide.exit_unbounded (h : Wide inv k calls exits s)
    (hc : ¬ inv.concurrency.isChained = true) (x : Exit V) :
    Wide inv k calls (exits ++ [x]) s where
  le := h.le
  ahead := by
    have hcalls := h.ahead
    rw [if_neg hc] at hcalls ⊢
    exact hcalls
  never := h.never

theorem Room.tells (h : Room inv k calls exits s) {recs : List (Record V)}
    (htells : Tells s s₁ recs)
    (hbirth : noted Happening.isBirth calls.reduceOption recs = []) :
    Room inv k calls exits s₁ := by
  obtain ⟨k', hk', hk, hwide⟩ := h
  exact ⟨k', hk', hk, hwide.tells htells hbirth⟩

/-- The next index is called where there is room. -/
theorem Room.call (h : Room inv k calls exits s) (hcrew : Crew inv Ended calls exits none s)
    (hlt : calls.length < inv.inputs.length) {recs : List (Record V)} (htells : Tells s s₁ recs)
    (hbirth : ∀ ids, (noted Happening.isBirth ids recs).length ≤ 1) :
    Wide inv k (calls ++ [some ⟨s.strands.next⟩]) exits s₁ := by
  obtain ⟨k', rfl, hk, hwide⟩ := h
  exact hwide.call hcrew hlt hk htells hbirth

/-- When the calls have come to the last index the distance does not matter. -/
theorem Room.full (h : Room inv k calls exits s) (hall : calls.length = inv.inputs.length) :
    Wide inv k calls exits s := by
  obtain ⟨k', rfl, hk, hwide⟩ := h
  refine ⟨hk, ?_, hwide.never⟩
  have hcalls := hwide.ahead
  split at hcalls
  next hc => rw [if_pos hc]; omega
  next hc => rw [if_neg hc]; omega

/-- An exit of a bounded invocation makes room for a strand. -/
theorem Crew.room {x : Exit V} (h : Crew inv Ended calls exits (some x) s)
    (hwide : Wide inv k calls exits s) (hc : inv.concurrency.isChained = true) :
    Room inv k calls (exits ++ [x]) s := by
  have hahead := hwide.ahead
  have hle := h.exits_le
  have hwidth := hwide.le
  rw [if_pos hc] at hahead
  simp only [Option.toList_some, List.length_append, List.length_singleton] at hle
  -- The strand of the exit is one that a call has made, so `k` is not zero.
  obtain ⟨k', rfl⟩ : ∃ k', k = k' + 1 := ⟨k - 1, by omega⟩
  refine ⟨k', rfl, hwidth, by omega, ?_, hwide.never⟩
  rw [if_pos hc, List.length_append, List.length_singleton]
  omega

/-! ## When the job is complete -/

/-- When every index has its exit there is no strand of the job left. -/
theorem Crew.ended_of_full (h : Crew inv Ended calls exits none s)
    (hfull : exits.length = inv.inputs.length) {id : StrandId} {st : Strand V B} {i : Nat}
    (hst : s.strand? id = some st) (hhook : st.hook = some ⟨inv.job, i⟩) :
    st.status.isTerminal = true := by
  have hcall := h.hooked id st i hst hhook
  obtain ⟨entry, n, -, -, hstands, -⟩ := h.entry
  obtain ⟨hlt, -⟩ := List.getElem?_eq_some_iff.mp hcall
  have hlen := h.calls_le
  have hmem : i ∈ (exits.map Exit.submission).map Prod.fst :=
    Job.mem_of_full hstands.index_lt hstands.index_nodup (by simpa using hfull) (by omega)
  obtain ⟨p, hp, hindex⟩ := List.mem_map.mp hmem
  obtain ⟨x, hx, rfl⟩ := List.mem_map.mp hp
  have hexit : calls[i]? = some (some x.strand) := by
    have := (h.exit x (List.mem_append_left _ hx)).1
    rwa [show x.index = i from hindex] at this
  obtain rfl : x.strand = id := by simpa [hexit] using hcall
  refine (h.gone _ (List.mem_of_getElem? hcall)).mp ?_ st hst
  exact List.mem_map_of_mem (List.mem_append_left _ hx)

theorem Crew.calls_of_full (h : Crew inv Ended calls exits none s)
    (hfull : exits.length = inv.inputs.length) : calls.length = inv.inputs.length := by
  have hle := h.exits_le
  have hle' := h.calls_le
  simp only [Option.toList_none, List.append_nil] at hle
  omega

theorem Crew.change (h : Crew inv Ended calls exits due s)
    (hb : UnwatchedChange (· = inv.job) (fun _ => True) s s') :
    Crew inv Ended calls exits due s' :=
  h.beside hb.beside (watches_orderly.change (hb.mono fun _ hf => hf.elim) h.orderly)

theorem Wide.beside (h : Wide inv k calls exits s) (hcrew : Crew inv Ended calls exits none s)
    (hb : Beside inv.job s s') : Wide inv k calls exits s' := by
  obtain ⟨recs, htells, hspares⟩ := hb.tells
  exact h.tells htells (noted_silent Happening.isMilestone_of_isBirth fun rec hrec =>
    hcrew.silent (hspares rec hrec))

/-- A complete job has nothing to lose. -/
theorem guards_complete : Guards (· = inv.job) (fun _ => True) (Complete inv Ended k) where
  change := by
    rintro s s' hb ⟨calls, exits, hcrew, hfull, hwide⟩
    exact ⟨calls, exits, hcrew.change hb, hfull, fun ht => (hwide ht).beside hcrew hb.beside⟩
  callbacks := fun _ _ _ => trivial
  cut_off := by
    rintro levels s id st ⟨j, i⟩ reason ⟨calls, exits, hcrew, hfull, -⟩ hst hend hhook rfl - -
    have hterm := hcrew.ended_of_full hfull hst hhook
    rw [hend] at hterm
    cases hterm

/-- A complete job has no index left to launch a strand for. -/
theorem Complete.launchNext (h : Complete inv Ended k s) (nested : Cancel V B) (rounds : Nat) :
    Complete inv Ended k (launchNextWith nested inv.job rounds s).1 ∧
      (launchNextWith nested inv.job rounds s).2 = none := by
  obtain ⟨calls, exits, hcrew, hfull, hwide⟩ := h
  have hall := hcrew.calls_of_full hfull
  cases rounds with
  | zero => exact ⟨⟨calls, exits, hcrew, hfull, hwide⟩, rfl⟩
  | succ rounds =>
    have hattempt := hcrew.attempt nested rounds
    generalize launchNextWith nested inv.job (rounds + 1) s = result at hattempt
    cases hattempt with
    | exhausted _ hcrew₁ hjournal =>
      exact ⟨⟨calls, exits, hcrew₁, hfull, fun ht => (hwide ht).tells (.of_journal hjournal) rfl⟩,
        rfl⟩
    | panicked hv =>
      obtain ⟨hlt, -⟩ := List.getElem?_eq_some_iff.mp hv
      omega
    | launched hlt => omega
    | refused hlt => omega

/-! ## Launching the next strands -/

/-- A due exit is submitted. Unless it was the last one, a bounded invocation has room for a strand
    then, and in any other the calls are as far ahead as before. -/
theorem Crew.submit_cases (hn : Keeps (Complete inv Ended k) nested) {x : Exit V}
    (h : Crew inv Ended calls exits (some x) s)
    (hwide : inv.IsTotal → Wide inv k calls exits s) :
    let s₁ := (s.submitWith nested inv.job x.index x.ending.outcome).1
    Crew inv Ended calls (exits ++ [x]) none s₁ ∧
      (inv.concurrency.isChained = true → inv.IsTotal → Room inv k calls (exits ++ [x]) s₁) ∧
      (¬ inv.concurrency.isChained = true → inv.IsTotal → Wide inv k calls (exits ++ [x]) s₁) ∨
    Complete inv Ended k s₁ := by
  intro s₁
  obtain ⟨s₂, effects, recs, hcrew, htells, hsilent, heq, hor⟩ := h.submit nested
  have hbirth : ∀ ids, noted Happening.isBirth ids recs = [] := fun ids =>
    noted_silent Happening.isMilestone_of_isBirth fun rec hrec => hsilent rec hrec ids
  have hroom : inv.concurrency.isChained = true → inv.IsTotal →
      Room inv k calls (exits ++ [x]) s₂ :=
    fun hc ht => (h.room (hwide ht) hc).tells htells (hbirth _)
  have hsame : ¬ inv.concurrency.isChained = true → inv.IsTotal →
      Wide inv k calls (exits ++ [x]) s₂ :=
    fun hc ht => ((hwide ht).exit_unbounded hc x).tells htells (hbirth _)
  rw [show s₁ = s₂.performWith nested effects from heq]
  rcases hor with rfl | hfull
  · exact Or.inl ⟨hcrew, hroom, hsame⟩
  · refine Or.inr (guards_complete.performWith hn ⟨calls, _, hcrew, hfull, fun ht => ?_⟩
      fun _ _ _ => trivial)
    by_cases hc : inv.concurrency.isChained = true
    · exact (hroom hc ht).full (hcrew.calls_of_full hfull)
    · exact hsame hc ht

/-- **A launch puts one strand more to work**, or finds that no index is left. -/
theorem Crew.launchNext (hn : Keeps (Complete inv Ended k) nested) {rounds : Nat}
    (hrounds : inv.inputs.length < rounds + calls.length)
    (h : Crew inv Ended calls exits none s)
    (hroom : inv.IsTotal → Room inv k calls exits s) :
    Staffed inv Ended k (launchNextWith nested inv.job rounds s).1 ∧
      (inv.IsTotal → (launchNextWith nested inv.job rounds s).2 = none) := by
  -- On the rounds: each takes an index, and only a refusal in a chained job leads to another.
  induction rounds generalizing calls exits s with
  | zero =>
    have hle := h.calls_le
    omega
  | succ rounds ih =>
    have hattempt := h.attempt nested rounds
    generalize launchNextWith nested inv.job (rounds + 1) s = result at hattempt
    cases hattempt with
    | exhausted hall hcrew hjournal =>
      have hwide : inv.IsTotal → Wide inv k calls exits _ := fun ht =>
        ((hroom ht).full hall).tells (.of_journal hjournal) rfl
      exact ⟨⟨calls, exits, hcrew, hwide⟩, fun _ => rfl⟩
    | panicked hv hp hcrew =>
      have hnot : ¬ inv.IsTotal := fun ht => by
        obtain ⟨body, hbody⟩ := ht _ _ hv
        rw [hp] at hbody
        cases hbody
      exact ⟨⟨_, exits, hcrew, fun ht => absurd ht hnot⟩, fun ht => absurd ht hnot⟩
    | launched hlt hcrew htells =>
      refine ⟨⟨_, exits, hcrew, fun ht => (hroom ht).call h hlt htells fun ids => ?_⟩,
        fun _ => rfl⟩
      exact (List.length_filterMap_le _ _).trans (by simp)
    | @refused s₁ hlt hcrew htells =>
      -- The call has been made, for one strand more; the exit takes the strand back.
      have hcalled : inv.IsTotal → Wide inv k (calls ++ [some ⟨s.strands.next⟩]) exits s₁ := by
        refine fun ht => (hroom ht).call h hlt htells fun ids => ?_
        have hbirths : noted Happening.isBirth ids
            [Record.event (V := V) ⟨⟨s.strands.next⟩, .created⟩,
              .event ⟨⟨s.strands.next⟩, .rejected⟩] =
            noted Happening.isBirth ids [Record.event (V := V) ⟨⟨s.strands.next⟩, .created⟩] := by
          simp [noted, Happening.isBirth, List.filterMap_cons]
        rw [hbirths]
        exact List.length_filterMap_le _ _
      rcases hcrew.submit_cases hn hcalled with ⟨hcrew₂, hroom₂, hsame⟩ | hdone
      · split
        next hc =>
          exact ih (by rw [List.length_append, List.length_singleton]; omega) hcrew₂ (hroom₂ hc)
        next hc => exact ⟨⟨_, _, hcrew₂, hsame hc⟩, fun _ => rfl⟩
      · split
        · obtain ⟨hstaffed, hnone⟩ := hdone.launchNext nested rounds
          exact ⟨hstaffed.staffed, fun _ => hnone⟩
        · exact ⟨hdone.staffed, fun _ => rfl⟩

/-! ## A strand of the job has ended -/

/-- What becomes of a job when a strand of it has ended: the exit is submitted, and in a bounded
    invocation the next strand is launched. -/
theorem Staffed.resolve (hn : Keeps (Complete inv Ended k) nested) (h : Staffed inv Ended k s)
    {id : StrandId} {st : Strand V B} {i : Nat} {ending : Ending V}
    (hl : Leaves s s₁ id st ending) (hend : st.status.isTerminal = false)
    (hhook : st.hook = some ⟨inv.job, i⟩) (horderly : Orderly s₁)
    (hholds : ending.Holds Ended s₁ id) :
    Staffed inv Ended k (s₁.resolveWith nested ⟨inv.job, i⟩ ending.outcome) := by
  obtain ⟨calls, exits, hcrew, hwide⟩ := h
  have hcrew₁ := hcrew.leave hl hend hhook horderly hholds
  have hmem := List.reduceOption_mem_iff.mpr
    (List.mem_of_getElem? (hcrew.hooked id st i hl.row hhook))
  -- The end of a strand is no birth, so the bound still holds.
  have hwide₁ : inv.IsTotal → Wide inv k calls exits s₁ := by
    intro ht
    refine ⟨(hwide ht).le, (hwide ht).ahead, fun hc => ?_⟩
    obtain ⟨idle, idle', htells, -⟩ := hl.tells
    have hnoted := hl.noted Happening.isMilestone_of_isBirth hmem
    have hno : ending.happening.isBirth = false := by
      cases ending <;> rfl
    rw [hno, if_neg (by simp), htells, noted_append] at hnoted
    rw [htells]
    exact ((hwide ht).never hc).append_of_no_birth (List.append_cancel_left hnoted)
  unfold resolveWith
  dsimp only
  rcases hcrew₁.submit_cases hn hwide₁ with ⟨hcrew₂, hroom, hsame⟩ | hdone
  · obtain ⟨entry, n, hj, hdrive, hstands, -⟩ := hcrew₂.entry
    have hchained : (inv.driveAfter calls.length).chained = inv.concurrency.isChained := rfl
    have hlength : entry.job.length = inv.inputs.length := hstands.slots_length
    simp only [hj, Option.bind_some, hdrive, hchained, launchRounds, hlength]
    split
    next hc => exact (hcrew₂.launchNext hn (by omega) (hroom hc)).1
    next hc => exact ⟨calls, _, hcrew₂, hsame hc⟩
  · split
    · split
      · exact (hdone.launchNext nested _).1.staffed
      · exact hdone.staffed
    · exact hdone.staffed

theorem Staffed.orderly (h : Staffed inv Ended k s) : Orderly s := by
  obtain ⟨calls, exits, hcrew, -⟩ := h
  exact hcrew.orderly

theorem guards_staffed : Guards (· = inv.job) (fun _ => True) (Staffed inv Ended k) where
  change := by
    rintro s s' hb ⟨calls, exits, hcrew, hwide⟩
    exact ⟨calls, exits, hcrew.change hb, fun ht => (hwide ht).beside hcrew hb.beside⟩
  callbacks := fun _ _ _ => trivial
  cut_off := by
    rintro levels s id st ⟨j, i⟩ reason h hst hend hhook hj hover hkind
    obtain rfl : j = inv.job := hj
    have hl := leaves_cut hst reason
    obtain ⟨st₁, -, -, hrow⟩ := hl.strand? id
    have hresolve := h.resolve (guards_complete.cancelWithin levels) hl hend hhook
      (h.orderly.cut hst) ⟨hkind, hl.shut.trans hover, st₁, hrow.trans (if_pos rfl)⟩
    exact hresolve

/-- **Every move keeps an invocation staffed**, unless it uses the handle of the job. -/
theorem watches_staffed : Watches (· = inv.job) Ended (Staffed inv Ended k) where
  toGuards := guards_staffed
  own := by
    rintro s s' hs ⟨calls, exits, hcrew, hwide⟩
    have horderly := watches_orderly.own (hs.mono fun _ hf => hf.elim) hcrew.orderly
    exact ⟨calls, exits, hcrew.beside hs.beside horderly, fun ht =>
      (hwide ht).beside hcrew hs.beside⟩
  finished := by
    rintro s id st ⟨j, i⟩ outcome h hst hrun hhook hj hended
    obtain rfl : j = inv.job := hj
    have hl := leaves_markFinished hst outcome
    obtain ⟨st₁, -, -, hrow⟩ := hl.strand? id
    have hresolve := h.resolve guards_complete.cancel hl (Status.not_terminal_of_running hrun) hhook
      (h.orderly.markFinished hst _) ⟨hended, st₁, hrow.trans (if_pos rfl)⟩
    exact hresolve

end Scheduler
end CoopSched
