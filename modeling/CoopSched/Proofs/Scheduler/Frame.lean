import CoopSched.Proofs.Scheduler.Change

/-!
# Frames — what changes leave alone

Whatever a move sets off, it starts no segment and ends none, moves no timer and begins no shutdown
(`Steady`). A strand may be woken by it, and as long as there are workers that is all that happens
to it (`Later`); one that has ended stays ended. A bridge is claimed at most once, and is left
alone from then on (`Onward`), and no new bridge is issued (`Bridges`).
-/

namespace CoopSched
namespace Scheduler

variable {V B : Type} {Ok : BridgeId → Wakeup V → Prop} {s s' : Scheduler V B}

/-! ## Fields -/

/-- The fields that nothing within a move changes. -/
structure Steady (s s' : Scheduler V B) : Prop where
  workers : s'.workers = s.workers
  held : s'.held = s.held
  phase : s'.phase = s.phase
  terminated : s'.terminated = s.terminated
  timers : s'.timers = s.timers
  closed : s'.queue.closed = s.queue.closed
  aborted : s'.queue.aborted = s.queue.aborted
  running : s'.queue.running = s.queue.running

theorem Steady.refl (s : Scheduler V B) : Steady s s :=
  ⟨rfl, rfl, rfl, rfl, rfl, rfl, rfl, rfl⟩

theorem Steady.trans {s'' : Scheduler V B} (h : Steady s s') (h' : Steady s' s'') :
    Steady s s'' where
  workers := h'.workers.trans h.workers
  held := h'.held.trans h.held
  phase := h'.phase.trans h.phase
  terminated := h'.terminated.trans h.terminated
  timers := h'.timers.trans h.timers
  closed := h'.closed.trans h.closed
  aborted := h'.aborted.trans h.aborted
  running := h'.running.trans h.running

theorem Steady.setBridge (s : Scheduler V B) (b : BridgeId) (x : Bridge V) :
    Steady s (s.setBridge b x) :=
  ⟨rfl, rfl, rfl, rfl, rfl, rfl, rfl, rfl⟩

theorem Steady.wake (alive : s.terminated = false) (id : StrandId) : Steady s (s.wake id) := by
  cases hst : s.strand? id with
  | none =>
    rw [wake_none hst]
    exact .refl s
  | some st =>
    obtain ⟨counters, journal, channel, heq⟩ := wake_eq alive hst
    rw [heq]
    constructor <;> dsimp only <;> split <;> rfl

theorem Steady.cut {id : StrandId} {st : Strand V B} (hst : s.strand? id = some st) :
    Steady s (s.cut id st.bridge) := by
  obtain ⟨counters, journal, channel, heq⟩ := cut_eq hst
  rw [heq]
  constructor <;> rfl

theorem Steady.strike (s : Scheduler V B) (id : StrandId) : Steady s (s.strike id) := by
  unfold Scheduler.strike
  split
  · exact .refl s
  next st hst =>
    split
    · exact .refl s
    · exact .cut hst

theorem Steady.spawn (s : Scheduler V B) (r : SpawnRequest B) : Steady s (s.spawn r).1 := by
  rcases spawn_cases s r with ⟨-, counters, journal, channel, heq⟩ |
    ⟨strands, counters, journal, channel, cause, heq, -, -⟩
  · rw [heq]
    constructor <;> rfl
  · rw [heq]
    constructor <;> rfl

theorem Change.steady (ht : Change Ok s s') : Steady s s' := by
  cases ht with
  | answered j answer => constructor <;> rfl
  | job j f hf => constructor <;> rfl
  | addJob entry hok => constructor <;> rfl
  | children id f hf => constructor <;> rfl
  | report id outcome =>
    obtain ⟨journal, channel, heq⟩ := s.reportUnhandled_eq id outcome
    rw [heq]
    constructor <;> rfl
  | spawn r => exact .spawn s r
  | @deliver b bridge claimed w alive hb hc hok =>
    have hwake := Steady.wake (s := s.setBridge b claimed) alive bridge.strand
    exact (Steady.setBridge s b claimed).trans hwake
  | strike gone hb hc hok => exact (Steady.setBridge s _ _).trans (.strike _ _)
  | retire kept gone hend => constructor <;> rfl

theorem Changes.steady (hd : Changes Ok s s') : Steady s s' :=
  hd.preserves (P := Steady s) (fun _ _ h ht => h.trans ht.steady) (.refl s)

/-! ## Strands -/

/-- What is left of a strand of which nothing but a wake is known. -/
structure Later (st st' : Strand V B) : Prop where
  bridge : st'.bridge = st.bridge
  wakeup : st'.wakeup = st.wakeup
  body : st'.body = st.body
  status : st'.status = st.status ∨ st'.status = st.status.wake.1

theorem Later.refl (st : Strand V B) : Later st st := ⟨rfl, rfl, rfl, Or.inl rfl⟩

theorem Later.running {st st' : Strand V B} (h : Later st st') :
    st'.status.isRunning = st.status.isRunning := by
  rcases h.status with hs | hs
  · rw [hs]
  · rw [hs]
    exact st.woken_running

theorem Later.trans {st st' st'' : Strand V B} (h : Later st st') (h' : Later st' st'') :
    Later st st'' where
  bridge := h'.bridge.trans h.bridge
  wakeup := h'.wakeup.trans h.wakeup
  body := h'.body.trans h.body
  status := by
    rcases h.status with hs | hs <;> rcases h'.status with hs' | hs' <;> rw [hs', hs]
    · exact Or.inl rfl
    · exact Or.inr rfl
    · exact Or.inr rfl
    · exact Or.inr (Status.wake_wake _)

/-- A strand that has not run yet. -/
structure Fresh (st : Strand V B) : Prop where
  status : st.status = .runnable
  bridge : st.bridge = none
  wakeup : st.wakeup = some .start
  body : st.body.isSome = true

theorem Fresh.create (body : B) (name : Option String) (parent : Option StrandId)
    (hook : Option Hook) : Fresh (Strand.create (V := V) body name parent hook) :=
  ⟨rfl, rfl, rfl, rfl⟩

theorem Fresh.later {st st' : Strand V B} (h : Fresh st) (h' : Later st st') : Fresh st' where
  status := by
    rcases h'.status with hs | hs <;> rw [hs, h.status]
    rfl
  bridge := h'.bridge.trans h.bridge
  wakeup := h'.wakeup.trans h.wakeup
  body := by rw [h'.body]; exact h.body

/-- Where the rows of strands come from, as long as there are workers: an old one was at most
    woken, and a new one has not run yet. -/
structure Rows (s s' : Scheduler V B) : Prop where
  old : ∀ id st, s.strand? id = some st → ∃ st', s'.strand? id = some st' ∧ Later st st'
  new : ∀ id st', s.strand? id = none → s'.strand? id = some st' → Fresh st'

theorem Rows.of_same (h : ∀ id, s'.strand? id = s.strand? id) : Rows s s' where
  old := fun id st hst => ⟨st, (h id).trans hst, .refl st⟩
  new := by
    intro id st' hnone hst'
    rw [h id, hnone] at hst'
    cases hst'

theorem Rows.trans {s'' : Scheduler V B} (h : Rows s s') (h' : Rows s' s'') : Rows s s'' where
  old := by
    intro id st hst
    obtain ⟨st', hst', hlater⟩ := h.old id st hst
    obtain ⟨st'', hst'', hlater'⟩ := h'.old id st' hst'
    exact ⟨st'', hst'', hlater.trans hlater'⟩
  new := by
    intro id st'' hnone hst''
    cases hmid : s'.strand? id with
    | none => exact h'.new id st'' hmid hst''
    | some st' =>
      obtain ⟨last, hlast, hlater⟩ := h'.old id st' hmid
      rw [← Option.some.inj (hlast.symm.trans hst'')]
      exact (h.new id st' hnone hmid).later hlater

theorem Rows.of_update {id : StrandId} {f : Strand V B → Strand V B}
    (hstrands : s'.strands = s.strands.update id.number f) (hf : ∀ st, Later st (f st)) :
    Rows s s' := by
  have hread := strand?_of_update hstrands
  refine ⟨?_, ?_⟩
  · intro k st hst
    rw [hread, hst]
    split
    · exact ⟨f st, rfl, hf st⟩
    · exact ⟨st, rfl, .refl st⟩
  · intro k st' hnone hst'
    rw [hread, hnone] at hst'
    split at hst' <;> cases hst'

theorem Rows.wake (alive : s.terminated = false) (id : StrandId) : Rows s (s.wake id) := by
  cases hst : s.strand? id with
  | none =>
    rw [wake_none hst]
    exact .of_same fun _ => rfl
  | some st =>
    obtain ⟨counters, journal, channel, heq⟩ := wake_eq alive hst
    rw [heq]
    exact .of_update rfl fun st => ⟨rfl, rfl, rfl, Or.inr rfl⟩

/-- A spawn leaves the strands that are there. -/
theorem strand?_spawn {id : StrandId} {st : Strand V B} (hst : s.strand? id = some st)
    (r : SpawnRequest B) : (s.spawn r).1.strand? id = some st := by
  rcases spawn_cases s r with ⟨-, counters, journal, channel, heq⟩ |
    ⟨strands, counters, journal, channel, cause, heq, hsame, -⟩
  · rw [heq]
    have hlt := Table.lt_next_of_get? hst
    show (s.strands.add _).get? id.number = some st
    rw [Table.get?_add, if_neg (Nat.ne_of_lt hlt)]
    exact hst
  · rw [heq]
    exact (hsame id.number).trans hst

theorem Rows.spawn (s : Scheduler V B) (r : SpawnRequest B) : Rows s (s.spawn r).1 where
  old := fun id st hst => ⟨st, strand?_spawn hst r, .refl st⟩
  new := by
    intro id st' hnone hst'
    rcases spawn_cases s r with ⟨-, counters, journal, channel, heq⟩ |
      ⟨strands, counters, journal, channel, cause, heq, hsame, -⟩
    · rw [heq] at hst'
      have hst'' : (s.strands.add _).get? id.number = some st' := hst'
      rw [Table.get?_add] at hst''
      split at hst''
      · rw [← Option.some.inj hst'']
        exact Fresh.create _ _ _ _
      · exact absurd (hnone.symm.trans hst'') (by simp)
    · rw [heq] at hst'
      have hst'' : s.strand? id = some st' := (hsame id.number).symm.trans hst'
      exact absurd (hnone.symm.trans hst'') (by simp)

theorem Change.rows (alive : s.terminated = false) (ht : Change Ok s s') : Rows s s' := by
  cases ht with
  | answered j answer => exact .of_same fun _ => rfl
  | job j f hf => exact .of_same fun _ => rfl
  | addJob entry hok => exact .of_same fun _ => rfl
  | children id f hf => exact .of_update rfl fun st => ⟨rfl, rfl, rfl, Or.inl rfl⟩
  | report id outcome =>
    obtain ⟨journal, channel, heq⟩ := s.reportUnhandled_eq id outcome
    rw [heq]
    exact .of_same fun _ => rfl
  | spawn r => exact .spawn s r
  | @deliver b bridge claimed w _ hb hc hok =>
    have hsame : Rows s (s.setBridge b claimed) := .of_same fun _ => rfl
    have hwake := Rows.wake (s := s.setBridge b claimed) alive bridge.strand
    exact hsame.trans hwake
  | strike gone hb hc hok => exact absurd (alive.symm.trans gone) (by simp)
  | retire kept gone hend => exact absurd (alive.symm.trans gone) (by simp)

theorem Changes.rows (alive : s.terminated = false) (hd : Changes Ok s s') : Rows s s' := by
  have h := hd.preserves (P := fun s' => s'.terminated = false ∧ Rows s s')
    (fun s₁ s₂ h ht => ⟨ht.steady.terminated.trans h.1, h.2.trans (ht.rows h.1)⟩)
    ⟨alive, .of_same fun _ => rfl⟩
  exact h.2

/-- Has a strand ended? -/
def HasEnded (s : Scheduler V B) (id : StrandId) : Prop :=
  ∃ st, s.strand? id = some st ∧ st.status.isTerminal = true

theorem HasEnded.all {id : StrandId} (h : s.HasEnded id) :
    ∀ st, s.strand? id = some st → st.status.isTerminal = true := by
  obtain ⟨st, hst, hend⟩ := h
  intro st' hst'
  rw [← Option.some.inj (hst.symm.trans hst')]
  exact hend

/-- What becomes of a strand when the workers are gone: it stays as it is, or it is cancelled. -/
def Gone (st st' : Strand V B) : Prop :=
  st'.status = st.status ∧ st'.bridge = st.bridge ∨ st'.status = .doneError

theorem Gone.refl (st : Strand V B) : Gone st st := Or.inl ⟨rfl, rfl⟩

theorem Gone.trans {st st' st'' : Strand V B} (h : Gone st st') (h' : Gone st' st'') :
    Gone st st'' := by
  rcases h' with ⟨hs', hb'⟩ | hdone
  · rcases h with ⟨hs, hb⟩ | hdone
    · exact Or.inl ⟨hs'.trans hs, hb'.trans hb⟩
    · exact Or.inr (hs'.trans hdone)
  · exact Or.inr hdone

theorem Change.gone {k : StrandId} {st : Strand V B} (ht : Change Ok s s')
    (gone : s.terminated = true) (hst : s.strand? k = some st) :
    ∃ st', s'.strand? k = some st' ∧ Gone st st' := by
  have hupdate : ∀ {s₀ s' : Scheduler V B} {id : StrandId} {f : Strand V B → Strand V B},
      s₀.strand? k = some st → s'.strands = s₀.strands.update id.number f →
      (∀ st, Gone st (f st)) → ∃ st', s'.strand? k = some st' ∧ Gone st st' := by
    intro s₀ s' id f hst₀ hstrands hf
    have hread := strand?_of_update hstrands k
    rw [hst₀] at hread
    split at hread
    · exact ⟨f st, hread, hf st⟩
    · exact ⟨st, hread, .refl st⟩
  cases ht with
  | answered j answer => exact ⟨st, hst, .refl st⟩
  | job j f hf => exact ⟨st, hst, .refl st⟩
  | addJob entry hok => exact ⟨st, hst, .refl st⟩
  | children id f hf => exact hupdate hst rfl fun st => .refl st
  | report id outcome =>
    obtain ⟨journal, channel, heq⟩ := s.reportUnhandled_eq id outcome
    rw [heq]
    exact ⟨st, hst, .refl st⟩
  | spawn r => exact ⟨st, strand?_spawn hst r, .refl st⟩
  | deliver alive hb hc hok => exact absurd (alive.symm.trans gone) (by decide)
  | @strike b bridge claimed w _ hb hc hok =>
    have hst' : (s.setBridge b claimed).strand? k = some st := hst
    unfold Scheduler.strike
    split
    · exact ⟨st, hst', .refl st⟩
    next old hold =>
      split
      · exact ⟨st, hst', .refl st⟩
      · obtain ⟨counters, journal, channel, heq⟩ := cut_eq hold
        rw [heq]
        exact hupdate (f := Strand.cut) hst' rfl fun _ => Or.inr rfl
  | retire kept _ hend => exact hupdate hst rfl fun st => .refl st

theorem Changes.gone {k : StrandId} {st : Strand V B} (hd : Changes Ok s s')
    (gone : s.terminated = true) (hst : s.strand? k = some st) :
    ∃ st', s'.strand? k = some st' ∧ Gone st st' := by
  have h := hd.preserves
    (P := fun s' => s'.terminated = true ∧ ∃ st', s'.strand? k = some st' ∧ Gone st st')
    ?_ ⟨gone, st, hst, .refl st⟩
  · exact h.2
  · rintro s₁ s₂ ⟨gone₁, st₁, hst₁, hwas⟩ ht
    obtain ⟨st₂, hst₂, hnow⟩ := ht.gone gone₁ hst₁
    exact ⟨ht.steady.terminated.trans gone₁, st₂, hst₂, hwas.trans hnow⟩

/-- A strand that has ended stays ended. -/
theorem Change.hasEnded {k : StrandId} (h : s.HasEnded k) (ht : Change Ok s s') :
    s'.HasEnded k := by
  obtain ⟨st, hst, hend⟩ := h
  cases hterm : s.terminated with
  | false =>
    obtain ⟨st', hst', hlater⟩ := (ht.rows hterm).old k st hst
    refine ⟨st', hst', ?_⟩
    rcases hlater.status with hs | hs <;> rw [hs]
    · exact hend
    · rw [Status.wake_terminal]
      exact hend
  | true =>
    obtain ⟨st', hst', ⟨hs, -⟩ | hs⟩ := ht.gone hterm hst
    · exact ⟨st', hst', hs ▸ hend⟩
    · exact ⟨st', hst', by rw [hs]; rfl⟩

theorem Changes.hasEnded {k : StrandId} (h : s.HasEnded k) (hd : Changes Ok s s') : s'.HasEnded k :=
  hd.preserves (fun _ _ h ht => ht.hasEnded h) h

/-! ## Bridges -/

/-- How a bridge may go on: it is claimed as the rule allows, or closed if that can happen, and
    once it is claimed it stays as it is. -/
structure Onward (Ok : BridgeId → Wakeup V → Prop) (closing : Prop) (b : BridgeId)
    (x x' : Bridge V) : Prop where
  strand : x'.strand = x.strand
  stage : x'.stage = x.stage ∨
    x.stage = .pending ∧ ((closing ∧ x'.stage = .spent) ∨ ∃ w, Ok b w ∧ x'.stage = .holding w)

theorem Onward.refl {closing : Prop} {b : BridgeId} (x : Bridge V) : Onward Ok closing b x x :=
  ⟨rfl, Or.inl rfl⟩

theorem Onward.trans {closing : Prop} {b : BridgeId} {x x' x'' : Bridge V}
    (h : Onward Ok closing b x x') (h' : Onward Ok closing b x' x'') :
    Onward Ok closing b x x'' where
  strand := h'.strand.trans h.strand
  stage := by
    rcases h'.stage with hs' | ⟨hp', hs'⟩
    · rw [hs']
      exact h.stage
    · rcases h.stage with hs | ⟨hp, ⟨-, hs⟩ | ⟨w, -, hs⟩⟩
      · exact Or.inr ⟨hs.symm.trans hp', hs'⟩
      · rw [hs] at hp'
        cases hp'
      · rw [hs] at hp'
        cases hp'

/-- Where the bridges come from: none is new, and each old one has gone on. -/
structure Bridges (Ok : BridgeId → Wakeup V → Prop) (closing : Prop) (s s' : Scheduler V B) :
    Prop where
  old : ∀ b x, s.bridge? b = some x → ∃ x', s'.bridge? b = some x' ∧ Onward Ok closing b x x'
  new : ∀ b, s.bridge? b = none → s'.bridge? b = none
  next : s'.bridges.next = s.bridges.next

theorem Bridges.of_same {closing : Prop} (h : s'.bridges = s.bridges) :
    Bridges Ok closing s s' := by
  have hread : ∀ b, s'.bridge? b = s.bridge? b := by
    intro b
    rw [bridge?, bridge?, h]
  exact ⟨fun b x hx => ⟨x, (hread b).trans hx, .refl x⟩, fun b hnone => (hread b).trans hnone,
    by rw [h]⟩

theorem Bridges.trans {closing : Prop} {s'' : Scheduler V B} (h : Bridges Ok closing s s')
    (h' : Bridges Ok closing s' s'') : Bridges Ok closing s s'' where
  old := by
    intro b x hx
    obtain ⟨x', hx', hon⟩ := h.old b x hx
    obtain ⟨x'', hx'', hon'⟩ := h'.old b x' hx'
    exact ⟨x'', hx'', hon.trans hon'⟩
  new := fun b hnone => h'.new b (h.new b hnone)
  next := h'.next.trans h.next

theorem Bridges.of_update {closing : Prop} {b : BridgeId} {f : Bridge V → Bridge V}
    (hbridges : s'.bridges = s.bridges.update b.number f)
    (hf : ∀ x, s.bridge? b = some x → Onward Ok closing b x (f x)) :
    Bridges Ok closing s s' := by
  have hread := bridge?_of_update hbridges
  refine ⟨?_, ?_, hbridges ▸ Table.next_update _ _ _⟩
  · intro a x hx
    rw [hread, hx]
    split
    next heq =>
      subst heq
      exact ⟨f x, rfl, hf x hx⟩
    · exact ⟨x, rfl, .refl x⟩
  · intro a hnone
    rw [hread, hnone]
    split <;> rfl

theorem Onward.claim {closing : Prop} {b : BridgeId} {x x' : Bridge V} {w : Wakeup V}
    (hc : x.claim? w = some x') (hok : Ok b w) : Onward Ok closing b x x' := by
  unfold Bridge.claim? at hc
  split at hc
  next hs =>
    obtain rfl := Option.some.inj hc
    exact ⟨rfl, Or.inr ⟨hs, Or.inr ⟨w, hok, rfl⟩⟩⟩
  all_goals cases hc

theorem Onward.shut {closing : Prop} (h : closing) (b : BridgeId) (x : Bridge V) :
    Onward Ok closing b x x.shut := by
  refine ⟨x.shut_strand, ?_⟩
  unfold Bridge.shut Bridge.close?
  cases hs : x.stage with
  | pending => exact Or.inr ⟨rfl, Or.inl ⟨h, rfl⟩⟩
  | holding w => exact Or.inl hs
  | spent => exact Or.inl hs

theorem Bridges.setBridge {closing : Prop} {b : BridgeId} {x x' : Bridge V}
    (hb : s.bridge? b = some x) (h : Onward Ok closing b x x') :
    Bridges Ok closing s (s.setBridge b x') := by
  refine .of_update (f := fun _ => x') rfl fun y hy => ?_
  rw [← Option.some.inj (hb.symm.trans hy)]
  exact h

theorem Bridges.cut {closing : Prop} (h : closing) {id : StrandId} {st : Strand V B}
    (hst : s.strand? id = some st) : Bridges Ok closing s (s.cut id st.bridge) := by
  obtain ⟨counters, journal, channel, heq⟩ := cut_eq hst
  rw [heq]
  cases st.bridge with
  | none => exact .of_same rfl
  | some b => exact .of_update rfl fun x _ => Onward.shut h b x

theorem Bridges.strike {closing : Prop} (h : closing) (id : StrandId) :
    Bridges Ok closing s (s.strike id) := by
  unfold Scheduler.strike
  split
  · exact .of_same rfl
  next st hst =>
    split
    · exact .of_same rfl
    · exact .cut h hst

theorem Bridges.wake {closing : Prop} (alive : s.terminated = false) (id : StrandId) :
    Bridges Ok closing s (s.wake id) := by
  cases hst : s.strand? id with
  | none =>
    rw [wake_none hst]
    exact .of_same rfl
  | some st =>
    obtain ⟨counters, journal, channel, heq⟩ := wake_eq alive hst
    rw [heq]
    exact .of_same rfl

theorem Bridges.weaken {closing closing' : Prop} (h : Bridges Ok closing s s')
    (himp : closing → closing') : Bridges Ok closing' s s' where
  old := by
    intro b x hx
    obtain ⟨x', hx', hon⟩ := h.old b x hx
    refine ⟨x', hx', hon.strand, ?_⟩
    rcases hon.stage with hs | ⟨hp, ⟨hc, hs⟩ | hs⟩
    · exact Or.inl hs
    · exact Or.inr ⟨hp, Or.inl ⟨himp hc, hs⟩⟩
    · exact Or.inr ⟨hp, Or.inr hs⟩
  new := h.new
  next := h.next

/-- Bridges are closed by changes only when the workers are gone. -/
theorem Change.bridges (ht : Change Ok s s') : Bridges Ok (s.terminated = true) s s' := by
  cases ht with
  | answered j answer => exact .of_same rfl
  | job j f hf => exact .of_same rfl
  | addJob entry hok => exact .of_same rfl
  | children id f hf => exact .of_same rfl
  | report id outcome =>
    obtain ⟨journal, channel, heq⟩ := s.reportUnhandled_eq id outcome
    rw [heq]
    exact .of_same rfl
  | spawn r =>
    rcases spawn_cases s r with ⟨-, counters, journal, channel, heq⟩ |
      ⟨strands, counters, journal, channel, cause, heq, -, -⟩
    · rw [heq]
      exact .of_same rfl
    · rw [heq]
      exact .of_same rfl
  | @deliver b bridge claimed w alive hb hc hok =>
    have alive' : (s.setBridge b claimed).terminated = false := alive
    have hwake : Bridges Ok (s.terminated = true) _ _ := .wake alive' bridge.strand
    exact (Bridges.setBridge hb (.claim hc hok)).trans hwake
  | @strike b bridge claimed w gone hb hc hok =>
    exact (Bridges.setBridge hb (.claim hc hok)).trans (.strike gone _)
  | retire kept gone hend => exact .of_same rfl

theorem Changes.bridges (hd : Changes Ok s s') : Bridges Ok (s.terminated = true) s s' := by
  have h := hd.preserves
    (P := fun s' => s'.terminated = s.terminated ∧ Bridges Ok (s.terminated = true) s s')
    (fun s₁ s₂ h ht => ⟨ht.steady.terminated.trans h.1, h.2.trans (h.1 ▸ ht.bridges)⟩)
    ⟨rfl, .of_same rfl⟩
  exact h.2

/-- When the workers are gone nothing is put into the queue any more. -/
theorem Change.waiting (hclosed : s.queue.closed = true) (gone : s.terminated = true)
    (ht : Change Ok s s') : s'.queue = s.queue := by
  cases ht with
  | answered j answer => rfl
  | job j f hf => rfl
  | addJob entry hok => rfl
  | children id f hf => rfl
  | report id outcome =>
    obtain ⟨journal, channel, heq⟩ := s.reportUnhandled_eq id outcome
    rw [heq]
  | spawn r =>
    rcases spawn_cases s r with ⟨hopen, -⟩ | ⟨_, _, _, _, _, heq, -, -⟩
    · rw [hclosed] at hopen
      cases hopen
    · rw [heq]
  | deliver alive hb hc hok => exact absurd (alive.symm.trans gone) (by simp)
  | @strike b bridge claimed w _ hb hc hok =>
    unfold Scheduler.strike
    split
    · rfl
    next st hst =>
      split
      · rfl
      · obtain ⟨counters, journal, channel, heq⟩ := cut_eq hst
        rw [heq]
        rfl
  | retire kept _ hend => rfl

theorem Changes.waiting (hclosed : s.queue.closed = true) (gone : s.terminated = true)
    (hd : Changes Ok s s') : s'.queue = s.queue := by
  have h := hd.preserves (P := fun s' => s'.terminated = true ∧ s'.queue = s.queue) ?_ ⟨gone, rfl⟩
  · exact h.2
  · rintro s₁ s₂ ⟨gone₁, hqueue⟩ ht
    have hclosed₁ : s₁.queue.closed = true := by rw [hqueue, hclosed]
    exact ⟨ht.steady.terminated.trans gone₁, (ht.waiting hclosed₁ gone₁).trans hqueue⟩

end Scheduler
end CoopSched
