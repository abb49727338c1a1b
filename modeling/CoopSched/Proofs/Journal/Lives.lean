import CoopSched.Proofs.Journal.StatusChanges
import CoopSched.Proofs.Scheduler.Orderly

/-!
# Lives — what a strand goes through, as an observer sees it

An observer who follows one strand sees it created, and then either refused or run in segments until
it finishes or is cancelled. `Stage.next?` is the automaton of these lives: where a life has come
to, and which happening may come next. Every strand lives by it (`Initial.living_run`), and the
stage to which the observer has followed a strand fits the status that it has (`Stage.Fits`).

Reports of unhandled failures are left out of a life. They are about a strand that has finished and
come whenever its failure is given up.
-/

namespace CoopSched

variable {V B : Type}

/-- Is it a report about a strand, and not something that the strand goes through? -/
def Happening.isReport : Happening → Bool
  | .unhandled _ => true
  | _ => false

/-- What the record says about a strand. -/
def Record.about? (k : StrandId) : Record V → Option Happening
  | .event e => if e.strand = k then some e.happening else none
  | .answered .. => none

/-- What the strand goes through by the record. -/
def Record.lived? (k : StrandId) (rec : Record V) : Option Happening :=
  (rec.about? k).filter (!·.isReport)

theorem Record.lived?_of_isAside {rec : Record V} (h : rec.isAside = true) (k : StrandId) :
    rec.lived? k = none := by
  match rec with
  | .answered .. => rfl
  | .event ⟨id, happening⟩ =>
    cases happening with
    | unhandled e =>
      rw [lived?, about?]
      split <;> rfl
    | _ => cases h

theorem Record.lived?_event (id k : StrandId) {h : Happening} (hreport : h.isReport = false) :
    Record.lived? k (.event (V := V) ⟨id, h⟩) = if id = k then some h else none := by
  rw [lived?, about?]
  split
  · rw [Option.filter_some, if_pos (by rw [hreport]; rfl)]
  · rfl

theorem Record.lived_asides {recs : List (Record V)} (h : ∀ rec ∈ recs, rec.isAside = true)
    (k : StrandId) : recs.filterMap (Record.lived? k) = [] :=
  List.filterMap_eq_nil_iff.mpr fun rec hrec => Record.lived?_of_isAside (h rec hrec) k

theorem Record.lived_events (id k : StrandId) {w : List Happening}
    (h : ∀ a ∈ w, a.isReport = false) :
    (w.map fun a => Record.event (V := V) ⟨id, a⟩).filterMap (Record.lived? k) =
      if id = k then w else [] := by
  induction w with
  | nil => simp
  | cons a w ih =>
    obtain ⟨ha, hw⟩ := List.forall_mem_cons.mp h
    rw [List.map_cons, List.filterMap_cons, lived?_event id k ha, ih hw]
    by_cases hk : id = k <;> simp [hk]

/-- The strand that the record says was created. -/
def Record.birth? : Record V → Option StrandId
  | .event ⟨id, .created⟩ => some id
  | _ => none

theorem Record.births_asides {recs : List (Record V)} (h : ∀ rec ∈ recs, rec.isAside = true) :
    recs.filterMap Record.birth? = [] := by
  refine List.filterMap_eq_nil_iff.mpr fun rec hrec => ?_
  have haside := h rec hrec
  match rec with
  | .answered .. => rfl
  | .event ⟨id, happening⟩ => cases happening <;> first | rfl | cases haside

theorem Record.births_passes {late gone through : Bool} {st st' : Status} {w : List Happening}
    (id : StrandId) (h : st.Passes late gone through w st') :
    (w.map fun a => Record.event (V := V) ⟨id, a⟩).filterMap Record.birth? = [] := by
  cases h <;> rfl

/-- Nothing that a strand passes through is a report. -/
theorem Status.Passes.told {late gone through : Bool} {st st' : Status} {w : List Happening}
    (h : st.Passes late gone through w st') : ∀ a ∈ w, a.isReport = false := by
  cases h <;> simp [Happening.isReport]

/-! ## Stages -/

/-- How far an observer has followed a strand. -/
inductive Stage where
  | unborn
  | created
  | refused
  /-- It was dispatched, and either still runs or was put back into the queue. -/
  | underway
  | parked
  | resumed
  | finished (ok : Bool)
  /-- It was cancelled; the flag says whether it was parked then. -/
  | cancelled (parked : Bool)
deriving DecidableEq, Repr, Inhabited

namespace Stage

variable {stage stage' stage₁ stage₂ : Stage} {late gone through : Bool}
  {st st' : Status} {w : List Happening} {a : Happening}

/-- The stage that follows with a happening; `none` if that may not come now. -/
def next? : Stage → Happening → Option Stage
  | .unborn, .created => some .created
  | .created, .rejected => some .refused
  | .created, .dispatched | .underway, .dispatched | .resumed, .dispatched => some .underway
  | .underway, .parked => some .parked
  | .parked, .resumed => some .resumed
  | .underway, .finished ok => some (.finished ok)
  | .created, .cancelled | .underway, .cancelled | .resumed, .cancelled => some (.cancelled false)
  | .parked, .cancelled => some (.cancelled true)
  | _, _ => none

/-- The stage after a life; `none` if nobody lives so. -/
def after? (w : List Happening) : Option Stage := w.foldlM next? .unborn

theorem after?_append (h : after? w = some stage) (w' : List Happening) :
    after? (w ++ w') = w'.foldlM next? stage := by
  rw [after?, List.foldlM_append, ← after?, h]
  rfl

theorem after?_snoc {h : Happening} (heq : after? (w ++ [h]) = some stage) :
    ∃ stage₁, after? w = some stage₁ ∧ stage₁.next? h = some stage := by
  rw [after?, List.foldlM_append] at heq
  obtain ⟨stage₁, hw, hnext⟩ := Option.bind_eq_some_iff.mp heq
  rw [List.foldlM_cons] at hnext
  obtain ⟨stage₂, hnext, heq⟩ := Option.bind_eq_some_iff.mp hnext
  exact ⟨stage₁, hw, hnext.trans heq⟩

/-- Is the strand to be found in the scheduler, and may it go on? -/
def isAlive : Stage → Bool
  | .created | .underway | .parked | .resumed => true
  | .unborn | .refused | .finished _ | .cancelled _ => false

/-- Has the strand come to its end? -/
def isEnd : Stage → Bool
  | .finished _ | .cancelled _ => true
  | .unborn | .created | .refused | .underway | .parked | .resumed => false

/-- Nothing comes after an end. -/
theorem next?_of_isEnd (h : stage.isEnd = true) (a : Happening) : stage.next? a = none := by
  cases stage <;> cases a <;> first | rfl | cases h

/-- The happening that leads to a stage. -/
def last? : Stage → Option Happening
  | .unborn => none
  | .created => some .created
  | .refused => some .rejected
  | .underway => some .dispatched
  | .parked => some .parked
  | .resumed => some .resumed
  | .finished ok => some (.finished ok)
  | .cancelled _ => some .cancelled

theorem last?_next (h : stage.next? a = some stage') : stage'.last? = some a := by
  cases stage <;> cases a <;> cases h <;> rfl

/-- **The last happening tells the stage**, but for whether a cancelled strand was parked. -/
theorem getLast?_of_after? (h : after? w = some stage) : w.getLast? = stage.last? := by
  rcases List.eq_nil_or_concat w with rfl | ⟨w, a, rfl⟩
  · obtain rfl := Option.some.inj h
    rfl
  · rw [List.concat_eq_append] at h ⊢
    obtain ⟨stage₁, -, hnext⟩ := after?_snoc h
    rw [List.getLast?_concat, last?_next hnext]

/-- Nothing happens to a strand that has finished. -/
theorem after?_finished {ok : Bool} {w' : List Happening}
    (h : after? (w ++ .finished ok :: w') = some stage) : stage = .finished ok ∧ w' = [] := by
  rw [after?, List.append_cons, List.foldlM_append] at h
  obtain ⟨stage₁, hfirst, hrest⟩ := Option.bind_eq_some_iff.mp h
  have hlast := getLast?_of_after? hfirst
  rw [List.getLast?_concat] at hlast
  have hend : stage₁ = .finished ok := by
    cases stage₁ <;> simp [last?] at hlast
    rw [hlast]
  cases w' with
  | nil => exact ⟨(Option.some.inj hrest).symm.trans hend, rfl⟩
  | cons a w' =>
    rw [List.foldlM_cons, next?_of_isEnd (by rw [hend]; rfl)] at hrest
    cases hrest

theorem isEnd_iff_last? :
    stage.isEnd = true ↔ ∃ a, stage.last? = some a ∧ (a = .cancelled ∨ ∃ ok, a = .finished ok) := by
  cases stage <;> simp [isEnd, last?]

/-- The statuses that a strand may have at a stage; a strand that was refused has none. -/
inductive Fits : Stage → Option Status → Prop
  | unborn : Fits .unborn none
  | created : Fits .created (some .runnable)
  | refused : Fits .refused none
  | running (notified : Bool) : Fits .underway (some (.running notified))
  | yielded : Fits .underway (some .runnable)
  | parked : Fits .parked (some .blocked)
  | resumed : Fits .resumed (some .runnable)
  | finished : Fits (.finished true) (some .doneOk)
  | failed : Fits (.finished false) (some .doneError)
  | cancelled (parked : Bool) : Fits (.cancelled parked) (some .doneError)

theorem Fits.parked_iff {status : Option Status} (h : stage.Fits status) :
    stage = .parked ↔ status = some .blocked := by
  cases h <;> simp

theorem Fits.isAlive_iff {status : Option Status} (h : stage.Fits status) :
    stage.isAlive = true ↔ ∃ st, status = some st ∧ st.isTerminal = false := by
  cases h <;> simp [isAlive, Status.isTerminal]

theorem Fits.isEnd_iff {status : Option Status} (h : stage.Fits status) :
    stage.isEnd = true ↔ ∃ st, status = some st ∧ st.isTerminal = true := by
  cases h <;> simp [isEnd, Status.isTerminal]

/-- How a stage may change in a move. The flags are those of `Status.Passes`. -/
structure Goes (late gone through : Bool) (stage stage' : Stage) : Prop where
  cancelled : ∀ parked, stage = .cancelled parked → stage' = .cancelled parked
  /-- Nobody parks any more, -/
  parks : late = true → stage' = .parked → stage = .parked
  /-- and who is cancelled has been parked all the time, or has not. -/
  cuts : stage' = .cancelled true → stage = .cancelled true ∨ late = true ∧ stage = .parked
  /-- Nobody is resumed. -/
  stuck : gone = true → stage = .parked → stage' = .parked ∨ stage' = .cancelled true
  /-- Nobody finishes but the strand whose move it is. -/
  finishes : ∀ ok, stage' = .finished ok → stage = .finished ok ∨ through = true

theorem Goes.refl (late gone through : Bool) (stage : Stage) :
    Goes late gone through stage stage where
  cancelled := fun _ h => h
  parks := fun _ h => h
  cuts := Or.inl
  stuck := fun _ => Or.inl
  finishes := fun _ => Or.inl

theorem Goes.trans (h : Goes late gone through stage stage₁)
    (h' : Goes late gone through stage₁ stage₂) : Goes late gone through stage stage₂ where
  cancelled := fun parked heq => h'.cancelled parked (h.cancelled parked heq)
  parks := fun hover heq => h.parks hover (h'.parks hover heq)
  cuts := fun heq => by
    rcases h'.cuts heq with hcut | ⟨hover, hparked⟩
    · exact h.cuts hcut
    · exact Or.inr ⟨hover, h.parks hover hparked⟩
  stuck := fun hgone heq => by
    rcases h.stuck hgone heq with hparked | hcut
    · exact h'.stuck hgone hparked
    · exact Or.inr (h'.cancelled true hcut)
  finishes := fun ok heq => (h'.finishes ok heq).elim (h.finishes ok) Or.inr

/-- **A strand that fits its stage passes on to one that it fits.** -/
theorem Fits.passes (hfits : stage.Fits (some st)) (h : st.Passes late gone through w st') :
    ∃ stage', w.foldlM next? stage = some stage' ∧ stage'.Fits (some st') ∧
      Goes late gone through stage stage' := by
  cases h with
  | marked => cases hfits; exact ⟨_, rfl, .running true, .refl ..⟩
  | requeued => cases hfits; exact ⟨_, rfl, .yielded, .refl ..⟩
  | dispatched =>
    cases hfits <;> exact ⟨.underway, rfl, .running false, by constructor <;> simp⟩
  | blocked hopen => cases hfits; exact ⟨.parked, rfl, .parked, by constructor <;> simp [hopen]⟩
  | unblocked => cases hfits; exact ⟨.resumed, rfl, .resumed, by constructor <;> simp⟩
  | resumed alive =>
    cases hfits; exact ⟨.resumed, rfl, .resumed, by constructor <;> simp [alive]⟩
  | finished notified ok hthrough =>
    cases hfits
    refine ⟨.finished ok, rfl, ?_, by constructor <;> simp [hthrough]⟩
    cases ok
    · exact .failed
    · exact .finished
  | cancelled hend hover =>
    cases hfits <;> first
      | exact ⟨.cancelled true, rfl, .cancelled true, by constructor <;> simp [hover]⟩
      | exact ⟨.cancelled false, rfl, .cancelled false, by constructor <;> simp⟩
      | cases hend

end Stage

namespace Scheduler

variable {Ok : BridgeId → Wakeup V → Prop} {drained : Bool} {s s₁ s' : Scheduler V B}
  {m : Move V B} {ms : List (Move V B)} {id k : StrandId} {f : Option StrandId}
  {stage : Stage}

/-! ## Lives -/

/-- What a strand has gone through, in turn. -/
def life (s : Scheduler V B) (k : StrandId) : List Happening :=
  s.journal.toList.filterMap (Record.lived? k)

theorem Tells.life {recs : List (Record V)} (h : Tells s s' recs) (k : StrandId) :
    s'.life k = s.life k ++ recs.filterMap (Record.lived? k) := by
  rw [Scheduler.life, h, List.filterMap_append]
  rfl

theorem Asides.life (h : Asides s s') (k : StrandId) : s'.life k = s.life k := by
  obtain ⟨recs, hwrites, hrecs⟩ := h
  rw [hwrites.journal.life, Record.lived_asides hrecs, List.append_nil]

/-- One strand is written about, and aside of it there are answers and reports. -/
theorem Writes.life {l r : List (Record V)} {w : List Happening} (id : StrandId)
    (h : Writes s s' (l ++ w.map (fun a => .event ⟨id, a⟩) ++ r))
    (hl : ∀ rec ∈ l, rec.isAside = true) (hr : ∀ rec ∈ r, rec.isAside = true)
    (hw : ∀ a ∈ w, a.isReport = false) (k : StrandId) :
    s'.life k = s.life k ++ if id = k then w else [] := by
  rw [h.journal.life, List.filterMap_append, List.filterMap_append, Record.lived_asides hl,
    Record.lived_asides hr, Record.lived_events id k hw, List.nil_append, List.append_nil]

/-- The strand has lived to this stage. -/
structure Living (s : Scheduler V B) (k : StrandId) (stage : Stage) : Prop where
  told : Stage.after? (s.life k) = some stage
  fits : stage.Fits (s.status? k)
  /-- Strands come into being in the order of their numbers. -/
  unborn : stage = .unborn ↔ k.number = 0 ∨ s.strands.next ≤ k.number

theorem Living.unique {stage' : Stage} (h : Living s k stage) (h' : Living s k stage') :
    stage = stage' :=
  Option.some.inj (h.told.symm.trans h'.told)

/-- Nothing has happened to a strand that is still to come. -/
theorem Living.newborn (h : Living s ⟨s.strands.next⟩ stage) :
    stage = .unborn := h.unborn.mpr (Or.inr le_rfl)

theorem Living.life_nil (h : Living s k .unborn) : s.life k = [] :=
  List.getLast?_eq_none_iff.mp (Stage.getLast?_of_after? h.told)

/-- A strand of which nothing is told, and whose status stays, is at the stage where it was. -/
theorem Living.stays (hl : Living s k stage) (hlife : s'.life k = s.life k)
    (hstatus : s'.status? k = s.status? k)
    (hnext : s'.strands.next ≤ k.number ↔ s.strands.next ≤ k.number) : Living s' k stage where
  told := by rw [hlife, hl.told]
  fits := by rw [hstatus]; exact hl.fits
  unborn := by rw [hnext]; exact hl.unborn

/-- A strand that is there comes to the stage that what is told of it leads to. -/
theorem Living.goes_on {stage' : Stage} {w : List Happening} {status : Status}
    (hl : Living s k stage) (hst : s.status? k = some status)
    (hlife : s'.life k = s.life k ++ w) (hstage : w.foldlM Stage.next? stage = some stage')
    (hfits : stage'.Fits (s'.status? k)) (hborn : stage' ≠ .unborn)
    (hnext : s'.strands.next = s.strands.next) : Living s' k stage' where
  told := by rw [hlife, Stage.after?_append hl.told, hstage]
  fits := hfits
  unborn := by
    have hold : stage ≠ .unborn := by
      rintro rfl
      have hnone := hl.fits
      rw [hst] at hnone
      cases hnone
    rw [hnext, ← hl.unborn]
    exact ⟨fun heq => absurd heq hborn, fun heq => absurd heq hold⟩

/-- The strand to which a number has just been given is where what is told of it leads. -/
theorem Living.begins {stage' : Stage} {w : List Happening}
    (hl : Living s ⟨s.strands.next⟩ stage)
    (hlife : s'.life ⟨s.strands.next⟩ = s.life ⟨s.strands.next⟩ ++ w)
    (hstage : Stage.after? w = some stage') (hfits : stage'.Fits (s'.status? ⟨s.strands.next⟩))
    (hborn : stage' ≠ .unborn) (hnext : s'.strands.next = s.strands.next + 1) :
    Living s' ⟨s.strands.next⟩ stage' where
  told := by
    obtain rfl := hl.newborn
    rw [hlife, hl.life_nil, List.nil_append, hstage]
  fits := hfits
  unborn := by
    rw [hnext]
    refine ⟨fun heq => absurd heq hborn, fun hnew => absurd hnew ?_⟩
    simp [Table.next]

/-- Nobody else notices that a number was given out. -/
theorem next_le_iff (hnext : s'.strands.next = s.strands.next + 1)
    (hne : (⟨s.strands.next⟩ : StrandId) ≠ k) :
    s'.strands.next ≤ k.number ↔ s.strands.next ≤ k.number := by
  have hnumber : s.strands.next ≠ k.number := fun heq => hne (StrandId.number_inj.mp heq)
  omega

/-- **A status change brings a strand from one stage to another**, or leaves it where it is. -/
theorem StatusChange.living (h : StatusChange f s s') (hl : Living s k stage) :
    ∃ stage', Living s' k stage' ∧
      stage.Goes s.isShutDown s.terminated (f == some k) stage' := by
  cases h with
  | aside habides hrows hnext hasides =>
    exact ⟨stage, hl.stays (hasides.life k) (hrows k) (by rw [hnext]), .refl ..⟩
  | passes id habides hst hpasses hrows hnext hwrites hleft hright =>
    have hlife := hwrites.life id hleft hright hpasses.told k
    have hstatus := hrows k
    by_cases hk : id = k
    · subst hk
      rw [if_pos rfl] at hlife hstatus
      have hfits := hl.fits
      rw [hst] at hfits
      obtain ⟨stage', hstage, hfits', hgoes⟩ := hfits.passes hpasses
      have hborn : stage' ≠ .unborn := by
        rintro rfl
        cases hfits'
      exact ⟨stage', hl.goes_on hst hlife hstage (hstatus.symm ▸ hfits') hborn hnext, hgoes⟩
    · rw [if_neg hk] at hlife hstatus
      rw [List.append_nil] at hlife
      exact ⟨stage, hl.stays hlife hstatus (by rw [hnext]), .refl ..⟩
  | admitted habides hrows hnext hwrites =>
    have hlife := hwrites.life ⟨s.strands.next⟩ (w := [.created]) (l := []) (r := []) (by simp)
      (by simp) (by simp [Happening.isReport]) k
    have hstatus := hrows k
    by_cases hk : (⟨s.strands.next⟩ : StrandId) = k
    · subst hk
      rw [if_pos rfl] at hlife hstatus
      refine ⟨.created, hl.begins hlife rfl (hstatus.symm ▸ .created) (by simp) hnext, ?_⟩
      obtain rfl := hl.newborn
      constructor <;> simp
    · rw [if_neg hk] at hlife hstatus
      rw [List.append_nil] at hlife
      exact ⟨stage, hl.stays hlife hstatus (next_le_iff hnext hk), .refl ..⟩
  | refused habides hrows hnext hwrites =>
    have hlife := hwrites.life ⟨s.strands.next⟩ (w := [.created, .rejected]) (l := []) (r := [])
      (by simp) (by simp) (by simp [Happening.isReport]) k
    by_cases hk : (⟨s.strands.next⟩ : StrandId) = k
    · subst hk
      rw [if_pos rfl] at hlife
      have hfits := hl.fits
      rw [hl.newborn] at hfits
      have hnobody : Stage.refused.Fits (s'.status? ⟨s.strands.next⟩) := by
        rw [hrows]
        generalize s.status? ⟨s.strands.next⟩ = status at hfits
        cases hfits
        exact .refused
      refine ⟨.refused, hl.begins hlife rfl hnobody (by simp) hnext, ?_⟩
      obtain rfl := hl.newborn
      constructor <;> simp
    · rw [if_neg hk, List.append_nil] at hlife
      exact ⟨stage, hl.stays hlife (hrows k) (next_le_iff hnext hk), .refl ..⟩

theorem StatusChanges.living (h : StatusChanges f s s') (hl : Living s k stage) :
    ∃ stage', Living s' k stage' ∧
      stage.Goes s.isShutDown s.terminated (f == some k) stage' := by
  induction h with
  | refl => exact ⟨stage, hl, .refl ..⟩
  | tail hfirst hlast ih =>
    obtain ⟨stage₁, hl₁, hgoes⟩ := ih
    obtain ⟨stage₂, hl₂, hgoes'⟩ := hlast.living hl₁
    have habides := StatusChanges.abides hfirst
    rw [habides.isShutDown, habides.terminated] at hgoes'
    exact ⟨stage₂, hl₂, hgoes.trans hgoes'⟩

/-- **How the stage of a strand changes in a move.** A move that only announces a shutdown changes
    none. -/
theorem Stable.goes {stage' : Stage} (hs : Stable Ok drained s) (ha : s.Allows m)
    (hl : Living s k stage) (hl' : Living (s.after m) k stage') :
    stage.Goes s.isShutDown s.terminated (s.finisher? m == some k) stage' := by
  cases hannounces : m.announces with
  | true =>
    obtain ⟨-, hjournal, -⟩ := after_announces (s := s) hannounces
    have htold := hl'.told
    rw [life, hjournal] at htold
    obtain rfl := Option.some.inj (hl.told.symm.trans htold)
    exact .refl ..
  | false =>
    obtain ⟨stage₁, hl₁, hgoes⟩ := (hs.statusChanges ha hannounces).living hl
    obtain rfl := hl₁.unique hl'
    exact hgoes

/-- **In every run, every strand has lived to some stage.** -/
theorem Initial.living_run (hs : Initial s) (ha : s.Admissible ms) (k : StrandId) :
    ∃ stage, Living (s.run ms) k stage := by
  refine hs.observed_run (P := fun s => ∃ stage, Living s k stage)
    (show s.Admissible ([] ++ ms) from ha) ?_ ?_ ?_
  · rintro s s' hstrands hjournal - ⟨stage, hl⟩
    exact ⟨stage, hl.stays (by rw [life, hjournal, life]) (status?_of_same hstrands k)
      (by rw [hstrands])⟩
  · rintro f s s' hchange ⟨stage, hl⟩
    obtain ⟨stage', hl', -⟩ := hchange.living hl
    exact ⟨stage', hl'⟩
  · refine ⟨.unborn, ⟨?_, ?_, ?_⟩⟩
    · rw [run_nil, life, hs.journal]
      rfl
    · rw [run_nil, status?, strand?, hs.empty.1, get?_empty]
      exact .unborn
    · rw [run_nil, hs.empty.1]
      have hone : ({} : Table (Strand V B)).next = 1 := rfl
      rw [hone]
      exact ⟨fun _ => by omega, fun _ => rfl⟩

/-! ## Births -/

/-- The strands that were created, the first one first. -/
def births (s : Scheduler V B) : List StrandId := s.journal.toList.filterMap Record.birth?

theorem Tells.births {recs : List (Record V)} (h : Tells s s' recs) :
    s'.births = s.births ++ recs.filterMap Record.birth? := by
  rw [Scheduler.births, h, List.filterMap_append]
  rfl

theorem Asides.births (h : Asides s s') : s'.births = s.births := by
  obtain ⟨recs, hwrites, hrecs⟩ := h
  rw [hwrites.journal.births, Record.births_asides hrecs, List.append_nil]

/-- The numbers have been given out in turn, from one on. -/
def Numbered (s : Scheduler V B) : Prop :=
  s.births.map (·.number) = List.range' 1 (s.strands.next - 1)

/-- The next number has been given out. -/
theorem Numbered.next (h : Numbered s) (hnext : s'.strands.next = s.strands.next + 1)
    (hbirths : s'.births = s.births ++ [⟨s.strands.next⟩]) : Numbered s' := by
  have hsucc : s.strands.next + 1 - 1 = s.strands.next - 1 + 1 := by
    have hpos : 0 < s.strands.next := Nat.succ_pos _
    omega
  have hlast : 1 + 1 * (s.strands.next - 1) = s.strands.next := by
    have hpos : 0 < s.strands.next := Nat.succ_pos _
    omega
  rw [Numbered, hbirths, List.map_append, h, hnext, hsucc, List.range'_concat, hlast]
  rfl

theorem StatusChange.numbered (h : StatusChange f s s') (hn : Numbered s) : Numbered s' := by
  cases h with
  | aside habides hrows hnext hasides =>
    rw [Numbered, hasides.births, hnext]
    exact hn
  | passes id habides hst hpasses hrows hnext hwrites hleft hright =>
    rw [Numbered, hwrites.journal.births, List.filterMap_append, List.filterMap_append,
      Record.births_asides hleft, Record.births_asides hright, Record.births_passes id hpasses,
      List.append_nil, List.append_nil, List.append_nil, hnext]
    exact hn
  | admitted habides hrows hnext hwrites => exact hn.next hnext hwrites.journal.births
  | refused habides hrows hnext hwrites => exact hn.next hnext hwrites.journal.births

theorem Initial.numbered_run (hs : Initial s) (ha : s.Admissible ms) : Numbered (s.run ms) := by
  refine hs.observed_run (P := Numbered) (show s.Admissible ([] ++ ms) from ha) ?_
    StatusChange.numbered ?_
  · intro s s' hstrands hjournal _ hn
    rw [Numbered, births, hjournal, hstrands]
    exact hn
  · rw [run_nil, Numbered, births, hs.journal, hs.empty.1]
    rfl

end Scheduler
end CoopSched
