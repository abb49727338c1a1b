import CoopSched.Proofs.Journal.Lives
import CoopSched.Proofs.Outcome.Whereabouts

/-!
# Stories — the language of what is told of a strand

All that the observers are told of one strand, in turn, is a word of a small language (`IsStory`):
it was created and refused, or it was created, went through segments, and perhaps came to an end;
and one report may follow if it failed. The last happening says where the strand is. That is so
whoever made the strand move, also when it was cancelled or completed in the middle of a move of
somebody else (`stories_told`).

That the report comes last is seen in the move with which the strand finishes: this is written down
before anything that comes of it (`Initial.finished_written`).
-/

namespace CoopSched

variable {V B : Type}

/-! ## The language -/

/-- A segment that did not end the strand. -/
inductive Passage where
  /-- It gave up its worker, or it still runs. -/
  | ran
  /-- It parked, and was resumed since. -/
  | waited
deriving DecidableEq, Repr

def Passage.told : Passage → List Happening
  | .ran => [.dispatched]
  | .waited => [.dispatched, .parked, .resumed]

/-- What comes after these segments. -/
inductive Close where
  | none
  | parked
  | finished
  | failed (report : Option Failure)
  | cancelled
  | cutParked
deriving DecidableEq, Repr

def Close.told : Close → List Happening
  | .none => []
  | .parked => [.dispatched, .parked]
  | .finished => [.dispatched, .finished true]
  | .failed report => [.dispatched, .finished false] ++ (report.map .unhandled).toList
  | .cancelled => [.cancelled]
  | .cutParked => [.dispatched, .parked, .cancelled]

/-- What is told of a strand that was admitted, up to the segment that is its last. -/
def begun (passages : List Passage) : List Happening :=
  .created :: passages.flatMap Passage.told

/-- What may be told of a strand. -/
inductive IsStory : List Happening → Prop
  | refused : IsStory [.created, .rejected]
  | admitted (passages : List Passage) (close : Close) : IsStory (begun passages ++ close.told)

/-- The strand finished or was cancelled in the end, and a report may have followed. -/
def Concluded (w : List Happening) : Prop :=
  ∃ earlier last reports, w = earlier ++ last :: reports ∧
    (last = .cancelled ∨ ∃ ok, last = .finished ok) ∧ reports.length ≤ 1 ∧
    ∀ a ∈ reports, a.isReport = true

theorem begun_ran (passages : List Passage) :
    begun (passages ++ [.ran]) = begun passages ++ [.dispatched] := by
  simp [begun, Passage.told]

theorem begun_waited (passages : List Passage) :
    begun (passages ++ [.waited]) = begun passages ++ [.dispatched, .parked, .resumed] := by
  simp [begun, Passage.told]

namespace Stage

variable {stage stage' : Stage} {w : List Happening} {a : Happening}

/-- The lives that lead to a stage. -/
inductive Shape : Stage → List Happening → Prop
  | unborn : Shape .unborn []
  | refused : Shape .refused [.created, .rejected]
  | created : Shape .created (begun [])
  | underway (passages : List Passage) : Shape .underway (begun passages ++ [.dispatched])
  | parked (passages : List Passage) : Shape .parked (begun passages ++ [.dispatched, .parked])
  | resumed (passages : List Passage) : Shape .resumed (begun passages)
  | finished (passages : List Passage) (ok : Bool) :
      Shape (.finished ok) (begun passages ++ [.dispatched, .finished ok])
  | cancelled (passages : List Passage) : Shape (.cancelled false) (begun passages ++ [.cancelled])
  | cutParked (passages : List Passage) :
      Shape (.cancelled true) (begun passages ++ [.dispatched, .parked, .cancelled])

theorem Shape.next (h : stage.Shape w) (hnext : stage.next? a = some stage') :
    stage'.Shape (w ++ [a]) := by
  cases h with
  | unborn => cases a <;> cases hnext; exact .created
  | refused => cases a <;> cases hnext
  | created =>
    cases a <;> cases hnext
    · exact .refused
    · exact .underway []
    · exact .cancelled []
  | underway passages =>
    rw [List.append_assoc]
    cases a <;> cases hnext
    · rw [← List.append_assoc, ← begun_ran]
      exact .underway _
    · exact .parked passages
    · exact .finished passages _
    · rw [← List.append_assoc, ← begun_ran]
      exact .cancelled _
  | parked passages =>
    rw [List.append_assoc]
    cases a <;> cases hnext
    · exact (begun_waited passages) ▸ .resumed _
    · exact .cutParked passages
  | resumed passages =>
    cases a <;> cases hnext
    · exact .underway passages
    · exact .cancelled passages
  | finished passages ok => cases a <;> cases hnext
  | cancelled passages => cases a <;> cases hnext
  | cutParked passages => cases a <;> cases hnext

/-- The automaton knows no other lives. -/
theorem shape_of_after? (h : after? w = some stage) : stage.Shape w := by
  induction w using List.reverseRecOn generalizing stage with
  | nil =>
    obtain rfl := Option.some.inj h
    exact .unborn
  | append_singleton w a ih =>
    obtain ⟨stage₁, hw, hnext⟩ := after?_snoc h
    exact (ih hw).next hnext

/-- What is told of a strand is a story: its life, and a report if it failed. -/
theorem Shape.story (h : stage.Shape w) (hborn : stage ≠ .unborn) {reports : List Failure}
    (hreports : reports = [] ∨ stage = .finished false ∧ ∃ e, reports = [e]) :
    IsStory (w ++ reports.map .unhandled) := by
  rcases hreports with rfl | ⟨rfl, e, rfl⟩
  · rw [List.map_nil, List.append_nil]
    cases h with
    | unborn => exact absurd rfl hborn
    | refused => exact .refused
    | created => exact .admitted [] .none
    | underway passages =>
      rw [← begun_ran, ← List.append_nil (begun _)]
      exact .admitted _ .none
    | parked passages => exact .admitted passages .parked
    | resumed passages =>
      rw [← List.append_nil (begun _)]
      exact .admitted passages .none
    | finished passages ok =>
      cases ok
      · exact .admitted passages (.failed none)
      · exact .admitted passages .finished
    | cancelled passages => exact .admitted passages .cancelled
    | cutParked passages => exact .admitted passages .cutParked
  · cases h with
    | finished passages =>
      rw [List.append_assoc]
      exact .admitted passages (.failed (some e))

end Stage

/-! ## What is told -/

/-- What is no part of a life is a report. -/
theorem Record.about_of_lived_nil {k : StrandId} {recs : List (Record V)}
    (h : recs.filterMap (Record.lived? k) = []) :
    recs.filterMap (Record.about? k) = (recs.filterMap (Record.report? k)).map .unhandled := by
  induction recs with
  | nil => rfl
  | cons rec recs ih =>
    rw [List.filterMap_eq_nil_iff, List.forall_mem_cons, ← List.filterMap_eq_nil_iff] at h
    rw [List.filterMap_cons, List.filterMap_cons, ih h.2]
    match rec, h.1 with
    | .answered .., _ => rfl
    | .event ⟨id, happening⟩, hnone =>
      by_cases hk : id = k
      · subst hk
        cases happening with
        | unhandled e => simp [about?, report?]
        | _ => simp [lived?, about?, Happening.isReport] at hnone
      · cases happening <;> simp [about?, report?, hk]

/-- Where there is no report, everything is a part of a life. -/
theorem Record.about_of_report_nil {k : StrandId} {recs : List (Record V)}
    (h : recs.filterMap (Record.report? k) = []) :
    recs.filterMap (Record.about? k) = recs.filterMap (Record.lived? k) := by
  refine List.filterMap_congr fun rec hrec => ?_
  have hnone := List.filterMap_eq_nil_iff.mp h rec hrec
  match rec with
  | .answered .. => rfl
  | .event ⟨id, happening⟩ =>
    cases happening with
    | unhandled e =>
      have hk : id ≠ k := by
        rintro rfl
        simp [report?] at hnone
      simp [lived?, about?, hk]
    | _ =>
      rw [lived?, about?]
      split <;> rfl

namespace Scheduler

variable {s s' : Scheduler V B} {m : Move V B} {ms before rest : List (Move V B)}
  {id k : StrandId} {stage : Stage} {r : Outcome V} {st : Strand V B}

/-- What the observers were told of a strand, in turn. -/
def history (s : Scheduler V B) (k : StrandId) : List Happening :=
  s.journal.toList.filterMap (Record.about? k)

theorem Tells.history {recs : List (Record V)} (h : Tells s s' recs) (k : StrandId) :
    s'.history k = s.history k ++ recs.filterMap (Record.about? k) := by
  rw [Scheduler.history, h, List.filterMap_append]
  rfl

/-- A life is what was told, without the reports. -/
theorem history_filter (s : Scheduler V B) (k : StrandId) :
    (s.history k).filter (!·.isReport) = s.life k := by
  rw [history, List.filter_filterMap]
  rfl

/-- **That a strand finished is written down before anything that comes of it.** -/
theorem Initial.finished_written (hs : Initial s) (ha : s.Admissible (before ++ m :: rest))
    (hfin : (s.run before).finishes m = some (k, r)) :
    ∃ recs, (s.run (before ++ m :: rest)).journal.toList =
      (s.run before).journal.toList ++ .event ⟨k, .finished r.isOk⟩ :: recs := by
  obtain ⟨hbefore, hm, -⟩ := admissible_append.mp ha
  have hstable := hs.stable_run hbefore
  obtain ⟨st, hst, hrun⟩ := hstable.placed.finishes hm hfin
  obtain ⟨asides, hwrites, -⟩ := markFinished_writes (s.run before) k r.isOk
  have hgrows := (StatusChanges.marked (f := none) hst hrun r .refl).grows
  rw [hwrites.journal, List.append_cons] at hgrows
  have hafter : (s.run before).journal.toList ++ [.event ⟨k, .finished r.isOk⟩] <+:
      (s.run (before ++ [m])).journal.toList := by
    rw [run_snoc, after_finishes hfin]
    exact (List.prefix_append _ _).trans hgrows
  rw [List.append_cons] at ha ⊢
  obtain ⟨recs, heq⟩ := hs.observed_run ha
    (P := fun s' => (s.run before).journal.toList ++ [.event ⟨k, .finished r.isOk⟩] <+:
      s'.journal.toList)
    (fun _ hjournal _ h => by simpa only [hjournal] using h)
    (fun hchange h => h.trans hchange.grows) hafter
  exact ⟨recs, by rw [← heq, List.append_assoc]; rfl⟩

/-- Of a strand that finished, its failure is reported or nothing. -/
theorem Initial.unhandled_endedIn (hs : Initial s) (ha : s.Admissible ms)
    (hended : EndedIn s ms k r) :
    (s.run ms).unhandled k = [] ∨ (s.run ms).unhandled k = r.failure?.toList := by
  -- In a list in which no strand stands twice the strand stands with this outcome or not at all.
  have hlist : ∀ l : List (ChildOutcome V), (l.map (·.id)).Nodup →
      (∀ c ∈ l, EndedIn s ms c.id c.outcome) →
      l.filterMap (·.report? k) = [] ∨ l.filterMap (·.report? k) = r.failure?.toList := by
    intro l hnodup hl
    by_cases hmem : ⟨k, r⟩ ∈ l
    · exact Or.inr (ChildOutcome.reports_of_mem hnodup hmem)
    · refine Or.inl (ChildOutcome.reports_nil ?_)
      rintro ⟨i, o⟩ hc rfl
      exact hmem (hs.endedIn_unique ha hended (hl _ hc) ▸ hc)
  obtain ⟨st, hst, -⟩ := hs.hasEnded_of_endedIn ha hended
  cases hp : st.parent with
  | some p =>
    rw [hs.unhandled_child ha hst hp]
    exact hlist _ (hs.forsakenIn_nodup ha p) fun c hc => (hs.forsaken_kid ha hc).1
  | none =>
    cases hhook : st.hook with
    | some hook =>
      refine Or.inl (hs.unhandled_hooked ha fun st' hst' => ?_)
      rw [← Option.some.inj (hst.symm.trans hst'), hhook]
      exact Option.some_ne_none hook
    | none =>
      rw [hs.unhandled_alone ha hst hp hhook]
      exact hlist _ (hs.finishedIn_nodup ha) fun c hc => mem_finishedIn.mp hc

/-- What was told of a strand is its life up to a stage, and a report if it failed. -/
structure ToldTo (s : Scheduler V B) (k : StrandId) (stage : Stage) : Prop where
  living : Living s k stage
  history : s.history k = s.life k ++ (s.unhandled k).map .unhandled
  reports : s.unhandled k = [] ∨ stage = .finished false ∧ ∃ e, s.unhandled k = [e]

/-- Nothing is told of a strand beside its life, as long as it has not finished. -/
theorem Initial.history_unfinished (hs : Initial s) (ha : s.Admissible ms)
    (hnot : ∀ r, ¬ EndedIn s ms k r) : (s.run ms).history k = (s.run ms).life k :=
  Record.about_of_report_nil (hs.unhandled_unfinished ha hnot)

/-- All that is told of a strand after it finished are reports. -/
theorem Initial.toldTo_finished (hs : Initial s) (ha : s.Admissible ms)
    (hliving : Living (s.run ms) k stage) (hr : EndedIn s ms k r) :
    ToldTo (s.run ms) k stage := by
  have hreports := hs.unhandled_endedIn ha hr
  obtain ⟨before, m, rest, rfl, hfin⟩ := hr
  obtain ⟨recs, hjournal⟩ := hs.finished_written ha hfin
  have hbefore := (admissible_append.mp ha).1
  have hnot : ∀ r', ¬ EndedIn s before k r' := by
    intro r'
    rw [List.append_cons] at ha
    exact hs.finishes_new (admissible_append.mp ha).1 hfin
  have htells : Tells (s.run before) (s.run (before ++ m :: rest))
      (.event ⟨k, .finished r.isOk⟩ :: recs) := hjournal
  have hlife := htells.life k
  have hhistory := htells.history k
  have hunhandled := htells.unhandled k
  rw [List.filterMap_cons_some (b := .finished r.isOk) (by simp [Record.lived?, Record.about?,
    Happening.isReport])] at hlife
  rw [List.filterMap_cons_some (b := .finished r.isOk) (by simp [Record.about?])] at hhistory
  rw [List.filterMap_cons_none rfl, hs.unhandled_unfinished hbefore hnot, List.nil_append]
    at hunhandled
  have htold := hliving.told
  rw [hlife] at htold
  obtain ⟨rfl, hnil⟩ := Stage.after?_finished htold
  refine ⟨hliving, ?_, ?_⟩
  · rw [hhistory, Record.about_of_lived_nil hnil, hs.history_unfinished hbefore hnot, hlife,
      hunhandled, hnil, List.append_assoc]
    rfl
  · rcases hreports with hnone | hsome
    · exact Or.inl hnone
    · cases r with
      | ok v => exact Or.inl hsome
      | err e => exact Or.inr ⟨rfl, e, hsome⟩

/-- **Reports come last**, and only of a strand that failed. -/
theorem Initial.toldTo_run (hs : Initial s) (ha : s.Admissible ms) (k : StrandId) :
    ∃ stage, ToldTo (s.run ms) k stage := by
  obtain ⟨stage, hliving⟩ := hs.living_run ha k
  by_cases hended : ∃ r, EndedIn s ms k r
  · obtain ⟨r, hr⟩ := hended
    exact ⟨stage, hs.toldTo_finished ha hliving hr⟩
  · have hnot : ∀ r, ¬ EndedIn s ms k r := fun r hr => hended ⟨r, hr⟩
    have hnone := hs.unhandled_unfinished ha hnot
    refine ⟨stage, hliving, ?_, Or.inl hnone⟩
    rw [hs.history_unfinished ha hnot, hnone, List.map_nil, List.append_nil]

/-! ## The law -/

/-- What is told of a strand agrees with where it is. -/
structure Narrated (s : Scheduler V B) (k : StrandId) : Prop where
  /-- A story is told of every strand that was created, -/
  story : 0 < k.number → k.number < s.strands.next → IsStory (s.history k)
  /-- and nothing of anybody else. -/
  stranger : k.number = 0 ∨ s.strands.next ≤ k.number → s.history k = []
  /-- Who is not there was never created, or refused. -/
  absent : s.status? k = none ↔
    (s.history k).getLast? = none ∨ (s.history k).getLast? = some .rejected
  blocked : (s.history k).getLast? = some .parked ↔ s.status? k = some .blocked
  ended : Concluded (s.history k) ↔ ∃ status, s.status? k = some status ∧ status.isTerminal = true
  succeeded : (s.history k).getLast? = some (.finished true) ↔ s.status? k = some .doneOk
  ready : (s.history k).getLast? = some .created ∨ (s.history k).getLast? = some .resumed →
    s.status? k = some .runnable
  /-- A strand that was dispatched runs, or it gave up its worker. -/
  underway : (s.history k).getLast? = some .dispatched →
    s.status? k = some .runnable ∨ ∃ notified, s.status? k = some (.running notified)

/-- What was told last is the last happening of the life, or a report. -/
theorem ToldTo.last (h : ToldTo s k stage) :
    (s.history k).getLast? = stage.last? ∨
      stage = .finished false ∧ ∃ e, (s.history k).getLast? = some (.unhandled e) := by
  rw [h.history]
  rcases h.reports with hnone | ⟨hstage, e, hsome⟩
  · rw [hnone, List.map_nil, List.append_nil]
    exact Or.inl (Stage.getLast?_of_after? h.living.told)
  · rw [hsome]
    exact Or.inr ⟨hstage, e, List.getLast?_concat⟩

/-- A strand has come to an end just when its end was told. -/
theorem ToldTo.concluded (h : ToldTo s k stage) :
    Concluded (s.history k) ↔ stage.isEnd = true := by
  have hlast := Stage.getLast?_of_after? h.living.told
  rw [Stage.isEnd_iff_last?, ← hlast]
  constructor
  · rintro ⟨earlier, last, reports, heq, hend, -, hreports⟩
    have hlife : s.life k = earlier.filter (!·.isReport) ++ [last] := by
      have hnone : reports.filter (!·.isReport) = [] :=
        List.filter_eq_nil_iff.mpr fun a ha => by simp [hreports a ha]
      have hkept : (!last.isReport) = true := by
        rcases hend with rfl | ⟨ok, rfl⟩ <;> rfl
      rw [← history_filter, heq, List.filter_append, List.filter_cons, if_pos hkept, hnone]
    exact ⟨last, by rw [hlife, List.getLast?_concat], hend⟩
  · rintro ⟨last, hlife, hend⟩
    obtain ⟨earlier, heq⟩ := List.getLast?_eq_some_iff.mp hlife
    refine ⟨earlier, last, (s.unhandled k).map .unhandled, ?_, hend, ?_, ?_⟩
    · rw [h.history, heq, List.append_assoc]
      rfl
    · rcases h.reports with hnone | ⟨-, e, hsome⟩
      · simp [hnone]
      · simp [hsome]
    · intro a ha
      obtain ⟨e, -, rfl⟩ := List.mem_map.mp ha
      rfl

theorem ToldTo.narrated (h : ToldTo s k stage) : Narrated s k := by
  have hlast := h.last
  have hfits := h.living.fits
  refine
    { story := fun hpos hlt => ?_
      stranger := fun hnumber => ?_
      absent := ?_
      blocked := ?_
      ended := h.concluded.trans hfits.isEnd_iff
      succeeded := ?_
      ready := ?_
      underway := ?_ }
  · have hborn : stage ≠ .unborn := fun heq => by
      have hnumber := h.living.unborn.mp heq
      omega
    rw [h.history]
    exact (Stage.shape_of_after? h.living.told).story hborn h.reports
  · obtain rfl := h.living.unborn.mpr hnumber
    simpa [Stage.last?] using hlast
  -- What is left are questions about the last happening, and each stage answers them.
  all_goals
    generalize (s.history k).getLast? = last at hlast ⊢
    generalize s.status? k = status at hfits ⊢
    cases hfits <;> rcases hlast with rfl | ⟨hstage, e, rfl⟩ <;> simp_all [Stage.last?]

/-- **What is told of a strand is a story**, and the last that was told says where the strand is.
    That strands were created is told in the order of their numbers. -/
theorem stories_told (hs : Initial s) (ha : s.Admissible ms) :
    (∀ k, Narrated (s.run ms) k) ∧ ((s.run ms).births.map (·.number)).Pairwise (· < ·) := by
  refine ⟨fun k => ?_, ?_⟩
  · obtain ⟨stage, htold⟩ := hs.toldTo_run ha k
    exact htold.narrated
  · rw [hs.numbered_run ha]
    exact List.pairwise_lt_range'

/-- One strand waits, yields and is cut off by a shutdown, one fails, and one comes too late. -/
theorem stories_told_three :
    let failure : Failure := ⟨.failed, "boom"⟩
    let ms : List (Move Nat Unit) := [.spawn () none, .dispatch, .park ⟨1⟩,
      .endSegment ⟨1⟩ () .park, .complete ⟨1⟩ (.ok 0), .spawn () none, .dispatch,
      .endSegment ⟨1⟩ () .yield, .dispatch, .endSegment ⟨2⟩ () (.done (.err failure)), .dispatch,
      .park ⟨1⟩, .beginShutdown .immediate, .spawnDetached ⟨1⟩ (), .endSegment ⟨1⟩ () .park]
    ((∀ k, Narrated (single.run ms) k) ∧
        ((single.run ms).births.map (·.number)).Pairwise (· < ·)) ∧
      (single.run ms).history ⟨1⟩ =
        [.created, .dispatched, .parked, .resumed, .dispatched, .dispatched, .cancelled] ∧
      (single.run ms).history ⟨2⟩ =
        [.created, .dispatched, .finished false, .unhandled failure] ∧
      (single.run ms).history ⟨3⟩ = [.created, .rejected] := by
  intro failure ms
  have ha : single.Admissible ms := by simp [ms, Admissible, Allows]; decide
  refine ⟨stories_told single_initial ha, ?_, ?_, ?_⟩ <;> simp only [ms, failure] <;> rfl

end Scheduler
end CoopSched
