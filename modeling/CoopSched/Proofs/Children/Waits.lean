import CoopSched.Proofs.Children.Books

/-!
# Waits — what a strand is told about its children

A strand may wait for its children as often as it likes, and each time for all of them, for all to
succeed or for any. Whatever it does and in whatever order the children finish, until a shutdown
cancels strands (`waits_follow`): each wait brings what has settled since the wait before it, and it
is over just when its condition holds. No strand stays blocked on a wait that is over, and none is
resumed from one that is not.
-/

namespace CoopSched

variable {V B : Type}

namespace WaitMode

/-- Is this what a wait is to bring, with these outcomes in its batch? -/
def Brings (mode : WaitMode) (outcomes : List (ChildOutcome V))
    (answer : Outcome (List (ChildOutcome V))) : Prop :=
  match mode with
  | .all | .any => answer = .ok outcomes
  | .allOk => match answer with
    | .ok batch => batch = outcomes ∧ ∀ c ∈ outcomes, c.outcome.isOk = true
    | .err e => ∃ earlier c later, outcomes = earlier ++ c :: later ∧
        (∀ c ∈ earlier, c.outcome.isOk = true) ∧ c.outcome = .err e

theorem brings_deliver (mode : WaitMode) (outcomes : List (ChildOutcome V)) :
    mode.Brings outcomes (mode.deliver outcomes) := by
  cases mode with
  | allOk =>
    have hok : ∀ r : Outcome V, r.failure? = none → r.isOk = true := by
      intro r hr
      cases r with
      | ok v => rfl
      | err e => cases hr
    unfold deliver
    cases hfirst : outcomes.findSome? (·.outcome.failure?) with
    | none => exact ⟨rfl, fun c hc => hok _ (List.findSome?_eq_none_iff.mp hfirst c hc)⟩
    | some e =>
      obtain ⟨earlier, c, later, rfl, he, hearlier⟩ := List.findSome?_eq_some_iff.mp hfirst
      refine ⟨earlier, c, later, rfl, fun x hx => hok _ (hearlier x hx), ?_⟩
      cases hc : c.outcome with
      | ok v =>
        rw [hc] at he
        cases he
      | err e' =>
        rw [hc] at he
        rw [Option.some.inj he]
  | _ => rfl

end WaitMode

namespace Scheduler

variable {s : Scheduler V B} {m : Move V B} {ms before rest : List (Move V B)} {p k id : StrandId}
  {st : Strand V B} {leg : Leg V} {older : List (Leg V)} {mode : WaitMode} {b : BridgeId}

/-- The outcomes of the children of a strand, in the order in which they finish. -/
def settledIn (s : Scheduler V B) (p : StrandId) : List (Move V B) → List (ChildOutcome V)
  | [] => []
  | m :: ms => (s.settles p m).toList ++ (s.after m).settledIn p ms

theorem ledger_outcomes (s : Scheduler V B) (p : StrandId) (ms : List (Move V B)) :
    (s.ledger p ms).outcomes = s.settledIn p ms := by
  have hthrough : ∀ (ms : List (Move V B)) (s : Scheduler V B) (l : Ledger V),
      (l.through s p ms).outcomes = l.outcomes ++ s.settledIn p ms := by
    intro ms
    induction ms with
    | nil => exact fun s l => (List.append_nil _).symm
    | cons m ms ih =>
      intro s l
      rw [Ledger.through, ih, Ledger.note_outcomes, List.append_assoc]
      rfl
  exact hthrough ms s {}

/-- Behind each outcome is a strand that finished with it. -/
theorem endedIn_of_settledIn {c : ChildOutcome V} (h : c ∈ s.settledIn p ms) :
    EndedIn s ms c.id c.outcome := by
  induction ms generalizing s with
  | nil => cases h
  | cons m ms ih =>
    rcases List.mem_append.mp h with hc | hc
    · obtain ⟨⟨k, r⟩, hfin, hif⟩ := Option.bind_eq_some_iff.mp (Option.mem_toList.mp hc)
      refine ⟨[], m, ms, rfl, ?_⟩
      dsimp only at hif
      split at hif
      · rw [← Option.some.inj hif]
        exact hfin
      · cases hif
    · obtain ⟨before, m', rest, rfl, hfin⟩ := ih hc
      exact ⟨m :: before, m', rest, rfl, hfin⟩

/-! ## The law -/

/-- The law of waits for children. -/
structure Waits (s : Scheduler V B) (ms : List (Move V B)) (p : StrandId) : Prop where
  /-- The batches, and what no batch has taken yet, are the outcomes in settling order. -/
  order : (s.ledger p ms).batches.flatMap (·.outcomes) ++ (s.ledger p ms).fresh = s.settledIn p ms
  /-- Each outcome is of a child of the strand, and it is the one with which the child finished. -/
  own : ∀ c ∈ s.settledIn p ms, EndedIn s ms c.id c.outcome
  /-- Every child that has ended is there, and nobody else. -/
  settled : ∀ k, k ∈ (s.settledIn p ms).map (·.id) ↔ ∃ st, (s.run ms).strand? k = some st ∧
    st.parent = some p ∧ st.status.isTerminal = true
  once : ((s.settledIn p ms).map (·.id)).Nodup
  /-- Outstanding are the children that have not ended. -/
  outstanding : ∀ st, (s.run ms).strand? p = some st → st.status.isTerminal = false →
    st.children.outstanding = ((s.run ms).young p).card
  /-- A wait takes one batch, and the waits take their batches in turn. -/
  turns : ∀ st, (s.run ms).strand? p = some st → st.status.isTerminal = false →
    (s.ledger p ms).bridges = bridgesFor p (chronicle s ms).issued
  /-- A wait that is on is not over. -/
  pending : ∀ mode b, (s.ledger p ms).wait = some (mode, b) →
    ¬ mode.Met (s.ledger p ms).fresh ((s.run ms).young p).card
  /-- A strand is resumed from a wait that is over, with its batch. If it waited for all children,
      they have all ended and none is outstanding. -/
  resumed : ∀ before rest seg leg older mode, ms = before ++ .dispatch :: rest →
    (s.run before).dispatch.2 = some seg → seg.strand = p →
    (chronicle s before).legs p = leg :: older → leg.ended = some (.await mode) →
    ∃ b outcomes answer, leg.bridge = some (.children, b) ∧
      ⟨mode, b, outcomes⟩ ∈ (s.ledger p before).batches ∧ seg.wakeup = .children answer ∧
      mode.Brings outcomes answer ∧
      mode.Met outcomes ((s.run (before ++ [.dispatch])).young p).card ∧
      (mode ≠ .any → (∀ k st, (s.run (before ++ [.dispatch])).strand? k = some st →
        st.parent = some p → st.status.isTerminal = true) ∧
        ∃ st, (s.run (before ++ [.dispatch])).strand? p = some st ∧ st.children.outstanding = 0)
  /-- While there are workers, a strand that rests after a wait is blocked if the wait is on, and
      otherwise it is in the queue. -/
  resting : ∀ st leg older mode, (s.run ms).terminated = false →
    (s.run ms).strand? p = some st → (st.status = .blocked ∨ st.status = .runnable) →
    (chronicle s ms).legs p = leg :: older → leg.ended = some (.await mode) →
    ∃ b, leg.bridge = some (.children, b) ∧
      (st.status = .blocked ∧ (s.ledger p ms).wait = some (mode, b) ∨
        st.status = .runnable ∧ p ∈ (s.run ms).queue.waiting ∧
          ∃ outcomes, ⟨mode, b, outcomes⟩ ∈ (s.ledger p ms).batches)
  /-- A strand that is blocked on a wait is so because the wait is on. -/
  blocked : ∀ st b, (s.run ms).strand? p = some st → st.status = .blocked → st.bridge = some b →
    (p, .children, b) ∈ (chronicle s ms).issued →
    ∃ mode, (s.ledger p ms).wait = some (mode, b)
  /-- A child that is refused leaves no trace. -/
  refused : ∀ before rest body e, ms = before ++ .spawnChild p body :: rest →
    ((s.run before).spawnChild p body).2 = .error e →
    ∀ k, (s.run (before ++ [.spawnChild p body])).strand? k = (s.run before).strand? k

/-! ## A state -/

variable {c : Chronicle V} {l : Ledger V} {Ok : BridgeId → Wakeup V → Prop}

theorem Kept.outstanding (h : Kept c p l s) (hst : s.strand? p = some st)
    (hend : st.status.isTerminal = false) : st.children.outstanding = (s.young p).card := by
  have hhouse := household_eq hst
  have hgroup := h.group (by rw [hhouse, hend])
  rw [hhouse] at hgroup
  exact congrArg Group.outstanding hgroup

/-- What a wait brings comes through its bridge, so a strand that is told something after a wait was
    told what the bridge brought. -/
theorem Leg.due_await {payload : BridgeId → Option (Wakeup V)} {w : Wakeup V}
    (hended : leg.ended = some (.await mode)) (hdue : leg.due payload = some w) :
    ∃ b, leg.bridge = some (.children, b) ∧ payload b = some w := by
  obtain ⟨told, bridge, ended⟩ := leg
  subst hended
  unfold Leg.due at hdue
  rcases bridge with _ | ⟨o, b⟩
  · cases hdue
  · cases o with
    | children => exact ⟨b, rfl, hdue⟩
    | _ => cases hdue

/-- What has come through the bridge of a wait that a strand rests after is a batch, and the wait is
    over. -/
theorem Kept.batch (h : Kept c p l s) (hc : Carries Ok c.payload s)
    (halive : (s.household p).2 = false) {w : Wakeup V}
    (hlast : lastWait (c.legs p) = some (mode, b)) (hw : c.payload b = some w) :
    ∃ outcomes, ⟨mode, b, outcomes⟩ ∈ l.batches ∧ w = .children (mode.deliver outcomes) ∧
      mode.Met outcomes (s.young p).card := by
  rcases h.rests halive mode b hlast with hwait | ⟨outcomes, hbatch, hmet⟩
  · rw [hc.pending b _ (h.waiting mode b hwait).1 rfl] at hw
    cases hw
  · exact ⟨outcomes, hbatch, Option.some.inj (hw.symm.trans (h.told _ hbatch)), hmet⟩

/-- A strand that is blocked on a wait is blocked on the one that is on. -/
theorem Kept.blocked (h : Kept c p l s) (hc : Carries Ok c.payload s)
    (hplaced : Placed s.held s) (hst : s.strand? p = some st) (hs : st.status = .blocked)
    (hslot : st.bridge = some b) (hissued : (p, .children, b) ∈ c.issued) :
    ∃ mode, l.wait = some (mode, b) := by
  have hpending := (hplaced.slot p st hst).unclaimed hslot (Or.inl hs)
  have halive : (s.household p).2 = false := by rw [household_eq hst, hs]; rfl
  have hmem : b ∈ l.bridges := by
    rw [h.turns halive]
    exact List.mem_filterMap.mpr ⟨_, hissued, if_pos ⟨rfl, rfl⟩⟩
  rcases List.mem_append.mp hmem with hbatch | hwait
  · obtain ⟨batch, hin, rfl⟩ := List.mem_map.mp hbatch
    have htold := h.told batch hin
    rw [hc.pending _ _ hpending rfl] at htold
    cases htold
  · obtain ⟨⟨mode, b'⟩, hon, rfl⟩ := Option.map_eq_some_iff.mp (Option.mem_toList.mp hwait)
    exact ⟨mode, hon⟩

/-- The strand that is taken is ready, and its group stays as it is. -/
theorem dispatched_row {s' : Scheduler V B} {seg : Segment V B}
    (h : Dispatched s s' (some seg)) : ∃ st st', s.strand? seg.strand = some st ∧
      st.status = .runnable ∧ s'.strand? seg.strand = some st' ∧ st'.children = st.children := by
  cases h with
  | plain counters journal channel hcan hq hst hs hslot hbody =>
    exact ⟨_, _, hst, hs, strand?_of_update_some (f := Strand.begun false) rfl hst _ |>.trans
      (if_pos rfl), rfl⟩
  | resumed counters journal channel hcan hq hst hs hslot hb hbody =>
    exact ⟨_, _, hst, hs, strand?_of_update_some (f := Strand.begun true) rfl hst _ |>.trans
      (if_pos rfl), rfl⟩

/-! ## The run -/

/-- To take a strand from the queue concerns no family. -/
theorem Placed.dispatch_calm (h : Placed s.held s) (hcalm : ¬ Cancelled (s.run [.dispatch]))
    (p : StrandId) : Calm (fun _ => False) p s (s.run [.dispatch]) := by
  have hspared : Spared (fun _ => False) s := fun _ _ _ _ _ _ _ => id
  exact ((hspared.steadfast (p := p)).dispatch h).calm.resolve_left hcalm

/-- A strand that is resumed from a wait is told the batch of the wait, and the wait is over. -/
theorem Initial.resumed (hs : Initial s) (ha : s.Admissible ms)
    (hcalm : ¬ Cancelled (s.run (ms ++ [.dispatch])))
    (hk : Kept (chronicle s ms) p (s.ledger p ms) (s.run ms)) {seg : Segment V B}
    (hseg : (s.run ms).dispatch.2 = some seg) (hp : seg.strand = p)
    (hlegs : (chronicle s ms).legs p = leg :: older) (hended : leg.ended = some (.await mode)) :
    ∃ b outcomes answer, leg.bridge = some (.children, b) ∧
      ⟨mode, b, outcomes⟩ ∈ (s.ledger p ms).batches ∧ seg.wakeup = .children answer ∧
      mode.Brings outcomes answer ∧
      mode.Met outcomes ((s.run (ms ++ [.dispatch])).young p).card ∧
      (mode ≠ .any → (∀ k st, (s.run (ms ++ [.dispatch])).strand? k = some st →
        st.parent = some p → st.status.isTerminal = true) ∧
        ∃ st, (s.run (ms ++ [.dispatch])).strand? p = some st ∧ st.children.outstanding = 0) := by
  have hstable := hs.stable_run ha
  have htracks := hs.tracks_run ha fun _ m _ _ => respects_all _ m
  have hsegment : (s.run ms).segment? .dispatch = some seg := hseg
  obtain ⟨s₁, s₂, hturn, -, -⟩ := hstable.apart (m := .dispatch) trivial (respects_all _ _)
  have hdue := hturn.due (htracks.logs (segment_alive hsegment)) htracks.carries.holding hsegment
  rw [hp, hlegs] at hdue
  obtain ⟨b, hbridge, hw⟩ := Leg.due_await hended hdue
  obtain ⟨st, st', hst, hstatus, hst', hchildren⟩ :=
    dispatched_row (hseg ▸ hstable.placed.dispatched)
  rw [hp] at hst hst'
  have hend : st.status.isTerminal = false := by rw [hstatus]; rfl
  have hlast : lastWait ((chronicle s ms).legs p) = some (mode, b) := by
    rw [hlegs]
    exact lastWait_cons.mpr ⟨hended, hbridge⟩
  obtain ⟨outcomes, hbatch, hwakeup, hmet⟩ :=
    hk.batch htracks.carries (by rw [household_eq hst, hend]) hlast hw
  rw [run_append] at hcalm ⊢
  have hyoung := young_congr (hstable.placed.dispatch_calm hcalm p).kids
  rw [hyoung]
  refine ⟨b, outcomes, _, hbridge, hbatch, hwakeup, mode.brings_deliver outcomes, hmet,
    fun hne => ?_⟩
  have hzero : ((s.run ms).young p).card = 0 := by
    cases mode with
    | any => exact absurd rfl hne
    | _ => exact hmet
  refine ⟨young_eq_empty_iff.mp (hyoung ▸ hzero), st', hst', ?_⟩
  rw [hchildren, hk.outstanding hst hend, hzero]

/-- A strand that rests after a wait is blocked as long as the wait is on, and then it is ready. -/
theorem Initial.resting (hs : Initial s) (ha : s.Admissible ms)
    (hk : Kept (chronicle s ms) p (s.ledger p ms) (s.run ms))
    (alive : (s.run ms).terminated = false) (hst : (s.run ms).strand? p = some st)
    (hrests : st.status = .blocked ∨ st.status = .runnable)
    (hlegs : (chronicle s ms).legs p = leg :: older) (hended : leg.ended = some (.await mode)) :
    ∃ b, leg.bridge = some (.children, b) ∧
      (st.status = .blocked ∧ (s.ledger p ms).wait = some (mode, b) ∨
        st.status = .runnable ∧ p ∈ (s.run ms).queue.waiting ∧
          ∃ outcomes, ⟨mode, b, outcomes⟩ ∈ (s.ledger p ms).batches) := by
  have hplaced := (hs.stable_run ha).placed
  have htracks := hs.tracks_run ha fun _ m _ _ => respects_all _ m
  have hagrees := ((htracks.logs alive).rows p st hst).due hrests.symm
  rw [hlegs] at hagrees
  have hend : st.status.isTerminal = false := by rcases hrests with h | h <;> rw [h] <;> rfl
  have hrun : st.status.isRunning = false := by rcases hrests with h | h <;> rw [h] <;> rfl
  obtain ⟨b, hbridge⟩ : ∃ b, leg.bridge = some (.children, b) := by
    -- If everything had come through every bridge, it would be settled what the strand is told.
    have hall := hagrees fun _ => some .start
    have hsome : ∃ w, expects (fun _ => some .start) st = some w := by
      unfold expects
      split
      · exact ⟨_, rfl⟩
      · exact ⟨_, rfl⟩
    obtain ⟨w, hw⟩ := hsome
    obtain ⟨b, hbridge, -⟩ := Leg.due_await hended (hall.trans hw)
    exact ⟨b, hbridge⟩
  have hlast : lastWait ((chronicle s ms).legs p) = some (mode, b) := by
    rw [hlegs]
    exact lastWait_cons.mpr ⟨hended, hbridge⟩
  have hdue : due (chronicle s ms).payload (leg :: older) = (chronicle s ms).payload b := by
    rw [due_cons, Leg.due, hended, hbridge]
  have hready := (ready_iff hplaced htracks.carries hst hend hrun).2
  rw [← hagrees, hdue] at hready
  refine ⟨b, hbridge, ?_⟩
  have hrested := hk.rests (by rw [household_eq hst, hend]) mode b hlast
  rcases hrested with hwait | ⟨outcomes, hbatch, -⟩
  · refine Or.inl ⟨hrests.resolve_right fun h => ?_, hwait⟩
    have hsome := hready.mp h
    rw [htracks.carries.pending b _ (hk.waiting mode b hwait).1 rfl] at hsome
    cases hsome
  · have hrunnable := hready.mpr (by rw [hk.told _ hbatch]; rfl)
    exact Or.inr ⟨hrunnable, hs.queued_run ha alive p st hst hrunnable, outcomes, hbatch⟩

/-- **What a strand is told about its children is what settled since it was told before**, and it is
    told as soon as its wait is over, whatever happens in whatever order until a shutdown cancels
    strands. -/
theorem waits_follow (hs : Initial s) (ha : s.Admissible (ms ++ rest))
    (hd : Discreet s (ms ++ rest)) (hcalm : ¬ Cancelled (s.run ms)) (p : StrandId) :
    Waits s ms p := by
  have hms := (admissible_append.mp ha).1
  have hk := hs.kept_run ha hd hcalm p
  have htracks := hs.tracks_run hms fun _ m _ _ => respects_all _ m
  have houtcomes := ledger_outcomes s p ms
  refine
    { order := houtcomes
      own := fun c hc => endedIn_of_settledIn hc
      settled := fun k => ?_
      once := houtcomes ▸ hk.once
      outstanding := fun st hst hend => hk.outstanding hst hend
      turns := fun st hst hend => hk.turns (by rw [household_eq hst, hend])
      pending := fun mode b hwait => (hk.waiting mode b hwait).2.2
      resumed := ?_
      resting := fun st leg older mode alive hst hrests hlegs hended =>
        hs.resting hms hk alive hst hrests hlegs hended
      blocked := fun st b hst hblocked hslot hissued =>
        hk.blocked htracks.carries (hs.stable_run hms).placed hst hblocked hslot hissued
      refused := ?_ }
  · rw [← houtcomes, ← hk.logged, kid?_eq_some]
  · rintro before late seg leg older mode rfl hseg hp hlegs hended
    have hbefore := (admissible_append.mp hms).1
    have hsplit : before ++ .dispatch :: late ++ rest = before ++ (.dispatch :: late ++ rest) :=
      List.append_assoc ..
    have hcalm' : ¬ Cancelled (s.run before) := fun hc => hcalm (hs.cancelled_run hms hc)
    have hk' := hs.kept_run (hsplit ▸ ha) (hsplit ▸ hd) hcalm' p
    refine hs.resumed hbefore (fun hc => hcalm ?_) hk' hseg hp hlegs hended
    rw [List.append_cons] at hms ⊢
    exact hs.cancelled_run hms hc
  · rintro before late body e rfl he k
    rw [run_snoc]
    obtain ⟨-, -, ⟨hok, -⟩ | ⟨-, hrows⟩⟩ := spawnChild_rows (s.run before) p body
    · rw [he] at hok
      cases hok
    · exact hrows k

/-- One child ends well and ends a wait for any. The other one fails before the strand is resumed,
    and that is what the wait after it brings at once. -/
theorem waits_follow_mixed :
    let failure : Failure := ⟨.failed, "late"⟩
    let ms : List (Move Nat Unit) := [.spawn () none, .dispatch, .spawnChild ⟨1⟩ (),
      .spawnChild ⟨1⟩ (), .endSegment ⟨1⟩ () (.await .any), .dispatch,
      .endSegment ⟨2⟩ () (.done (.ok 20)), .dispatch, .endSegment ⟨3⟩ () (.done (.err failure)),
      .dispatch, .endSegment ⟨1⟩ () (.await .allOk), .dispatch]
    Waits single ms ⟨1⟩ ∧ ((chronicle single ms).legs ⟨1⟩).map (·.told) =
      [.children (.err failure), .children (.ok [⟨⟨2⟩, .ok 20⟩]), .start] := by
  intro failure ms
  have ha : single.Admissible (ms ++ []) := by simp [ms, Admissible, Allows]; decide
  have hd : Discreet single (ms ++ []) := by
    intro m hm b w ht
    simp only [ms, List.append_nil, List.mem_cons, List.not_mem_nil, or_false] at hm
    rcases hm with rfl | rfl | rfl | rfl | rfl | rfl | rfl | rfl | rfl | rfl | rfl | rfl <;>
      exact ht.elim
  have hcalm : ¬ Cancelled (single.run ms) := by
    rintro ⟨id, hid⟩
    have hjournal : (single.run ms).journal.toList = [⟨⟨1⟩, .created⟩, ⟨⟨1⟩, .dispatched⟩,
        ⟨⟨2⟩, .created⟩, ⟨⟨3⟩, .created⟩, ⟨⟨1⟩, .parked⟩, ⟨⟨2⟩, .dispatched⟩,
        ⟨⟨2⟩, .finished true⟩, ⟨⟨1⟩, .resumed⟩, ⟨⟨3⟩, .dispatched⟩, ⟨⟨3⟩, .finished false⟩,
        ⟨⟨1⟩, .dispatched⟩, ⟨⟨1⟩, .parked⟩, ⟨⟨1⟩, .resumed⟩,
        ⟨⟨1⟩, .dispatched⟩].map .event := by
      simp only [ms, failure]
      rfl
    rw [hjournal] at hid
    simp at hid
  refine ⟨waits_follow single_initial ha hd hcalm ⟨1⟩, ?_⟩
  simp only [ms, failure]
  rfl

end Scheduler
end CoopSched
