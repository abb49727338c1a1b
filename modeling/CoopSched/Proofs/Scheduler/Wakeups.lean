import CoopSched.Proofs.Scheduler.Claims
import CoopSched.Proofs.Scheduler.Tracks

/-!
# Wakeups — what a body is told is decided by how its segments ended

The law holds over every run, whatever the bodies do and in whatever order completions and ends of
segments come. Two things are said apart. What nobody can help: each segment is told what the one
before it left behind, and nothing that comes through a bridge gets lost or goes elsewhere
(`Lawful`). And what holds as long as nobody completes a bridge that he was not handed: a bridge
brings what it was obtained for (`Fitting`).
-/

namespace CoopSched
namespace Scheduler

variable {V B : Type} {s : Scheduler V B} {ms : List (Move V B)}

/-- The law of wakeups. -/
structure Lawful (s : Scheduler V B) (ms : List (Move V B)) : Prop where
  /-- Every segment was told what was due after the segments before it. -/
  told : ∀ id newer leg older, (chronicle s ms).legs id = newer ++ leg :: older →
    due (chronicle s ms).payload older = some leg.told
  /-- The payload of a bridge is the one of its first completion. -/
  first : ∀ before m rest b w x, ms = before ++ m :: rest →
    (s.run before).completes m = some (b, w) → (s.run before).bridge? b = some x →
    x.isCompleted = false → (chronicle s ms).payload b = some w
  /-- Nothing else ever lies in the bridge. -/
  only : ∀ before rest b w, ms = before ++ rest → (s.run before).lying b = some w →
    (chronicle s ms).payload b = some w
  /-- A bridge belongs to the segment that obtained it, and to no other. -/
  handed : ∀ id, handed ((chronicle s ms).legs id) =
    ((chronicle s ms).issued.filter (·.1 = id)).map (·.2)
  once : ((chronicle s ms).issued.map (·.2.2)).Nodup
  /-- While there are workers, a strand that has not ended and is on none of them waits in the
      queue just when it is settled what it is told next. -/
  ready : ∀ id st, (s.run ms).strand? id = some st → (s.run ms).terminated = false →
    st.status.isTerminal = false → st.status.isRunning = false →
    (id ∈ (s.run ms).queue.waiting ↔
      (due (chronicle s ms).payload ((chronicle s ms).legs id)).isSome)

/-- What the embedder and the bodies complete, or have completed, are bridges that they were handed,
    and they complete them with outcomes. -/
def Discreet (s : Scheduler V B) (ms : List (Move V B)) : Prop :=
  ∀ m ∈ ms, ∀ b w, m.Targets b w →
    (∃ r, w = .completed r) ∧ ∃ id, (id, .park, b) ∈ (chronicle s ms).issued

/-- Every wakeup is of the kind that was waited for. -/
structure Fitting (s : Scheduler V B) (ms : List (Move V B)) : Prop where
  start : ∀ id newer leg older, (chronicle s ms).legs id = newer ++ leg :: older →
    (leg.told = .start ↔ older = [])
  fits : ∀ id o b w, (id, o, b) ∈ (chronicle s ms).issued →
    (chronicle s ms).payload b = some w → o.Fits w

/-! ## The law -/

theorem Initial.tracks_run {Ok : BridgeId → Wakeup V → Prop} (h : Initial s)
    (ha : s.Admissible ms)
    (hr : ∀ before m rest, ms = before ++ m :: rest → Respects Ok (s.run before) m) :
    Tracks Ok (chronicle s ms) (s.run ms) :=
  (h.tracks Ok).through (h.stable Ok) ha hr

/-- What lies in a bridge at any time is its payload in the end. -/
theorem payload_of_lying {before rest : List (Move V B)} {b : BridgeId} {w : Wakeup V}
    (hs : Initial s) (ha : s.Admissible (before ++ rest))
    (hlies : (s.run before).lying b = some w) :
    (chronicle s (before ++ rest)).payload b = some w := by
  have htracks := hs.tracks_run (admissible_append.mp ha).1 fun _ m _ _ => respects_all _ m
  obtain ⟨x, hx, hw⟩ := lying_eq_some.mp hlies
  rw [chronicle, Chronicle.through_append]
  exact Chronicle.through_payload (htracks.carries.holding b x w hx hw)

/-- A strand that is ready waits in the queue as long as there are workers. -/
theorem Initial.queued_run (hs : Initial s) (ha : s.Admissible ms)
    (alive : (s.run ms).terminated = false) : Queued (s.run ms) := by
  have hclean := (hs.stable fun _ _ => True).alive_run ha (fun _ m _ _ => respects_all _ m) alive
  exact (hs.stable_run ha).queued hclean.2

/-- A strand that is on no worker is ready just when what it expects is there. -/
theorem ready_iff {busy : List StrandId} {Ok : BridgeId → Wakeup V → Prop}
    {payload : BridgeId → Option (Wakeup V)} {id : StrandId} {st : Strand V B}
    (hplaced : Placed busy s) (hc : Carries Ok payload s) (hst : s.strand? id = some st)
    (hend : st.status.isTerminal = false) (hrun : st.status.isRunning = false) :
    (st.status = .runnable ∨ st.status = .blocked) ∧
      (st.status = .runnable ↔ (expects payload st).isSome) := by
  have hfits := hplaced.slot id st hst
  unfold expects
  cases hs : st.status with
  | runnable =>
    refine ⟨Or.inl rfl, fun _ => ?_, fun _ => rfl⟩
    cases hslot : st.bridge with
    | none => rfl
    | some b =>
      obtain ⟨w, hb⟩ := hfits.holding hslot (Or.inl hs)
      dsimp only
      rw [hc.holding b _ w hb rfl]
      rfl
  | blocked =>
    refine ⟨Or.inr rfl, (fun h => by cases h), fun h => ?_⟩
    obtain ⟨b, hslot⟩ := hfits.exists_bridge (Or.inl hs)
    rw [hslot] at h
    dsimp only at h
    rw [hc.pending b _ (hfits.unclaimed hslot (Or.inl hs)) rfl] at h
    cases h
  | running mark =>
    rw [hs] at hrun
    cases hrun
  | doneOk =>
    rw [hs] at hend
    cases hend
  | doneError =>
    rw [hs] at hend
    cases hend

theorem Initial.lawful (hs : Initial s) (ha : s.Admissible ms) : Lawful s ms := by
  have htracks := hs.tracks_run ha fun _ m _ _ => respects_all _ m
  have hstable := hs.stable_run ha
  refine ⟨?_, ?_, ?_, htracks.handed, htracks.issues.once, ?_⟩
  · intro id newer leg older hlegs
    have htold := htracks.told id
    rw [hlegs] at htold
    exact htold.of_append
  · intro before m rest b w x hms hc hb hx
    have hsplit : ms = (before ++ [m]) ++ rest := by
      rw [hms, List.append_assoc, List.singleton_append]
    rw [hsplit] at ha ⊢
    apply payload_of_lying hs ha
    have hbefore := (admissible_append.mp (admissible_append.mp ha).1).1
    rw [run_append]
    exact ((hs.stable_run hbefore).first_completion hc hb (isCompleted_false.mp hx)).1
  · rintro before rest b w rfl hlies
    exact payload_of_lying hs ha hlies
  · intro id st hst alive hend hrun
    have hready := ready_iff hstable.placed htracks.carries hst hend hrun
    rw [((htracks.logs alive).rows id st hst).due hready.1, ← hready.2]
    constructor
    · intro hwait
      obtain ⟨st', hst', hs'⟩ := hstable.placed.waiting_runnable id hwait
      rw [Option.some.inj (hst.symm.trans hst')]
      exact hs'
    · exact hs.queued_run ha alive id st hst

/-! ## Discretion -/

theorem Issues.unique {issued : List (StrandId × Origin × BridgeId)} (h : Issues issued s)
    {id k : StrandId} {o o' : Origin} {b : BridgeId} (hb : (id, o, b) ∈ issued)
    (hb' : (k, o', b) ∈ issued) : o = o' := by
  have heq := List.inj_on_of_nodup_map h.once hb hb' rfl
  exact (Prod.mk.inj (Prod.mk.inj heq).2).1

/-- Whoever is discreet keeps to the rule that each bridge brings what it was obtained for. -/
theorem Discreet.respects (hd : Discreet s ms) (hi : Issues (chronicle s ms).issued (s.run ms))
    {before rest : List (Move V B)} {m : Move V B} (hms : ms = before ++ m :: rest) :
    Respects (fun b w => ∀ id o, (id, o, b) ∈ (chronicle s ms).issued → o.Fits w)
      (s.run before) m where
  targets := by
    intro b w ht id o hmem
    have hm : m ∈ ms := by
      rw [hms]
      exact List.mem_append_right _ List.mem_cons_self
    obtain ⟨⟨r, rfl⟩, k, hpark⟩ := hd m hm b w ht
    rw [hi.unique hmem hpark]
    trivial
  issued := by
    intro id o b hissued _ w hfits k o' hmem
    have hmem' : (id, o, b) ∈ (chronicle s ms).issued := by
      rw [hms]
      exact Chronicle.mem_through_issued hissued
    rw [hi.unique hmem hmem']
    exact hfits

theorem Initial.fitting (hs : Initial s) (ha : s.Admissible ms) (hd : Discreet s ms) :
    Fitting s ms := by
  have hlaw := hs.lawful ha
  have hissues := (hs.tracks_run ha fun _ m _ _ => respects_all _ m).issues
  have htracks := hs.tracks_run ha fun _ _ _ hms => hd.respects hissues hms
  have hfits : ∀ id o b w, (id, o, b) ∈ (chronicle s ms).issued →
      (chronicle s ms).payload b = some w → o.Fits w := by
    intro id o b w hmem hw
    exact htracks.carries.ok b w hw id o hmem
  refine ⟨?_, hfits⟩
  intro id newer leg older hlegs
  have hdue := hlaw.told id newer leg older hlegs
  cases older with
  | nil => exact ⟨fun _ => rfl, fun _ => (Option.some.inj hdue).symm⟩
  | cons last rest =>
    refine ⟨fun hstart => ?_, fun h => by cases h⟩
    rw [hstart, due_cons] at hdue
    rcases last.due_cases with hy | ⟨o, b, hbridge, hb⟩ | hnone
    · rw [hy] at hdue
      cases hdue
    · rw [hb] at hdue
      -- The bridge is one that the strand obtained, and none of those brings a start.
      have hmem : (o, b) ∈ Scheduler.handed ((chronicle s ms).legs id) := by
        rw [hlegs]
        refine List.mem_filterMap.mpr ⟨last, ?_, hbridge⟩
        simp
      rw [hlaw.handed id] at hmem
      obtain ⟨⟨k, o', b'⟩, hissued, heq⟩ := List.mem_map.mp hmem
      obtain ⟨rfl, rfl⟩ := Prod.mk.inj heq
      have hfit := hfits k o' b' .start (List.mem_filter.mp hissued).1 hdue
      cases o' <;> exact hfit.elim
    · rw [hnone] at hdue
      cases hdue

/-- **What a body is told is decided by how its segments ended**, over every run. -/
theorem wakeups_follow (hs : Initial s) (ha : s.Admissible ms) :
    Lawful s ms ∧ (Discreet s ms → Fitting s ms) :=
  ⟨hs.lawful ha, hs.fitting ha⟩

/-- A strand whose bridge is completed before it parks is told the outcome by its next segment. -/
theorem wakeups_follow_completed_early :
    let ms : List (Move Nat Unit) := [.spawn () none, .dispatch, .park ⟨1⟩,
      .complete ⟨1⟩ (.ok 7), .endSegment ⟨1⟩ () .park, .dispatch]
    Lawful single ms ∧ Fitting single ms ∧
      ((chronicle single ms).legs ⟨1⟩).map (·.told) = [.completed (.ok 7), .start] := by
  intro ms
  have ha : single.Admissible ms := by simp [ms, Admissible, Allows]; decide
  have hd : Discreet single ms := by
    intro m hm b w ht
    have hissued : (chronicle single ms).issued = [(⟨1⟩, .park, ⟨1⟩)] := rfl
    rw [hissued]
    simp only [ms, List.mem_cons, List.not_mem_nil, or_false] at hm
    rcases hm with rfl | rfl | rfl | rfl | rfl | rfl <;> try exact ht.elim
    obtain ⟨rfl, rfl⟩ := ht
    exact ⟨⟨_, rfl⟩, ⟨1⟩, List.mem_singleton.mpr rfl⟩
  obtain ⟨hlaw, hfit⟩ := wakeups_follow single_initial ha
  exact ⟨hlaw, hfit hd, rfl⟩

end Scheduler
end CoopSched
