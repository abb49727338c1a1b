import CoopSched.Proofs.Children.Waits
import CoopSched.Proofs.Outcome.Turnover

/-!
# Gathered — the outcomes of a whole run

What each move shows, put together over a run (`gather`): who finishes, which children of a strand
settle, which batches its waits take and what is given up. After any run, what has settled is what
was taken, what was given up, and what is still recorded (`Initial.order_run`).
-/

namespace CoopSched
namespace Scheduler

variable {V B α β : Type} {s : Scheduler V B} {m : Move V B} {ms before rest : List (Move V B)}
  {p k : StrandId} {r : Outcome V} {st : Strand V B} {c : ChildOutcome V}
  {see see' : Scheduler V B → Move V B → List α}

/-- What is seen of the moves of a run, put together. -/
def gather (s : Scheduler V B) (see : Scheduler V B → Move V B → List α) :
    List (Move V B) → List α
  | [] => []
  | m :: ms => see s m ++ (s.after m).gather see ms

theorem gather_append : s.gather see (ms ++ rest) =
    s.gather see ms ++ (s.run ms).gather see rest := by
  induction ms generalizing s with
  | nil => rfl
  | cons m ms ih =>
    show see s m ++ (s.after m).gather see (ms ++ rest) = _
    rw [ih, ← List.append_assoc]
    rfl

theorem gather_snoc : s.gather see (ms ++ [m]) = s.gather see ms ++ see (s.run ms) m := by
  rw [gather_append, gather, gather, List.append_nil]

theorem mem_gather {a : α} : a ∈ s.gather see ms ↔
    ∃ before m rest, ms = before ++ m :: rest ∧ a ∈ see (s.run before) m := by
  induction ms generalizing s with
  | nil => simp [gather]
  | cons m ms ih =>
    rw [gather, List.mem_append, ih]
    constructor
    · rintro (ha | ⟨before, m', rest, rfl, ha⟩)
      · exact ⟨[], m, ms, rfl, ha⟩
      · exact ⟨m :: before, m', rest, rfl, ha⟩
    · rintro ⟨before, m', rest, heq, ha⟩
      cases before with
      | nil =>
        obtain ⟨rfl, rfl⟩ := List.cons.inj heq
        exact Or.inl ha
      | cons m₁ before =>
        obtain ⟨rfl, rfl⟩ := List.cons.inj heq
        exact Or.inr ⟨before, m', rest, rfl, ha⟩

theorem gather_congr
    (h : ∀ before m rest, ms = before ++ m :: rest → see (s.run before) m = see' (s.run before) m) :
    s.gather see ms = s.gather see' ms := by
  induction ms generalizing s with
  | nil => rfl
  | cons m ms ih =>
    rw [gather, gather, show see s m = see' s m from h [] m ms rfl]
    congr 1
    refine ih fun before m' rest heq => h (m :: before) m' rest ?_
    rw [heq]
    rfl

theorem gather_filterMap (f : α → Option β) :
    (s.gather see ms).filterMap f = s.gather (fun s m => (see s m).filterMap f) ms := by
  induction ms generalizing s with
  | nil => rfl
  | cons m ms ih => rw [gather, List.filterMap_append, ih]; rfl

/-! ## What is gathered -/

/-- The strand that finishes with a move, and its outcome. -/
def finishing (s : Scheduler V B) (m : Move V B) : Option (ChildOutcome V) :=
  (s.finishes m).map fun (k, r) => ⟨k, r⟩

/-- The batches that the waits of a strand take, in turn, and the bridges of these waits. -/
def batchesIn (s : Scheduler V B) (p : StrandId) (ms : List (Move V B)) :
    List (BridgeId × List (ChildOutcome V)) :=
  s.gather (fun s m => (s.takes p m).toList) ms

/-- What is given up of the outcomes of a strand's children. -/
def forsakenIn (s : Scheduler V B) (p : StrandId) (ms : List (Move V B)) :
    List (ChildOutcome V) :=
  s.gather (fun s m => s.forsakes p m) ms

/-- The strands that finish, in turn, and what they finish with. -/
def finishedIn (s : Scheduler V B) (ms : List (Move V B)) : List (ChildOutcome V) :=
  s.gather (fun s m => (s.finishing m).toList) ms

theorem settledIn_eq (s : Scheduler V B) (p : StrandId) (ms : List (Move V B)) :
    s.settledIn p ms = s.gather (fun s m => (s.settles p m).toList) ms := by
  induction ms generalizing s with
  | nil => rfl
  | cons m ms ih => rw [settledIn, gather, ih]

theorem mem_finishedIn : c ∈ s.finishedIn ms ↔ EndedIn s ms c.id c.outcome := by
  rw [finishedIn, mem_gather]
  have hone : ∀ before m, c ∈ ((s.run before).finishing m).toList ↔
      (s.run before).finishes m = some (c.id, c.outcome) := by
    intro before m
    rw [Option.mem_toList, finishing, Option.map_eq_some_iff]
    constructor
    · rintro ⟨⟨k, r⟩, hfin, rfl⟩
      exact hfin
    · exact fun hfin => ⟨_, hfin, rfl⟩
  simp only [hone, EndedIn]

/-- What settles with a strand is what finishes. -/
theorem settles_sublist (s : Scheduler V B) (p : StrandId) (m : Move V B) :
    (s.settles p m).toList.Sublist (s.finishing m).toList := by
  cases hfin : s.finishes m with
  | none =>
    rw [settles_of_none hfin]
    exact List.nil_sublist _
  | some x =>
    obtain ⟨k, r⟩ := x
    rw [settles_of_finishes hfin, finishing, hfin]
    split
    · exact .refl _
    · exact List.nil_sublist _

theorem settledIn_sublist (s : Scheduler V B) (p : StrandId) (ms : List (Move V B)) :
    (s.settledIn p ms).Sublist (s.finishedIn ms) := by
  induction ms generalizing s with
  | nil => exact .refl _
  | cons m ms ih => exact (settles_sublist s p m).append (ih (s.after m))

/-- Every strand finishes once. -/
theorem Initial.finishedIn_nodup (hs : Initial s) (ha : s.Admissible ms) :
    ((s.finishedIn ms).map (·.id)).Nodup := by
  induction ms using List.reverseRecOn with
  | nil => exact List.nodup_nil
  | append_singleton ms m ih =>
    rw [finishedIn, gather_snoc]
    have hprev := ih (admissible_append.mp ha).1
    cases hfin : (s.run ms).finishes m with
    | none =>
      rw [finishing, hfin]
      exact (List.append_nil _).symm ▸ hprev
    | some x =>
      obtain ⟨k, r⟩ := x
      rw [finishing, hfin, List.map_append]
      refine List.nodup_append.mpr ⟨hprev, List.nodup_singleton _, fun i hi j hj heq => ?_⟩
      obtain ⟨c, hc, rfl⟩ := List.mem_map.mp hi
      rw [List.mem_singleton.mp hj] at heq
      have hended := mem_finishedIn.mp hc
      rw [show c.id = k from heq] at hended
      exact hs.finishes_new ha hfin hended

theorem Initial.settledIn_nodup (hs : Initial s) (ha : s.Admissible ms) (p : StrandId) :
    ((s.settledIn p ms).map (·.id)).Nodup :=
  (hs.finishedIn_nodup ha).sublist ((settledIn_sublist s p ms).map _)

/-- A strand that finishes in the course of a run was there, with the parent and the job that it has
    at the end. -/
theorem Initial.finishes_row (hs : Initial s) (ha : s.Admissible (before ++ m :: rest))
    (hfin : (s.run before).finishes m = some (k, r)) :
    ∃ st st', (s.run before).strand? k = some st ∧
      (s.run (before ++ m :: rest)).strand? k = some st' ∧ st'.hook = st.hook ∧
      st'.parent = st.parent := by
  obtain ⟨hbefore, hm, -⟩ := admissible_append.mp ha
  obtain ⟨st, hst, -⟩ := (hs.stable_run hbefore).placed.finishes hm hfin
  obtain ⟨st', hst', hkin⟩ := hs.row_run ha hst
  exact ⟨st, st', hst, hst', hkin⟩

/-- What has settled with a strand are the outcomes of its children. -/
theorem Initial.mem_settledIn (hs : Initial s) (ha : s.Admissible ms) :
    c ∈ s.settledIn p ms ↔
      EndedIn s ms c.id c.outcome ∧ (s.run ms).kid? p c.id = some true := by
  constructor
  · intro hc
    have hended := endedIn_of_settledIn hc
    refine ⟨hended, ?_⟩
    rw [settledIn_eq] at hc
    obtain ⟨before, m, rest, rfl, hsettles⟩ := mem_gather.mp hc
    obtain ⟨⟨k, r⟩, hfin, hif⟩ := Option.bind_eq_some_iff.mp (Option.mem_toList.mp hsettles)
    dsimp only at hif
    split at hif
    next hkid =>
      obtain rfl := Option.some.inj hif
      obtain ⟨st, st', hst, hst', -, hparent⟩ := hs.finishes_row ha hfin
      rw [kid?_eq hst] at hkid
      have hp : st.parent = some p := by
        by_contra hno
        rw [if_neg hno] at hkid
        cases hkid
      have hend := (hs.hasEnded_of_endedIn ha hended).all st' hst'
      rw [kid?_eq hst', if_pos (hparent.trans hp), hend]
    next => cases hif
  · rintro ⟨⟨before, m, rest, rfl, hfin⟩, hkid⟩
    obtain ⟨st, st', hst, hst', -, hparent⟩ := hs.finishes_row ha hfin
    obtain ⟨st₁, hst₁, hp, -⟩ := kid?_eq_some.mp hkid
    obtain rfl := Option.some.inj (hst₁.symm.trans hst')
    rw [settledIn_eq]
    refine mem_gather.mpr ⟨before, m, rest, rfl, Option.mem_toList.mpr ?_⟩
    rw [settles_of_finishes hfin, kid?_eq hst, if_pos (hparent.symm.trans hp)]
    rfl

/-! ## The balance of a run -/

theorem Initial.turnover_run (hs : Initial s) (ha : s.Admissible (ms ++ [m])) (p : StrandId) :
    Turnover (s.run ms) m p := by
  have hprev := (admissible_append.mp ha).1
  have htidy := hs.tidy_run hprev
  have hregroups := (hs.moveChange ha).regroups (hs.kin_run hprev) htidy p
  rw [run_snoc] at hregroups
  exact hregroups.turnover rfl htidy

/-- **What has settled was taken or given up, or it is still recorded.** Nothing is given up before
    the group is closed. -/
theorem Initial.order_run (hs : Initial s) (ha : s.Admissible ms) (p : StrandId) :
    (s.batchesIn p ms).flatMap (·.2) ++ s.forsakenIn p ms ++ (s.run ms).recorded p =
        s.settledIn p ms ∧
      (((s.run ms).household p).1.closed = false → s.forsakenIn p ms = []) := by
  induction ms using List.reverseRecOn with
  | nil =>
    have hnone : s.strand? p = none := by rw [strand?, hs.empty.1, get?_empty]
    refine ⟨?_, fun _ => rfl⟩
    rw [run_nil, recorded, household_none hnone]
    rfl
  | append_singleton ms m ih =>
    have hprev := (admissible_append.mp ha).1
    obtain ⟨horder, hforsaken⟩ := ih hprev
    have hturn := hs.turnover_run ha p
    have hbalance := hturn.balance
    rw [run_snoc]
    have hbatches : (s.batchesIn p (ms ++ [m])).flatMap (·.2) =
        (s.batchesIn p ms).flatMap (·.2) ++ (((s.run ms).takes p m).map (·.2)).getD [] := by
      rw [batchesIn, gather_snoc, List.flatMap_append]
      cases (s.run ms).takes p m <;> simp [batchesIn]
    have hforsakes : s.forsakenIn p (ms ++ [m]) =
        s.forsakenIn p ms ++ (s.run ms).forsakes p m := gather_snoc
    have hsettled : s.settledIn p (ms ++ [m]) =
        s.settledIn p ms ++ ((s.run ms).settles p m).toList := by
      rw [settledIn_eq, settledIn_eq, gather_snoc]
    rw [hbatches, hforsakes, hsettled, ← horder]
    refine ⟨?_, fun hopen => ?_⟩
    · cases hclosed : ((s.run ms).household p).1.closed with
      | false =>
        rw [hforsaken hclosed]
        simp only [List.append_nil, List.nil_append, List.append_assoc]
        rw [hbalance]
        simp only [List.append_assoc]
      | true =>
        rw [hturn.shut hclosed] at hbalance ⊢
        simp only [List.append_assoc]
        rw [hbalance]
        simp
    · obtain ⟨hopen', hnone⟩ := hturn.unclosed hopen
      rw [hforsaken hopen', hnone]
      rfl

/-- No outcome is given up twice. -/
theorem Initial.forsakenIn_nodup (hs : Initial s) (ha : s.Admissible ms) (p : StrandId) :
    ((s.forsakenIn p ms).map (·.id)).Nodup := by
  have hall := hs.settledIn_nodup ha p
  rw [← (hs.order_run ha p).1] at hall
  exact hall.sublist (((List.sublist_append_right _ _).trans
    (List.sublist_append_left _ _)).map _)

/-- Every batch was taken by a wait of the strand, and no wait took two. -/
theorem Initial.batches_run (hs : Initial s) (ha : s.Admissible ms) (p : StrandId) :
    ((s.batchesIn p ms).map (·.1) ++ (s.run ms).waitsOn p).Sublist
      (bridgesFor p (chronicle s ms).issued) := by
  induction ms using List.reverseRecOn with
  | nil =>
    have hnone : s.strand? p = none := by rw [strand?, hs.empty.1, get?_empty]
    rw [run_nil, waitsOn, household_none hnone]
    exact .refl _
  | append_singleton ms m ih =>
    have hprev := ih (admissible_append.mp ha).1
    have hwaits := (hs.turnover_run ha p).waits
    have hissued : bridgesFor p (chronicle s (ms ++ [m])).issued =
        bridgesFor p (chronicle s ms).issued ++
          (((s.run ms).awaits p m).map (·.2)).toList := by
      rw [chronicle_snoc, ← bridgesFor_issued]
      exact List.filterMap_append
    have hbatches : (s.batchesIn p (ms ++ [m])).map (·.1) =
        (s.batchesIn p ms).map (·.1) ++ (((s.run ms).takes p m).map (·.1)).toList := by
      rw [batchesIn, gather_snoc, List.map_append]
      cases (s.run ms).takes p m <;> rfl
    rw [run_snoc, hissued, hbatches, List.append_assoc]
    refine ((List.Sublist.refl _).append hwaits).trans ?_
    rw [← List.append_assoc]
    exact hprev.append (.refl _)

theorem bridgesFor_sublist (p : StrandId) (issued : List (StrandId × Origin × BridgeId)) :
    (bridgesFor p issued).Sublist (issued.map (·.2.2)) := by
  induction issued with
  | nil => exact .refl _
  | cons x issued ih =>
    rw [bridgesFor, List.filterMap_cons]
    split
    next => exact ih.cons _
    next b hb =>
      dsimp only at hb
      split at hb
      · rw [← Option.some.inj hb]
        exact ih.cons_cons _
      · cases hb

theorem Initial.batches_nodup (hs : Initial s) (ha : s.Admissible ms) (p : StrandId) :
    ((s.batchesIn p ms).map (·.1)).Nodup := by
  have htracks := hs.tracks_run ha fun _ m _ _ => respects_all _ m
  have hsub := (List.sublist_append_left _ _).trans (hs.batches_run ha p)
  exact htracks.issues.once.sublist (hsub.trans (bridgesFor_sublist p _))

theorem Initial.batches_issued (hs : Initial s) (ha : s.Admissible ms)
    {batch : BridgeId × List (ChildOutcome V)} (hb : batch ∈ s.batchesIn p ms) :
    (p, .children, batch.1) ∈ (chronicle s ms).issued := by
  have hsub := (List.sublist_append_left _ _).trans (hs.batches_run ha p)
  obtain ⟨⟨k, o, b⟩, hmem, hif⟩ :=
    List.mem_filterMap.mp (hsub.subset (List.mem_map.mpr ⟨batch, hb, rfl⟩))
  dsimp only at hif
  split at hif
  next hown =>
    obtain ⟨rfl, rfl⟩ := hown
    rw [← Option.some.inj hif]
    exact hmem
  next => cases hif

end Scheduler
end CoopSched
