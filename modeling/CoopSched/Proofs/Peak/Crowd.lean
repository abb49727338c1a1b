import CoopSched.Proofs.Journal.Tally
import Mathlib.Order.Lattice.Nat

/-!
# Crowds — who is there at which moment

The journal says of every moment of a run who was there: whoever was admitted by then and had not
ended (`crowd`). A moment is a number of records, so there are moments within a move, too, and a
strand that is refused is there at none. The largest crowd of all is the true peak (`widest`).

Between moves the crowd is the live strands (`Initial.mem_crowd`). Within a move a crowd can be
larger than at both its ends only if somebody comes before somebody goes; in a move that is parted
so that nobody comes to stay in the first part and nobody goes in the second, none is
(`Parted.widest_eq`).
-/

namespace CoopSched

variable {V B : Type} {recs pre post : List (Record V)} {k : StrandId} {i j : Nat}

/-! ## Records -/

/-- The strand that the record says was refused. -/
def Record.refusal? : Record V → Option StrandId
  | .event ⟨id, .rejected⟩ => some id
  | _ => none

/-- The strand that the record says has ended. -/
def Record.end? : Record V → Option StrandId
  | .event ⟨id, .finished _⟩ | .event ⟨id, .cancelled⟩ => some id
  | _ => none

/-- The strands that were created, in turn. -/
def bornIn (recs : List (Record V)) : List StrandId := recs.filterMap Record.birth?

/-- The strands that were refused, in turn. -/
def refusedIn (recs : List (Record V)) : List StrandId := recs.filterMap Record.refusal?

/-- The strands that ended, in turn. -/
def goneIn (recs : List (Record V)) : List StrandId := recs.filterMap Record.end?

@[simp] theorem bornIn_append (recs recs' : List (Record V)) :
    bornIn (recs ++ recs') = bornIn recs ++ bornIn recs' := List.filterMap_append

@[simp] theorem refusedIn_append (recs recs' : List (Record V)) :
    refusedIn (recs ++ recs') = refusedIn recs ++ refusedIn recs' := List.filterMap_append

@[simp] theorem goneIn_append (recs recs' : List (Record V)) :
    goneIn (recs ++ recs') = goneIn recs ++ goneIn recs' := List.filterMap_append

theorem mem_bornIn : k ∈ bornIn recs ↔ .event ⟨k, .created⟩ ∈ recs := by
  rw [bornIn, List.mem_filterMap]
  constructor
  · rintro ⟨rec, hrec, hbirth⟩
    unfold Record.birth? at hbirth
    split at hbirth
    · rwa [← Option.some.inj hbirth]
    · cases hbirth
  · exact fun hrec => ⟨_, hrec, rfl⟩

theorem mem_refusedIn : k ∈ refusedIn recs ↔ .event ⟨k, .rejected⟩ ∈ recs := by
  rw [refusedIn, List.mem_filterMap]
  constructor
  · rintro ⟨rec, hrec, hrefusal⟩
    unfold Record.refusal? at hrefusal
    split at hrefusal
    · rwa [← Option.some.inj hrefusal]
    · cases hrefusal
  · exact fun hrec => ⟨_, hrec, rfl⟩

theorem mem_goneIn :
    k ∈ goneIn recs ↔ (∃ ok, .event ⟨k, .finished ok⟩ ∈ recs) ∨ .event ⟨k, .cancelled⟩ ∈ recs := by
  rw [goneIn, List.mem_filterMap]
  constructor
  · rintro ⟨rec, hrec, hend⟩
    unfold Record.end? at hend
    split at hend
    next id ok =>
      rw [← Option.some.inj hend]
      exact Or.inl ⟨ok, hrec⟩
    · rw [← Option.some.inj hend]
      exact Or.inr hrec
    · cases hend
  · rintro (⟨ok, hrec⟩ | hrec) <;> exact ⟨_, hrec, rfl⟩

/-! ## Moments -/

/-- The strands that are there at a moment: created before it, not to be refused, and not ended
    by then. -/
def crowd (recs : List (Record V)) (moment : Nat) : List StrandId :=
  (bornIn (recs.take moment)).filter fun k =>
    decide (k ∉ refusedIn recs) && decide (k ∉ goneIn (recs.take moment))

/-- The size of the largest crowd. -/
def widest (recs : List (Record V)) : Nat :=
  (Finset.range (recs.length + 1)).sup fun moment => (crowd recs moment).length

/-- The crowd at the last moment. -/
abbrev lastCrowd (recs : List (Record V)) : List StrandId := crowd recs recs.length

theorem mem_crowd : k ∈ crowd recs i ↔
    k ∈ bornIn (recs.take i) ∧ k ∉ refusedIn recs ∧ k ∉ goneIn (recs.take i) := by
  rw [crowd, List.mem_filter, Bool.and_eq_true, decide_eq_true_eq, decide_eq_true_eq]

theorem length_crowd_le (h : i ≤ recs.length) : (crowd recs i).length ≤ widest recs :=
  Finset.le_sup (f := fun moment => (crowd recs moment).length)
    (Finset.mem_range.mpr (Nat.lt_succ_of_le h))

theorem widest_le {n : Nat} (h : ∀ i ≤ recs.length, (crowd recs i).length ≤ n) :
    widest recs ≤ n :=
  Finset.sup_le fun i hi => h i (Nat.le_of_lt_succ (Finset.mem_range.mp hi))

/-- What a move writes down, parted: whoever comes in the first part is refused, and nobody goes in
    the second. Only those who come in the move are refused in it. -/
structure Parted (recs pre post : List (Record V)) : Prop where
  pre_refused : ∀ k ∈ bornIn pre, k ∈ refusedIn pre
  stay : goneIn post = []
  strangers : ∀ k ∈ refusedIn (pre ++ post), k ∉ bornIn recs

namespace Parted

/-- What has been is not changed. -/
theorem crowd_before (h : Parted recs pre post) (hi : i ≤ recs.length) :
    crowd (recs ++ (pre ++ post)) i = crowd recs i := by
  unfold crowd
  rw [List.take_append_of_le_length hi]
  refine List.filter_congr fun k hk => ?_
  have hborn : k ∈ bornIn recs := (List.Sublist.filterMap _ (List.take_sublist i recs)).subset hk
  have hnot : k ∉ refusedIn (pre ++ post) := fun hrefused => h.strangers k hrefused hborn
  rw [refusedIn_append]
  simp only [List.mem_append, hnot, or_false]

/-- In the first part the crowd can only become smaller. -/
theorem length_first (h : Parted recs pre post) (hj : j ≤ pre.length) :
    (crowd (recs ++ (pre ++ post)) (recs.length + j)).length ≤ (lastCrowd recs).length := by
  have htake : (recs ++ (pre ++ post)).take (recs.length + j) = recs ++ pre.take j := by
    rw [List.take_length_add_append, List.take_append_of_le_length hj]
  have hnobody : (bornIn (pre.take j)).filter (fun k =>
      decide (k ∉ refusedIn (recs ++ (pre ++ post))) &&
        decide (k ∉ goneIn (recs ++ pre.take j))) = [] := by
    refine List.filter_eq_nil_iff.mpr fun k hk => ?_
    have hborn := (List.Sublist.filterMap _ (List.take_sublist j pre)).subset hk
    have hrefused := h.pre_refused k hborn
    simp [hrefused]
  unfold lastCrowd crowd
  rw [htake, List.take_length, bornIn_append, List.filter_append, hnobody, List.append_nil]
  refine List.Sublist.length_le (List.monotone_filter_right _ fun k hk => ?_)
  simp only [refusedIn_append, goneIn_append, List.mem_append, Bool.and_eq_true,
    decide_eq_true_eq, not_or] at hk ⊢
  exact ⟨hk.1.1, hk.2.1⟩

/-- In the second part the crowd can only become larger. -/
theorem length_second (h : Parted recs pre post) :
    (crowd (recs ++ (pre ++ post)) (recs.length + (pre.length + j))).length ≤
      (lastCrowd (recs ++ (pre ++ post))).length := by
  have htake : (recs ++ (pre ++ post)).take (recs.length + (pre.length + j)) =
      recs ++ (pre ++ post.take j) := by
    rw [List.take_length_add_append, List.take_length_add_append]
  have hstay : goneIn (post.take j) = [] :=
    List.sublist_nil.mp (h.stay ▸ List.Sublist.filterMap _ (List.take_sublist j post))
  have hends : goneIn (recs ++ (pre ++ post.take j)) = goneIn (recs ++ (pre ++ post)) := by
    rw [goneIn_append, goneIn_append, goneIn_append, goneIn_append, hstay, h.stay]
  unfold lastCrowd crowd
  rw [htake, List.take_length, hends]
  refine List.Sublist.length_le (List.Sublist.filter _ (List.Sublist.filterMap _ ?_))
  exact (List.Sublist.refl recs).append ((List.Sublist.refl pre).append (List.take_sublist j post))

/-- **A move makes the peak higher only by the crowd that it leaves behind.** -/
theorem widest_eq (h : Parted recs pre post) :
    widest (recs ++ (pre ++ post)) =
      max (widest recs) (lastCrowd (recs ++ (pre ++ post))).length := by
  have hlen : (recs ++ (pre ++ post)).length = recs.length + (pre.length + post.length) := by
    rw [List.length_append, List.length_append]
  apply le_antisymm
  · refine widest_le fun i hi => ?_
    rcases Nat.le_total i recs.length with hold | hnew
    · rw [h.crowd_before hold]
      exact (length_crowd_le hold).trans (le_max_left _ _)
    · obtain ⟨j, rfl⟩ := Nat.exists_eq_add_of_le hnew
      rcases Nat.le_total j pre.length with hfirst | hsecond
      · exact ((h.length_first hfirst).trans (length_crowd_le le_rfl)).trans (le_max_left _ _)
      · obtain ⟨j, rfl⟩ := Nat.exists_eq_add_of_le hsecond
        exact h.length_second.trans (le_max_right _ _)
  · refine max_le (widest_le fun i hi => ?_) (length_crowd_le le_rfl)
    rw [← h.crowd_before hi]
    exact length_crowd_le (hi.trans (hlen ▸ Nat.le_add_right _ _))

end Parted

/-! ## Lives -/

namespace Stage

variable {stage : Stage} {w : List Happening}

/-- Whoever is alive, or not born, has seen no end. -/
theorem no_end (h : after? w = some stage) (hstage : stage.isAlive = true ∨ stage = .unborn) :
    ∀ a ∈ w, a.isEnd = false := by
  induction w using List.reverseRecOn generalizing stage with
  | nil => exact fun a ha => absurd ha List.not_mem_nil
  | append_singleton w a ih =>
    obtain ⟨stage₁, hw, hnext⟩ := after?_snoc h
    have hboth : (stage₁.isAlive = true ∨ stage₁ = .unborn) ∧ a.isEnd = false := by
      cases stage₁ <;> cases a <;> cases hnext <;> simp_all [isAlive, Happening.isEnd]
    intro a' ha'
    rcases List.mem_append.mp ha' with hold | hlast
    · exact ih hw hboth.1 a' hold
    · rw [List.mem_singleton.mp hlast]
      exact hboth.2

theorem isAlive_iff_mem (h : after? w = some stage) :
    stage.isAlive = true ↔ .created ∈ w ∧ ∀ a ∈ w, a.isEnd = false := by
  have hbalance := created_balance h
  constructor
  · intro halive
    refine ⟨?_, no_end h (Or.inl halive)⟩
    rw [halive] at hbalance
    have hpos : 0 < w.countP (·.counter? == some .created) := by
      rw [hbalance]
      exact Nat.succ_pos _
    obtain ⟨a, ha, hcreated⟩ := List.countP_pos_iff.mp hpos
    cases a with
    | created => exact ha
    | finished ok => cases ok <;> cases hcreated
    | _ => cases hcreated
  · rintro ⟨hcreated, hends⟩
    have hpos : 0 < w.countP (·.counter? == some .created) :=
      List.countP_pos_iff.mpr ⟨.created, hcreated, rfl⟩
    have hnone : w.countP Happening.leaves = 0 := by
      refine List.countP_eq_zero.mpr fun a ha => ?_
      have hend := hends a ha
      cases a with
      | rejected | finished | cancelled => cases hend
      | _ => simp [Happening.leaves, Happening.counter?]
    cases halive : stage.isAlive with
    | true => rfl
    | false =>
      rw [hnone, halive] at hbalance
      rw [hbalance] at hpos
      cases hpos

end Stage

/-! ## Between moves -/

namespace Scheduler

variable {s : Scheduler V B} {ms : List (Move V B)}

theorem mem_life {a : Happening} (hreport : a.isReport = false) :
    a ∈ s.life k ↔ .event ⟨k, a⟩ ∈ s.journal.toList := by
  rw [life, List.mem_filterMap]
  constructor
  · rintro ⟨rec, hrec, hlived⟩
    cases rec with
    | answered j answer => cases hlived
    | event e =>
      have habout : (if e.strand = k then some e.happening else none) = some a :=
        (Option.filter_eq_some_iff.mp hlived).1
      obtain ⟨rfl, rfl⟩ : e.strand = k ∧ e.happening = a := by simpa using habout
      exact hrec
  · intro hrec
    exact ⟨_, hrec, by rw [Record.lived?_event k k hreport, if_pos rfl]⟩

/-- **Between moves the crowd is the live strands.** -/
theorem Initial.mem_crowd (hs : Initial s) (ha : s.Admissible ms) (k : StrandId) :
    k ∈ lastCrowd (s.run ms).journal.toList ↔ k ∈ (s.run ms).live := by
  obtain ⟨stage, hl⟩ := hs.living_run ha k
  have htidy := hs.tidy_run ha
  rw [CoopSched.mem_crowd, List.take_length]
  calc k ∈ bornIn (s.run ms).journal.toList ∧ k ∉ refusedIn (s.run ms).journal.toList ∧
        k ∉ goneIn (s.run ms).journal.toList
      ↔ .created ∈ (s.run ms).life k ∧ ∀ a ∈ (s.run ms).life k, a.isEnd = false := ?_
    _ ↔ stage.isAlive = true := (Stage.isAlive_iff_mem hl.told).symm
    _ ↔ ∃ status, (s.run ms).status? k = some status ∧ status.isTerminal = false :=
        hl.fits.isAlive_iff
    _ ↔ k ∈ (s.run ms).live := ?_
  · have hfinished : ∀ ok, .event ⟨k, .finished ok⟩ ∈ (s.run ms).journal.toList ↔
        .finished ok ∈ (s.run ms).life k := fun ok => (mem_life rfl).symm
    simp only [mem_bornIn, mem_refusedIn, mem_goneIn, hfinished]
    rw [← mem_life rfl, ← mem_life rfl, ← mem_life rfl]
    refine and_congr_right fun _ => ⟨fun ⟨hrefused, hgone⟩ a ha => ?_, fun hnone => ?_⟩
    · cases a with
      | rejected => exact absurd ha hrefused
      | finished ok => exact absurd (Or.inl ⟨ok, ha⟩) hgone
      | cancelled => exact absurd (Or.inr ha) hgone
      | _ => rfl
    · refine ⟨fun hrefused => Bool.noConfusion (hnone _ hrefused), ?_⟩
      rintro (⟨ok, hfinished⟩ | hcancelled)
      · exact Bool.noConfusion (hnone _ hfinished)
      · exact Bool.noConfusion (hnone _ hcancelled)
  · constructor
    · rintro ⟨status, hstatus, hend⟩
      obtain ⟨st, hst, rfl⟩ := status?_eq_some hstatus
      exact (htidy.live_iff hst).mpr hend
    · intro hk
      obtain ⟨st, hst, -⟩ := Option.map_eq_some_iff.mp ((htidy.listed.live k).mp hk)
      exact ⟨_, status?_eq hst, (htidy.live_iff hst).mp hk⟩

/-- The numbers of the strands grow, so nobody comes twice. -/
theorem Initial.nodup_bornIn (hs : Initial s) (ha : s.Admissible ms) :
    (bornIn (s.run ms).journal.toList).Nodup := by
  have hnumbered : (bornIn (s.run ms).journal.toList).map StrandId.number = _ :=
    hs.numbered_run ha
  refine List.Nodup.of_map StrandId.number ?_
  rw [hnumbered]
  exact List.nodup_range'

theorem Initial.length_lastCrowd (hs : Initial s) (ha : s.Admissible ms) :
    (lastCrowd (s.run ms).journal.toList).length = (s.run ms).live.length := by
  have hcrowd : (lastCrowd (s.run ms).journal.toList).Nodup := by
    unfold lastCrowd crowd
    rw [List.take_length]
    exact (hs.nodup_bornIn ha).filter _
  exact ((List.perm_ext_iff_of_nodup hcrowd (hs.tidy_run ha).listed.nodup).mpr
    (hs.mem_crowd ha)).length_eq

end Scheduler
end CoopSched
