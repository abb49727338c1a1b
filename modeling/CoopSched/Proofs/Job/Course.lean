import CoopSched.Proofs.Job.Answer

/-!
# The course of a session

What one call does to a job carries over to a whole session by induction on the calls, those of
the callback included, at the places where they fall. So the log of a session can be checked call
by call against the calls before it (`Session.Sound.replies`), and the job at its end against the
log.
-/

namespace CoopSched
namespace Job

variable {V : Type} {length k : Nat} {acc : List (Nat × Outcome V)} {j : Job V}

/-- What a session over so many indices has to be like. -/
structure Session.Sound (length : Nat) (s : Session V) : Prop where
  /-- Each call was answered as the calls before it say. -/
  replies : ∀ before c reply after, s.log = before ++ (c, reply) :: after →
    Replies length (accepted before) (claims before).length c reply
  index_lt : ∀ p ∈ accepted s.log, p.1 < length
  index_nodup : ((accepted s.log).map Prod.fst).Nodup
  remaining_add : s.job.remaining + (accepted s.log).length = length
  first : s.job.firstFailure = firstFailing (accepted s.log)
  complete_iff : s.job.isComplete = true ↔ (accepted s.log).length = length
  /-- The answer is given once, and only when every index was accepted. -/
  answers : if (accepted s.log).length = length
    then ∃ answer, s.answers = [answer] ∧ Answers length (accepted s.log) answer
    else s.answers = []

/-- An answer that is a failure is the one that the job reports as its first. -/
theorem Answers.reported {answer : Outcome (List V)} (h : Answers length acc answer)
    {e : Failure} (he : answer = .err e) : ∃ i, firstFailing acc = some (i, e) := by
  subst he
  obtain ⟨before, i, after, rfl, hok⟩ := h
  have hnone : firstFailing before = none := firstFailing_eq_none_iff.mpr hok
  refine ⟨i, ?_⟩
  unfold firstFailing at hnone ⊢
  rw [List.findSome?_append, hnone]
  rfl

@[simp] theorem accepted_append (log rest : Log (Call V) (Reply V)) :
    accepted (log ++ rest) = accepted log ++ accepted rest :=
  List.filterMap_append

@[simp] theorem claims_append (log rest : Log (Call V) (Reply V)) :
    claims (log ++ rest) = claims log ++ claims rest :=
  List.filterMap_append

@[simp] theorem answers_append (log rest : Log (Call V) (Reply V)) :
    answers (log ++ rest) = answers log ++ answers rest :=
  List.filterMap_append

theorem accepted_cons (e : Call V × Reply V) (rest : Log (Call V) (Reply V)) :
    accepted (e :: rest) = accepted [e] ++ accepted rest :=
  accepted_append [e] rest

theorem claims_cons (e : Call V × Reply V) (rest : Log (Call V) (Reply V)) :
    claims (e :: rest) = claims [e] ++ claims rest :=
  claims_append [e] rest

theorem answers_cons (e : Call V × Reply V) (rest : Log (Call V) (Reply V)) :
    answers (e :: rest) = answers [e] ++ answers rest :=
  answers_append [e] rest

/-- Calls one after the other leave the figures right, and each was answered as it must. -/
theorem Stands.serve (h : Stands length acc k j) (callback : Outcome (List V) → List (Call V))
    (calls : List (Call V)) :
    Stands length (acc ++ accepted (j.serve callback calls).2)
        (k + (claims (j.serve callback calls).2).length) (j.serve callback calls).1 ∧
      ∀ before c reply after, (j.serve callback calls).2 = before ++ (c, reply) :: after →
        Replies length (acc ++ accepted before) (k + (claims before).length) c reply := by
  -- On the calls as they are served, those of the callback included; `Stands` carries it.
  induction j, calls using serve.induct callback generalizing acc k with
  | case1 j =>
    rw [Job.serve]
    refine ⟨by simpa [accepted, claims] using h, ?_⟩
    intro before c reply after heq
    simp at heq
  | case2 j c rest ih =>
    obtain ⟨hreply, hnext⟩ := h.call c
    obtain ⟨hend, hreplies⟩ := ih hnext
    rw [Job.serve]
    refine ⟨?_, ?_⟩
    · rw [accepted_cons, claims_cons, List.length_append, ← List.append_assoc, ← Nat.add_assoc]
      exact hend
    · intro before c' reply after heq
      cases before with
      | nil =>
        obtain ⟨hhead, -⟩ := List.cons.inj heq
        obtain ⟨rfl, rfl⟩ := Prod.mk.inj hhead
        simpa [accepted, claims] using hreply
      | cons e before =>
        obtain ⟨rfl, htail⟩ := List.cons.inj heq
        rw [accepted_cons, claims_cons, List.length_append, ← List.append_assoc, ← Nat.add_assoc]
        exact hreplies before c' reply after htail

/-- A call brings no answer, or it fills the last index and brings the one that belongs to what
    was accepted. -/
theorem Replies.answer {c : Call V} {reply : Reply V} (h : Replies length acc k c reply) :
    (answers [(c, reply)] = [] ∧
        ((acc ++ accepted [(c, reply)]).length < length ↔ acc.length < length)) ∨
      ∃ answer, answers [(c, reply)] = [answer] ∧ acc.length < length ∧
        (acc ++ accepted [(c, reply)]).length = length ∧
        Answers length (acc ++ accepted [(c, reply)]) answer := by
  cases c with
  | claim =>
    have hreply : reply = .claimed (if k < length then some k else none) := h
    subst hreply
    exact Or.inl ⟨rfl, by simp [accepted]⟩
  | submit i r =>
    simp only [Replies] at h
    split at h
    · subst h
      exact Or.inl ⟨rfl, by simp [accepted]⟩
    split at h
    · subst h
      exact Or.inl ⟨rfl, by simp [accepted]⟩
    split at h
    next hlast =>
      obtain ⟨answer, rfl, hans⟩ := h
      refine Or.inr ⟨answer, rfl, by omega, ?_, hans⟩
      simpa [accepted] using hlast
    next hmore =>
      subst h
      refine Or.inl ⟨rfl, ?_⟩
      simp only [accepted, List.filterMap_cons, List.filterMap_nil, List.length_append,
        List.length_singleton]
      omega

/-- How many answers belong to calls that were answered as they must be: one if the last index was
    accepted among them, and none otherwise. -/
theorem answers_of_replies {log : Log (Call V) (Reply V)}
    (hlt : ∀ p ∈ acc ++ accepted log, p.1 < length)
    (hnd : ((acc ++ accepted log).map Prod.fst).Nodup)
    (hreplies : ∀ before c reply after, log = before ++ (c, reply) :: after →
      Replies length (acc ++ accepted before) (k + (claims before).length) c reply) :
    if acc.length < length ∧ (acc ++ accepted log).length = length
    then ∃ answer, answers log = [answer] ∧ Answers length (acc ++ accepted log) answer
    else answers log = [] := by
  -- On the log. What was accepted before it grows with every entry.
  induction log generalizing acc k with
  | nil =>
    rw [if_neg (by simp [accepted]; omega)]
    rfl
  | cons e rest ih =>
    obtain ⟨c, reply⟩ := e
    have hhead : Replies length acc k c reply := by
      simpa [accepted, claims] using hreplies [] c reply rest rfl
    have hsplit : acc ++ accepted ((c, reply) :: rest) =
        acc ++ accepted [(c, reply)] ++ accepted rest := by
      rw [accepted_cons, List.append_assoc]
    rw [hsplit] at hlt hnd ⊢
    have hrest := ih hlt hnd (k := k + (claims [(c, reply)]).length) (by
      intro before c' reply' after heq
      have := hreplies ((c, reply) :: before) c' reply' after (by rw [heq]; rfl)
      rwa [accepted_cons, claims_cons, List.length_append, ← List.append_assoc,
        ← Nat.add_assoc] at this)
    rw [answers_cons]
    rcases hhead.answer with ⟨hnone, hiff⟩ | ⟨answer, hone, hless, hfull, hans⟩
    · rw [hnone, List.nil_append]
      simpa only [hiff] using hrest
    · -- The last index is taken, so nothing more is accepted and nothing more answered.
      have hle : (acc ++ accepted [(c, reply)] ++ accepted rest).length ≤ length := by
        simpa using (subperm_range hlt hnd).length_le
      have hnil : accepted rest = [] := by
        rw [List.length_append, hfull] at hle
        exact List.eq_nil_of_length_eq_zero (by omega)
      rw [if_neg (by omega)] at hrest
      rw [hone, hrest, hnil, List.append_nil, if_pos ⟨hless, hfull⟩]
      exact ⟨answer, rfl, hans⟩

/-- The figures of a new job; one without any index has given its answer. -/
theorem Stands.start (length : Nat) :
    Stands length [] 0 (Job.start length : Job V × Option (Outcome (List V))).1 := by
  by_cases h0 : length = 0
  · subst h0
    refine
      { slots_length := ?_, index_lt := ?_, index_nodup := ?_, unresolved_iff := ?_, holds := ?_,
        remaining_add := ?_, first := ?_, cursor := ?_, complete_iff := ?_ } <;>
      simp [Job.start, finish, takeValues, firstFailing, isComplete]
  · have hstart : (Job.start length : Job V × Option (Outcome (List V))).1 =
        { slots := List.replicate length .unresolved, remaining := length } := by
      simp [Job.start, h0]
    rw [hstart]
    refine
      { slots_length := by simp, index_lt := by simp, index_nodup := by simp,
        unresolved_iff := ?_, holds := by simp, remaining_add := by simp, first := rfl,
        cursor := rfl, complete_iff := ?_ }
    · intro i slot hs
      obtain ⟨_, rfl⟩ := List.getElem?_eq_some_iff.mp hs
      simp [Slot.isUnresolved]
    · simp [isComplete, Ne.symm h0]

/-- A job over no index gives its answer when it is created, and no other job does. -/
theorem start_answer (length : Nat) :
    (Job.start length : Job V × Option (Outcome (List V))).2 =
      if length = 0 then some (.ok []) else none := by
  by_cases h0 : length = 0
  · subst h0
    rfl
  · simp [Job.start, h0]

/-! ## Whole sessions -/

/-- At the end of a session the figures tell what was accepted, and each call was answered as the
    calls before it say. -/
theorem Stands.session (length : Nat) (callback : Outcome (List V) → List (Call V))
    (calls : List (Call V)) :
    Stands length (accepted (session length callback calls).log)
        (claims (session length callback calls).log).length (session length callback calls).job ∧
      ∀ before c reply after,
        (session length callback calls).log = before ++ (c, reply) :: after →
        Replies length (accepted before) (claims before).length c reply := by
  have hserve := (Stands.start (V := V) length).serve callback
    (((Job.start length : Job V × Option (Outcome (List V))).2.map callback).getD [] ++ calls)
  simp only [List.nil_append, Nat.zero_add] at hserve
  exact hserve

/-- A session gives one answer if every index was accepted, and otherwise none. -/
theorem session_answers (length : Nat) (callback : Outcome (List V) → List (Call V))
    (calls : List (Call V)) :
    if (accepted (session length callback calls).log).length = length
    then ∃ answer, (session length callback calls).answers = [answer] ∧
      Answers length (accepted (session length callback calls).log) answer
    else (session length callback calls).answers = [] := by
  obtain ⟨hend, hreplies⟩ := Stands.session length callback calls
  have hstart := start_answer (V := V) length
  have hanswers := @answers_of_replies V length 0 [] _ hend.index_lt hend.index_nodup
    (by simpa only [List.nil_append, Nat.zero_add] using hreplies)
  by_cases h0 : length = 0
  · -- There is no index to be accepted, and creation has given the answer.
    have hnil : accepted (session length callback calls).log = [] := by
      apply List.eq_nil_iff_forall_not_mem.mpr
      intro p hp
      exact absurd (hend.index_lt p hp) (by omega)
    rw [hnil, if_pos (by simp [h0])]
    refine ⟨.ok [], ?_, by simp [Answers, h0]⟩
    rw [if_neg (by omega)] at hanswers
    show Option.toList _ ++ answers (session length callback calls).log = _
    rw [hanswers, hstart, if_pos h0]
    rfl
  · have hall : (session length callback calls).answers =
        answers (session length callback calls).log := by
      simp only [session, hstart, if_neg h0, Option.toList_none, List.nil_append]
    simp only [List.length_nil, Nat.pos_of_ne_zero h0, true_and, List.nil_append] at hanswers
    rw [hall]
    exact hanswers

/-- **Sessions are sound.** Over any number of indices, with any callback and any calls: each call
    is answered as the accepted submissions and the claims before it say, a refused one leaves the
    job as it is, the figures of the job tell what was accepted, the callback runs once every index
    was accepted and not before, and a failure it is told is the one that the job reports. -/
theorem session_sound (length : Nat) (callback : Outcome (List V) → List (Call V))
    (calls : List (Call V)) :
    Session.Sound length (session length callback calls) ∧
      (∀ (j : Job V) c cause, (j.call c).2 = .refused cause → (j.call c).1 = j) ∧
      ∀ e, .err e ∈ (session length callback calls).answers →
        ∃ i, (session length callback calls).job.firstFailure = some (i, e) := by
  obtain ⟨hend, hreplies⟩ := Stands.session length callback calls
  have hanswers := session_answers length callback calls
  refine
    ⟨{ replies := hreplies, index_lt := hend.index_lt, index_nodup := hend.index_nodup,
       remaining_add := hend.remaining_add, first := hend.first,
       complete_iff := hend.complete_iff, answers := hanswers },
      fun j c cause => call_refused, ?_⟩
  intro e he
  split at hanswers
  · obtain ⟨answer, hone, hans⟩ := hanswers
    rw [hone, List.mem_singleton] at he
    rw [hend.first]
    exact hans.reported he.symm
  · rw [hanswers] at he
    exact absurd he List.not_mem_nil

end Job
end CoopSched
