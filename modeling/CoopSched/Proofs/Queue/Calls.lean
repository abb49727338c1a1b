import CoopSched.Proofs.Log
import CoopSched.ReadyQueue

/-!
# Calls — the ready queue as a plain list

A queue takes any call at any time, and the log tells what was called and answered. From the log
alone it can be said who came in (`entered`) and who was handed out, one by one or all at once
(`left`). Who has come in and not left, in the order in which they came, is a plain list, and that
list is what the queue is (`Kept.waiting`): it does not look at how the queue was closed or aborted
meanwhile. Whether a call is answered right is then a question about the calls before it
(`Answers`).

One call keeps the queue in step with its log (`Kept.call`), and so does any number of them
(`Course.kept`, `refines_serve`). The figure of those that are out on a worker is the one thing that
needs the callers to be honest: it stops at zero, so it is right only if nobody is given back who
was not out (`Honest`).
-/

namespace CoopSched
namespace ReadyQueue

/-- A call on a queue. -/
inductive Call where
  | push (id : StrandId)
  /-- A new strand asks to come in. -/
  | offer (id : StrandId) (limit : Option Nat)
  | pop
  | release
  | close
  | abort
  | drain
deriving DecidableEq, Repr

/-- What a call on a queue is answered. -/
inductive Reply where
  | done
  | admitted (isAdmitted : Bool)
  | popped (p : Pop)
  | drained (ids : List StrandId)
deriving DecidableEq, Repr

/-- Makes one call. -/
def call (q : ReadyQueue) : Call → ReadyQueue × Reply
  | .push id => (q.push id, .done)
  | .offer id limit =>
      match q.admit? id limit with
      | some q' => (q', .admitted true)
      | none => (q, .admitted false)
  | .pop => (q.pop.1, .popped q.pop.2)
  | .release => (q.release, .done)
  | .close => (q.close, .done)
  | .abort => (q.abort, .done)
  | .drain => (q.drain.1, .drained q.drain.2)

/-- Makes calls in turn. -/
def serve (q : ReadyQueue) (calls : List Call) : ReadyQueue × Log Call Reply :=
  Log.serve call q calls

/-- Any calls on a new queue. -/
abbrev Course (log : Log Call Reply) (q : ReadyQueue) : Prop :=
  Log.Course call (fun _ _ => True) {} log q

/-! ## What a log says -/

/-- The strand that comes in with a call. -/
def comer : Call × Reply → List StrandId
  | (.push id, _) | (.offer id _, .admitted true) => [id]
  | _ => []

/-- The strands that are handed out with a call. -/
def leavers : Call × Reply → List StrandId
  | (.pop, .popped (.strand id)) => [id]
  | (.drain, .drained ids) => ids
  | _ => []

/-- Did a worker get a strand with the call? -/
def isTaking : Call × Reply → Bool
  | (.pop, .popped (.strand _)) => true
  | _ => false

/-- Did a worker give a strand back with the call? -/
def isReturning : Call × Reply → Bool
  | (.release, _) => true
  | _ => false

/-- Everybody who came in, in turn. -/
def entered (log : Log Call Reply) : List StrandId := log.flatMap comer

/-- Everybody who was handed out, in turn. -/
def left (log : Log Call Reply) : List StrandId := log.flatMap leavers

/-- Who has come in and was not handed out, in turn. -/
def queued (log : Log Call Reply) : List StrandId := (entered log).drop (left log).length

/-- How many strands workers got. -/
def taken (log : Log Call Reply) : Nat := log.countP isTaking

/-- How many strands workers gave back. -/
def returned (log : Log Call Reply) : Nat := log.countP isReturning

/-- Was the queue aborted? -/
def IsAborted (log : Log Call Reply) : Prop := .abort ∈ log.map Prod.fst

/-- Was the queue closed, or aborted? -/
def IsClosed (log : Log Call Reply) : Prop := .close ∈ log.map Prod.fst ∨ IsAborted log

/-- Nobody is given back who was not out. -/
def Honest (log : Log Call Reply) : Prop :=
  ∀ before after, log = before ++ after → returned before ≤ taken before

/-- What a call has to be answered, after the calls before it. -/
def Answers (before : Log Call Reply) (reply : Reply) : Call → Prop
  | .push _ | .release | .close | .abort => reply = .done
  | .offer _ limit => ∃ isAdmitted, reply = .admitted isAdmitted ∧
      (isAdmitted = true ↔ ¬ IsClosed before ∧ ∀ n, limit = some n → (queued before).length < n)
  | .pop => ∃ p, reply = .popped p ∧
      (∀ id, p = .strand id ↔ ¬ IsAborted before ∧ (queued before).head? = some id) ∧
      (p = .finished ↔ IsAborted before ∨ IsClosed before ∧ queued before = []) ∧
      (p = .wait ↔ ¬ IsClosed before ∧ queued before = [])
  | .drain => reply = .drained (queued before)

/-- The queue is what its log says. -/
structure Kept (log : Log Call Reply) (q : ReadyQueue) : Prop where
  order : left log ++ q.waiting = entered log
  closed : q.closed = true ↔ IsClosed log
  aborted : q.aborted = true ↔ IsAborted log
  running : Honest log → q.running + returned log = taken log

variable {log : Log Call Reply} {q : ReadyQueue} {c : Call} {reply : Reply}

theorem Kept.waiting (h : Kept log q) : q.waiting = queued log := by
  rw [queued, ← h.order, List.drop_left]

theorem Honest.of_append {rest : Log Call Reply} (h : Honest (log ++ rest)) : Honest log := by
  intro before after heq
  exact h before (after ++ rest) (by rw [heq, List.append_assoc])

theorem isAborted_snoc (log : Log Call Reply) (c : Call) (reply : Reply) :
    IsAborted (log ++ [(c, reply)]) ↔ IsAborted log ∨ c = .abort :=
  Log.mem_calls_snoc log (c, reply) .abort

theorem isClosed_snoc (log : Log Call Reply) (c : Call) (reply : Reply) :
    IsClosed (log ++ [(c, reply)]) ↔ IsClosed log ∨ c = .close ∨ c = .abort := by
  rw [IsClosed, isAborted_snoc, Log.mem_calls_snoc, or_or_or_comm, IsClosed]

/-! ## One call -/

theorem admits_eq_true (q : ReadyQueue) (limit : Option Nat) :
    q.admits limit = true ↔
      (q.closed = false ∧ q.aborted = false) ∧ ∀ n, limit = some n → q.length < n := by
  cases limit <;> simp [admits]

/-- A new strand comes in, or nothing happens. -/
theorem call_offer (q : ReadyQueue) (id : StrandId) (limit : Option Nat) :
    (q.admits limit = true ∧ q.call (.offer id limit) = (q.push id, .admitted true)) ∨
      (q.admits limit = false ∧ q.call (.offer id limit) = (q, .admitted false)) := by
  cases h : q.admits limit with
  | true => exact .inl ⟨rfl, by simp [call, admit?, h]⟩
  | false => exact .inr ⟨rfl, by simp [call, admit?, h]⟩

/-- What a worker finds that asks for a strand. -/
inductive Popped (q : ReadyQueue) : ReadyQueue → Pop → Prop where
  | aborted (haborted : q.aborted = true) : Popped q q .finished
  | strand {id : StrandId} {rest : List StrandId} (haborted : q.aborted = false)
      (hwaiting : q.waiting = id :: rest) :
      Popped q { q with waiting := rest, running := q.running + 1 } (.strand id)
  | closed (haborted : q.aborted = false) (hwaiting : q.waiting = []) (hclosed : q.closed = true) :
      Popped q q .finished
  | wait (haborted : q.aborted = false) (hwaiting : q.waiting = []) (hclosed : q.closed = false) :
      Popped q q .wait

theorem popped_pop (q : ReadyQueue) : Popped q q.pop.1 q.pop.2 := by
  unfold pop
  cases haborted : q.aborted with
  | true => exact .aborted haborted
  | false =>
    cases hwaiting : q.waiting with
    | cons id rest =>
      have hstrand := Popped.strand haborted hwaiting
      rwa [haborted] at hstrand
    | nil =>
      cases hclosed : q.closed with
      | true => exact .closed haborted hwaiting hclosed
      | false => exact .wait haborted hwaiting hclosed

/-- Whoever goes with a call was in front, or came with it. -/
theorem leavers_call (q : ReadyQueue) (c : Call) :
    leavers (c, (q.call c).2) ++ (q.call c).1.waiting = q.waiting ++ comer (c, (q.call c).2) := by
  cases c with
  | offer id limit =>
    obtain ⟨-, heq⟩ | ⟨-, heq⟩ := call_offer q id limit
    · rw [heq]
      rfl
    · rw [heq]
      exact (List.append_nil _).symm
  | pop =>
    show leavers (.pop, .popped q.pop.2) ++ q.pop.1.waiting = q.waiting ++ []
    have hpop := popped_pop q
    generalize q.pop.1 = q', q.pop.2 = p at hpop ⊢
    cases hpop with
    | strand _ hwaiting => simp [leavers, hwaiting]
    | _ => exact (List.append_nil _).symm
  | drain => simp [call, drain, leavers, comer]
  | push id => rfl
  | release | close | abort => exact (List.append_nil _).symm

theorem closed_call (q : ReadyQueue) (c : Call) :
    (q.call c).1.closed = true ↔ q.closed = true ∨ c = .close ∨ c = .abort := by
  cases c with
  | offer id limit =>
    obtain ⟨-, heq⟩ | ⟨-, heq⟩ := call_offer q id limit <;> simp [heq, push]
  | pop =>
    show q.pop.1.closed = true ↔ _
    have hpop := popped_pop q
    generalize q.pop.1 = q', q.pop.2 = p at hpop ⊢
    cases hpop <;> simp
  | _ => simp [call, push, release, close, abort, drain]

theorem aborted_call (q : ReadyQueue) (c : Call) :
    (q.call c).1.aborted = true ↔ q.aborted = true ∨ c = .abort := by
  cases c with
  | offer id limit =>
    obtain ⟨-, heq⟩ | ⟨-, heq⟩ := call_offer q id limit <;> simp [heq, push]
  | pop =>
    show q.pop.1.aborted = true ↔ _
    have hpop := popped_pop q
    generalize q.pop.1 = q', q.pop.2 = p at hpop ⊢
    cases hpop <;> simp
  | _ => simp [call, push, release, close, abort, drain]

/-- A strand goes out with a pop, and one of those that are out, if any is, with a release. -/
theorem running_call (q : ReadyQueue) (c : Call) :
    (q.call c).1.running = q.running + [(c, (q.call c).2)].countP isTaking -
      [(c, (q.call c).2)].countP isReturning := by
  cases c with
  | offer id limit =>
    obtain ⟨-, heq⟩ | ⟨-, heq⟩ := call_offer q id limit <;>
      simp [heq, push, isTaking, isReturning]
  | pop =>
    show q.pop.1.running = q.running + [(Call.pop, Reply.popped q.pop.2)].countP isTaking -
      [(Call.pop, Reply.popped q.pop.2)].countP isReturning
    have hpop := popped_pop q
    generalize q.pop.1 = q', q.pop.2 = p at hpop ⊢
    cases hpop <;> simp [isTaking, isReturning]
  | _ => simp [call, push, release, close, abort, drain, isTaking, isReturning]

/-- **A call keeps the queue in step with its log.** -/
theorem Kept.call (h : Kept log q) (c : Call) :
    Kept (log ++ [(c, (q.call c).2)]) (q.call c).1 where
  order := by
    rw [left, entered, Log.flatMap_snoc, Log.flatMap_snoc, List.append_assoc, leavers_call,
      ← List.append_assoc]
    exact congrArg (· ++ comer (c, (q.call c).2)) h.order
  closed := by rw [closed_call, isClosed_snoc, h.closed]
  aborted := by rw [aborted_call, isAborted_snoc, h.aborted]
  running := by
    intro honest
    have hbefore := h.running honest.of_append
    have hlast := honest _ [] (List.append_nil _).symm
    rw [running_call]
    simp only [returned, taken, List.countP_append] at hbefore hlast ⊢
    omega

/-- **A call is answered as its log says.** -/
theorem Kept.answers (h : Kept log q) (c : Call) : Answers log (q.call c).2 c := by
  have hclosed : ¬ IsClosed log ↔ q.closed = false := by
    rw [← h.closed, Bool.not_eq_true]
  have haborted : ¬ IsAborted log ↔ q.aborted = false := by
    rw [← h.aborted, Bool.not_eq_true]
  cases c with
  | push id | release | close | abort => rfl
  | drain => exact congrArg Reply.drained h.waiting
  | offer id limit =>
    have hadmits : q.admits limit = true ↔
        ¬ IsClosed log ∧ ∀ n, limit = some n → (queued log).length < n := by
      have hopen : q.closed = false → q.aborted = false := by
        intro hfalse
        exact haborted.mp fun hab => hclosed.mpr hfalse (.inr hab)
      rw [admits_eq_true, hclosed, ← h.waiting]
      exact and_congr_left fun _ => ⟨fun hopen => hopen.1, fun hcl => ⟨hcl, hopen hcl⟩⟩
    obtain ⟨hyes, heq⟩ | ⟨hno, heq⟩ := call_offer q id limit
    · exact ⟨true, congrArg Prod.snd heq, fun _ => hadmits.mp hyes, fun _ => rfl⟩
    · refine ⟨false, congrArg Prod.snd heq, fun h => (by cases h), fun h => ?_⟩
      exact hno.symm.trans (hadmits.mpr h)
  | pop =>
    refine ⟨q.pop.2, rfl, ?_⟩
    rw [← h.aborted, ← h.closed, ← h.waiting]
    have hpop := popped_pop q
    generalize q.pop.1 = q', q.pop.2 = p at hpop ⊢
    cases hpop with
    | aborted hab =>
      have hcl := h.closed.mpr (.inr (h.aborted.mp hab))
      simp [hab, hcl]
    | strand hab hwaiting => simp [hab, hwaiting]
    | closed hab hwaiting hcl => simp [hab, hwaiting, hcl]
    | wait hab hwaiting hcl => simp [hab, hwaiting, hcl]

/-! ## All calls -/

theorem kept_nil : Kept [] {} where
  order := rfl
  closed := by simp [IsClosed, IsAborted]
  aborted := by simp [IsAborted]
  running := fun _ => rfl

theorem Course.kept (h : Course log q) : Kept log q := by
  induction h with
  | nil => exact kept_nil
  | snoc _ _ ih => exact ih.call _

/-- Every call is answered as the calls before it say. -/
theorem Course.answers {after : Log Call Reply} (h : Course (log ++ (c, reply) :: after) q) :
    Answers log reply c := by
  obtain ⟨q', hlast⟩ := h.upTo
  obtain ⟨q'', hbefore, -, -, hreply⟩ := hlast.last
  obtain rfl : reply = (q''.call c).2 := hreply
  exact (Course.kept hbefore).answers c

/-- A queue is idle when everybody has left and everybody who was out is back. -/
theorem Kept.isIdle_iff (h : Kept log q) (honest : Honest log) :
    q.isIdle = true ↔ left log = entered log ∧ taken log = returned log := by
  have hrunning := h.running honest
  rw [isIdle, Bool.and_eq_true, List.isEmpty_iff, beq_iff_eq, ← h.order, List.self_eq_append_right]
  exact and_congr_right fun _ => by omega

/-- A new queue does as a plain list does, whatever is called on it. -/
structure Refines (calls : List Call) (log : Log Call Reply) (q : ReadyQueue) : Prop where
  /-- Every call is made, and answered. -/
  calls : log.map Prod.fst = calls
  /-- Whoever left, and then whoever waits, is whoever came in: nobody is lost, doubled or
      overtaken. -/
  order : left log ++ q.waiting = entered log
  answers : ∀ before c reply after, log = before ++ (c, reply) :: after → Answers before reply c
  running : Honest log → q.running + returned log = taken log
  idle : Honest log → (q.isIdle = true ↔ left log = entered log ∧ taken log = returned log)

/-- **The ready queue is a plain list**, whatever is called on it. -/
theorem refines_serve (calls : List Call) :
    Refines calls (({} : ReadyQueue).serve calls).2 (({} : ReadyQueue).serve calls).1 := by
  have hcourse : Course (({} : ReadyQueue).serve calls).2 (({} : ReadyQueue).serve calls).1 :=
    Log.course_serve (Log.orderly_of_forall (fun _ _ => trivial) _ calls)
  exact
    { calls := Log.serve_calls call {} calls
      order := hcourse.kept.order
      answers := fun before c reply after heq => Course.answers (heq ▸ hcourse)
      running := hcourse.kept.running
      idle := hcourse.kept.isIdle_iff }

end ReadyQueue
end CoopSched
