import Mathlib.Data.List.Induction

/-!
# Logs — the calls on an object, and what they were answered

Some parts of the scheduler are reached through a handful of calls, and what is said of such a part
is said of all the calls that can be made on it, in any number and order. What one call does is a
function of the object and the call, so all of it can be said for any such function: `call` makes
one call, and `permits` says which calls may be made when.

Calls that are made in turn (`serve`) leave a log. A log in which every call was permitted is a
course (`Course`), and there an induction goes call by call, with the newest call last. What
happened with one of the calls is a matter of the course up to it (`Course.upTo`, `Course.last`).
-/

namespace CoopSched

/-- The calls on an object, with what they were answered. -/
abbrev Log (C R : Type) := List (C × R)

namespace Log

variable {S C R α : Type} {call : S → C → S × R} {permits : S → C → Prop} {first s s' : S}
  {log after : Log C R} {e : C × R} {calls : List C}

/-- Makes calls in turn. -/
def serve (call : S → C → S × R) (s : S) : List C → S × Log C R
  | [] => (s, [])
  | c :: rest =>
      let served := serve call (call s c).1 rest
      (served.1, (c, (call s c).2) :: served.2)

/-- Every call may be made when it is made. -/
def Orderly (call : S → C → S × R) (permits : S → C → Prop) (s : S) : List C → Prop
  | [] => True
  | c :: rest => permits s c ∧ Orderly call permits (call s c).1 rest

/-- A run of calls on a new object, each of which may be made. -/
inductive Course (call : S → C → S × R) (permits : S → C → Prop) (first : S) :
    Log C R → S → Prop
  | nil : Course call permits first [] first
  | snoc {log : Log C R} {s : S} {c : C} (h : Course call permits first log s)
      (hc : permits s c) : Course call permits first (log ++ [(c, (call s c).2)]) (call s c).1

/-! ## What a log says when there is one more call -/

theorem filterMap_snoc (f : C × R → Option α) (log : Log C R) (e : C × R) :
    (log ++ [e]).filterMap f = log.filterMap f ++ (f e).toList := by
  cases h : f e <;> simp [h]

theorem flatMap_snoc (f : C × R → List α) (log : Log C R) (e : C × R) :
    (log ++ [e]).flatMap f = log.flatMap f ++ f e := by
  rw [List.flatMap_append, List.flatMap_singleton]

theorem foldl_snoc (f : α → C × R → α) (a : α) (log : Log C R) (e : C × R) :
    (log ++ [e]).foldl f a = f (log.foldl f a) e := by
  rw [List.foldl_append]
  rfl

theorem mem_calls_snoc (log : Log C R) (e : C × R) (c : C) :
    c ∈ (log ++ [e]).map Prod.fst ↔ c ∈ log.map Prod.fst ∨ e.1 = c := by
  rw [List.map_append, List.mem_append, List.map_singleton, List.mem_singleton, eq_comm]

/-! ## Calls in turn -/

theorem serve_calls (call : S → C → S × R) (s : S) (calls : List C) :
    (serve call s calls).2.map Prod.fst = calls := by
  induction calls generalizing s with
  | nil => rfl
  | cons c rest ih => exact congrArg (c :: ·) (ih _)

/-- Where any call may be made at any time there is no order to keep. -/
theorem orderly_of_forall (h : ∀ s c, permits s c) (s : S) (calls : List C) :
    Orderly call permits s calls := by
  induction calls generalizing s with
  | nil => trivial
  | cons c rest ih => exact ⟨h s c, ih _⟩

theorem Course.serve (h : Course call permits first log s)
    (hcalls : Orderly call permits s calls) :
    Course call permits first (log ++ (Log.serve call s calls).2) (Log.serve call s calls).1 := by
  induction calls generalizing s log with
  | nil => rwa [Log.serve, List.append_nil]
  | cons c rest ih =>
    have hrest := ih (h.snoc hcalls.1) hcalls.2
    rwa [List.append_assoc] at hrest

theorem course_serve (hcalls : Orderly call permits first calls) :
    Course call permits first (Log.serve call first calls).2 (Log.serve call first calls).1 :=
  Course.nil.serve hcalls

/-- The last call of a course was made on the object that the calls before it had left. -/
theorem Course.last (h : Course call permits first (log ++ [e]) s') :
    ∃ s, Course call permits first log s ∧ permits s e.1 ∧ s' = (call s e.1).1 ∧
      e.2 = (call s e.1).2 := by
  generalize hlog : log ++ [e] = log' at h
  cases h with
  | nil => simp at hlog
  | snoc hcourse hc =>
    obtain ⟨rfl, rfl⟩ := List.append_singleton_inj.mp hlog
    exact ⟨_, hcourse, hc, rfl, rfl⟩

/-- A course that stops early is one. -/
theorem Course.of_append (h : Course call permits first (log ++ after) s') :
    ∃ s, Course call permits first log s := by
  induction after using List.reverseRecOn generalizing s' with
  | nil => exact ⟨s', by rwa [List.append_nil] at h⟩
  | append_singleton rest e ih =>
    rw [← List.append_assoc] at h
    obtain ⟨s, hcourse, -⟩ := h.last
    exact ih hcourse

theorem Course.upTo (h : Course call permits first (log ++ e :: after) s') :
    ∃ s, Course call permits first (log ++ [e]) s := by
  rw [List.append_cons] at h
  exact h.of_append

end Log
end CoopSched
