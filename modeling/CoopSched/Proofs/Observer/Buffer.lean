import CoopSched.Event.Channel
import Mathlib.Data.List.Induction

/-!
# Buffers — what a receiver gets, and what is dropped

Events come, and a receiver takes them one by one, or all at once, until it is dropped. Whatever
the order is in which this happens, the receiver misses nothing but what is counted as dropped
(`Accounts`): what it has read, and what it could still read, is what was sent, in the same order,
without those events that found the buffer full.
-/

namespace CoopSched
namespace Channel

/-- What can happen to a channel. -/
inductive Act where
  | emit (e : Event)
  | receive
  | drain
  /-- The receiver is dropped. -/
  | leave
deriving DecidableEq, Repr

/-- The event that is sent. -/
def Act.emitted? : Act → Option Event
  | .emit e => some e
  | _ => none

/-- The events that are sent, in turn. -/
def emitted (acts : List Act) : List Event := acts.filterMap Act.emitted?

/-- What an act makes of a channel, and which events are read with it. -/
def act (c : Channel) : Act → Channel × List Event
  | .emit e => (c.emit e, [])
  | .receive =>
      match c.receive with
      | (c', .event e) => (c', [e])
      | (c', _) => (c', [])
  | .drain => c.drain
  | .leave => (c.dropReceiver, [])

/-- The channel after acts in turn, and everything that is read meanwhile. -/
def serve (c : Channel) : List Act → Channel × List Event
  | [] => (c, [])
  | a :: acts =>
      let served := (c.act a).1.serve acts
      (served.1, (c.act a).2 ++ served.2)

variable {c : Channel} {capacity : Nat} {e : Event} {a : Act} {acts acts' before after : List Act}

theorem serve_append (c : Channel) (acts acts' : List Act) :
    c.serve (acts ++ acts') =
      (((c.serve acts).1.serve acts').1, (c.serve acts).2 ++ ((c.serve acts).1.serve acts').2) := by
  induction acts generalizing c with
  | nil => rfl
  | cons a acts ih => simp only [List.cons_append, serve, ih, List.append_assoc]

theorem serve_snoc (c : Channel) (acts : List Act) (a : Act) :
    c.serve (acts ++ [a]) =
      (((c.serve acts).1.act a).1, (c.serve acts).2 ++ ((c.serve acts).1.act a).2) := by
  simp only [serve_append, serve, List.append_nil]

theorem emitted_append : emitted (acts ++ acts') = emitted acts ++ emitted acts' :=
  List.filterMap_append

/-! ## One act -/

theorem act_receive (c : Channel) :
    c.act .receive = ({ c with buffer := c.buffer.tail }, c.buffer.take 1) := by
  obtain ⟨capacity, buffer, dropped, senderGone, receiverGone⟩ := c
  cases buffer with
  | nil => cases senderGone <;> rfl
  | cons e rest => rfl

theorem act_capacity (c : Channel) (a : Act) : (c.act a).1.capacity = c.capacity := by
  cases a with
  | emit e => simp only [act, emit]; split <;> rfl
  | receive => rw [act_receive]
  | drain | leave => rfl

theorem act_receiverGone (c : Channel) (a : Act) :
    (c.act a).1.receiverGone = true ↔ c.receiverGone = true ∨ a = .leave := by
  cases a with
  | emit e => simp only [act, emit]; split <;> simp
  | receive => simp [act_receive]
  | drain => simp [act, drain]
  | leave => simp [act, dropReceiver]

/-- Only an event that is sent is counted, and only one that is not kept. -/
theorem act_dropped (c : Channel) (h : a.emitted? = none) : (c.act a).1.dropped = c.dropped := by
  cases a with
  | emit e => cases h
  | receive => rw [act_receive]
  | drain | leave => rfl

/-- A channel that has a receiver keeps an event for which there is room. -/
theorem emit_kept (halive : c.receiverGone = false) (hroom : c.buffer.length < c.capacity) :
    c.emit e = { c with buffer := c.buffer ++ [e] } := by
  simp [emit, accepts, halive, hroom]

theorem emit_full (hfull : c.capacity ≤ c.buffer.length) :
    c.emit e = { c with dropped := c.dropped + 1 } := by
  simp [emit, accepts, hfull]

theorem emit_gone (hgone : c.receiverGone = true) :
    c.emit e = { c with dropped := c.dropped + 1 } := by
  simp [emit, accepts, hgone]

/-- What is read was in front of the buffer. -/
theorem act_buffer (c : Channel) (h : a.emitted? = none) (hstay : a ≠ .leave) :
    (c.act a).2 ++ (c.act a).1.buffer = c.buffer := by
  cases a with
  | emit e => cases h
  | receive => rw [act_receive]; cases c.buffer <;> rfl
  | drain => simp [act, drain]
  | leave => exact absurd rfl hstay

theorem act_buffer_length (c : Channel) (a : Act) (h : c.buffer.length ≤ c.capacity) :
    (c.act a).1.buffer.length ≤ c.capacity := by
  cases a with
  | emit e =>
    simp only [act, emit]
    split
    next haccepts =>
      simp only [accepts, Bool.and_eq_true, decide_eq_true_eq] at haccepts
      rw [List.length_append]
      exact haccepts.2
    next => exact h
  | receive =>
    rw [act_receive]
    show c.buffer.tail.length ≤ c.capacity
    rw [List.length_tail]
    exact Nat.le_trans (Nat.sub_le _ _) h
  | drain | leave => exact Nat.zero_le _

/-! ## All acts -/

/-- What holds of a channel after so many acts, and of what was read, as long as it has its
    receiver. -/
structure Loyal (acts : List Act) (c : Channel) (read : List Event) : Prop where
  inOrder : (read ++ c.buffer).Sublist (emitted acts)
  counted : (emitted acts).length = read.length + c.buffer.length + c.dropped

theorem Loyal.read {read : List Event} (h : Loyal acts c read) (hsent : a.emitted? = none)
    (hstay : a ≠ .leave) : Loyal (acts ++ [a]) (c.act a).1 (read ++ (c.act a).2) := by
  have hsame : emitted (acts ++ [a]) = emitted acts := by simp [emitted, hsent]
  have hbuffer := c.act_buffer hsent hstay
  refine ⟨?_, ?_⟩
  · rw [hsame, List.append_assoc, hbuffer]
    exact h.inOrder
  · have hcounted := h.counted
    rw [← hbuffer, List.length_append] at hcounted
    rw [hsame, c.act_dropped hsent, List.length_append]
    omega

theorem Loyal.emit {read : List Event} (h : Loyal acts c read) (halive : c.receiverGone = false)
    (e : Event) : Loyal (acts ++ [.emit e]) (c.emit e) read := by
  have hcounted := h.counted
  have hmore : emitted (acts ++ [.emit e]) = emitted acts ++ [e] := by
    simp [emitted, Act.emitted?]
  by_cases hroom : c.buffer.length < c.capacity
  · rw [emit_kept halive hroom]
    refine ⟨?_, ?_⟩
    · rw [hmore, ← List.append_assoc]
      exact h.inOrder.append (.refl _)
    · simp only [hmore, List.length_append, List.length_singleton]
      omega
  · rw [emit_full (Nat.le_of_not_lt hroom)]
    refine ⟨?_, ?_⟩
    · rw [hmore]
      exact h.inOrder.trans (List.sublist_append_left _ _)
    · simp only [hmore, List.length_append, List.length_singleton]
      omega

theorem serve_receiverGone (c : Channel) (acts : List Act) :
    (c.serve acts).1.receiverGone = true ↔ c.receiverGone = true ∨ .leave ∈ acts := by
  induction acts generalizing c with
  | nil => simp [serve]
  | cons a acts ih =>
    simp only [serve, ih, act_receiverGone, List.mem_cons, or_assoc, @eq_comm _ _ a]

/-- A channel has its receiver until it leaves. -/
theorem serve_alive (capacity : Nat) (hstay : .leave ∉ acts) :
    ((ofCapacity capacity).serve acts).1.receiverGone = false := by
  rw [← Bool.not_eq_true, serve_receiverGone]
  intro hgone
  exact hgone.elim (fun h => by cases h) hstay

theorem serve_capacity (c : Channel) (acts : List Act) :
    (c.serve acts).1.capacity = c.capacity := by
  induction acts generalizing c with
  | nil => rfl
  | cons a acts ih => exact (ih _).trans (c.act_capacity a)

theorem serve_buffer_length (acts : List Act) (h : c.buffer.length ≤ c.capacity) :
    (c.serve acts).1.buffer.length ≤ c.capacity := by
  induction acts generalizing c with
  | nil => exact h
  | cons a acts ih =>
    have hnext := ih (c := (c.act a).1) (by rw [act_capacity]; exact c.act_buffer_length a h)
    rwa [act_capacity] at hnext

theorem loyal_serve (hstay : .leave ∉ acts) :
    Loyal acts ((ofCapacity capacity).serve acts).1 ((ofCapacity capacity).serve acts).2 := by
  induction acts using List.reverseRecOn with
  | nil => exact ⟨List.nil_sublist _, rfl⟩
  | append_singleton acts a ih =>
    rw [List.mem_append, List.mem_singleton, not_or] at hstay
    have hprev := ih hstay.1
    rw [serve_snoc]
    cases hsent : a.emitted? with
    | none => exact hprev.read hsent (Ne.symm hstay.2)
    | some e =>
      obtain rfl : a = .emit e := by
        cases a <;> simp [Act.emitted?] at hsent
        rw [hsent]
      rw [act, List.append_nil]
      exact hprev.emit (serve_alive capacity hstay.1) e

/-- When the receiver is gone, everything that is sent is counted as dropped, and nothing is read
    any more. -/
theorem serve_gone (acts : List Act) (hgone : c.receiverGone = true) (hempty : c.buffer = []) :
    (c.serve acts).1.dropped = c.dropped + (emitted acts).length ∧ (c.serve acts).2 = [] := by
  induction acts generalizing c with
  | nil => exact ⟨rfl, rfl⟩
  | cons a acts ih =>
    have hact : (c.act a).1.buffer = [] ∧ (c.act a).2 = [] := by
      cases a with
      | emit e => exact ⟨by rw [act, emit_gone hgone, hempty], rfl⟩
      | receive => simp [act_receive, hempty]
      | drain => exact ⟨rfl, hempty⟩
      | leave => exact ⟨rfl, rfl⟩
    have hcounted : (c.act a).1.dropped = c.dropped + (emitted [a]).length := by
      cases a with
      | emit e => rw [act, emit_gone hgone]; rfl
      | receive => rw [act_receive]; rfl
      | drain | leave => rfl
    obtain ⟨hdropped, hread⟩ := ih ((c.act_receiverGone a).mpr (.inl hgone)) hact.1
    refine ⟨?_, ?_⟩
    · rw [← List.singleton_append, emitted_append, List.length_append, ← Nat.add_assoc, ← hcounted]
      exact hdropped
    · show (c.act a).2 ++ ((c.act a).1.serve acts).2 = []
      rw [hact.2, hread]
      rfl

/-! ## The law -/

/-- What a channel and its receiver make of any acts. -/
structure Accounts (capacity : Nat) (acts : List Act) : Prop where
  bounded : ((ofCapacity capacity).serve acts).1.buffer.length ≤ capacity
  /-- What was read, and then what could be, was sent in this order. -/
  inOrder : .leave ∉ acts →
    (((ofCapacity capacity).serve acts).2 ++ ((ofCapacity capacity).serve acts).1.buffer).Sublist
      (emitted acts)
  /-- And the rest is counted. -/
  counted : .leave ∉ acts →
    (emitted acts).length = ((ofCapacity capacity).serve acts).2.length +
      ((ofCapacity capacity).serve acts).1.buffer.length +
      ((ofCapacity capacity).serve acts).1.dropped
  /-- An event that finds the buffer full is dropped, and every other one is buffered. -/
  sent : ∀ before e after, acts = before ++ .emit e :: after → .leave ∉ before →
    ((ofCapacity capacity).serve (before ++ [.emit e])).1 =
      if ((ofCapacity capacity).serve before).1.buffer.length = capacity then
        { ((ofCapacity capacity).serve before).1 with
          dropped := ((ofCapacity capacity).serve before).1.dropped + 1 }
      else
        { ((ofCapacity capacity).serve before).1 with
          buffer := ((ofCapacity capacity).serve before).1.buffer ++ [e] }
  /-- After the receiver has left, everything is dropped. -/
  left : ∀ before after, acts = before ++ .leave :: after →
    ((ofCapacity capacity).serve acts).1.dropped =
        ((ofCapacity capacity).serve before).1.dropped + (emitted after).length ∧
      ((ofCapacity capacity).serve acts).2 = ((ofCapacity capacity).serve before).2

/-- **A receiver misses only what is counted**, and only what found the buffer full, or the receiver
    gone, is. -/
theorem accounts (capacity : Nat) (acts : List Act) : Accounts capacity acts where
  bounded := serve_buffer_length acts (Nat.zero_le _)
  inOrder := fun hstay => (loyal_serve hstay).inOrder
  counted := fun hstay => (loyal_serve hstay).counted
  sent := by
    intro before e after _ hstay
    have halive := serve_alive capacity hstay
    have hcapacity : ((ofCapacity capacity).serve before).1.capacity = capacity :=
      serve_capacity _ _
    have hlength : ((ofCapacity capacity).serve before).1.buffer.length ≤ capacity :=
      serve_buffer_length before (Nat.zero_le _)
    rw [serve_snoc]
    show ((ofCapacity capacity).serve before).1.emit e = _
    split
    next hfull => exact emit_full (Nat.le_of_eq (hcapacity.trans hfull.symm))
    next hroom => exact emit_kept halive (by rw [hcapacity]; omega)
  left := by
    intro before after heq
    have hgone :=
      serve_gone (c := ((ofCapacity capacity).serve before).1.dropReceiver) after rfl rfl
    rw [heq, serve_append]
    refine ⟨hgone.1, ?_⟩
    show ((ofCapacity capacity).serve before).2 ++
      (((ofCapacity capacity).serve before).1.dropReceiver.serve after).2 = _
    rw [hgone.2, List.append_nil]

end Channel
end CoopSched
