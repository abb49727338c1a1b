/-!
# Tables — rows numbered from one

A table hands out the numbers 1, 2, 3, … in turn. A row can be erased, and its number is not
handed out again.
-/

namespace CoopSched

/-- Rows by number; row `n + 1` is at place `n`. -/
structure Table (α : Type) where
  rows : Array (Option α) := #[]

namespace Table

variable {α : Type}

instance : Inhabited (Table α) := ⟨{}⟩

/-- The number that the next row will have. -/
def next (t : Table α) : Nat := t.rows.size + 1

/-- The row with a number. -/
def get? (t : Table α) : Nat → Option α
  | 0 => none
  | n + 1 => (t.rows[n]?).join

/-- Adds a row under the number `t.next`. -/
def add (t : Table α) (a : α) : Table α := ⟨t.rows.push (some a)⟩

/-- Changes the row with a number, if there is one. -/
def update (t : Table α) (n : Nat) (f : α → α) : Table α :=
  match n with
  | 0 => t
  | n + 1 => ⟨t.rows.modify n (Option.map f)⟩

/-- Erases the row with a number. -/
def erase (t : Table α) (n : Nat) : Table α :=
  match n with
  | 0 => t
  | n + 1 => ⟨t.rows.modify n fun _ => none⟩

theorem next_add (t : Table α) (a : α) : (t.add a).next = t.next + 1 := by
  simp [add, next]

theorem next_update (t : Table α) (n : Nat) (f : α → α) : (t.update n f).next = t.next := by
  cases n <;> simp [update, next]

theorem next_erase (t : Table α) (n : Nat) : (t.erase n).next = t.next := by
  cases n <;> simp [erase, next]

theorem get?_add (t : Table α) (a : α) (n : Nat) :
    (t.add a).get? n = if n = t.next then some a else t.get? n := by
  cases n with
  | zero => simp [get?, next]
  | succ n =>
    simp only [get?, add, next, Nat.add_right_cancel_iff, Array.getElem?_push]
    split <;> simp_all

theorem get?_update (t : Table α) (m n : Nat) (f : α → α) :
    (t.update m f).get? n = if m = n then (t.get? n).map f else t.get? n := by
  cases m with
  | zero => cases n <;> simp [get?, update]
  | succ m =>
    cases n with
    | zero => simp [get?]
    | succ n =>
      simp only [get?, update, Array.getElem?_modify, Nat.add_right_cancel_iff]
      split
      · cases t.rows[n]? with
        | none => rfl
        | some r => cases r <;> rfl
      · rfl

theorem get?_erase (t : Table α) (m n : Nat) :
    (t.erase m).get? n = if m = n then none else t.get? n := by
  cases m with
  | zero => cases n <;> simp [get?, erase]
  | succ m =>
    cases n with
    | zero => simp [get?]
    | succ n =>
      simp only [get?, erase, Array.getElem?_modify, Nat.add_right_cancel_iff]
      split
      · cases t.rows[n]? <;> rfl
      · rfl

end Table

end CoopSched
