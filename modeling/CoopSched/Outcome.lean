/-!
# Outcomes — how a piece of work ends

A strand, a completion bridge and an invocation job all carry the same kind of result: a value,
or a `Failure`. A failure is a kind and a message. The kind is what lets a caller tell a domain
error from work that was cut off, so it is a type of its own; the message is opaque text.

`Outcome V` is a result of its own and not an `Except`: it is data that is stored, delivered and
compared, never a computation that is sequenced, and it has decidable equality wherever `V` has.
-/

namespace CoopSched

/-- Why no value was produced. -/
inductive FailureKind where
  /-- The work itself answered an error. -/
  | failed
  /-- The work panicked while a segment of it ran. -/
  | panicked
  /-- A shutdown cancelled the strand. -/
  | cancelled
  /-- A timer won the race for the completion bridge. -/
  | timedOut
  /-- The strand could not be created at all. -/
  | rejected
deriving DecidableEq, Repr, Inhabited

/-- The word with which a failure's text begins. -/
def FailureKind.word : FailureKind → String
  | .failed => "failed"
  | .panicked => "panicked"
  | .cancelled => "cancelled"
  | .timedOut => "timed out"
  | .rejected => "rejected"

/-- The name of a kind. -/
def FailureKind.name : FailureKind → String
  | .failed => "Failed"
  | .panicked => "Panicked"
  | .cancelled => "Cancelled"
  | .timedOut => "TimedOut"
  | .rejected => "Rejected"

/-- The error carried by a finished strand, a bridge or a job. -/
structure Failure where
  kind : FailureKind
  message : String
deriving DecidableEq, Repr, Inhabited

/-- The text of a failure: its kind, then its message. -/
def Failure.text (f : Failure) : String :=
  f.kind.word ++ ": " ++ f.message

/-- Was the work cut off, as opposed to failing on its own? A cancellation and a lost race
    against a timer are; a refusal is not, since the work never started. -/
def Failure.isCancellation (f : Failure) : Bool :=
  match f.kind with
  | .cancelled | .timedOut => true
  | .failed | .panicked | .rejected => false

/-- What a panicking computation leaves behind: a text, or something that has none. -/
inductive Panic where
  | text (message : String)
  | opaqueValue
deriving DecidableEq, Repr, Inhabited

/-- The message under which a panic is reported. -/
def Panic.message : Panic → String
  | .text message => message
  | .opaqueValue => "unknown panic"

/-- The failure of a strand whose body panicked. -/
def Failure.ofPanic (p : Panic) : Failure := ⟨.panicked, p.message⟩

/-- A value, or the failure that stands in its place. -/
inductive Outcome (V : Type) where
  | ok (value : V)
  | err (failure : Failure)
deriving DecidableEq, Repr, Inhabited

namespace Outcome

variable {V : Type}

/-- Did the work produce a value? -/
def isOk : Outcome V → Bool
  | .ok _ => true
  | .err _ => false

/-- The failure, if there is one. -/
def failure? : Outcome V → Option Failure
  | .ok _ => none
  | .err f => some f

/-- Applies `f` to the value, and leaves a failure as it is. -/
def map {W : Type} (f : V → W) : Outcome V → Outcome W
  | .ok v => .ok (f v)
  | .err e => .err e

theorem failure?_eq_none_iff {r : Outcome V} : r.failure? = none ↔ r.isOk = true := by
  cases r <;> simp [failure?, isOk]

end Outcome

end CoopSched
