import CoopSched.Event

/-!
# Event channels — a bounded buffer that never blocks its sender

The sending half drops what does not fit and counts what it dropped; after the receiver is gone
that is everything. The receiving half takes events in the order in which they were accepted, and
may still do so after the sending half is gone.
-/

namespace CoopSched

/-- Both halves of an event channel and the buffer between them. -/
structure Channel where
  capacity : Nat
  buffer : List Event := []
  dropped : Nat := 0
  senderGone : Bool := false
  receiverGone : Bool := false
deriving DecidableEq, Repr, Inhabited

/-- What a receiver gets that is willing to wait. -/
inductive Receive where
  | event (e : Event)
  /-- The sender is gone and the buffer is empty. -/
  | ended
  /-- Nothing is buffered yet. -/
  | wait
deriving DecidableEq, Repr, Inhabited

namespace Channel

/-- An empty channel with room for `capacity` events. -/
def ofCapacity (capacity : Nat) : Channel :=
  ⟨capacity, [], 0, false, false⟩

/-- Would an event be buffered now? -/
def accepts (c : Channel) : Bool := !c.receiverGone && c.buffer.length < c.capacity

/-- Sends an event, or counts it as dropped. -/
def emit (c : Channel) (e : Event) : Channel :=
  if c.accepts then { c with buffer := c.buffer ++ [e] }
  else { c with dropped := c.dropped + 1 }

/-- Receives the next event. -/
def receive (c : Channel) : Channel × Receive :=
  match c.buffer with
  | e :: rest => ({ c with buffer := rest }, .event e)
  | [] => (c, if c.senderGone then .ended else .wait)

/-- Receives everything that is buffered. -/
def drain (c : Channel) : Channel × List Event :=
  ({ c with buffer := [] }, c.buffer)

/-- Gives up the sending half. -/
def dropSender (c : Channel) : Channel := { c with senderGone := true }

/-- Gives up the receiving half, and what it could still have received. -/
def dropReceiver (c : Channel) : Channel := { c with receiverGone := true, buffer := [] }

end Channel

end CoopSched
