import CoopSched.Proofs.Observer.Buffer
import CoopSched.Proofs.Observer.Onto
import CoopSched.Proofs.Scheduler.Orderly

/-!
# Watching — who looks on changes nothing, and misses only what is counted

A scheduler may have an event channel, of any capacity, and whoever holds the receiving half may
read from it, empty it or drop it whenever he likes. What the scheduler does is the same as if there
were no channel (`unseen_watch`), and so is what comes back from every move (`answers_watch`): what
a scheduler writes can be put onto any channel.

What the channel itself goes through is the events of the journal, in turn, with the looks of its
receiver between them (`watch_acts`). So the law of channels says what he gets.
-/

namespace CoopSched
namespace Scheduler

variable {V B : Type} {s : Scheduler V B} {m : Move V B} {past : Array (Record V)}
  {sink : Option Channel}

/-! ## What comes back -/

/-- What comes back from a move. -/
inductive Answer (V B : Type) where
  | nothing
  | strand (r : Except Refusal StrandId)
  | bridge (r : Except Refusal BridgeId)
  | unit (r : Except Refusal Unit)
  | flag (b : Bool)
  | invoked (r : Invoked)
  | job (j : JobId)
  | index (i : Option Nat)
  | timer (t : Option TimerId)
  | outcome (r : Option (Outcome V))
  | segment (seg : Option (Segment V B))
  | strands (ids : List StrandId)

/-- What comes back from a move that is made now. The events that are read are another matter. -/
def answer (s : Scheduler V B) : Move V B → Answer V B
  | .spawn body name => .strand (s.spawnExternal body name).2
  | .park id => .bridge (s.park id).2
  | .complete b r => .unit (s.complete b r).2
  | .tryComplete b r => .flag (s.tryComplete b r).2
  | .deliver b payload => .unit (s.deliver b payload).2
  | .invoke inputs callable concurrency callback =>
      .invoked (s.invoke inputs callable concurrency callback).2
  | .createJob length callback => .job (s.createJob length callback).2
  | .submit j index r => .unit (s.submit j index r).2
  | .claim j => .index (s.claim j).2
  | .armTimer b d now => .timer ((s.armTimer b d now).map (·.2))
  | .join id => .outcome ((s.join id).map (·.2))
  | .spawnDetached _ body => .strand (s.spawnDetached body).2
  | .spawnChild id body => .strand (s.spawnChild id body).2
  | .invokeParked id inputs callable concurrency =>
      .invoked (s.invokeParked id inputs callable concurrency).2
  | .dispatch => .segment s.dispatch.2
  | .beginShutdown mode => .flag (s.beginShutdown mode).isSome
  | .drain => .strands s.queue.drain.2
  | .cancel id => .flag (s.cancel id s.cleanUpReason).2
  | .disarmTimer _ | .detachTimer _ | .pollTimer _ | .expireTimer _ | .drainChannel
  | .endSegment .. | .closeQueue | .terminate => .nothing

/-- **A move depends on nothing that is written down.** -/
theorem after_onto (hm : m ≠ .drainChannel) :
    (s.onto past sink).after m = (s.after m).onto past sink := by
  cases m with
  | spawn body name => exact congrArg Prod.fst (onto_spawn _)
  | park id => exact congrArg Prod.fst (onto_park id)
  | complete b r => exact congrArg Prod.fst (onto_complete b r)
  | tryComplete b r => exact congrArg Prod.fst (onto_tryComplete b r)
  | deliver b payload => exact congrArg Prod.fst (onto_deliver b payload)
  | invoke inputs callable concurrency callback =>
    exact congrArg Prod.fst (onto_invoke inputs callable concurrency callback)
  | createJob length callback => exact congrArg Prod.fst (onto_addJob length callback none)
  | submit j index r => exact congrArg Prod.fst (onto_submit j index r)
  | claim j => exact congrArg Prod.fst (onto_claim j)
  | armTimer b d now =>
    show (((s.onto past sink).armTimer b d now).map (·.1)).getD _ = _
    rw [onto_armTimer]
    show _ = (((s.armTimer b d now).map (·.1)).getD s).onto past sink
    cases s.armTimer b d now <;> rfl
  | disarmTimer t | detachTimer t => rfl
  | pollTimer t => exact onto_pollTimer t
  | expireTimer t => exact onto_expireTimer t
  | join id =>
    show (((s.onto past sink).join id).map (·.1)).getD _ = _
    rw [onto_join]
    show _ = (((s.join id).map (·.1)).getD s).onto past sink
    cases s.join id <;> rfl
  | drainChannel => exact absurd rfl hm
  | spawnDetached id body => exact congrArg Prod.fst (onto_spawn _)
  | spawnChild id body => exact congrArg Prod.fst (onto_spawnChild id body)
  | invokeParked id inputs callable concurrency =>
    exact congrArg Prod.fst (onto_invokeParked id inputs callable concurrency)
  | dispatch => exact congrArg Prod.fst onto_dispatch
  | endSegment id body step => exact onto_endSegment id body step
  | beginShutdown mode =>
    show ((s.onto past sink).beginShutdown mode).getD _ = _
    rw [onto_beginShutdown]
    show _ = ((s.beginShutdown mode).getD s).onto past sink
    cases s.beginShutdown mode <;> rfl
  | closeQueue | terminate | drain => rfl
  | cancel id => exact congrArg Prod.fst (onto_cancel id _)

theorem answer_onto (m : Move V B) : (s.onto past sink).answer m = s.answer m := by
  cases m with
  | armTimer b d now =>
    simp only [answer, onto_armTimer, Option.map_map]
    rfl
  | join id =>
    simp only [answer, onto_join, Option.map_map]
    rfl
  | beginShutdown mode => simp only [answer, onto_beginShutdown, Option.isSome_map]
  | drain => rfl
  | _ =>
    simp only [answer, spawnExternal, spawnDetached, createJob, onto_spawn, onto_spawnChild,
      onto_park, onto_complete, onto_tryComplete, onto_deliver, onto_invoke, onto_invokeParked,
      onto_addJob, onto_submit, onto_claim, onto_dispatch, onto_cleanUpReason, onto_cancel]

/-! ## Without a channel -/

/-- A scheduler that has written nothing yet, and has no channel. -/
def blank (s : Scheduler V B) : Scheduler V B := { s with journal := #[], channel := none }

/-- All of a scheduler but its channel. -/
def unseen (s : Scheduler V B) : Scheduler V B := { s with channel := none }

theorem onto_blank (past : Array (Record V)) (sink : Option Channel) :
    s.blank.onto past sink = { s with journal := past, channel := sink } := by
  simp [onto, blank, eventsOf, Channel.feed]

theorem eq_onto (s : Scheduler V B) : s = s.blank.onto s.journal s.channel :=
  (onto_blank s.journal s.channel).symm

/-- **A move does the same without a channel.** -/
theorem unseen_after (hm : m ≠ .drainChannel) : (s.after m).unseen = s.unseen.after m := by
  have hunseen : s.unseen = s.blank.onto s.journal none := (onto_blank s.journal none).symm
  calc (s.after m).unseen
    _ = ((s.blank.after m).onto s.journal s.channel).unseen := by
        rw [← after_onto hm, ← eq_onto]
    _ = (s.blank.after m).onto s.journal none := rfl
    _ = s.unseen.after m := by rw [← after_onto hm, hunseen]

/-- And the same comes back from it. -/
theorem answer_unseen (s : Scheduler V B) (m : Move V B) : s.unseen.answer m = s.answer m := by
  have hunseen : s.unseen = s.blank.onto s.journal none := (onto_blank s.journal none).symm
  calc s.unseen.answer m
    _ = s.blank.answer m := by rw [hunseen, answer_onto]
    _ = (s.blank.onto s.journal s.channel).answer m := (answer_onto m).symm
    _ = s.answer m := by rw [← eq_onto]

/-! ## Watched runs -/

/-- What can happen to a scheduler and to the receiver of its channel. -/
inductive Sight (V B : Type) where
  | move (m : Move V B)
  | receive
  /-- The receiver is dropped. -/
  | leave

/-- What happens to the scheduler. -/
def Sight.deed? : Sight V B → Option (Move V B)
  | .move .drainChannel | .receive | .leave => none
  | .move m => some m

/-- What the receiver does. -/
def Sight.look? : Sight V B → Option Channel.Act
  | .move .drainChannel => some .drain
  | .receive => some .receive
  | .leave => some .leave
  | .move _ => none

/-- The scheduler after something has happened. -/
def see (s : Scheduler V B) : Sight V B → Scheduler V B
  | .move m => s.after m
  | .receive => { s with channel := s.channel.map fun c => (c.act .receive).1 }
  | .leave => { s with channel := s.channel.map (·.dropReceiver) }

/-- The events that are read. -/
def reads (s : Scheduler V B) : Sight V B → List Event
  | .move .drainChannel => (s.drainChannel.map (·.2)).getD []
  | .receive => (s.channel.map fun c => (c.act .receive).2).getD []
  | _ => []

/-- The scheduler with a new channel, or with none. -/
def attach (s : Scheduler V B) (capacity : Option Nat) : Scheduler V B :=
  { s with channel := capacity.map Channel.ofCapacity }

/-- The scheduler after all that has happened. -/
def watch (s : Scheduler V B) (sights : List (Sight V B)) : Scheduler V B := sights.foldl see s

/-- What came back from the moves, in turn. -/
def answers (s : Scheduler V B) : List (Sight V B) → List (Answer V B)
  | [] => []
  | sight :: sights => (sight.deed?.map s.answer).toList ++ (s.see sight).answers sights

/-- The events that were read, in turn. -/
def readings (s : Scheduler V B) : List (Sight V B) → List Event
  | [] => []
  | sight :: sights => s.reads sight ++ (s.see sight).readings sights

/-- What the channel goes through: the events that are written down now, and then a look. -/
def told (s : Scheduler V B) (sight : Sight V B) : List Channel.Act :=
  (eventsOf ((s.see sight).journal.toList.drop s.journal.size)).map .emit ++ sight.look?.toList

/-- What the channel has gone through. -/
def acts (s : Scheduler V B) : List (Sight V B) → List Channel.Act
  | [] => []
  | sight :: sights => s.told sight ++ (s.see sight).acts sights

/-- Something happens to the scheduler, or its receiver looks. -/
theorem Sight.cases (sight : Sight V B) :
    (∃ m, m ≠ .drainChannel ∧ sight = .move m ∧ sight.deed? = some m ∧ sight.look? = none ∧
      ∀ s : Scheduler V B, s.reads sight = []) ∨
    ∃ a, sight.deed? = none ∧ sight.look? = some a ∧ a.emitted? = none ∧
      ∀ s : Scheduler V B,
        s.see sight = { s with channel := s.channel.map fun c => (c.act a).1 } ∧
        s.reads sight = (s.channel.map fun c => (c.act a).2).getD [] := by
  cases sight with
  | receive => exact .inr ⟨.receive, rfl, rfl, rfl, fun s => ⟨rfl, rfl⟩⟩
  | leave =>
    refine .inr ⟨.leave, rfl, rfl, rfl, fun s => ⟨rfl, ?_⟩⟩
    cases hchannel : s.channel <;> simp [reads, Channel.act]
  | move m =>
    cases m with
    | drainChannel =>
      refine .inr ⟨.drain, rfl, rfl, rfl, fun s => ?_⟩
      obtain ⟨workers, maxPending, channel⟩ := s
      cases channel <;> exact ⟨rfl, rfl⟩
    | _ => exact .inl ⟨_, by simp, rfl, rfl, rfl, fun _ => rfl⟩

/-! ## Nothing is different -/

/-- The deeds of what happens. -/
def deeds (sights : List (Sight V B)) : List (Move V B) := sights.filterMap Sight.deed?

theorem deeds_deed {sight : Sight V B} {sights : List (Sight V B)} (h : sight.deed? = some m) :
    deeds (sight :: sights) = m :: deeds sights :=
  List.filterMap_cons_some h

theorem deeds_look {sight : Sight V B} {sights : List (Sight V B)} (h : sight.deed? = none) :
    deeds (sight :: sights) = deeds sights :=
  List.filterMap_cons_none h

/-- **Whoever looks on changes nothing.** -/
theorem unseen_watch (s : Scheduler V B) (sights : List (Sight V B)) :
    (s.watch sights).unseen = s.unseen.run (deeds sights) := by
  induction sights generalizing s with
  | nil => rfl
  | cons sight sights ih =>
    show ((s.see sight).watch sights).unseen = _
    rw [ih]
    obtain ⟨m, hm, rfl, hdeed, -⟩ | ⟨a, hdeed, -, -, hsee⟩ := sight.cases
    · rw [deeds_deed hdeed]
      exact congrArg (run · (deeds sights)) (unseen_after hm)
    · rw [deeds_look hdeed, (hsee s).1]
      rfl

/-- And the same comes back from every move. -/
theorem answers_watch (s : Scheduler V B) (sights : List (Sight V B)) :
    s.answers sights = s.unseen.answers ((deeds sights).map .move) := by
  induction sights generalizing s with
  | nil => rfl
  | cons sight sights ih =>
    rw [answers, ih]
    obtain ⟨m, hm, rfl, hdeed, -⟩ | ⟨a, hdeed, -, -, hsee⟩ := sight.cases
    · rw [deeds_deed hdeed, List.map_cons, answers, hdeed]
      show [s.answer m] ++ (s.after m).unseen.answers _ = [s.unseen.answer m] ++ _
      rw [unseen_after hm, answer_unseen]
      rfl
    · rw [deeds_look hdeed, hdeed, (hsee s).1]
      rfl

/-! ## What the channel gets -/

theorem serve_emits (c : Channel) (es : List Event) :
    c.serve (es.map .emit) = (c.feed es, []) := by
  induction es generalizing c with
  | nil => rfl
  | cons e es ih =>
    show (((c.emit e).serve (es.map .emit)).1, [] ++ ((c.emit e).serve (es.map .emit)).2) = _
    rw [ih]
    rfl

theorem emitted_emits (es : List Event) : Channel.emitted (es.map .emit) = es := by
  induction es with
  | nil => rfl
  | cons e es ih => exact congrArg (e :: ·) ih

/-- The channel goes through what it is told, and the receiver reads what comes of that. -/
theorem see_told (s : Scheduler V B) (sight : Sight V B) :
    (s.see sight).channel = (s.channel.map fun c => (c.serve (s.told sight)).1) ∧
      s.reads sight = (s.channel.map fun c => (c.serve (s.told sight)).2).getD [] ∧
      eventsOf (s.see sight).journal.toList =
        eventsOf s.journal.toList ++ Channel.emitted (s.told sight) := by
  obtain ⟨m, hm, rfl, -, hlook, hreads⟩ | ⟨a, -, hlook, hsent, hsee⟩ := sight.cases
  · have hafter : s.see (.move m) = (s.blank.after m).onto s.journal s.channel := by
      rw [← after_onto hm, ← eq_onto]
      rfl
    have hjournal : (s.see (.move m)).journal.toList =
        s.journal.toList ++ (s.blank.after m).journal.toList := by
      rw [hafter]
      exact Array.toList_append
    have htold : s.told (.move m) = (eventsOf (s.blank.after m).journal.toList).map .emit := by
      rw [told, hlook, hjournal, ← Array.length_toList, List.drop_left]
      exact List.append_nil _
    rw [htold, hreads s, hjournal, hafter]
    simp only [serve_emits, emitted_emits, eventsOf, List.filterMap_append]
    refine ⟨rfl, ?_, trivial⟩
    cases s.channel <;> rfl
  · obtain ⟨hs, hreads⟩ := hsee s
    have htold : s.told sight = [a] := by
      rw [told, hlook, hs, ← Array.length_toList, List.drop_length]
      rfl
    rw [htold, hreads, hs]
    refine ⟨rfl, ?_, ?_⟩
    · simp only [Channel.serve, List.append_nil]
    · simp [Channel.emitted, hsent]

theorem watch_acts (s : Scheduler V B) (sights : List (Sight V B)) :
    (s.watch sights).channel = (s.channel.map fun c => (c.serve (s.acts sights)).1) ∧
      s.readings sights = (s.channel.map fun c => (c.serve (s.acts sights)).2).getD [] ∧
      eventsOf (s.watch sights).journal.toList =
        eventsOf s.journal.toList ++ Channel.emitted (s.acts sights) := by
  induction sights generalizing s with
  | nil =>
    refine ⟨?_, ?_, (List.append_nil _).symm⟩
    · exact Option.map_id'.symm
    · cases s.channel <;> rfl
  | cons sight sights ih =>
    obtain ⟨hchannel, hreads, hevents⟩ := s.see_told sight
    obtain ⟨hchannels, hreadings, hjournal⟩ := ih (s.see sight)
    rw [hchannel] at hchannels hreadings
    rw [hevents] at hjournal
    simp only [acts, Channel.serve_append, Channel.emitted_append, ← List.append_assoc]
    refine ⟨?_, ?_, hjournal⟩
    · exact hchannels.trans (Option.map_map _ _ _)
    · rw [readings, hreads, hreadings]
      cases s.channel <;> rfl

/-- Besides the events the channel goes through what its receiver does. -/
theorem acts_looks (s : Scheduler V B) (sights : List (Sight V B)) :
    (s.acts sights).filter (·.emitted?.isNone) = sights.filterMap Sight.look? := by
  induction sights generalizing s with
  | nil => rfl
  | cons sight sights ih =>
    have hemits : ∀ es : List Event,
        (es.map Channel.Act.emit).filter (·.emitted?.isNone) = [] := by
      intro es
      simp [List.filter_eq_nil_iff, Channel.Act.emitted?]
    rw [acts, told, List.filter_append, List.filter_append, hemits, List.nil_append, ih]
    obtain ⟨m, -, -, -, hlook, -⟩ | ⟨a, -, hlook, hsent, -⟩ := sight.cases
    · rw [hlook, List.filterMap_cons_none hlook]
      rfl
    · rw [hlook, List.filterMap_cons_some hlook]
      simp [hsent]

/-! ## The law -/

/-- What can be said of a run that is watched through a channel. -/
structure Watched (s : Scheduler V B) (capacity : Nat) (sights : List (Sight V B)) : Prop where
  /-- The channel has gone through the events that were written down, -/
  emitted : Channel.emitted ((s.attach (some capacity)).acts sights) =
    eventsOf ((s.attach (some capacity)).watch sights).journal.toList
  /-- and, between them, through what its receiver did. -/
  looks : ((s.attach (some capacity)).acts sights).filter (·.emitted?.isNone) =
    sights.filterMap Sight.look?
  /-- It is what that makes of a new channel, -/
  channel : ((s.attach (some capacity)).watch sights).channel =
    some ((Channel.ofCapacity capacity).serve ((s.attach (some capacity)).acts sights)).1
  /-- and the receiver has read what comes of it. -/
  readings : (s.attach (some capacity)).readings sights =
    ((Channel.ofCapacity capacity).serve ((s.attach (some capacity)).acts sights)).2

theorem Initial.watched (hs : Initial s) (capacity : Nat) (sights : List (Sight V B)) :
    Watched s capacity sights := by
  obtain ⟨hchannel, hreadings, hevents⟩ := (s.attach (some capacity)).watch_acts sights
  refine ⟨?_, acts_looks _ sights, hchannel, hreadings⟩
  rw [hevents, show (s.attach (some capacity)).journal = #[] from hs.journal]
  rfl

/-- **Observers disturb nothing, and miss only what is counted.** Two schedulers may differ in their
    channels in any way, if they have one, and the receivers may do what they like, and when they
    like: the same moves bring both into the same state, the journal included, and the same comes
    back from them. The channel itself goes through the events of the journal, and the law of
    channels says what its receiver gets of them, also if he looks in the middle of a move. -/
theorem watched_from_outside (hs : Initial s) :
    (∀ t t' : Scheduler V B, t.unseen = t'.unseen →
      ∀ sights sights', deeds sights = deeds sights' →
        (t.watch sights).unseen = (t'.watch sights').unseen ∧
          t.answers sights = t'.answers sights') ∧
      (∀ capacity (sights : List (Sight V B)), Watched s capacity sights) ∧
      ∀ capacity acts, Channel.Accounts capacity acts := by
  refine ⟨fun t t' hsame sights sights' heq => ⟨?_, ?_⟩, hs.watched, Channel.accounts⟩
  · rw [unseen_watch, heq, hsame]
    exact (unseen_watch t' sights').symm
  · rw [answers_watch, heq, hsame]
    exact (answers_watch t' sights').symm

/-- Three strands come, and the channel has room for one event. The first is read, the second fills
    the buffer and the third is dropped; the next one is kept again, and the last is dropped because
    the receiver has left. Without a channel the scheduler is in the same state, and the worker that
    dispatches has got the same strand. -/
theorem watched_from_outside_full :
    let spawn : Sight Nat Unit := .move (.spawn () none)
    let sights := [spawn, .receive, spawn, spawn, .move .drainChannel, .move .dispatch, .leave,
      spawn]
    let moves := [spawn, spawn, spawn, .move .dispatch, spawn]
    let s : Scheduler Nat Unit := single.attach (some 1)
    Watched single 1 sights ∧ Channel.Accounts 1 (s.acts sights) ∧
      s.readings sights = [⟨⟨1⟩, .created⟩, ⟨⟨2⟩, .created⟩] ∧
      (s.watch sights).channel.map (·.dropped) = some 2 ∧
      (s.watch sights).unseen = ((single.attach none).watch moves).unseen ∧
      s.answers sights = (single.attach none).answers moves := by
  intro spawn sights moves s
  obtain ⟨hsame, hwatched, haccounts⟩ :=
    watched_from_outside (single_initial (V := Nat) (B := Unit))
  have hdeeds : deeds sights = deeds moves := rfl
  refine ⟨hwatched 1 sights, haccounts 1 (s.acts sights), ?_, ?_, ?_⟩
  · decide
  · decide
  · exact hsame s (single.attach none) rfl sights moves hdeeds

end Scheduler
end CoopSched
