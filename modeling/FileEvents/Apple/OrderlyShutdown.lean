import FileEvents.Apple.Unwatched
import FileEvents.Delivery.ClosedStream
import FileEvents.Native.Shutdown

/-!
# The orderly shutdown of the macOS server

`shutdownRunLoop` stops all streams, waits until the dispatch queue has run the callbacks
submitted before, and puts the `PoisonPill` in `eventQueue`. So the pill is the last item,
and the run loop meets it after all events. It does so only if it handles the events before
the pill without an exception: `runLoop` catches none.

The history of a server is kept beside it: what was put in `eventQueue`, and what the run
loop has taken out.

## Main definitions

* `History`, `History.machine` — a server at work with what went through `eventQueue`
* `History.LosesNothing` — what an orderly shutdown promises
* `History.Decodes` — the handled event has a path that is well formed UTF-8

## Main results

* `losesNothing_of_decodes` — where such steps lead, nothing is lost, and the run loop gets
  from the pill to its end by itself
* `stuck_of_not_decodes` — after any other step the run loop takes nothing more
-/

namespace FileEvents

open Delivery Transition

namespace Apple

/-- What a step puts in `eventQueue`. -/
def State.put (s : State) : Label → List QueueItem
  | .enqueue => match s.dispatchQueue with
    | (event :: _) :: _ => [.fileEvent event]
    | [] | [] :: _ => []
  | .enqueueThrows what => [.errorEvent what]
  | .enqueuePoisonPill => [.poisonPill]
  | .registerPath .. | .unregisterPath _ | .unregisterPathsReturns | .clear | .dispatchSync
  | .shutdownReturns | .dispatch .. | .dequeue | .handleEvent => []

/-- What a step takes out of it. -/
def State.taken (s : State) : Label → List QueueItem
  | .dequeue => s.eventQueue.take 1
  | .registerPath .. | .unregisterPath _ | .unregisterPathsReturns | .clear | .dispatchSync
  | .enqueuePoisonPill | .shutdownReturns | .dispatch .. | .enqueue | .enqueueThrows _
  | .handleEvent => []

/-- `runLoop` has returned or thrown. -/
def Pc.Ended (pc : Pc) : Prop := pc = .returned ∨ ∃ ex, pc = .thrown ex

/-- A server at work and what went through its `eventQueue`. -/
structure History where
  state : State
  /-- All items that were put in `eventQueue`, in order. -/
  enqueued : List QueueItem
  /-- All items that the run loop has taken out, in order. -/
  taken : List QueueItem

namespace History

/-- All interleavings of the three threads, with the history of `eventQueue`. -/
def machine : Machine History Label where
  start := { state := Apple.machine.start, enqueued := [], taken := [] }
  next s label := (s.state.next label).map fun state =>
    { state
      enqueued := s.enqueued ++ s.state.put label
      taken := s.taken ++ s.state.taken label }

/-- What a shutdown promises. -/
structure LosesNothing (s : History) : Prop where
  /-- The `PoisonPill` is the last item ever put in `eventQueue`. -/
  last : ClosesAtEnd (fun item => item = .poisonPill) s.enqueued
  /-- No callback runs any more once the pill is in `eventQueue`. -/
  quiet : .poisonPill ∈ s.enqueued → s.state.dispatchQueue = []
  /-- The run loop takes the items in the order they were put in, each once. -/
  inOrder : s.taken ++ s.state.eventQueue = s.enqueued
  /-- The run loop ends with nothing left. -/
  ended : s.state.pc.Ended → s.state.eventQueue = [] ∧ s.taken = s.enqueued

/-- The path of the event that the run loop handles is well formed UTF-8. -/
def Decodes (s : History) : Label → Prop
  | .handleEvent => ∀ event ∈ s.state.pc.event, (utf8ToUtf16String event.eventPath).isSome = true
  | _ => True

instance (s : History) : DecidablePred (Decodes s) := fun label =>
  match label with
  | .handleEvent => inferInstanceAs (Decidable
      (∀ event ∈ s.state.pc.event, (utf8ToUtf16String event.eventPath).isSome = true))
  | .registerPath .. | .unregisterPath _ | .unregisterPathsReturns | .clear | .dispatchSync
  | .enqueuePoisonPill | .shutdownReturns | .dispatch .. | .enqueue | .enqueueThrows _
  | .dequeue => instDecidableTrue

section Invariant

variable {s t : History} {label : Label} {event : FileEvent}

/-- `handleEvent` throws only where the path does not decode. -/
theorem isOk_handleEvent_iff :
    (handleEvent event).isOk = true ↔ (utf8ToUtf16String event.eventPath).isSome = true := by
  unfold handleEvent
  cases utf8ToUtf16String event.eventPath with
  | none => exact iff_of_false (by simp [Except.isOk, Except.toBool]) (by simp)
  | some path =>
    refine iff_of_true ?_ rfl
    dsimp only
    split_ifs
    · rfl
    · rfl
    · split <;> rfl

theorem next_spec (step : machine.next s label = some t) :
    Apple.machine.next s.state label = some t.state ∧
      t.enqueued = s.enqueued ++ s.state.put label ∧
      t.taken = s.taken ++ s.state.taken label := by
  obtain ⟨state, inner, rfl⟩ := Option.map_eq_some_iff.mp step
  exact ⟨inner, rfl, rfl⟩

/-- The server is at work as before. -/
theorem reachable_state (reach : machine.Reachable s) : Apple.machine.Reachable s.state := by
  refine Machine.ReachableWhere.map History.state reach rfl fun s label t _ step => .inr ?_
  exact ⟨label, trivial, (next_spec step).1⟩

end Invariant

end History

/-! ## What one step does to `eventQueue` -/

section Steps

variable {s t : State} {label : Label}

/-- The items go through `eventQueue` in order. -/
theorem eventQueue_next (step : Apple.machine.next s label = some t) :
    s.taken label ++ t.eventQueue = s.eventQueue ++ s.put label := by
  cases steps_of_next step with
  | refuse | registerPath | unregisterPath | unregisterPathsReturns | clear | dispatchSync
  | shutdownReturns | dispatch => simp [State.taken, State.put]
  | enqueuePoisonPill | enqueueThrows => simp [State.taken, State.put]
  | callbackReturns waiting | enqueue waiting => simp [State.taken, State.put, waiting]
  | @dequeue item eventQueue pc waiting =>
    cases item <;> simp [State.taken, State.put, State.take, waiting]
  | @handleEvent event =>
    have same : (s.finish event).eventQueue = s.eventQueue := by
      unfold State.finish
      split <;> rfl
    simp [State.taken, State.put, same]

/-- The run loop returns when it takes out the `PoisonPill`. -/
theorem returned_next (step : Apple.machine.next s label = some t) :
    t.pc = .returned ↔ s.pc = .returned ∨ .poisonPill ∈ s.taken label := by
  cases steps_of_next step with
  | @dequeue item eventQueue pc waiting =>
    cases item <;> simp [State.taken, State.take, pc, waiting]
  | @handleEvent event pc =>
    unfold State.finish
    split <;> simp [State.taken, State.report, pc]
  | _ => simp [State.taken]

/-- The run loop throws only in `handleEvent`. -/
theorem thrown_next {ex : CppException} (step : Apple.machine.next s label = some t)
    (thrown : t.pc = .thrown ex) :
    s.pc = .thrown ex ∨ label = .handleEvent ∧ ∃ event, s.pc = .handling event ∧
      (handleEvent event).isOk = false := by
  cases steps_of_next step with
  | @dequeue item eventQueue pc waiting =>
    cases item
    · cases thrown
    · exact .inl thrown
    · cases thrown
  | @handleEvent event pc =>
    refine .inr ⟨rfl, event, pc, ?_⟩
    by_contra passes
    rw [(pc_finish (Bool.not_eq_false _ ▸ passes)).1] at thrown
    cases thrown
  | _ => exact .inl thrown

/-- Where `handleEvent` throws, the run loop does. -/
theorem thrown_of_throws (throws : ∀ event ∈ s.pc.event, (handleEvent event).isOk = false)
    (step : Apple.machine.next s .handleEvent = some t) : ∃ ex, t.pc = .thrown ex := by
  cases steps_of_next step with
  | @handleEvent event pc =>
    have here := throws event (by simp [Pc.event, pc])
    cases handled : handleEvent event with
    | ok report => simp [handled, Except.isOk, Except.toBool] at here
    | error ex => exact ⟨ex, by simp [State.finish, handled]⟩

/-- Then it takes nothing more. -/
theorem taken_of_thrown {ex : CppException} (thrown : s.pc = .thrown ex)
    (step : Apple.machine.next s label = some t) :
    t.pc = .thrown ex ∧ s.taken label = [] := by
  cases steps_of_next step with
  | dequeue pc | handleEvent pc => simp [thrown] at pc
  | _ => exact ⟨thrown, rfl⟩

/-- `shutdownRunLoop` puts the `PoisonPill` in, and nothing else does. -/
theorem mem_put_iff (step : Apple.machine.next s label = some t) :
    .poisonPill ∈ s.put label ↔ label = .enqueuePoisonPill := by
  cases steps_of_next step with
  | callbackReturns waiting | enqueue waiting => simp [State.put, waiting]
  | _ => simp [State.put]

/-- The `PoisonPill` is in `eventQueue` from then on. -/
theorem poisoned_next (step : Apple.machine.next s label = some t) :
    (t.shutdown = .poisoned ∨ t.shutdown = .returned) ↔
      (s.shutdown = .poisoned ∨ s.shutdown = .returned) ∨ label = .enqueuePoisonPill := by
  cases steps_of_next step with
  | clear before | dispatchSync before | enqueuePoisonPill before | shutdownReturns before =>
    simp [before]
  | @dequeue item => cases item <;> simp [State.take]
  | _ => simp

/-- Nothing is put behind the `PoisonPill`. -/
theorem put_of_poisoned (closing : Closing s)
    (poisoned : s.shutdown = .poisoned ∨ s.shutdown = .returned)
    (step : Apple.machine.next s label = some t) : s.put label = [] := by
  have empty : s.dispatchQueue = [] :=
    closing.synced (by rcases poisoned with h | h <;> simp [h])
      (by rcases poisoned with h | h <;> simp [h])
  cases steps_of_next step with
  | enqueuePoisonPill synced => simp [synced] at poisoned
  | callbackReturns waiting | enqueue waiting | enqueueThrows waiting => simp [empty] at waiting
  | _ => rfl

/-- A step puts in one item at most. -/
theorem closesAtEnd_put {closes : QueueItem → Prop} : ClosesAtEnd closes (s.put label) := by
  unfold State.put
  split
  next => split <;> simp [ClosesAtEnd, Open]
  all_goals simp [ClosesAtEnd, Open]

end Steps

namespace History

section Invariant

variable {s t : History} {label : Label} {event : FileEvent}

/-- The invariant of the runs whose handled events decode. -/
structure Invariant (s : History) : Prop where
  poisoned : .poisonPill ∈ s.enqueued ↔
    s.state.shutdown = .poisoned ∨ s.state.shutdown = .returned
  last : ClosesAtEnd (fun item => item = .poisonPill) s.enqueued
  inOrder : s.taken ++ s.state.eventQueue = s.enqueued
  returned : s.state.pc = .returned ↔ .poisonPill ∈ s.taken
  runs : ∀ ex, s.state.pc ≠ .thrown ex

/-- A step that does not meet the condition handles an event, and `handleEvent` throws. -/
theorem handles_of_not_decodes (fails : ¬ Decodes s label) :
    label = .handleEvent ∧ ∀ event ∈ s.state.pc.event, (handleEvent event).isOk = false := by
  cases label with
  | handleEvent =>
    refine ⟨rfl, fun event inHand => ?_⟩
    by_contra passes
    refine fails fun other inHand' => ?_
    have same : other = event := by
      cases pc : s.state.pc with
      | handling held => simp_all [Pc.event]
      | _ => simp [Pc.event, pc] at inHand
    exact same ▸ isOk_handleEvent_iff.mp (Bool.not_eq_false _ ▸ passes)
  | _ => exact absurd trivial fails

theorem Invariant.next (invariant : Invariant s) (closing : Closing s.state)
    (decodes : Decodes s label) (step : machine.next s label = some t) : Invariant t := by
  obtain ⟨inner, enqueued, taken⟩ := next_spec step
  refine ⟨?_, ?_, ?_, ?_, ?_⟩
  · rw [enqueued, List.mem_append, invariant.poisoned, mem_put_iff inner, poisoned_next inner]
  · rw [enqueued]
    by_cases poisoned : s.state.shutdown = .poisoned ∨ s.state.shutdown = .returned
    · rw [put_of_poisoned closing poisoned inner, List.append_nil]
      exact invariant.last
    · have none : Open (fun item => item = .poisonPill) s.enqueued := by
        rintro item mem rfl
        exact poisoned (invariant.poisoned.mp mem)
      exact none.append closesAtEnd_put
  · rw [enqueued, taken, List.append_assoc, eventQueue_next inner, ← List.append_assoc,
      invariant.inOrder]
  · rw [taken, List.mem_append, returned_next inner, invariant.returned]
  · intro ex thrown
    rcases thrown_next inner thrown with before | ⟨rfl, event, pc, fails⟩
    · exact invariant.runs ex before
    · have inHand : event ∈ s.state.pc.event := by simp [Pc.event, pc]
      have passes := isOk_handleEvent_iff.mpr (decodes event inHand)
      rw [fails] at passes
      cases passes

theorem invariant (reach : machine.ReachableWhere Decodes s) : Invariant s := by
  refine reach.invariant_of (J := fun s => Closing s.state) ?_ ?_ ?_
  · exact fun s reach => closing (reachable_state reach.reachable)
  · constructor <;> simp [machine, Apple.machine]
  · exact fun s label t closing invariant decodes => invariant.next closing decodes

/-- With the invariant nothing is lost. -/
theorem Invariant.losesNothing (invariant : Invariant s) (closing : Closing s.state) :
    LosesNothing s := by
  refine ⟨invariant.last, fun poisoned => ?_, invariant.inOrder, fun ended => ?_⟩
  · rcases invariant.poisoned.mp poisoned with h | h
    · exact closing.synced (by simp [h]) (by simp [h])
    · exact closing.synced (by simp [h]) (by simp [h])
  · rcases ended with returned | ⟨ex, thrown⟩
    · -- The pill was taken out, and nothing is behind it.
      have whole := invariant.last
      rw [← invariant.inOrder] at whole
      have empty := whole.eq_nil_of_append (invariant.returned.mp returned) rfl
      have all := invariant.inOrder
      rw [empty, List.append_nil] at all
      exact ⟨empty, all⟩
    · exact absurd thrown (invariant.runs ex)

end Invariant

end History

/-! ## The run loop gets to its end -/

/-- The steps of the run loop. -/
def Label.OfRunLoop (label : Label) : Prop := label = .dequeue ∨ label = .handleEvent

instance : DecidablePred Label.OfRunLoop := fun label =>
  inferInstanceAs (Decidable (label = .dequeue ∨ label = .handleEvent))

/-- How many steps the run loop has before it at most: two for every item. -/
def State.rank (s : State) : ℕ := s.pc.event.length + 2 * s.eventQueue.length

section Rank

variable {s t : State} {label : Label}

/-- With the `PoisonPill` in `eventQueue` the run loop has one step less before it with each
that it takes. -/
theorem rank_next (closing : Closing s)
    (poisoned : s.shutdown = .poisoned ∨ s.shutdown = .returned)
    (step : Apple.machine.next s label = some t) :
    t.rank + (if label.OfRunLoop then 1 else 0) ≤ s.rank := by
  have nothing := put_of_poisoned closing poisoned step
  cases steps_of_next step with
  | enqueuePoisonPill synced => simp [synced] at poisoned
  | enqueue waiting => simp [State.put, waiting] at nothing
  | enqueueThrows waiting => simp [State.put] at nothing
  | @dequeue item eventQueue pc waiting =>
    cases item with
    | fileEvent | errorEvent | poisonPill =>
      simp only [State.rank, State.take, Label.OfRunLoop, Pc.event, pc, waiting,
        List.length_cons, List.length_nil, reduceCtorEq, or_false, if_true]
      omega
  | @handleEvent event pc =>
    have less : (s.finish event).rank + 1 = s.rank := by
      unfold State.finish
      split <;> simp [State.rank, State.report, Pc.event, pc, Nat.add_comm]
    simp [Label.OfRunLoop, less]
  | _ => simp [State.rank, Label.OfRunLoop]

end Rank

namespace History

section Exits

variable {s t : History} {label : Label} {labels : List Label} {event : FileEvent}

/-- A run loop that has not returned can go on: the `PoisonPill` is still waiting. -/
theorem Invariant.goesOn (invariant : Invariant s) (poisoned : .poisonPill ∈ s.enqueued) :
    s.state.pc = .returned ∨ ∃ label : Label, label.OfRunLoop ∧
      (machine.next s label).isSome = true := by
  cases pc : s.state.pc with
  | returned => exact .inl rfl
  | thrown ex => exact absurd pc (invariant.runs ex)
  | handling event =>
    exact .inr ⟨.handleEvent, .inr rfl, by simp [machine, State.next, pc]⟩
  | dequeuing =>
    have untaken : .poisonPill ∉ s.taken := by
      rw [← invariant.returned, pc]
      simp
    rw [← invariant.inOrder] at poisoned
    have waits := (List.mem_append.mp poisoned).resolve_left untaken
    cases waiting : s.state.eventQueue with
    | nil => simp [waiting] at waits
    | cons item eventQueue =>
      exact .inr ⟨.dequeue, .inl rfl, by simp [machine, State.next, pc, waiting]⟩

/-- Once the `PoisonPill` is in `eventQueue`, the run loop takes no more steps than it had
before it, and it can take one until it has returned. -/
theorem exits_of_run (reach : machine.ReachableWhere Decodes s)
    (poisoned : .poisonPill ∈ s.enqueued) (run : Machine.Run machine Decodes s labels t) :
    labels.countP (fun label => label.OfRunLoop) + t.state.rank ≤ s.state.rank ∧
      (t.state.pc = .returned ∨ ∃ label : Label, label.OfRunLoop ∧
        (machine.next t label).isSome = true) := by
  induction run with
  | nil s => exact ⟨by simp, (invariant reach).goesOn poisoned⟩
  | @cons s u t label labels decodes step rest ih =>
    obtain ⟨inner, enqueued, -⟩ := next_spec step
    have first := rank_next (closing (reachable_state reach.reachable))
      ((invariant reach).poisoned.mp poisoned) inner
    obtain ⟨more, goesOn⟩ := ih (reach.snoc decodes step)
      (enqueued ▸ List.mem_append_left _ poisoned)
    refine ⟨?_, goesOn⟩
    rw [List.countP_cons]
    by_cases own : label.OfRunLoop
    · simp only [own, if_true, decide_true] at first ⊢
      omega
    · simp only [own, if_false, decide_false, Bool.false_eq_true] at first ⊢
      omega

/-- As long as the handled events have paths that are well formed UTF-8, an orderly shutdown
loses nothing: the `PoisonPill` is the last item, and once it is in `eventQueue`, the run loop
ends after at most two steps for every item and one for the event in its hand, having taken
out every item in order. -/
theorem losesNothing_of_decodes (s : History) (reach : machine.ReachableWhere Decodes s) :
    LosesNothing s ∧ (.poisonPill ∈ s.enqueued →
      ∀ labels t, Machine.Run machine Decodes s labels t →
        labels.countP (fun label => label.OfRunLoop) ≤ s.state.rank ∧
          (t.state.pc = .returned ∨ ∃ label : Label, label.OfRunLoop ∧
            (machine.next t label).isSome = true)) := by
  refine ⟨(invariant reach).losesNothing (closing (reachable_state reach.reachable)), ?_⟩
  intro poisoned labels t run
  obtain ⟨steps, goesOn⟩ := exits_of_run reach poisoned run
  exact ⟨by omega, goesOn⟩

/-- A file is created, its event waits in `eventQueue`, and the server is shut down. -/
def orderlyRun : List Label :=
  [.registerPath (u16 "/a") (.ok ()), .dispatch (u16 "/a") [createdFile], .enqueue, .clear,
    .enqueue, .dispatchSync, .enqueuePoisonPill, .shutdownReturns, .dequeue, .handleEvent,
    .dequeue]

theorem losesNothing_of_decodes_created :
    ∃ s, machine.ReachableWhere Decodes s ∧ s.state.pc = .returned ∧
      s.enqueued = [.fileEvent createdFile, .poisonPill] ∧ LosesNothing s := by
  have computed : (machine.execWhere Decodes machine.start orderlyRun).map
      (fun s => (s.state.pc, s.enqueued)) =
    some (.returned, [.fileEvent createdFile, .poisonPill]) := by decide
  obtain ⟨s, reach, observed⟩ := Machine.observe_of_execWhere computed
  obtain ⟨pc, enqueued⟩ := Prod.mk.inj observed
  exact ⟨s, reach, pc, enqueued, (losesNothing_of_decodes s reach).1⟩

/-! ## What does not decode ends the run loop -/

/-- After a step that does not meet the condition the run loop takes nothing more. -/
theorem stuck_of_not_decodes (fails : ¬ Decodes s label) (step : machine.next s label = some t)
    {u : History} (run : Machine.Run machine (fun _ _ => True) t labels u) :
    u.taken = s.taken := by
  obtain ⟨inner, -, taken⟩ := next_spec step
  obtain ⟨rfl, throws⟩ := handles_of_not_decodes fails
  obtain ⟨ex, thrown⟩ := thrown_of_throws throws inner
  refine (run.invariant (I := fun u => u.state.pc = .thrown ex ∧ u.taken = s.taken) ?_
    ⟨thrown, by simpa [State.taken] using taken⟩).2
  rintro u label v ⟨thrown, taken⟩ - step
  obtain ⟨inner, -, more⟩ := next_spec step
  obtain ⟨still, nothing⟩ := taken_of_thrown thrown inner
  exact ⟨still, by rw [more, nothing, List.append_nil, taken]⟩

/-- An event whose path is not well formed UTF-8. -/
def undecodable : FileEvent where
  eventPath := [0xFF]
  eventFlags := kFSEventStreamEventFlagItemCreated

/-- The event is ahead of another one. -/
def undecodableRun : List Label :=
  [.registerPath (u16 "/a") (.ok ()), .dispatch (u16 "/a") [undecodable, createdFile], .clear,
    .enqueue, .enqueue, .enqueue, .dispatchSync, .enqueuePoisonPill, .dequeue, .handleEvent]

/-- The run loop may end with items left in `eventQueue`. -/
theorem not_forall_losesNothing : ¬ ∀ s, machine.Reachable s → LosesNothing s := by
  intro always
  have computed : (machine.exec machine.start undecodableRun).map
      (fun s => (s.state.pc, s.state.eventQueue)) =
    some (.thrown fromBytesError, [.fileEvent createdFile, .poisonPill]) := by decide
  obtain ⟨s, reach, observed⟩ := Machine.observe_of_exec computed
  obtain ⟨pc, eventQueue⟩ := Prod.mk.inj observed
  have ended := (always s reach).ended (.inr ⟨_, pc⟩)
  rw [eventQueue] at ended
  cases ended.1

end Exits

end History

end Apple

end FileEvents
