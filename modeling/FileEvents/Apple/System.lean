import FileEvents.Apple.Server
import FileEvents.Transition.Machine

/-!
# The macOS server at work

Three threads: a client, the serial dispatch queue and the run loop. Every watch point has
a stream, which passes events to `handleEventsCallback` on the dispatch queue as long as the
watch point exists; a callback that was dispatched runs even if its stream is stopped
meanwhile. `handleEvents` puts the events in `eventQueue` one by one, and the run loop takes
them out and reports them.

A step is

* one `registerPath` or one `unregisterPath` of a list, or the end of the list,
* one of the four steps of `shutdown()`,
* a stream that dispatches events, or one event that a callback puts in `eventQueue`, or
* one step of the run loop.

The client uses the watcher from one thread at a time and does not register or unregister
paths once it has called `shutdown()`.

## Main definitions

* `State`, `machine` — the server and its three threads
* `Steps` — the steps by name
-/

namespace FileEvents

open Transition

namespace Apple

/-- Where the run-loop thread is. -/
inductive Pc
  /-- About to take an item from `eventQueue`. -/
  | dequeuing
  /-- In `handleEvent`. -/
  | handling (event : FileEvent)
  /-- `runLoop` has returned. -/
  | returned
  /-- `runLoop` has thrown. -/
  | thrown (ex : CppException)
  deriving DecidableEq

/-- Where the client is in `shutdown()`. -/
inductive ShutdownPc
  /-- `shutdown()` was not called. -/
  | idle
  /-- `watchPoints` are cleared. -/
  | cleared
  /-- The dispatch queue was empty after that. -/
  | synced
  /-- The `PoisonPill` is in `eventQueue`. -/
  | poisoned
  /-- `shutdown()` has returned. -/
  | returned
  deriving DecidableEq, Repr

/-- A server at work. -/
structure State where
  /-- The paths of `watchPoints`, each with a running stream. -/
  watchPoints : List U16String
  /-- The paths that the `unregisterPaths` in progress has removed. -/
  unregistering : List U16String
  shutdown : ShutdownPc
  /-- The callbacks on the dispatch queue, with the events they have not put in `eventQueue`
  yet. -/
  dispatchQueue : List (List FileEvent)
  eventQueue : List QueueItem
  pc : Pc
  /-- The paths that `unregisterPaths` has returned for since they, or directories they are
  inside of, were watched. -/
  unwatched : List U16String
  /-- What was reported for paths inside unwatched ones. -/
  stray : List (U16String × Report)
  /-- What was reported after `shutdown()` has returned. -/
  late : List Report

/-- What can happen next. -/
inductive Label
  /-- A `registerPath` of `registerPaths`, with the result of the constructor of its watch
  point. -/
  | registerPath (path : U16String) (created : Except CppException Unit)
  /-- An `unregisterPath` of `unregisterPaths`. -/
  | unregisterPath (path : U16String)
  | unregisterPathsReturns
  | clear
  /-- `dispatch_sync_f`. -/
  | dispatchSync
  | enqueuePoisonPill
  | shutdownReturns
  /-- The stream of a watch point dispatches a callback. -/
  | dispatch (path : U16String) (events : List FileEvent)
  /-- The first callback on the dispatch queue puts its next event in `eventQueue`. -/
  | enqueue
  /-- Doing so throws. -/
  | enqueueThrows (what : String)
  | dequeue
  | handleEvent
  deriving DecidableEq

namespace State

/-- Reports an event for a path. -/
def report (s : State) (path : U16String) (report : Report) : State :=
  { s with
    stray :=
      if ∃ unwatched ∈ s.unwatched, Inside unwatched path then s.stray ++ [(path, report)]
      else s.stray
    late := if s.shutdown = .returned then s.late ++ [report] else s.late }

/-- The path of an event whose handling does not throw. -/
def pathOf (event : FileEvent) : U16String := (utf8ToUtf16String event.eventPath).getD []

/-- The run loop takes an item from `eventQueue`. -/
def take (s : State) (eventQueue : List QueueItem) : QueueItem → State
  | .fileEvent event => { s with eventQueue, pc := .handling event }
  -- A failure is reported, which is not an event.
  | .errorEvent _ => { s with eventQueue }
  | .poisonPill => { s with eventQueue, pc := .returned }

/-- What becomes of the event that the run loop handles. -/
def finish (s : State) (event : FileEvent) : State :=
  match Apple.handleEvent event with
  | .ok none => { s with pc := .dequeuing }
  | .ok (some report) => { s with pc := .dequeuing }.report (pathOf event) report
  | .error ex => { s with pc := .thrown ex }

/-- The step function. -/
def next (s : State) : Label → Option State
  | .registerPath path created =>
    if s.shutdown = .idle ∧ s.unregistering = [] then
      if path ∈ s.watchPoints ∨ created.isOk = false then some s
      else some
        { s with
          watchPoints := path :: s.watchPoints
          unwatched := s.unwatched.filter fun unwatched => ¬ Inside path unwatched }
    else none
  | .unregisterPath path =>
    if s.shutdown = .idle then some
      { s with
        watchPoints := s.watchPoints.filter fun other => other ≠ path
        unregistering := path :: s.unregistering }
    else none
  | .unregisterPathsReturns => some
      { s with
        unregistering := []
        unwatched := (s.unregistering.filter fun path =>
          ∀ other ∈ s.watchPoints, ¬ Inside other path) ++ s.unwatched }
  | .clear =>
    if s.shutdown = .idle ∧ s.unregistering = [] then
      some { s with watchPoints := [], shutdown := .cleared }
    else none
  | .dispatchSync =>
    if s.shutdown = .cleared ∧ s.dispatchQueue = [] then some { s with shutdown := .synced }
    else none
  | .enqueuePoisonPill =>
    if s.shutdown = .synced then some
      { s with eventQueue := s.eventQueue ++ [.poisonPill], shutdown := .poisoned }
    else none
  | .shutdownReturns =>
    if s.shutdown = .poisoned then some { s with shutdown := .returned } else none
  | .dispatch path events =>
    -- A stream passes on what happens inside the directory it watches.
    if path ∈ s.watchPoints ∧ ∀ event ∈ events, ∀ eventPath ∈
        utf8ToUtf16String event.eventPath, Inside path eventPath then
      some { s with dispatchQueue := s.dispatchQueue ++ [events] }
    else none
  | .enqueue =>
    match s.dispatchQueue with
    | [] => none
    | [] :: dispatchQueue => some { s with dispatchQueue }
    | (event :: events) :: dispatchQueue => some
        { s with
          dispatchQueue := events :: dispatchQueue
          eventQueue := s.eventQueue ++ [.fileEvent event] }
  | .enqueueThrows what =>
    match s.dispatchQueue with
    | [] => none
    | _ :: dispatchQueue => some
        { s with dispatchQueue, eventQueue := s.eventQueue ++ [.errorEvent what] }
  | .dequeue =>
    match s.pc, s.eventQueue with
    | .dequeuing, item :: eventQueue => some (s.take eventQueue item)
    | _, _ => none
  | .handleEvent =>
    match s.pc with
    | .handling event => some (s.finish event)
    | _ => none

end State

/-- A server whose run loop was just started. -/
def machine : Machine State Label where
  start :=
    { watchPoints := []
      unregistering := []
      shutdown := .idle
      dispatchQueue := []
      eventQueue := []
      pc := .dequeuing
      unwatched := []
      stray := []
      late := [] }
  next := State.next

/-- The steps of the three threads that do something. -/
inductive Steps (s : State) : Label → State → Prop
  | refuse {path : U16String} {created : Except CppException Unit} :
      Steps s (.registerPath path created) s
  | registerPath {path : U16String} {created : Except CppException Unit}
      (idle : s.shutdown = .idle) (new : path ∉ s.watchPoints) (made : created.isOk = true) :
      Steps s (.registerPath path created)
        { s with
          watchPoints := path :: s.watchPoints
          unwatched := s.unwatched.filter fun unwatched => ¬ Inside path unwatched }
  | unregisterPath {path : U16String} (idle : s.shutdown = .idle) :
      Steps s (.unregisterPath path)
        { s with
          watchPoints := s.watchPoints.filter fun other => other ≠ path
          unregistering := path :: s.unregistering }
  | unregisterPathsReturns :
      Steps s .unregisterPathsReturns
        { s with
          unregistering := []
          unwatched := (s.unregistering.filter fun path =>
            ∀ other ∈ s.watchPoints, ¬ Inside other path) ++ s.unwatched }
  | clear (idle : s.shutdown = .idle) :
      Steps s .clear { s with watchPoints := [], shutdown := .cleared }
  | dispatchSync (cleared : s.shutdown = .cleared) (empty : s.dispatchQueue = []) :
      Steps s .dispatchSync { s with shutdown := .synced }
  | enqueuePoisonPill (synced : s.shutdown = .synced) :
      Steps s .enqueuePoisonPill
        { s with eventQueue := s.eventQueue ++ [.poisonPill], shutdown := .poisoned }
  | shutdownReturns (poisoned : s.shutdown = .poisoned) :
      Steps s .shutdownReturns { s with shutdown := .returned }
  | dispatch {path : U16String} {events : List FileEvent} (watched : path ∈ s.watchPoints)
      (inside : ∀ event ∈ events, ∀ eventPath ∈ utf8ToUtf16String event.eventPath,
        Inside path eventPath) :
      Steps s (.dispatch path events) { s with dispatchQueue := s.dispatchQueue ++ [events] }
  | callbackReturns {dispatchQueue : List (List FileEvent)}
      (waiting : s.dispatchQueue = [] :: dispatchQueue) :
      Steps s .enqueue { s with dispatchQueue }
  | enqueue {event : FileEvent} {events : List FileEvent}
      {dispatchQueue : List (List FileEvent)}
      (waiting : s.dispatchQueue = (event :: events) :: dispatchQueue) :
      Steps s .enqueue
        { s with
          dispatchQueue := events :: dispatchQueue
          eventQueue := s.eventQueue ++ [.fileEvent event] }
  | enqueueThrows {what : String} {events : List FileEvent}
      {dispatchQueue : List (List FileEvent)}
      (waiting : s.dispatchQueue = events :: dispatchQueue) :
      Steps s (.enqueueThrows what)
        { s with dispatchQueue, eventQueue := s.eventQueue ++ [.errorEvent what] }
  | dequeue {item : QueueItem} {eventQueue : List QueueItem} (pc : s.pc = .dequeuing)
      (waiting : s.eventQueue = item :: eventQueue) :
      Steps s .dequeue (s.take eventQueue item)
  | handleEvent {event : FileEvent} (pc : s.pc = .handling event) :
      Steps s .handleEvent (s.finish event)

/-- There are no other steps. -/
theorem steps_of_next {s t : State} {label : Label} (step : machine.next s label = some t) :
    Steps s label t := by
  cases label with
  | registerPath path created =>
    simp only [machine, State.next] at step
    split_ifs at step with enabled refused
    · -- The path is registered already, or the stream cannot be created.
      exact Option.some_inj.mp step ▸ .refuse
    · obtain ⟨new, made⟩ := not_or.mp refused
      exact Option.some_inj.mp step ▸ .registerPath enabled.1 new (Bool.not_eq_false _ ▸ made)
  | unregisterPath path =>
    simp only [machine, State.next] at step
    split_ifs at step with idle
    exact Option.some_inj.mp step ▸ .unregisterPath idle
  | unregisterPathsReturns => exact Option.some_inj.mp step ▸ .unregisterPathsReturns
  | clear =>
    simp only [machine, State.next] at step
    split_ifs at step with enabled
    exact Option.some_inj.mp step ▸ .clear enabled.1
  | dispatchSync =>
    simp only [machine, State.next] at step
    split_ifs at step with enabled
    exact Option.some_inj.mp step ▸ .dispatchSync enabled.1 enabled.2
  | enqueuePoisonPill =>
    simp only [machine, State.next] at step
    split_ifs at step with synced
    exact Option.some_inj.mp step ▸ .enqueuePoisonPill synced
  | shutdownReturns =>
    simp only [machine, State.next] at step
    split_ifs at step with poisoned
    exact Option.some_inj.mp step ▸ .shutdownReturns poisoned
  | dispatch path events =>
    simp only [machine, State.next] at step
    split_ifs at step with enabled
    exact Option.some_inj.mp step ▸ .dispatch enabled.1 enabled.2
  | enqueue =>
    simp only [machine, State.next] at step
    split at step
    next => cases step
    -- The callback has gone through its events, or puts the next one into the queue.
    next waiting => exact Option.some_inj.mp step ▸ .callbackReturns waiting
    next waiting => exact Option.some_inj.mp step ▸ .enqueue waiting
  | enqueueThrows what =>
    simp only [machine, State.next] at step
    split at step
    next => cases step
    next waiting => exact Option.some_inj.mp step ▸ .enqueueThrows waiting
  | dequeue =>
    simp only [machine, State.next] at step
    split at step
    next pc waiting => exact Option.some_inj.mp step ▸ .dequeue pc waiting
    next => cases step
  | handleEvent =>
    simp only [machine, State.next] at step
    split at step
    next pc => exact Option.some_inj.mp step ▸ .handleEvent pc
    next => cases step

section Finish

variable {s : State} {event : FileEvent}

@[simp] theorem watchPoints_finish : (s.finish event).watchPoints = s.watchPoints := by
  unfold State.finish
  split <;> rfl

@[simp] theorem unwatched_finish : (s.finish event).unwatched = s.unwatched := by
  unfold State.finish
  split <;> rfl

@[simp] theorem dispatchQueue_finish : (s.finish event).dispatchQueue = s.dispatchQueue := by
  unfold State.finish
  split <;> rfl

@[simp] theorem shutdown_finish : (s.finish event).shutdown = s.shutdown := by
  unfold State.finish
  split <;> rfl

end Finish

/-! ## Events on their way -/

/-- The event that the run loop handles. -/
def Pc.event : Pc → List FileEvent
  | .handling event => [event]
  | .dequeuing | .returned | .thrown _ => []

/-- The event that an item carries. -/
def QueueItem.event : QueueItem → Option FileEvent
  | .fileEvent event => some event
  | .errorEvent _ | .poisonPill => none

/-- The events that were dispatched and are not handled yet. -/
def State.pending (s : State) : List FileEvent :=
  s.pc.event ++ s.eventQueue.filterMap QueueItem.event ++ s.dispatchQueue.flatten

section Pending

variable {s t : State} {label : Label}

@[simp] theorem pending_report {path : U16String} {report : Report} :
    (s.report path report).pending = s.pending := rfl

/-- Handling an event, or failing to, takes it off its way. -/
theorem pending_finish {event : FileEvent} (pc : s.pc = .handling event) :
    s.pending = event :: (s.finish event).pending := by
  unfold State.finish
  split <;> simp [State.pending, State.report, Pc.event, pc]

theorem pending_take {item : QueueItem} {eventQueue : List QueueItem} (pc : s.pc = .dequeuing)
    (waiting : s.eventQueue = item :: eventQueue) :
    (s.take eventQueue item).pending = s.pending := by
  cases item <;>
    simp [State.pending, State.take, Pc.event, QueueItem.event, List.filterMap_cons, pc, waiting]

/-- Only a stream that dispatches events brings new ones on their way. -/
theorem mem_pending_of_next (step : machine.next s label = some t) {event : FileEvent}
    (mem : event ∈ t.pending) :
    event ∈ s.pending ∨ ∃ path events, label = .dispatch path events ∧ event ∈ events := by
  cases steps_of_next step with
  | refuse | registerPath | unregisterPath | unregisterPathsReturns | clear | dispatchSync
  | shutdownReturns => exact .inl mem
  | enqueuePoisonPill => exact .inl (by simpa [State.pending, QueueItem.event] using mem)
  | @dispatch path events watched inside =>
    have grown : event ∈ s.pending ∨ event ∈ events := by
      simpa [State.pending, or_assoc] using mem
    exact grown.imp id fun new => ⟨path, events, rfl, new⟩
  | callbackReturns waiting => exact .inl (by simpa [State.pending, waiting] using mem)
  | enqueue waiting =>
    -- The event moves from the callback to the queue.
    exact .inl (by simpa [State.pending, QueueItem.event, waiting] using mem)
  | enqueueThrows waiting =>
    left
    simp only [State.pending, QueueItem.event, waiting, List.filterMap_append, List.flatten_cons,
      List.mem_append, List.filterMap_cons, List.filterMap_nil, List.not_mem_nil, or_false]
      at mem ⊢
    exact mem.imp id .inr
  | dequeue pc waiting => exact .inl (pending_take pc waiting ▸ mem)
  | handleEvent pc => exact .inl (pending_finish pc ▸ List.mem_cons_of_mem _ mem)

end Pending

end Apple

end FileEvents
