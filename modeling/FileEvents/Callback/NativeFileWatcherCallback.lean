import FileEvents.Callback.Events
import FileEvents.Delivery.BoundedQueue
import FileEvents.Delivery.GapLog
import FileEvents.Transition.Machine

/-!
# The callback and the client's event queue

`NativeFileWatcherCallback` of `AbstractFileEventFunctions.java`, run by the single
run-loop thread against a `BlockingQueue` that a consumer empties at the same time.
Each call of `offer` or `clear` on the queue is one atomic step; between any two of
them the consumer may take elements from the head.

The operations still to be done for the report in progress are kept as a list, so
that every method of the source is the list of queue operations it performs. An
`offer` that fails puts the operations of its failing branch in front.

Every queue element carries the number of the report it comes from, and the model
keeps the events reported and consumed so far. The code reads neither.
-/

namespace FileEvents

open Transition Delivery

/-- An event together with the number of the report that queued it. -/
abbrev Stamped := FileWatchEvent × ℕ

namespace NativeFileWatcherCallback

/-- The atomic operations on the event queue. -/
inductive QueueOp
  /-- The `offer` of `queueEvent`, whose failing branch depends on
  `deliverOnOverflow`. -/
  | queueEvent (event : FileWatchEvent) (deliverOnOverflow : Bool)
  /-- The `clear` of `signalOverflow`. -/
  | clear
  /-- The `offer` of `forceQueueEvent`, whose failure is only logged. -/
  | forceQueueEvent (event : FileWatchEvent)
  deriving DecidableEq, Repr

/-- `queueEvent`. -/
def queueEvent (event : FileWatchEvent) (deliverOnOverflow : Bool) : List QueueOp :=
  [.queueEvent event deliverOnOverflow]

/-- `forceQueueEvent`. -/
def forceQueueEvent (event : FileWatchEvent) : List QueueOp :=
  [.forceQueueEvent event]

/-- `signalOverflow`. -/
def signalOverflow (type : OverflowType) (path : Option U16String) : List QueueOp :=
  .clear :: forceQueueEvent (.overflowEvent type path)

/-- What `queueEvent` does once its `offer` has failed. -/
def queueEventFull (event : FileWatchEvent) (deliverOnOverflow : Bool) : List QueueOp :=
  signalOverflow .eventQueue none ++
    if deliverOnOverflow then forceQueueEvent event else []

/-- A report: the event it makes and the queue operations it consists of. -/
abbrev Operations := FileWatchEvent × List QueueOp

/-- `reportChangeEvent`, `none` where `ChangeType.values()[typeIndex]` throws. -/
def reportChangeEvent (typeIndex : ℕ) (path : U16String) : Option Operations :=
  ChangeType.values[typeIndex]?.map fun type =>
    (.changeEvent type path, queueEvent (.changeEvent type path) false)

/-- `reportUnknownEvent`. -/
def reportUnknownEvent (path : U16String) : Operations :=
  (.unknownEvent path, queueEvent (.unknownEvent path) false)

/-- `reportOverflow`. -/
def reportOverflow (path : Option U16String) : Operations :=
  (.overflowEvent .operatingSystem path, signalOverflow .operatingSystem path)

/-- `reportFailure`. -/
def reportFailure (ex : String) : Operations :=
  (.failureEvent ex, queueEvent (.failureEvent ex) true)

/-- `reportTermination`. -/
def reportTermination : Operations :=
  (.terminationEvent, queueEvent .terminationEvent true)

/-- The method a call enters. -/
def enter : Report → Option Operations
  | .reportChangeEvent typeIndex path => reportChangeEvent typeIndex path
  | .reportUnknownEvent path => some (reportUnknownEvent path)
  | .reportOverflow path => some (reportOverflow path)
  | .reportFailure ex => some (reportFailure ex)
  | .reportTermination => some reportTermination

/-- What the callback logs. -/
inductive LogMessage
  /-- `info`: "Event queue overflow, dropping all events". -/
  | eventQueueOverflow
  /-- `error`: "Couldn't queue event: " followed by the event. -/
  | couldNotQueue (event : FileWatchEvent)
  deriving DecidableEq, Repr

/-- The event queue with the run-loop thread inside the callback. -/
structure State (capacity : ℕ) where
  /-- The client's queue. -/
  eventQueue : BoundedQueue Stamped capacity
  /-- What the run-loop thread still has to do for the report in progress. -/
  pending : List QueueOp
  /-- What was logged. -/
  logged : List LogMessage
  /-- The events reported so far, the one in progress included. -/
  reported : List FileWatchEvent
  /-- What the consumer has taken so far. -/
  consumed : List Stamped

variable {capacity : ℕ}

namespace State

/-- The events consumed so far followed by the content of the queue. -/
def delivered (s : State capacity) : List Stamped :=
  s.consumed ++ s.eventQueue.toList

/-- The number of the report in progress. -/
def current (s : State capacity) : ℕ := s.reported.length - 1

end State

/-- One atomic operation of the run-loop thread. -/
def perform (s : State capacity) (rest : List QueueOp) : QueueOp → State capacity
  | .queueEvent event deliverOnOverflow =>
    match s.eventQueue.offer (event, s.current) with
    | some eventQueue => { s with eventQueue, pending := rest }
    | none =>
      { s with
        pending := queueEventFull event deliverOnOverflow ++ rest
        logged := s.logged ++ [.eventQueueOverflow] }
  | .clear => { s with eventQueue := s.eventQueue.clear, pending := rest }
  | .forceQueueEvent event =>
    match s.eventQueue.offer (event, s.current) with
    | some eventQueue => { s with eventQueue, pending := rest }
    | none => { s with pending := rest, logged := s.logged ++ [.couldNotQueue event] }

/-- What can happen next. -/
inductive Label
  /-- The run-loop thread enters a method of the callback. -/
  | report (call : Report)
  /-- The run-loop thread performs its next queue operation. -/
  | proceed
  /-- The consumer takes the head of the queue. -/
  | take
  deriving DecidableEq, Repr

/-- The step function of the callback and its consumer. -/
def next (s : State capacity) : Label → Option (State capacity)
  | .report call =>
    match s.pending, enter call with
    | [], some (event, pending) =>
      some { s with pending, reported := s.reported ++ [event] }
    -- `ChangeType.values()[typeIndex]` throws before anything is queued.
    | [], none => some s
    | _ :: _, _ => none
  | .proceed =>
    match s.pending with
    | [] => none
    | op :: rest => some (perform s rest op)
  | .take =>
    s.eventQueue.poll.map fun (event, eventQueue) =>
      { s with eventQueue, consumed := s.consumed ++ [event] }

/-- The callback on an empty queue of the given capacity. -/
def machine (capacity : ℕ) : Machine (State capacity) Label where
  start :=
    { eventQueue := .empty, pending := [], logged := [], reported := [], consumed := [] }
  next := next

end NativeFileWatcherCallback

end FileEvents
