import FileEvents.Linux.Server
import FileEvents.Transition.Machine

/-!
# The Linux server at work

The interleavings of the client calls, the run loop and the kernel. A step is

* one `registerPath` up to and including `inotify_add_watch`, or the rest of it,
* one `unregisterPath` or one `stopWatchingMovedPaths` on any list of paths,
* something the kernel does on its own,
* one `read` of some queued events into the empty buffer,
* one `handleEvent` on the next event of the buffer, or
* the shutdown of the run loop.

`mutationMutex` keeps `handleEvent`, `unregisterPath` and another `registerPath` out of
the middle of a `registerPath`. The source holds it over whole lists of paths and whole
buffers; shorter critical sections only admit more interleavings.
`stopWatchingMovedPaths` does not take the mutex and may run at any time.

An exception in `handleEvent` costs the rest of the buffer and is reported as a failure.

## Main definitions

* `System` — the server with what is in progress and what has been observed
* `System.handle` — the handling of one event
* `machine` — all interleavings
-/

namespace FileEvents

open Transition

namespace Linux

/-- A server at work. -/
structure System where
  server : Server
  /-- The watch point of a `registerPath` that has called `inotify_add_watch`. -/
  registering : Option WatchPoint
  /-- The reports made for the events of each descriptor since it was granted last. -/
  reported : List (WatchDescriptor × Report)
  /-- The paths the client was told are not watched any more and that it has not
  registered since. -/
  stopped : List U16String

/-- What can happen next. -/
inductive Label
  | registerPath (path : U16String) (answers : RegisterAnswers)
  | enterWatchPoint
  | unregisterPath (path : U16String)
  | stopWatchingMovedPaths (absolutePathsToCheck : List (U16String × Except Errno ℕ))
  | kernel (step : Inotify.Step)
  | read (count : ℕ)
  | handle (order : List U16String)
  | shutdown

namespace System

/-- The events that were queued and not handled yet. -/
def unhandled (s : System) : List InotifyEvent := s.server.buffer ++ s.server.inotify.queue

/-- The first part of `registerPath`. An exception changes nothing. -/
def register (s : System) (path : U16String) (answers : RegisterAnswers) : System :=
  match s.server.beginRegisterPath path answers with
  | .error _ => s
  | .ok (watchPoint, inotify) =>
    { s with
      server := { s.server with inotify }
      registering := some watchPoint
      reported :=
        -- A descriptor that is granted anew starts without reports.
        if watchPoint.watchDescriptor ∈ s.server.inotify.active then s.reported
        else s.reported.filter fun report => report.1 ≠ watchPoint.watchDescriptor }

/-- The second part of `registerPath`. -/
def enter (s : System) (watchPoint : WatchPoint) : System :=
  match s.server.enterWatchPoint watchPoint with
  | .error _ => { s with registering := none }
  | .ok server =>
    { s with
      server
      registering := none
      stopped := s.stopped.filter fun path => path ≠ watchPoint.path }

/-- `unregisterPath`. -/
def unregister (s : System) (path : U16String) : System :=
  match s.server.unregisterPath path with
  | (.error _, server) => { s with server }
  | (.ok _, server) => { s with server, stopped := path :: s.stopped }

/-- `stopWatchingMovedPaths`. -/
def stopMoved (s : System) (absolutePathsToCheck : List (U16String × Except Errno ℕ)) : System :=
  match s.server.stopWatchingMovedPaths absolutePathsToCheck with
  | (.error _, server) => { s with server }
  | (.ok droppedPaths, server) => { s with server, stopped := droppedPaths ++ s.stopped }

/-- A `read` of the first events of the queue. -/
def fill (s : System) (count : ℕ) : System :=
  { s with
    server :=
      { s.server with
        buffer := s.server.inotify.queue.take count
        inotify :=
          { s.server.inotify with queue := s.server.inotify.queue.drop count } } }

/-- The handling of one event that was taken from the buffer, with the reports made for
it. -/
def dispatch (s : System) (event : InotifyEvent) (order : List U16String) :
    System × List Report :=
  match s.server.handleEvent event order with
  | .error ex => ({ s with server := { s.server with buffer := [] } }, [.reportFailure ex.what])
  | .ok (server, reports) =>
    ({ s with
      server :=
        if event.Concerns event.wd ∧ event.IsIgnored then
          { server with inotify := server.inotify.release event.wd }
        else server
      reported :=
        if event.Concerns event.wd then
          s.reported ++ reports.map fun report => (event.wd, report)
        else s.reported }, reports)

/-- The handling of the next event of the buffer. The watch points may be visited in any
order. -/
def handle (s : System) (order : List U16String) : Option (System × List Report) :=
  match s.registering, s.server.buffer with
  | none, event :: buffer =>
    if order.Perm s.server.watchPoints.keys then
      some ({ s with server := { s.server with buffer } }.dispatch event order)
    else none
  | _, _ => none

/-- The step function. -/
def next (s : System) : Label → Option System
  | .registerPath path answers =>
    if s.registering = none ∧ s.server.inotify.CanGrant answers.fresh then
      some (s.register path answers)
    else none
  | .enterWatchPoint => s.registering.map s.enter
  | .unregisterPath path => if s.registering = none then some (s.unregister path) else none
  -- It does not take the mutex.
  | .stopWatchingMovedPaths absolutePathsToCheck => some (s.stopMoved absolutePathsToCheck)
  | .kernel step => (s.server.inotify.step step).map fun inotify =>
      { s with server := { s.server with inotify } }
  -- The next `read` comes once the buffer is handled.
  | .read count =>
    if s.server.buffer = [] ∧ s.server.shouldTerminate = false ∧ 0 < count then
      some (s.fill count)
    else none
  | .handle order => (s.handle order).map fun handled => handled.1
  -- `processQueues` looks at the shutdown event between two rounds.
  | .shutdown =>
    if s.server.buffer = [] then
      some { s with server := { s.server with shouldTerminate := true } }
    else none

end System

/-- A server that was just created, with all it may go through. -/
def machine : Machine System Label where
  start :=
    { server :=
        { watchPoints := ∅
          watchRoots := ∅
          recentlyUnregisteredWatchRoots := ∅
          inotify := .init
          shouldTerminate := false
          buffer := [] }
      registering := none
      reported := []
      stopped := [] }
  next := System.next

/-! ## What the steps do -/

section Steps

variable {s t : System} {path : U16String} {answers : RegisterAnswers}

theorem System.registerPath_spec (step : s.next (.registerPath path answers) = some t) :
    s.registering = none ∧ s.server.inotify.CanGrant answers.fresh ∧
      (t = s ∨ ∃ watchPoint inotify,
        s.server.beginRegisterPath path answers = .ok (watchPoint, inotify) ∧ t =
          { s with
            server := { s.server with inotify }
            registering := some watchPoint
            reported :=
              if watchPoint.watchDescriptor ∈ s.server.inotify.active then s.reported
              else s.reported.filter fun report =>
                report.1 ≠ watchPoint.watchDescriptor }) := by
  simp only [System.next] at step
  split_ifs at step with enabled
  obtain rfl := Option.some_inj.mp step
  refine ⟨enabled.1, enabled.2, ?_⟩
  unfold System.register
  split
  next => exact .inl rfl
  next watchPoint inotify begun => exact .inr ⟨watchPoint, inotify, begun, rfl⟩

theorem System.enterWatchPoint_spec (step : s.next .enterWatchPoint = some t) :
    ∃ watchPoint, s.registering = some watchPoint ∧
      ((watchPoint.watchDescriptor ∈ s.server.watchRoots ∧ t = { s with registering := none }) ∨
        ∃ server, s.server.enterWatchPoint watchPoint = .ok server ∧ t =
          { s with
            server
            registering := none
            stopped := s.stopped.filter fun path => path ≠ watchPoint.path }) := by
  obtain ⟨watchPoint, entering, rfl⟩ := Option.map_eq_some_iff.mp step
  refine ⟨watchPoint, entering, ?_⟩
  unfold System.enter
  split
  next ex refused => exact .inl ⟨Server.enterWatchPoint_refused refused, rfl⟩
  next server entered => exact .inr ⟨server, entered, rfl⟩

theorem System.unregisterPath_spec (step : s.next (.unregisterPath path) = some t) :
    s.registering = none ∧ ∃ stopped, (stopped = s.stopped ∨ stopped = path :: s.stopped) ∧
      t = { s with server := (s.server.unregisterPath path).2, stopped } := by
  simp only [System.next] at step
  split_ifs at step with idle
  obtain rfl := Option.some_inj.mp step
  refine ⟨idle, ?_⟩
  unfold System.unregister
  split
  next result => exact ⟨_, .inl rfl, by rw [result]⟩
  next result => exact ⟨_, .inr rfl, by rw [result]⟩

theorem System.stopWatchingMovedPaths_spec
    {absolutePathsToCheck : List (U16String × Except Errno ℕ)}
    (step : s.next (.stopWatchingMovedPaths absolutePathsToCheck) = some t) :
    ∃ stopped,
      (stopped = s.stopped ∨ ∃ droppedPaths, stopped = droppedPaths ++ s.stopped ∧
        (s.server.stopWatchingMovedPaths absolutePathsToCheck).1 = .ok droppedPaths) ∧
      t =
        { s with
          server := (s.server.stopWatchingMovedPaths absolutePathsToCheck).2
          stopped } := by
  obtain rfl := Option.some_inj.mp step
  unfold System.stopMoved
  split
  next result => exact ⟨_, .inl rfl, by rw [result]⟩
  next droppedPaths _ result => exact ⟨_, .inr ⟨droppedPaths, rfl, by rw [result]⟩, by rw [result]⟩

theorem System.read_spec {count : ℕ} (step : s.next (.read count) = some t) :
    s.server.buffer = [] ∧ s.server.shouldTerminate = false ∧ 0 < count ∧ t = s.fill count := by
  simp only [System.next] at step
  split_ifs at step with enabled
  exact ⟨enabled.1, enabled.2.1, enabled.2.2, (Option.some_inj.mp step).symm⟩

theorem System.shutdown_spec (step : s.next .shutdown = some t) :
    s.server.buffer = [] ∧
      t = { s with server := { s.server with shouldTerminate := true } } := by
  simp only [System.next] at step
  split_ifs at step with empty
  exact ⟨empty, (Option.some_inj.mp step).symm⟩

/-- An event is handled when no `registerPath` holds the mutex. -/
theorem System.handle_spec {order : List U16String}
    {handled : System × List Report} (h : s.handle order = some handled) :
    ∃ event buffer, s.registering = none ∧ s.server.buffer = event :: buffer ∧
      order.Perm s.server.watchPoints.keys ∧
      { s with server := { s.server with buffer } }.dispatch event order = handled := by
  unfold System.handle at h
  split at h
  next event buffer idle next =>
    split_ifs at h with visits
    exact ⟨event, buffer, idle, next, visits, Option.some_inj.mp h⟩
  next => cases h

/-- An exception costs the rest of the buffer. Otherwise the end of a watch frees its
descriptor, and the reports count for the descriptor the event concerns. -/
theorem System.handled_cases {order : List U16String} (step : s.next (.handle order) = some t) :
    ∃ event buffer, s.registering = none ∧ s.server.buffer = event :: buffer ∧
      ((∃ ex, { s.server with buffer }.handleEvent event order = .error ex ∧
          t = { s with server := { s.server with buffer := [] } }) ∨
        ∃ server reports, { s.server with buffer }.handleEvent event order = .ok (server, reports) ∧
          t =
            { s with
              server :=
                if event.Concerns event.wd ∧ event.IsIgnored then
                  { server with inotify := server.inotify.release event.wd }
                else server
              reported :=
                if event.Concerns event.wd then
                  s.reported ++ reports.map fun report => (event.wd, report)
                else s.reported }) := by
  obtain ⟨⟨after, reports⟩, handled, rfl⟩ := Option.map_eq_some_iff.mp step
  obtain ⟨event, buffer, idle, next, -, handled⟩ := System.handle_spec handled
  refine ⟨event, buffer, idle, next, ?_⟩
  unfold System.dispatch at handled
  split at handled
  next ex thrown => exact .inl ⟨ex, thrown, (Prod.mk.inj handled).1.symm⟩
  next server reports' succeeded =>
    exact .inr ⟨server, reports', succeeded, (Prod.mk.inj handled).1.symm⟩

end Steps

end Linux

end FileEvents
