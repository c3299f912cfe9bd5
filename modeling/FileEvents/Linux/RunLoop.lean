import FileEvents.Linux.Invariant

/-!
# The Linux run loop

`runLoop`, `processQueues` and `handleEvents` of `linux_fsnotifier.cpp` on the run-loop
thread, beside the server at work and a client that calls `shutdown()`.

`poll` looks at the shutdown event first and at the inotify descriptor next, and waits and
looks again while neither is readable. What the kernel answers is a choice: any ready set
in which the shutdown event is readable only if it was triggered, any error, any number of
bytes, any number of events in a `read`.

Handling events may throw; `processQueues` catches that and reports a failure. `poll` and
`ShutdownEvent::consume` throw out of `runLoop`.

## Main definitions

* `RunLoop.State`, `RunLoop.machine` — the run loop beside the server and the client
* `RunLoop.PollSucceeds` — `poll` fails only once the shutdown event was triggered

## Main results

* `reachable_system` — the server is at work as in `Linux.machine`
* `terminating_ended` — a run loop that still handles events is not terminating
* `triggered_of_pollSucceeds` — then the run loop ends only once the event was triggered
-/

namespace FileEvents

open Transition

namespace Linux

namespace RunLoop

/-- `EAGAIN`. -/
def EAGAIN : Errno := 11

/-- `EINTR`. -/
def EINTR : Errno := 4

/-- Where the run-loop thread is. -/
inductive Pc
  /-- In `poll`, about to look at the shutdown event. -/
  | polling
  /-- In `poll`, about to look at the inotify descriptor. -/
  | polled (shutdownEvent : Bool)
  /-- In `handleEvents`, with this many bytes available. -/
  | reading (available : UInt32)
  /-- In `handleEvents`, with events in the buffer and this many bytes available
  afterwards. -/
  | handling (available : UInt32)
  /-- `runLoop` has returned. -/
  | returned
  /-- `runLoop` has thrown. -/
  | thrown (ex : CppException)
  deriving DecidableEq

/-- `runLoop` has returned or thrown. -/
def Pc.Ended (pc : Pc) : Prop := pc = .returned ∨ ∃ ex, pc = .thrown ex

/-- Where a client is in `shutdown()`. -/
inductive ClientPc
  /-- `shutdown()` was not called. -/
  | idle
  /-- The shutdown event was triggered. -/
  | triggered
  /-- `shutdown()` has returned. -/
  | returned
  deriving DecidableEq, Repr

/-- The run loop beside the server and a client. -/
structure State where
  system : System
  /-- The counter of the shutdown event. -/
  shutdownEvent : ℕ
  client : ClientPc
  pc : Pc
  /-- The events reported since `shutdown()` has returned. -/
  late : List Report

/-- What a `read` of the inotify descriptor returns. -/
inductive ReadResult
  | error (errno : Errno)
  /-- Nothing. The error code is that of an earlier call. -/
  | endOfFile (errno : Errno)
  /-- This many events, in this many bytes. -/
  | events (count : ℕ) (bytesRead : UInt32)

/-- What can happen next. -/
inductive Label
  /-- Something that does not happen on the run-loop thread. -/
  | other (label : Linux.Label)
  /-- `shutdownRunLoop`. -/
  | trigger
  /-- `shutdown()` returns to the client. -/
  | shutdownReturns
  /-- `poll` looks at the shutdown event. -/
  | lookAtShutdownEvent
  /-- `poll` looks at the inotify descriptor. If it is readable, `ioctl` says how much
  there is. -/
  | lookAtInotify (readable : Bool) (available : UInt32)
  | pollFails (errno : Errno)
  /-- `ShutdownEvent::consume`, with what `read` returns. -/
  | consume (result : Except Errno Unit)
  | read (result : ReadResult)
  /-- `handleEvent` on the next event of the buffer. -/
  | handle (order : List U16String)

/-- The report is an event for the client, not a failure or the termination. -/
def IsEvent : Report → Bool
  | .reportChangeEvent .. | .reportUnknownEvent .. | .reportOverflow .. => true
  | .reportFailure .. | .reportTermination => false

namespace State

/-- The run loop makes reports. -/
def report (s : State) (reports : List Report) : State :=
  { s with late := if s.client = .returned then s.late ++ reports.filter IsEvent else s.late }

/-- The loop of `handleEvents` goes on while there are bytes available. -/
def whileAvailable (available : UInt32) : Pc :=
  if 0 < available then .reading available else .polling

/-- The handling of the next event throws. -/
def Throws (s : State) (order : List U16String) : Prop :=
  ∃ event ∈ s.system.server.buffer.head?,
    ({ s.system.server with buffer := s.system.server.buffer.tail }.handleEvent event
      order).isOk = false

instance (s : State) (order : List U16String) : Decidable (s.Throws order) :=
  inferInstanceAs (Decidable (∃ event ∈ s.system.server.buffer.head?,
    ({ s.system.server with buffer := s.system.server.buffer.tail }.handleEvent event
      order).isOk = false))

/-- The step function of the run-loop thread and the client. -/
def next (s : State) : Label → Option State
  | .other (.read _) | .other (.handle _) | .other .shutdown => none
  | .other label => (s.system.next label).map fun system => { s with system }
  | .trigger =>
    if s.client = .idle then
      some { s with shutdownEvent := s.shutdownEvent + 1, client := .triggered }
    else none
  | .shutdownReturns =>
    if s.client = .triggered then some { s with client := .returned } else none
  | .lookAtShutdownEvent =>
    if s.pc = .polling then some { s with pc := .polled (decide (0 < s.shutdownEvent)) }
    else none
  | .lookAtInotify readable available =>
    if s.pc = .polled false then
      some { s with pc := if readable then whileAvailable available else .polling }
    else none
  | .pollFails errno =>
    if s.pc = .polling then some
      { s with pc := .thrown (.fileWatcherException "Couldn't poll for events" none errno) }
    else none
  | .consume result =>
    if s.pc = .polled true then
      match result with
      | .error errno => some
          { s with
            pc := .thrown (.fileWatcherException
              "Couldn't read from termination event notifier" none errno) }
      -- The counter does not matter.
      | .ok () => some
          { s with
            system :=
              { s.system with server := { s.system.server with shouldTerminate := true } }
            shutdownEvent := 0
            pc := .returned }
    else none
  | .read result =>
    match s.pc, result with
    | .reading _, .error errno =>
      -- There is nothing to read.
      if errno = EAGAIN then some { s with pc := .polling }
      else some ({ s with pc := .polling }.report
        [.reportFailure (CppException.fileWatcherException "Couldn't read from inotify" none
          errno).what])
    | .reading _, .endOfFile errno => some ({ s with pc := .polling }.report
        [.reportFailure (CppException.fileWatcherException "EOF reading from inotify" none
          errno).what])
    | .reading available, .events count bytesRead =>
      if s.system.server.inotify.queue = [] then none
      else (s.system.next (.read count)).map fun system =>
        { s with system, pc := .handling (available - bytesRead) }
    | _, _ => none
  | .handle order =>
    match s.pc with
    | .handling available => (s.system.handle order).map fun (system, reports) =>
        { s.report reports with
          system
          pc :=
            if s.Throws order then .polling
            else if system.server.buffer = [] then whileAvailable available
            else .handling available }
    | _ => none

end State

/-- A server whose run loop was just started. -/
def machine : Machine State Label where
  start :=
    { system := Linux.machine.start
      shutdownEvent := 0
      client := .idle
      pc := .polling
      late := [] }
  next := State.next

/-- The step does not happen on the run-loop thread. -/
def Outside : Linux.Label → Prop
  | .read _ | .handle _ | .shutdown => False
  | _ => True

/-- The steps of the run-loop thread and of the others. -/
inductive Steps (s : State) : Label → State → Prop
  | other {label : Linux.Label} {system : System} (outside : Outside label)
      (inner : s.system.next label = some system) : Steps s (.other label) { s with system }
  | trigger (idle : s.client = .idle) :
      Steps s .trigger { s with shutdownEvent := s.shutdownEvent + 1, client := .triggered }
  | shutdownReturns (triggered : s.client = .triggered) :
      Steps s .shutdownReturns { s with client := .returned }
  | lookAtShutdownEvent (pc : s.pc = .polling) :
      Steps s .lookAtShutdownEvent { s with pc := .polled (decide (0 < s.shutdownEvent)) }
  | lookAtInotify {readable : Bool} {available : UInt32} (pc : s.pc = .polled false) :
      Steps s (.lookAtInotify readable available)
        { s with pc := if readable then State.whileAvailable available else .polling }
  | pollFails {errno : Errno} {ex : CppException} (pc : s.pc = .polling) :
      Steps s (.pollFails errno) { s with pc := .thrown ex }
  | consumeFails {result : Except Errno Unit} {ex : CppException} (pc : s.pc = .polled true) :
      Steps s (.consume result) { s with pc := .thrown ex }
  | consume {result : Except Errno Unit} (pc : s.pc = .polled true) :
      Steps s (.consume result)
        { s with
          system :=
            { s.system with server := { s.system.server with shouldTerminate := true } }
          shutdownEvent := 0
          pc := .returned }
  | readFails {result : ReadResult} {available : UInt32} {reports : List Report}
      (pc : s.pc = .reading available) (failures : reports.filter IsEvent = []) :
      Steps s (.read result) ({ s with pc := .polling }.report reports)
  | read {count : ℕ} {bytesRead available : UInt32} {system : System}
      (pc : s.pc = .reading available) (inner : s.system.next (.read count) = some system) :
      Steps s (.read (.events count bytesRead))
        { s with system, pc := .handling (available - bytesRead) }
  | handle {order : List U16String} {available : UInt32} {system : System}
      {reports : List Report} (pc : s.pc = .handling available)
      (handled : s.system.handle order = some (system, reports)) :
      Steps s (.handle order)
        { s.report reports with
          system
          pc :=
            if s.Throws order then .polling
            else if system.server.buffer = [] then State.whileAvailable available
            else .handling available }

section Steps

variable {s t : State} {label : Label}

theorem report_failures {reports : List Report} (failures : reports.filter IsEvent = []) :
    s.report reports = s := by
  unfold State.report
  split_ifs <;> simp [failures]

/-- There are no other steps. -/
theorem steps_of_next (step : machine.next s label = some t) : Steps s label t := by
  have failure (what : String) : [Report.reportFailure what].filter IsEvent = [] := rfl
  cases label with
  | other label =>
    have serves (outside : Outside label)
        (step : (s.system.next label).map (fun system => { s with system }) = some t) :
        Steps s (.other label) t := by
      obtain ⟨system, inner, rfl⟩ := Option.map_eq_some_iff.mp step
      exact .other outside inner
    cases label with
    -- These are steps of the run loop itself here.
    | read | handle | shutdown => cases step
    | registerPath | enterWatchPoint | unregisterPath | stopWatchingMovedPaths | kernel =>
      exact serves trivial step
  | trigger =>
    simp only [machine, State.next] at step
    split_ifs at step with idle
    exact Option.some_inj.mp step ▸ .trigger idle
  | shutdownReturns =>
    simp only [machine, State.next] at step
    split_ifs at step with triggered
    exact Option.some_inj.mp step ▸ .shutdownReturns triggered
  | lookAtShutdownEvent =>
    simp only [machine, State.next] at step
    split_ifs at step with pc
    exact Option.some_inj.mp step ▸ .lookAtShutdownEvent pc
  | lookAtInotify readable available =>
    dsimp only [machine, State.next] at step
    split at step
    next pc => exact Option.some_inj.mp step ▸ .lookAtInotify pc
    next => cases step
  | pollFails errno =>
    simp only [machine, State.next] at step
    split_ifs at step with pc
    exact Option.some_inj.mp step ▸ .pollFails pc
  | consume result =>
    simp only [machine, State.next] at step
    split_ifs at step with pc
    cases result with
    | error errno => exact Option.some_inj.mp step ▸ .consumeFails pc
    | ok => exact Option.some_inj.mp step ▸ .consume pc
  | read result =>
    dsimp only [machine, State.next] at step
    split at step
    next available errno pc =>
      -- That there is nothing to read any more is no failure.
      split_ifs at step with nothing
      · obtain rfl := Option.some_inj.mp step
        have silent : ([] : List Report).filter IsEvent = [] := rfl
        exact report_failures (s := { s with pc := .polling }) silent ▸ .readFails pc silent
      · exact Option.some_inj.mp step ▸ .readFails pc (failure _)
    next available errno pc => exact Option.some_inj.mp step ▸ .readFails pc (failure _)
    next available count bytesRead pc =>
      split_ifs at step
      obtain ⟨system, inner, rfl⟩ := Option.map_eq_some_iff.mp step
      exact .read pc inner
    next => cases step
  | handle order =>
    dsimp only [machine, State.next] at step
    split at step
    next available pc =>
      obtain ⟨⟨system, reports⟩, handled, rfl⟩ := Option.map_eq_some_iff.mp step
      exact .handle pc handled
    next => cases step

@[simp] theorem system_report {reports : List Report} : (s.report reports).system = s.system :=
  rfl
@[simp] theorem shutdownEvent_report {reports : List Report} :
    (s.report reports).shutdownEvent = s.shutdownEvent := rfl
@[simp] theorem client_report {reports : List Report} : (s.report reports).client = s.client :=
  rfl
@[simp] theorem pc_report {reports : List Report} : (s.report reports).pc = s.pc := rfl

theorem not_ended_whileAvailable (available : UInt32) :
    ¬ (State.whileAvailable available).Ended := by
  unfold State.whileAvailable
  split_ifs <;> simp [Pc.Ended]

end Steps

/-! ## The server in it -/

/-- Nothing outside the run-loop thread touches the buffer or the shutdown of the server. -/
theorem outside_frame {s t : System} {label : Linux.Label} (reach : Linux.machine.Reachable s)
    (outside : Outside label) (step : s.next label = some t) :
    t.server.buffer = s.server.buffer ∧ t.server.shouldTerminate = s.server.shouldTerminate := by
  have consistent := (sound reach).consistent
  cases label with
  | registerPath path answers =>
    obtain ⟨-, -, rfl | ⟨watchPoint, inotify, -, rfl⟩⟩ := System.registerPath_spec step
    · exact ⟨rfl, rfl⟩
    · exact ⟨rfl, rfl⟩
  | enterWatchPoint =>
    obtain ⟨watchPoint, -, ⟨-, rfl⟩ | ⟨server, entered, rfl⟩⟩ := System.enterWatchPoint_spec step
    · exact ⟨rfl, rfl⟩
    · obtain ⟨-, rfl⟩ := Server.enterWatchPoint_spec entered
      exact ⟨rfl, rfl⟩
  | unregisterPath path =>
    obtain ⟨idle, stopped, -, rfl⟩ := System.unregisterPath_spec step
    obtain ⟨-, only⟩ := (idle ▸ consistent : Consistent s.server none).unregisterPath path
    exact ⟨only.buffer, only.shouldTerminate⟩
  | stopWatchingMovedPaths absolutePathsToCheck =>
    obtain ⟨stopped, -, rfl⟩ := System.stopWatchingMovedPaths_spec step
    obtain ⟨-, only, -⟩ := consistent.stopWatchingMovedPaths absolutePathsToCheck
    exact ⟨only.buffer, only.shouldTerminate⟩
  | kernel kernelStep =>
    obtain ⟨inotify, -, rfl⟩ := Option.map_eq_some_iff.mp step
    exact ⟨rfl, rfl⟩
  | read | handle | shutdown => exact outside.elim

/-- An exception leaves the buffer empty, and no event changes whether the server is
terminating. -/
theorem handle_frame {s system : System} {order : List U16String} {reports : List Report}
    (handled : s.handle order = some (system, reports)) :
    system.server.shouldTerminate = s.server.shouldTerminate ∧
      ((∃ event ∈ s.server.buffer.head?, ({ s.server with
        buffer := s.server.buffer.tail }.handleEvent event order).isOk = false) →
          system.server.buffer = []) := by
  obtain ⟨event, buffer, -, next, -, dispatched⟩ := System.handle_spec handled
  unfold System.dispatch at dispatched
  rw [next]
  split at dispatched
  next ex thrown =>
    obtain ⟨rfl, -⟩ := Prod.mk.inj dispatched
    exact ⟨rfl, fun _ => rfl⟩
  next server reports' succeeded =>
    obtain ⟨rfl, -⟩ := Prod.mk.inj dispatched
    refine ⟨?_, ?_⟩
    · by_cases ends : event.Concerns event.wd ∧ event.IsIgnored
      · obtain ⟨rfl, -⟩ := Server.handleEvent_ignored ends.1 ends.2 succeeded
        simp only [ends, and_self, if_true, Server.finish]
        split <;> rfl
      · obtain rfl := Server.handleEvent_other ends succeeded
        simp [ends]
    · rintro ⟨event', same, thrown⟩
      obtain rfl := Option.some_inj.mp same
      simp only [List.tail_cons] at thrown
      simp [succeeded, Except.isOk, Except.toBool] at thrown

/-- Handling an event takes it, or everything, out of the buffer and leaves the queue alone. -/
theorem handle_buffer {s system : System} {order : List U16String} {reports : List Report}
    (handled : s.handle order = some (system, reports)) :
    ∃ event buffer, s.server.buffer = event :: buffer ∧
      (system.server.buffer = [] ∨ system.server.buffer = buffer) ∧
      system.server.inotify.queue = s.server.inotify.queue := by
  obtain ⟨event, buffer, -, next, -, dispatched⟩ := System.handle_spec handled
  refine ⟨event, buffer, next, ?_⟩
  unfold System.dispatch at dispatched
  split at dispatched
  next ex thrown =>
    obtain ⟨rfl, -⟩ := Prod.mk.inj dispatched
    exact ⟨.inl rfl, rfl⟩
  next server reports' succeeded =>
    obtain ⟨rfl, -⟩ := Prod.mk.inj dispatched
    by_cases ends : event.Concerns event.wd ∧ event.IsIgnored
    · obtain ⟨rfl, -⟩ := Server.handleEvent_ignored ends.1 ends.2 succeeded
      simp only [ends, and_self, if_true, Server.finish]
      split <;> exact ⟨.inr rfl, rfl⟩
    · obtain rfl := Server.handleEvent_other ends succeeded
      simp [ends]

/-- The server is at work as in `Linux.machine`; the buffer is empty while no event is
handled, and a server that is terminating has left its run loop. -/
structure Invariant (s : State) : Prop where
  reach : Linux.machine.Reachable s.system
  empty : (∀ available, s.pc ≠ .handling available) → s.system.server.buffer = []
  terminating : s.system.server.shouldTerminate = true → s.pc.Ended

section Invariant

variable {s t : State} {label : Label}

theorem Invariant.next (inv : Invariant s) (step : machine.next s label = some t) :
    Invariant t := by
  obtain ⟨reach, empty, terminating⟩ := inv
  -- A server that has not left its run loop is not terminating.
  have running : ¬ s.pc.Ended → s.system.server.shouldTerminate ≠ true := mt terminating
  cases steps_of_next step with
  | other outside inner =>
    obtain ⟨sameBuffer, sameFlag⟩ := outside_frame reach outside inner
    exact ⟨reach.snoc inner, fun idle => sameBuffer.trans (empty idle),
      fun flag => terminating (sameFlag ▸ flag)⟩
  | trigger | shutdownReturns => exact ⟨reach, empty, terminating⟩
  | lookAtShutdownEvent pc =>
    exact ⟨reach, fun _ => empty (by simp [pc]), fun flag =>
      absurd flag (running (by simp [pc, Pc.Ended]))⟩
  | lookAtInotify pc =>
    exact ⟨reach, fun _ => empty (by simp [pc]), fun flag =>
      absurd flag (running (by simp [pc, Pc.Ended]))⟩
  | @pollFails _ ex pc | @consumeFails _ ex pc =>
    exact ⟨reach, fun _ => empty (by simp [pc]), fun _ => .inr ⟨ex, rfl⟩⟩
  | consume pc =>
    have drained := empty (by simp [pc])
    refine ⟨reach.snoc (a := .shutdown) ?_, fun _ => drained, fun _ => .inl rfl⟩
    simp [Linux.machine, System.next, drained]
  | readFails pc failures =>
    rw [report_failures (s := { s with pc := .polling }) failures]
    exact ⟨reach, fun _ => empty (by simp [pc]), fun flag =>
      absurd flag (running (by simp [pc, Pc.Ended]))⟩
  | read pc inner =>
    obtain ⟨-, flag, -, rfl⟩ := System.read_spec inner
    refine ⟨reach.snoc (a := .read _) inner, fun idle => absurd rfl (idle _), fun flag' => ?_⟩
    exact absurd (flag.symm.trans flag') (by decide)
  | @handle order available system reports pc handled =>
    obtain ⟨sameFlag, dropped⟩ := handle_frame handled
    refine ⟨reach.snoc (a := .handle order) ?_, fun idle => ?_, fun flag => ?_⟩
    · simp [Linux.machine, System.next, handled]
    · dsimp only at idle ⊢
      split_ifs at idle with throws drained
      · exact dropped throws
      · exact drained
      · exact absurd rfl (idle available)
    · exact absurd (sameFlag ▸ flag) (running (by simp [pc, Pc.Ended]))

theorem invariant (reach : machine.Reachable s) : Invariant s := by
  refine reach.invariant ?_ fun _ _ _ inv => inv.next
  exact ⟨.start, fun _ => rfl, by simp [machine, Linux.machine]⟩

/-- Whatever the run loop does, the server is at work as in `Linux.machine`. -/
theorem reachable_system (reach : machine.Reachable s) : Linux.machine.Reachable s.system :=
  (invariant reach).reach

/-- The guard on `shouldTerminate` in `handleEvent` is never met: when an event is handled,
the server is not terminating. -/
theorem terminating_ended (reach : machine.Reachable s) {order : List U16String}
    (step : machine.next s (.handle order) = some t) :
    s.system.server.shouldTerminate = false := by
  by_contra flag
  have ended := (invariant reach).terminating (by simpa using flag)
  cases steps_of_next step with
  | handle pc => simp [pc, Pc.Ended] at ended

end Invariant

/-! ## The end of the run loop -/

/-- `poll` fails only once the shutdown event was triggered. -/
def PollSucceeds (s : State) : Label → Prop
  | .pollFails _ => s.client ≠ .idle
  | _ => True

instance (s : State) : DecidablePred (PollSucceeds s) := fun label =>
  match label with
  | .pollFails _ => inferInstanceAs (Decidable (s.client ≠ .idle))
  | .other _ | .trigger | .shutdownReturns | .lookAtShutdownEvent | .lookAtInotify ..
  | .consume _ | .read _ | .handle _ => instDecidableTrue

/-- The step happens on the run-loop thread. -/
def OnRunLoop : Label → Prop
  | .other _ | .trigger | .shutdownReturns => False
  | _ => True

/-- The tables are the same. -/
def SameTables (after before : Server) : Prop :=
  after.watchPoints = before.watchPoints ∧ after.watchRoots = before.watchRoots ∧
    after.recentlyUnregisteredWatchRoots = before.recentlyUnregisteredWatchRoots

/-- The tables are as `handleEvent` leaves them for the next event of the buffer. -/
def Handled (before : Server) (order : List U16String) (after : Server) : Prop :=
  ∃ event buffer server reports, before.buffer = event :: buffer ∧
    { before with buffer }.handleEvent event order = .ok (server, reports) ∧
    SameTables after server

/-- The run loop has not seen the shutdown event and has not ended before it was
triggered. -/
structure Triggered (s : State) : Prop where
  counter : 0 < s.shutdownEvent → s.client ≠ .idle
  polled : s.pc = .polled true → s.client ≠ .idle
  ended : s.pc.Ended → s.client ≠ .idle

section End

variable {s t : State} {label : Label}

theorem Triggered.next (triggered : Triggered s) (succeeds : PollSucceeds s label)
    (step : machine.next s label = some t) : Triggered t := by
  obtain ⟨counter, polled, ended⟩ := triggered
  cases steps_of_next step with
  | other => exact ⟨counter, polled, ended⟩
  | trigger | shutdownReturns => exact ⟨by simp, by simp, by simp⟩
  | lookAtShutdownEvent pc =>
    exact ⟨counter, fun seen => counter (by simpa using seen), by simp [Pc.Ended]⟩
  | @lookAtInotify readable available pc =>
    refine ⟨counter, fun seen => ?_, fun stops => ?_⟩
    · cases readable
      · cases seen
      · simp only [if_true, State.whileAvailable] at seen
        split_ifs at seen
    · cases readable
      · simp [Pc.Ended] at stops
      · exact absurd stops (not_ended_whileAvailable available)
  | pollFails => exact ⟨counter, by simp, fun _ => succeeds⟩
  | consumeFails pc => exact ⟨counter, by simp, fun _ => polled pc⟩
  | consume pc => exact ⟨by simp, by simp, fun _ => polled pc⟩
  | readFails => exact ⟨counter, by simp, by simp [Pc.Ended]⟩
  | read => exact ⟨counter, by simp, by simp [Pc.Ended]⟩
  | @handle order available system reports pc handled =>
    refine ⟨counter, fun seen => ?_, fun stops => ?_⟩
    · dsimp only [State.whileAvailable] at seen
      split_ifs at seen
    · dsimp only at stops
      split_ifs at stops
      · simp [Pc.Ended] at stops
      · exact absurd stops (not_ended_whileAvailable available)
      · simp [Pc.Ended] at stops

/-- A step of the run loop changes the tables only by handling an event. -/
theorem tables_of_runLoop (onRunLoop : OnRunLoop label) (step : machine.next s label = some t) :
    SameTables t.system.server s.system.server ∨
      ∃ order, label = .handle order ∧ Handled s.system.server order t.system.server := by
  cases steps_of_next step with
  | other | trigger | shutdownReturns => exact onRunLoop.elim
  | lookAtShutdownEvent | lookAtInotify | pollFails | consumeFails | consume | readFails =>
    exact .inl ⟨rfl, rfl, rfl⟩
  | read pc inner =>
    obtain ⟨-, -, -, rfl⟩ := System.read_spec inner
    exact .inl ⟨rfl, rfl, rfl⟩
  | @handle order available system reports pc handled =>
    obtain ⟨event, buffer, -, next, -, dispatched⟩ := System.handle_spec handled
    unfold System.dispatch at dispatched
    split at dispatched
    next =>
      obtain ⟨rfl, -⟩ := Prod.mk.inj dispatched
      exact .inl ⟨rfl, rfl, rfl⟩
    next server reports' succeeded =>
      obtain ⟨rfl, -⟩ := Prod.mk.inj dispatched
      refine .inr ⟨order, rfl, event, buffer, server, reports', next, succeeded, ?_⟩
      -- Freeing a descriptor concerns the kernel.
      dsimp only
      split_ifs
      · exact ⟨rfl, rfl, rfl⟩
      · exact ⟨rfl, rfl, rfl⟩

/-- As long as `poll` fails only once the shutdown event was triggered, the run loop ends
only once it was triggered, and what happens on it changes the tables only by handling
events. -/
theorem triggered_of_pollSucceeds (s : State) (reach : machine.ReachableWhere PollSucceeds s) :
    (s.pc.Ended → s.client ≠ .idle) ∧
      ∀ label t, OnRunLoop label → machine.next s label = some t →
        SameTables t.system.server s.system.server ∨
          ∃ order, label = .handle order ∧
            Handled s.system.server order t.system.server := by
  have triggered : Triggered s := by
    refine reach.invariant ?_ fun _ _ _ triggered => triggered.next
    constructor <;> simp [machine, Pc.Ended]
  exact ⟨triggered.ended, fun label t => tables_of_runLoop⟩

/-- `read` fails, and then the server is shut down. -/
def shutdownRun : List Label :=
  [.lookAtShutdownEvent, .lookAtInotify true 32, .read (.error EINTR), .lookAtShutdownEvent,
    .lookAtInotify false 0, .trigger, .lookAtShutdownEvent, .consume (.ok ())]

theorem triggered_of_pollSucceeds_shutdown :
    ∃ s, machine.ReachableWhere PollSucceeds s ∧ s.pc = .returned ∧ s.client ≠ .idle := by
  have computed : (machine.execWhere PollSucceeds machine.start shutdownRun).map State.pc =
    some .returned := by decide
  obtain ⟨s, reach, pc⟩ := Machine.observe_of_execWhere computed
  exact ⟨s, reach, pc, (triggered_of_pollSucceeds s reach).1 (.inl pc)⟩

/-- A signal arrives while `poll` waits. -/
def interruptedRun : List Label := [.pollFails EINTR]

/-- Not every run loop ends only on shutdown. -/
theorem not_forall_triggered :
    ¬ ∀ s, machine.Reachable s → s.pc.Ended → s.client ≠ .idle := by
  intro always
  have computed : (machine.exec machine.start interruptedRun).map (fun s => (s.pc, s.client)) =
    some (.thrown (.fileWatcherException "Couldn't poll for events" none EINTR), .idle) := by
      decide
  obtain ⟨s, reach, last⟩ := Machine.observe_of_exec computed
  simp only [Prod.mk.injEq] at last
  exact always s reach (.inr ⟨_, last.1⟩) last.2

/-- Every `poll` that fails earlier ends the run loop although nobody asked for it. -/
theorem ended_of_not_pollSucceeds (fails : ¬ PollSucceeds s label)
    (step : machine.next s label = some t) : t.pc.Ended ∧ t.client = .idle := by
  cases steps_of_next step with
  | @pollFails errno ex => exact ⟨.inr ⟨ex, rfl⟩, not_not.mp fails⟩
  | _ => exact absurd trivial fails

end End

end RunLoop

end Linux

end FileEvents
