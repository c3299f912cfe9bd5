import FileEvents.Apple.System
import FileEvents.Linux.RunLoopEnd

/-!
# Events after `shutdown()`

`FileWatcher.shutdown` promises that no more events arrive after it returns. But
`shutdownRunLoop` only tells the run loop to end: on Linux it triggers the shutdown event,
which the run loop looks at between two buffers of events, and on macOS it puts the
`PoisonPill` behind the events that wait in `eventQueue`. The guard on `shouldTerminate` in
the Linux `handleEvent` is never met.

## Main definitions

* `Linux.RunLoop.Settled` — only events that are passed over are still handled once `shutdown()`
  has returned
* `Apple.State.remaining` — what the run loop is still going to report
* `Apple.Settled` — nothing remains when `shutdown()` returns

## Main results

* `Linux.RunLoop.settled_of_returnsIdle` — a run loop that is idle when `shutdown()` returns handles
  nothing more
* `Apple.late_append_remaining` — once `shutdown()` has returned, what was reported and what
  remains stays the same
* `no_late_of_settled` — nothing is reported after a `shutdown()` that returns to a settled
  run loop
-/

namespace FileEvents

open Transition

/-! ## Linux -/

namespace Linux

/-- `handleEvent` passes over the event, whatever is watched: it says that a watch has ended or that
its file system was unmounted. -/
def InotifyEvent.Silent (event : InotifyEvent) : Prop :=
  isSet event.mask IN_UNMOUNT = true ∨
    isSet event.mask IN_Q_OVERFLOW = false ∧ isSet event.mask IN_IGNORED = true

instance : DecidablePred InotifyEvent.Silent := fun event => inferInstanceAs (Decidable
  (isSet event.mask IN_UNMOUNT = true ∨
    isSet event.mask IN_Q_OVERFLOW = false ∧ isSet event.mask IN_IGNORED = true))

theorem InotifyEvent.Silent.reports {event : InotifyEvent} (silent : event.Silent)
    {server server' : Server} {order : List U16String} {reports : List Report}
    (handled : server.handleEvent event order = .ok (server', reports)) : reports = [] := by
  by_cases unmount : isSet event.mask IN_UNMOUNT = true
  · simp only [Server.handleEvent, unmount, if_true] at handled
    exact (Prod.mk.inj (Except.ok.inj handled)).2.symm
  · obtain ⟨ordinary, ignored⟩ := silent.resolve_left unmount
    exact (Server.handleEvent_ignored ⟨rfl, ordinary⟩ ⟨ignored, by simpa using unmount⟩ handled).2

namespace RunLoop

/-- Only events that `handleEvent` passes over are in the buffer when `shutdown()` returns or are
read afterwards. -/
def Settled (s : State) : Label → Prop
  | .shutdownReturns => ∀ event ∈ s.system.server.buffer, event.Silent
  | .read (.events count _) => s.client = .returned →
      ∀ event ∈ s.system.server.inotify.queue.take count, event.Silent
  | _ => True

instance (s : State) : DecidablePred (Settled s) := fun label =>
  match label with
  | .shutdownReturns =>
    inferInstanceAs (Decidable (∀ event ∈ s.system.server.buffer, event.Silent))
  | .read (.events count _) => inferInstanceAs (Decidable (s.client = .returned →
      ∀ event ∈ s.system.server.inotify.queue.take count, event.Silent))
  | .read (.error _) | .read (.endOfFile _) | .other _ | .trigger | .lookAtShutdownEvent
  | .lookAtInotify .. | .pollFails _ | .consume _ | .handle _ => instDecidableTrue

/-- Nothing that is still in the buffer is going to be reported, and nothing was reported late. -/
structure NothingLate (s : State) : Prop where
  silent : s.client = .returned → ∀ event ∈ s.system.server.buffer, event.Silent
  late : s.late = []

section NothingLate

variable {s t : State} {label : Label}

theorem report_of_not_returned {reports : List Report} (early : s.client ≠ .returned) :
    s.report reports = s := by
  unfold State.report
  rw [if_neg early]

/-- Handling an event that is passed over, or whose handling throws, reports no event. -/
theorem isEvent_of_silent {system : System} {order : List U16String} {reports : List Report}
    (silent : ∀ event ∈ s.system.server.buffer, event.Silent)
    (handled : s.system.handle order = some (system, reports)) :
    reports.filter IsEvent = [] := by
  obtain ⟨event, buffer, -, next, -, dispatched⟩ := System.handle_spec handled
  unfold System.dispatch at dispatched
  split at dispatched
  next ex thrown =>
    obtain ⟨-, rfl⟩ := Prod.mk.inj dispatched
    rfl
  next server reports' succeeded =>
    obtain ⟨-, rfl⟩ := Prod.mk.inj dispatched
    rw [(silent event (next ▸ List.mem_cons_self)).reports succeeded]
    rfl

theorem NothingLate.next (reach : machine.Reachable s) (quiet : NothingLate s)
    (settled : Settled s label) (step : machine.next s label = some t) : NothingLate t := by
  obtain ⟨silent, late⟩ := quiet
  cases steps_of_next step with
  | other outside inner =>
    obtain ⟨sameBuffer, -⟩ := outside_frame (reachable_system reach) outside inner
    exact ⟨fun returned => sameBuffer ▸ silent returned, late⟩
  | trigger => exact ⟨by simp, late⟩
  | shutdownReturns => exact ⟨fun _ => settled, late⟩
  | lookAtShutdownEvent | lookAtInotify | pollFails | consumeFails | consume =>
    exact ⟨silent, late⟩
  | readFails pc failures =>
    rw [report_failures (s := { s with pc := .polling }) failures]
    exact ⟨silent, late⟩
  | read pc inner =>
    obtain ⟨-, -, -, rfl⟩ := System.read_spec inner
    exact ⟨settled, late⟩
  | @handle order available system reports pc handled =>
    refine ⟨fun returned event mem => ?_, ?_⟩
    · obtain ⟨first, buffer, next, taken, -⟩ := handle_buffer handled
      refine silent returned event ?_
      rcases taken with empty | rest
      · simp [empty] at mem
      · exact next ▸ List.mem_cons_of_mem _ (rest ▸ mem)
    · by_cases returned : s.client = .returned
      · rw [report_failures (isEvent_of_silent (silent returned) handled)]
        exact late
      · rw [report_of_not_returned returned]
        exact late

theorem nothingLate (reach : machine.ReachableWhere Settled s) : NothingLate s := by
  refine reach.invariant_of (fun _ reached => reached.reachable) ?_
    fun _ _ _ reached quiet => quiet.next reached
  constructor <;> simp [machine]

/-- The run loop is not about to look for events or to handle them: it has ended, or it looks at
the shutdown event first. -/
def Pc.Idle : Pc → Prop
  | .polling | .polled true | .returned | .thrown _ => True
  | .polled false | .reading _ | .handling _ => False

/-- The run loop is idle when `shutdown()` returns. -/
def ReturnsIdle (s : State) : Label → Prop
  | .shutdownReturns => s.pc.Idle
  | _ => True

/-- A run loop that is idle when `shutdown()` returns sees the shutdown event and stays idle. -/
theorem idle_of_next (reach : machine.Reachable s) (idle : s.client = .returned → s.pc.Idle)
    (meets : ReturnsIdle s label) (step : machine.next s label = some t)
    (returned : t.client = .returned) : t.pc.Idle := by
  cases steps_of_next step with
  | other => exact idle returned
  | trigger => cases returned
  | shutdownReturns => exact meets
  | lookAtShutdownEvent pc =>
    have called : s.client ≠ .idle := by simp [show s.client = .returned from returned]
    have seen := (pending reach).triggered called (by simp [pc, Pc.Ended])
    simp [seen, Pc.Idle]
  | lookAtInotify pc | read pc | handle pc => simpa [pc, Pc.Idle] using idle returned
  | pollFails | consumeFails | consume | readFails => trivial

/-- It reads nothing more, so that its steps are settled. -/
theorem settled_of_returnsIdle (reach : machine.ReachableWhere ReturnsIdle s) :
    machine.ReachableWhere Settled s := by
  have both : machine.ReachableWhere Settled s ∧ (s.client = .returned → s.pc.Idle) := by
    refine reach.invariant (I := fun s => machine.ReachableWhere Settled s ∧
      (s.client = .returned → s.pc.Idle)) ⟨.start, by simp [machine]⟩ ?_
    rintro s label t ⟨reached, idle⟩ meets step
    have settled : Settled s label := by
      cases steps_of_next step with
      | shutdownReturns =>
        have empty : s.system.server.buffer = [] := by
          refine (invariant reached.reachable).empty fun available pc => ?_
          simp [ReturnsIdle, pc, Pc.Idle] at meets
        simp [Settled, empty]
      | read pc => exact fun returned => absurd (idle returned) (by simp [pc, Pc.Idle])
      | @readFails result available reports pc =>
        cases result with
        | events => exact fun returned => absurd (idle returned) (by simp [pc, Pc.Idle])
        | error | endOfFile => trivial
      | _ => trivial
    exact ⟨reached.snoc settled step, idle_of_next reached.reachable idle meets step⟩
  exact both.1

/-- What handling an event reports after `shutdown()` has returned is late. -/
theorem late_of_handle {order : List U16String} {system : System} {reports : List Report}
    {available : UInt32} (pc : s.pc = .handling available) (returned : s.client = .returned)
    (handled : s.system.handle order = some (system, reports)) :
    (machine.next s (.handle order)).map State.late =
      some (s.late ++ reports.filter IsEvent) := by
  simp [machine, State.next, pc, handled, State.report, returned]

end NothingLate

end RunLoop

end Linux

/-! ## macOS -/

namespace Apple

/-- What the run loop reports for these items. -/
def reportsOf : List QueueItem → List Report
  | [] | .poisonPill :: _ => []
  | .errorEvent _ :: items => reportsOf items
  | .fileEvent event :: items =>
    match handleEvent event with
    | .ok none => reportsOf items
    | .ok (some report) => report :: reportsOf items
    -- The exception ends the run loop.
    | .error _ => []

/-- What the run loop is going to report for what is in its hand and in `eventQueue`. -/
def State.remaining (s : State) : List Report :=
  match s.pc with
  | .dequeuing => reportsOf s.eventQueue
  | .handling event => reportsOf (.fileEvent event :: s.eventQueue)
  | .returned | .thrown _ => []

/-- Nothing remains when `shutdown()` returns. -/
def Settled (s : State) : Label → Prop
  | .shutdownReturns => s.remaining = []
  | _ => True

instance (s : State) : DecidablePred (Settled s) := fun label =>
  match label with
  | .shutdownReturns => inferInstanceAs (Decidable (s.remaining = []))
  | .registerPath .. | .unregisterPath _ | .unregisterPathsReturns | .clear | .dispatchSync
  | .enqueuePoisonPill | .dispatch .. | .enqueue | .enqueueThrows _ | .dequeue
  | .handleEvent => instDecidableTrue

/-- `watchPoints` stay cleared during `shutdown()`, and the dispatch queue stays empty once
it was waited for. -/
structure Closing (s : State) : Prop where
  cleared : s.shutdown ≠ .idle → s.watchPoints = []
  synced : s.shutdown ≠ .idle → s.shutdown ≠ .cleared → s.dispatchQueue = []

section Closing

variable {s t : State} {label : Label} {event : FileEvent}

theorem Closing.next (closing : Closing s) (step : machine.next s label = some t) :
    Closing t := by
  obtain ⟨cleared, synced⟩ := closing
  cases steps_of_next step with
  | refuse | unregisterPathsReturns => exact ⟨cleared, synced⟩
  | registerPath idle | unregisterPath idle =>
    exact ⟨fun closing => absurd idle closing, fun closing => absurd idle closing⟩
  | clear => exact ⟨fun _ => rfl, fun _ later => absurd rfl later⟩
  | dispatchSync before empty => exact ⟨fun _ => cleared (by simp [before]), fun _ _ => empty⟩
  | enqueuePoisonPill before | shutdownReturns before =>
    exact ⟨fun _ => cleared (by simp [before]), fun _ _ => synced (by simp [before])
      (by simp [before])⟩
  | dispatch watched =>
    -- No stream is left.
    have idle : s.shutdown = .idle := by
      by_contra closing
      rw [cleared closing] at watched
      cases watched
    exact ⟨cleared, fun closing => absurd idle closing⟩
  | callbackReturns waiting | enqueue waiting | enqueueThrows waiting =>
    refine ⟨cleared, fun closing later => ?_⟩
    have empty := synced closing later
    rw [waiting] at empty
    cases empty
  | @dequeue item => cases item <;> exact ⟨cleared, synced⟩
  | handleEvent => exact ⟨by simpa using cleared, by simpa using synced⟩

theorem closing (reach : machine.Reachable s) : Closing s := by
  refine reach.invariant ?_ fun _ _ _ closing => closing.next
  constructor <;> simp [machine]

/-- Taking an item out of `eventQueue` does not change what remains. -/
theorem remaining_take {item : QueueItem} {eventQueue : List QueueItem}
    (pc : s.pc = .dequeuing) (waiting : s.eventQueue = item :: eventQueue) :
    (s.take eventQueue item).remaining = s.remaining := by
  cases item <;> simp [State.take, State.remaining, reportsOf, pc, waiting]

/-- What is reported for an event is the first of what remained. -/
theorem late_finish (pc : s.pc = .handling event) (returned : s.shutdown = .returned) :
    (s.finish event).late ++ (s.finish event).remaining = s.late ++ s.remaining := by
  unfold State.finish
  split
  next handled => simp [State.remaining, reportsOf, pc, handled]
  next report handled =>
    simp [State.report, State.remaining, reportsOf, pc, handled, returned]
  next handled => simp [State.remaining, reportsOf, pc, handled]

/-- Once `shutdown()` has returned, what was reported since then and what remains to be
reported stays the same. -/
theorem late_append_remaining (closing : Closing s) (returned : s.shutdown = .returned)
    (step : machine.next s label = some t) :
    t.late ++ t.remaining = s.late ++ s.remaining := by
  have called : s.shutdown ≠ .idle := by simp [returned]
  have empty : s.dispatchQueue = [] := closing.synced called (by simp [returned])
  cases steps_of_next step with
  | refuse | unregisterPathsReturns | dispatch => rfl
  | registerPath idle | unregisterPath idle | clear idle => exact absurd idle called
  | dispatchSync before | enqueuePoisonPill before | shutdownReturns before =>
    simp [returned] at before
  | callbackReturns waiting | enqueue waiting | enqueueThrows waiting => simp [empty] at waiting
  | @dequeue item eventQueue pc waiting =>
    rw [remaining_take pc waiting]
    cases item <;> rfl
  | handleEvent pc => exact late_finish pc returned

/-- Nothing is reported late before `shutdown()` returns, and nothing remains then. -/
structure NothingLate (s : State) : Prop where
  closing : Closing s
  early : s.shutdown ≠ .returned → s.late = []
  remaining : s.shutdown = .returned → s.late ++ s.remaining = []

theorem late_finish_early (early : s.shutdown ≠ .returned) : (s.finish event).late = s.late := by
  unfold State.finish
  split
  next => rfl
  next => exact if_neg early
  next => rfl

/-- Before `shutdown()` returns nothing is late. -/
theorem late_of_early (early : s.shutdown ≠ .returned) (step : machine.next s label = some t) :
    t.late = s.late := by
  cases steps_of_next step with
  | @dequeue item => cases item <;> rfl
  | handleEvent => exact late_finish_early early
  | _ => rfl

/-- `shutdown()` returns once, with `shutdownReturns`. -/
theorem shutdown_of_next (step : machine.next s label = some t) :
    (t.shutdown = .returned ↔ s.shutdown = .returned) ∨
      s.shutdown = .poisoned ∧ label = .shutdownReturns ∧ t = { s with shutdown := .returned } := by
  cases steps_of_next step with
  | clear before | dispatchSync before | enqueuePoisonPill before => exact .inl (by simp [before])
  | shutdownReturns before => exact .inr ⟨before, rfl, rfl⟩
  | @dequeue item => cases item <;> exact .inl Iff.rfl
  | handleEvent => exact .inl (by simp)
  | _ => exact .inl Iff.rfl

theorem NothingLate.next (quiet : NothingLate s) (settled : Settled s label)
    (step : machine.next s label = some t) : NothingLate t := by
  obtain ⟨closing, early, remaining⟩ := quiet
  rcases shutdown_of_next step with same | ⟨before, rfl, rfl⟩
  · refine ⟨closing.next step, fun unreturned => ?_, fun returned => ?_⟩
    · have before := mt same.mpr unreturned
      rw [late_of_early before step, early before]
    · have before := same.mp returned
      rw [late_append_remaining closing before step, remaining before]
  · refine ⟨closing.next step, fun unreturned => absurd rfl unreturned, fun _ => ?_⟩
    have nothing : s.remaining = [] := settled
    change s.late ++ s.remaining = []
    rw [early (by simp [before]), nothing, List.append_nil]

theorem nothingLate (reach : machine.ReachableWhere Settled s) : NothingLate s := by
  refine reach.invariant ?_ fun _ _ _ quiet => quiet.next
  refine ⟨?_, ?_, ?_⟩
  · constructor <;> simp [machine]
  · simp [machine]
  · simp [machine]

theorem NothingLate.late_eq_nil (quiet : NothingLate s) : s.late = [] := by
  by_cases returned : s.shutdown = .returned
  · exact (List.append_eq_nil_iff.mp (quiet.remaining returned)).1
  · exact quiet.early returned

end Closing

end Apple

/-! ## Both servers -/

/-- As long as the Linux run loop has only events in its buffer when `shutdown()` returns, and reads
only such afterwards, that it passes over, and on macOS nothing remains to be reported when
`shutdown()` returns, no event is reported after it has returned. -/
theorem no_late_of_settled (onLinux : Linux.RunLoop.State) (onApple : Apple.State) :
    (Linux.RunLoop.machine.ReachableWhere Linux.RunLoop.Settled onLinux → onLinux.late = []) ∧
      (Apple.machine.ReachableWhere Apple.Settled onApple → onApple.late = []) :=
  ⟨fun reach => (Linux.RunLoop.nothingLate reach).late,
    fun reach => (Apple.nothingLate reach).late_eq_nil⟩

/-- A directory is registered and a file is created in it. -/
def Linux.RunLoop.creation : List Linux.RunLoop.Label :=
  [.other (.registerPath (u16 "/a") { lstat := .ok 7, addWatch := .ok ⟨1, 7⟩, fresh := 1 }),
    .other .enterWatchPoint, .other (.kernel (.event 1 Linux.IN_CREATE [0x66]))]

/-- The file is reported, and then the server is shut down. -/
def Linux.RunLoop.settledRun : List Linux.RunLoop.Label :=
  creation ++
    [.lookAtShutdownEvent, .lookAtInotify true 32, .read (.events 1 32), .handle [u16 "/a"],
      .trigger, .shutdownReturns, .lookAtShutdownEvent, .consume (.ok ())]

/-- As on Linux. -/
def Apple.settledRun : List Apple.Label :=
  [.registerPath (u16 "/a") (.ok ()), .dispatch (u16 "/a") [createdFile], .enqueue, .enqueue,
    .dequeue, .handleEvent, .clear, .dispatchSync, .enqueuePoisonPill, .shutdownReturns,
    .dequeue]

theorem no_late_of_settled_reported :
    (∃ s, Linux.RunLoop.machine.ReachableWhere Linux.RunLoop.Settled s ∧
        s.client = .returned ∧ s.late = []) ∧
      ∃ s, Apple.machine.ReachableWhere Apple.Settled s ∧ s.shutdown = .returned ∧
        s.late = [] := by
  constructor
  · have computed : (Linux.RunLoop.machine.execWhere Linux.RunLoop.Settled
        Linux.RunLoop.machine.start Linux.RunLoop.settledRun).map Linux.RunLoop.State.client =
      some .returned := by decide
    obtain ⟨s, reach, client⟩ := Machine.observe_of_execWhere computed
    exact ⟨s, reach, client, (no_late_of_settled s Apple.machine.start).1 reach⟩
  · have computed : (Apple.machine.execWhere Apple.Settled Apple.machine.start
        Apple.settledRun).map Apple.State.shutdown = some .returned := by decide
    obtain ⟨s, reach, shutdown⟩ := Machine.observe_of_execWhere computed
    exact ⟨s, reach, shutdown, (no_late_of_settled Linux.RunLoop.machine.start s).2 reach⟩

/-- `shutdown()` returns while the file is in the buffer. -/
def Linux.RunLoop.lateRun : List Linux.RunLoop.Label :=
  creation ++
    [.lookAtShutdownEvent, .lookAtInotify true 32, .read (.events 1 32), .trigger,
      .shutdownReturns, .handle [u16 "/a"]]

/-- The file waits in `eventQueue`, ahead of the `PoisonPill`. -/
def Apple.lateRun : List Apple.Label :=
  [.registerPath (u16 "/a") (.ok ()), .dispatch (u16 "/a") [createdFile], .enqueue, .enqueue,
    .clear, .dispatchSync, .enqueuePoisonPill, .shutdownReturns, .dequeue, .handleEvent]

/-- On neither system do all events arrive before `shutdown()` returns. -/
theorem not_forall_no_late :
    (¬ ∀ s, Linux.RunLoop.machine.Reachable s → s.late = []) ∧
      ¬ ∀ s, Apple.machine.Reachable s → s.late = [] := by
  constructor
  · intro always
    have computed : (Linux.RunLoop.machine.exec Linux.RunLoop.machine.start
        Linux.RunLoop.lateRun).map Linux.RunLoop.State.late =
          some [.reportChangeEvent ChangeType.created.index (u16 "/a/f")] := by decide
    obtain ⟨s, reach, late⟩ := Machine.observe_of_exec computed
    rw [always s reach] at late
    cases late
  · intro always
    have computed : (Apple.machine.exec Apple.machine.start Apple.lateRun).map Apple.State.late =
        some [.reportChangeEvent ChangeType.created.index (u16 "/a/f")] := by decide
    obtain ⟨s, reach, late⟩ := Machine.observe_of_exec computed
    rw [always s reach] at late
    cases late

end FileEvents
