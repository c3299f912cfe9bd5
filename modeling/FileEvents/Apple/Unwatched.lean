import FileEvents.Apple.System

/-!
# Events of unwatched directories on macOS

`unregisterPaths` stops the stream of a path, but it does not look at the events that the
stream has passed on before, and `handleEvent` does not look at `watchPoints`. So what is on
its way when `unregisterPaths` returns is still reported.

## Main definitions

* `Drained` — nothing is on its way when `unregisterPaths` returns, nor comes on its way later

## Main results

* `no_stray_of_drained` — then nothing is reported for unwatched paths
* `drained_of_apart` — without watched directories around or inside it, nothing comes
* `stray_of_pending` — an event on its way to the run loop is reported
-/

namespace FileEvents

open Transition

namespace Apple

/-- When `unregisterPaths` returns for a path that is not inside a watched one, nothing that
would be reported for it, or for something inside it, is on its way, and no stream of a directory
inside it passes on such an event before the path is watched again. -/
def Drained (s : State) : Label → Prop
  | .unregisterPathsReturns => ∀ path ∈ s.unregistering,
      (∀ other ∈ s.watchPoints, ¬ Inside other path) →
        ∀ event ∈ s.pending, event.Reportable → ¬ Inside path (State.pathOf event)
  | .dispatch _ events => ∀ unwatched ∈ s.unwatched, ∀ event ∈ events,
      event.Reportable → ¬ Inside unwatched (State.pathOf event)
  | _ => True

instance (s : State) : DecidablePred (Drained s) := fun label =>
  match label with
  | .unregisterPathsReturns => inferInstanceAs (Decidable (∀ path ∈ s.unregistering,
      (∀ other ∈ s.watchPoints, ¬ Inside other path) →
        ∀ event ∈ s.pending, event.Reportable → ¬ Inside path (State.pathOf event)))
  | .dispatch _ events => inferInstanceAs (Decidable (∀ unwatched ∈ s.unwatched,
      ∀ event ∈ events, event.Reportable → ¬ Inside unwatched (State.pathOf event)))
  | .registerPath .. | .unregisterPath _ | .clear | .dispatchSync | .enqueuePoisonPill
  | .shutdownReturns | .enqueue | .enqueueThrows _ | .dequeue | .handleEvent =>
    instDecidableTrue

/-- Nothing that would be reported for an unwatched path is on its way. -/
structure Quiet (s : State) : Prop where
  pending : ∀ unwatched ∈ s.unwatched, ∀ event ∈ s.pending, event.Reportable →
    ¬ Inside unwatched (State.pathOf event)
  stray : s.stray = []

section Quiet

variable {s t : State} {label : Label} {event : FileEvent} {path unwatched : U16String}

/-- What is reported for an event is reported for its path. -/
theorem FileEvent.Reportable.pathOf (reportable : event.Reportable) :
    utf8ToUtf16String event.eventPath = some (State.pathOf event) := by
  obtain ⟨report, handled⟩ := reportable
  unfold State.pathOf
  unfold Apple.handleEvent at handled
  cases converted : utf8ToUtf16String event.eventPath with
  | none => simp [converted] at handled
  | some path => rfl

theorem report_of_quiet {report : Report}
    (quiet : ∀ unwatched ∈ s.unwatched, ¬ Inside unwatched path) :
    (s.report path report).stray = s.stray := by
  apply if_neg
  rintro ⟨unwatched, mem, inside⟩
  exact quiet unwatched mem inside

/-- Handling an event that concerns no unwatched path reports nothing stray. -/
theorem stray_finish (quiet : event.Reportable →
    ∀ unwatched ∈ s.unwatched, ¬ Inside unwatched (State.pathOf event)) :
    (s.finish event).stray = s.stray := by
  unfold State.finish
  split
  next => rfl
  next report handled =>
    exact report_of_quiet (s := { s with pc := .dequeuing }) (quiet ⟨report, handled⟩)
  next => rfl

/-- Where nothing around or inside the unwatched paths is watched, no stream passes on an event
that concerns them. -/
theorem drained_of_apart {events : List FileEvent} (apart : ∀ unwatched ∈ s.unwatched,
      ∀ path ∈ s.watchPoints, ¬ Inside path unwatched ∧ ¬ Inside unwatched path)
    (step : machine.next s (.dispatch path events) = some t) :
    Drained s (.dispatch path events) := by
  intro unwatched mem event passed reportable concerned
  cases steps_of_next step with
  | dispatch watched inside =>
    obtain ⟨around, within⟩ := apart unwatched mem path watched
    have here := inside event passed _ reportable.pathOf
    exact (inside_or_inside here concerned).elim around within

/-- A step with nothing on its way when `unregisterPaths` returns leaves the unwatched paths
quiet. -/
theorem Quiet.next (quiet : Quiet s) (drained : Drained s label)
    (step : machine.next s label = some t) : Quiet t := by
  have onTheWay : ∀ {unwatched event}, unwatched ∈ s.unwatched → event ∈ t.pending →
      event.Reportable → ¬ Inside unwatched (State.pathOf event) := by
    intro unwatched event mem onItsWay
    rcases mem_pending_of_next step onItsWay with old | ⟨path, events, rfl, passed⟩
    · exact quiet.pending unwatched mem event old
    · exact drained unwatched mem event passed
  cases steps_of_next step with
  | refuse => exact quiet
  | registerPath =>
    exact ⟨fun unwatched mem => quiet.pending unwatched (List.mem_of_mem_filter mem), quiet.stray⟩
  | unregisterPathsReturns =>
    refine ⟨fun unwatched mem event onItsWay => ?_, quiet.stray⟩
    rcases List.mem_append.mp mem with new | old
    · obtain ⟨listed, apart⟩ := List.mem_filter.mp new
      have outside : ∀ other ∈ s.watchPoints, ¬ Inside other unwatched := by simpa using apart
      exact drained unwatched listed outside event onItsWay
    · exact quiet.pending unwatched old event onItsWay
  | unregisterPath | clear | dispatchSync | shutdownReturns =>
    exact ⟨quiet.pending, quiet.stray⟩
  | enqueuePoisonPill | dispatch | callbackReturns | enqueue | enqueueThrows =>
    exact ⟨fun _ mem _ => onTheWay mem, quiet.stray⟩
  | @dequeue item eventQueue pc waiting =>
    cases item <;> exact ⟨fun _ mem _ => onTheWay mem, quiet.stray⟩
  -- The event in the hand of the run loop lies inside no unwatched path.
  | @handleEvent event pc =>
    have inHand : event ∈ s.pending := by simp [State.pending, Pc.event, pc]
    refine ⟨fun unwatched mem other => onTheWay (unwatched_finish ▸ mem), ?_⟩
    rw [stray_finish fun reportable unwatched mem =>
      quiet.pending unwatched mem event inHand reportable]
    exact quiet.stray

/-- As long as nothing that would be reported for a path is on its way when `unregisterPaths`
returns for it, and no stream of a directory inside it passes on such an event, no event is
reported for the path or for anything inside it before it is watched again. -/
theorem no_stray_of_drained (s : State) (reach : machine.ReachableWhere Drained s) :
    s.stray = [] := by
  have quiet : Quiet s := by
    refine reach.invariant ?_ fun _ _ _ quiet => quiet.next
    constructor <;> simp [machine]
  exact quiet.stray

/-- A file is created in a watched directory and reported, and then the directory is not
watched any more. -/
def drainedRun : List Label :=
  [.registerPath (u16 "/a") (.ok ()), .dispatch (u16 "/a") [createdFile], .enqueue, .enqueue,
    .dequeue, .handleEvent, .unregisterPath (u16 "/a"), .unregisterPathsReturns]

theorem no_stray_of_drained_reported :
    ∃ s, machine.ReachableWhere Drained s ∧ s.unwatched = [u16 "/a"] ∧ s.stray = [] := by
  have computed : (machine.execWhere Drained machine.start drainedRun).map State.unwatched =
    some [u16 "/a"] := by decide
  obtain ⟨s, reach, unwatched⟩ := Machine.observe_of_execWhere computed
  exact ⟨s, reach, unwatched, no_stray_of_drained s reach⟩

/-- The event waits in `eventQueue` while `unregisterPaths` runs. -/
def backlogRun : List Label :=
  [.registerPath (u16 "/a") (.ok ()), .dispatch (u16 "/a") [createdFile], .enqueue,
    .unregisterPath (u16 "/a"), .unregisterPathsReturns, .dequeue, .handleEvent]

/-- Something may be reported for a path after `unregisterPaths` has returned for it. -/
theorem not_forall_no_stray : ¬ ∀ s, machine.Reachable s → s.stray = [] := by
  intro always
  have computed : (machine.exec machine.start backlogRun).map State.stray =
    some [(u16 "/a/f", .reportChangeEvent ChangeType.created.index (u16 "/a/f"))] := by decide
  obtain ⟨s, reach, stray⟩ := Machine.observe_of_exec computed
  rw [always s reach] at stray
  cases stray

/-! ## What is on its way is reported -/

/-- The run loop gets past the item. -/
def QueueItem.Passes : QueueItem → Prop
  | .fileEvent event => (handleEvent event).isOk = true
  | .errorEvent _ => True
  | .poisonPill => False

theorem pc_finish (passes : (Apple.handleEvent event).isOk = true) :
    (s.finish event).pc = .dequeuing ∧ (s.finish event).eventQueue = s.eventQueue := by
  unfold State.finish
  split
  next => exact ⟨rfl, rfl⟩
  next => exact ⟨rfl, rfl⟩
  next ex handled =>
    rw [handled] at passes
    cases passes

/-- An event that would be reported for an unwatched path is reported if the run loop gets
past the items before it. -/
theorem stray_of_pending {before after : List QueueItem} (pc : s.pc = .dequeuing)
    (waiting : s.eventQueue = before ++ .fileEvent event :: after)
    (passes : ∀ item ∈ before, item.Passes) (reportable : event.Reportable)
    (unwatched : path ∈ s.unwatched) (inside : Inside path (State.pathOf event)) :
    ∃ labels t, Machine.Run machine (fun _ _ => True) s labels t ∧ t.stray ≠ [] := by
  induction before generalizing s with
  | nil =>
    -- The event is the next one.
    obtain ⟨report, handled⟩ := reportable
    have taken : machine.next s .dequeue = some (s.take after (.fileEvent event)) := by
      simp [machine, State.next, pc, waiting]
    let held := s.take after (.fileEvent event)
    have finished : machine.next held .handleEvent = some (held.finish event) := rfl
    refine ⟨[.dequeue, .handleEvent], held.finish event,
      .cons trivial taken (.single trivial finished), ?_⟩
    have concerned : ∃ unwatched ∈ held.unwatched, Inside unwatched (State.pathOf event) :=
      ⟨path, unwatched, inside⟩
    unfold State.finish
    rw [handled]
    simp [State.report, concerned]
  | cons item before ih =>
    have taken : machine.next s .dequeue =
        some (s.take (before ++ .fileEvent event :: after) item) := by
      simp [machine, State.next, pc, waiting]
    have first := passes item List.mem_cons_self
    have rest : ∀ item ∈ before, item.Passes :=
      fun item mem => passes item (List.mem_cons_of_mem _ mem)
    cases item with
    | fileEvent other =>
      let held := s.take (before ++ .fileEvent event :: after) (.fileEvent other)
      have finished : machine.next held .handleEvent = some (held.finish other) := rfl
      obtain ⟨idle, queue⟩ := pc_finish (s := held) first
      obtain ⟨labels, t, run, stray⟩ := ih idle queue rest
        (by rw [unwatched_finish]; exact unwatched)
      exact ⟨_, t, .cons trivial taken (.cons trivial finished run), stray⟩
    | errorEvent message =>
      obtain ⟨labels, t, run, stray⟩ :=
        ih (s := s.take (before ++ .fileEvent event :: after) (.errorEvent message)) pc rfl rest
          unwatched
      exact ⟨_, t, .cons trivial taken run, stray⟩
    | poisonPill => exact first.elim

end Quiet

end Apple

end FileEvents
