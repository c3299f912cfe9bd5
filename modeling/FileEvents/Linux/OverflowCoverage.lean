import FileEvents.Callback.OverflowGaps
import FileEvents.Linux.Invariant

/-!
# Overflows from the kernel to the client on Linux

The Linux server with its callback and the client's queue. When the kernel's queue has
overflowed, `handleEvent` reports an overflow for every watch point, one call of the
callback after the other; each of these calls clears the client's queue.

A watched path is owed an overflow event from the moment events for it may be lost,
because the kernel's queue has overflowed or because its change events were discarded with
the client's queue, until the client takes an overflow event for it or for no particular
path.

The clearing for one watch point discards what was queued for the others. A path is left
without its overflow event exactly where such a clearing happens although the path is owed
one and its own overflow report is not still to come.

## Main definitions

* `Pipeline` — the server, the callback and what is owed
* `Pipeline.Spares` — the clearings that leave no owed path behind

## Main results

* `covered_of_spares` — if all clearings do so, every owed path has its overflow event
* `uncovered_of_not_spares` — any other clearing discards an overflow report or leaves an
  owed path without one
-/

namespace FileEvents

namespace Linux

open Transition Delivery

/-- An overflow event tells the client that events for the path may be missing. -/
def Informs : FileWatchEvent → U16String → Prop
  | .overflowEvent _ none, _ => True
  | .overflowEvent _ (some path), other => path = other
  | _, _ => False

instance : (event : FileWatchEvent) → (path : U16String) → Decidable (Informs event path)
  | .overflowEvent _ none, _ => instDecidableTrue
  | .overflowEvent _ (some path), other => inferInstanceAs (Decidable (path = other))
  | .changeEvent .., _ | .unknownEvent _, _ | .failureEvent _, _ | .terminationEvent, _ =>
    instDecidableFalse

/-- The watched paths whose events may be lost when the event is handled. -/
def lostToOverflow (server : Server) (event : InotifyEvent) : List U16String :=
  if isSet event.mask IN_UNMOUNT then []
  else if isSet event.mask IN_Q_OVERFLOW then server.watchPoints.keys else []

/-- A server with its callback and the client's queue. -/
structure Pipeline (capacity : ℕ) where
  system : System
  callback : NativeFileWatcherCallback.State capacity
  /-- The reports that the run loop has still to make for the event being handled. -/
  toReport : List Report
  /-- The watched path of the event being handled. -/
  root : Option U16String
  /-- The watched path of each report that has one, by the number of the report. -/
  roots : List (ℕ × U16String)
  /-- The number of the first report made for the event being handled. -/
  handlingStart : ℕ
  /-- The paths that are owed an overflow event. -/
  owed : List U16String
  /-- The overflow events that were discarded by a later report for the same event. -/
  discarded : List Stamped

namespace Pipeline

variable {capacity : ℕ}

/-- The run loop is not in the middle of handling an event. -/
def Idle (s : Pipeline capacity) : Prop := s.toReport = [] ∧ s.callback.pending = []

instance (s : Pipeline capacity) : Decidable s.Idle :=
  inferInstanceAs (Decidable (s.toReport = [] ∧ s.callback.pending = []))

/-- The watched path of a queued change event. -/
def rootOf (s : Pipeline capacity) : Stamped → Option U16String
  | (.changeEvent .., number) => s.roots.lookup number
  | _ => none

/-- The watched paths of the change events in the client's queue. -/
def queuedRoots (s : Pipeline capacity) : List U16String :=
  s.callback.eventQueue.toList.filterMap s.rootOf

/-- The path of the overflow report that clears the client's queue next. -/
def clearsFor (s : Pipeline capacity) : Option (Option U16String) :=
  match s.callback.pending with
  | .clear :: .forceQueueEvent (.overflowEvent .operatingSystem path) :: _ => some path
  | _ => none

/-- The overflow events in the client's queue that were reported for the event being
handled. -/
def ownOverflows (s : Pipeline capacity) : List Stamped :=
  s.callback.eventQueue.toList.filter fun x => x.1.IsOverflow ∧ s.handlingStart ≤ x.2

/-- What can happen next. -/
inductive Label
  /-- A step of the server that handles no event. -/
  | system (label : Linux.Label)
  /-- The run loop handles the next event. -/
  | handle (order : List U16String)
  /-- The run loop fails, or ends. -/
  | processor (call : Report)
  /-- The run loop makes its next report. -/
  | report
  /-- The run loop performs its next operation on the client's queue. -/
  | proceed
  /-- The client takes the head of its queue. -/
  | take

/-- The kernel and `stopWatchingMovedPaths` do not wait for the run loop. -/
def Admits (s : Pipeline capacity) : Linux.Label → Prop
  | .kernel _ | .stopWatchingMovedPaths _ => True
  | .handle _ => False
  | _ => s.Idle

instance (s : Pipeline capacity) : DecidablePred s.Admits := fun label =>
  match label with
  | .kernel _ | .stopWatchingMovedPaths _ => instDecidableTrue
  | .handle _ => instDecidableFalse
  | .registerPath .. | .enterWatchPoint | .unregisterPath _ | .read _ | .shutdown =>
    inferInstanceAs (Decidable s.Idle)

/-- The step function. -/
def next (s : Pipeline capacity) : Label → Option (Pipeline capacity)
  | .system label =>
    if s.Admits label then
      (s.system.next label).map fun system => { s with system }
    else none
  | .handle order =>
    if s.Idle then
      s.system.server.buffer.head?.bind fun event =>
        (s.system.handle order).map fun (system, reports) =>
          { s with
            system
            toReport := reports
            root := s.system.server.watchRoots.lookup event.wd
            handlingStart := s.callback.reported.length
            owed := lostToOverflow s.system.server event ++ s.owed }
    else none
  | .processor call =>
    match call with
    | .reportFailure _ | .reportTermination =>
      if s.Idle then
        some
          { s with
            toReport := [call]
            root := none
            handlingStart := s.callback.reported.length }
      else none
    | _ => none
  | .report =>
    match s.toReport with
    | [] => none
    | call :: toReport =>
      (NativeFileWatcherCallback.next s.callback (.report call)).map fun callback =>
        { s with
          callback
          toReport
          roots :=
            match s.root with
            | some root => s.roots ++ [(s.callback.reported.length, root)]
            | none => s.roots }
  | .proceed =>
    (NativeFileWatcherCallback.next s.callback .proceed).map fun callback =>
      { s with
        callback
        owed :=
          if s.callback.pending.head? = some .clear then s.queuedRoots ++ s.owed else s.owed
        discarded := if s.clearsFor.isSome then s.discarded ++ s.ownOverflows else s.discarded }
  | .take =>
    s.callback.eventQueue.toList.head?.bind fun taken =>
      (NativeFileWatcherCallback.next s.callback .take).map fun callback =>
        { s with callback, owed := s.owed.filter fun path => ¬ Informs taken.1 path }

/-- A server that was just created, with an empty queue of the client. -/
def machine (capacity : ℕ) : Machine (Pipeline capacity) Label where
  start :=
    { system := Linux.machine.start
      callback := (NativeFileWatcherCallback.machine capacity).start
      toReport := []
      root := none
      roots := []
      handlingStart := 0
      owed := []
      discarded := [] }
  next := next

/-- When an overflow report clears the client's queue, it discards no overflow report made
for the same event, and every path that is owed an overflow event, also for the change
events that are discarded with the queue, is told by this report or by one that is still to
come. -/
def Spares (s : Pipeline capacity) : Label → Prop
  | .proceed => ∀ path ∈ s.clearsFor, s.ownOverflows = [] ∧
    ∀ other ∈ s.queuedRoots ++ s.owed,
      Informs (.overflowEvent .operatingSystem path) other ∨
        Report.reportOverflow (some other) ∈ s.toReport
  | _ => True

instance (s : Pipeline capacity) : (label : Label) → Decidable (s.Spares label)
  | .proceed => inferInstanceAs (Decidable (∀ path ∈ s.clearsFor, s.ownOverflows = [] ∧
      ∀ other ∈ s.queuedRoots ++ s.owed,
        Informs (.overflowEvent .operatingSystem path) other ∨
          Report.reportOverflow (some other) ∈ s.toReport))
  | .system _ | .handle _ | .processor _ | .report | .take => instDecidableTrue

/-- The client's queue holds an overflow event for the path. -/
def Told (s : Pipeline capacity) (path : U16String) : Prop :=
  ∃ x ∈ s.callback.eventQueue.toList, Informs x.1 path

/-- An overflow event for the path is in the client's queue, is about to be put there or is
still to be reported. -/
def Promised (s : Pipeline capacity) (path : U16String) : Prop :=
  s.Told path ∨
    (∃ event, .forceQueueEvent event ∈ s.callback.pending ∧ Informs event path) ∨
    Report.reportOverflow (some path) ∈ s.toReport

/-- Every owed path is promised an overflow event, and no overflow report was discarded by a
report for the same event. -/
structure Kept (s : Pipeline capacity) : Prop where
  promised : ∀ path ∈ s.owed, s.Promised path
  discarded : s.discarded = []

open NativeFileWatcherCallback (QueueOp)

variable {s t : Pipeline capacity} {label : Label}

/-- The callback goes through a run of its own. -/
theorem callback_reachable (reach : (machine capacity).Reachable s) :
    (NativeFileWatcherCallback.machine capacity).Reachable s.callback := by
  apply Machine.ReachableWhere.map Pipeline.callback reach rfl
  intro s label t _ step
  cases label with
  | system label =>
    -- The server and its calls leave the callback alone until a report is made.
    left
    simp only [machine, next] at step
    split_ifs at step
    obtain ⟨system, -, rfl⟩ := Option.map_eq_some_iff.mp step
    rfl
  | handle order =>
    left
    simp only [machine, next] at step
    split_ifs at step
    obtain ⟨event, -, step⟩ := Option.bind_eq_some_iff.mp step
    obtain ⟨handled, -, rfl⟩ := Option.map_eq_some_iff.mp step
    rfl
  | processor call =>
    left
    simp only [machine, next] at step
    split at step
    · split_ifs at step
      exact Option.some_inj.mp step ▸ rfl
    · split_ifs at step
      exact Option.some_inj.mp step ▸ rfl
    · cases step
  | report =>
    -- Reports, their operations on the queue and the consumer are steps of the callback.
    right
    simp only [machine, next] at step
    split at step
    · cases step
    · obtain ⟨callback, taken, rfl⟩ := Option.map_eq_some_iff.mp step
      exact ⟨.report _, trivial, taken⟩
  | proceed =>
    right
    obtain ⟨callback, taken, rfl⟩ := Option.map_eq_some_iff.mp step
    exact ⟨.proceed, trivial, taken⟩
  | take =>
    right
    obtain ⟨taken, -, step⟩ := Option.bind_eq_some_iff.mp step
    obtain ⟨callback, stepped, rfl⟩ := Option.map_eq_some_iff.mp step
    exact ⟨.take, trivial, stepped⟩

/-- In an idle state only the client's queue keeps promises. -/
theorem Promised.told {path : U16String} (h : s.Promised path) (idle : s.Idle) : s.Told path := by
  rcases h with told | ⟨event, mem, -⟩ | mem
  · exact told
  · rw [idle.2] at mem
    cases mem
  · rw [idle.1] at mem
    cases mem

/-- The handling of an overflow of the kernel's queue promises a report to every watched
path. -/
theorem Kept.handle {order : List U16String} (h : Kept s)
    (step : next s (.handle order) = some t) : Kept t := by
  simp only [next] at step
  split_ifs at step with idle
  obtain ⟨event, head, step⟩ := Option.bind_eq_some_iff.mp step
  obtain ⟨⟨system, reports⟩, handled, rfl⟩ := Option.map_eq_some_iff.mp step
  obtain ⟨event', buffer, -, next, visits, handled⟩ := System.handle_spec handled
  obtain rfl : event' = event := by simpa [next] using head
  refine ⟨fun path mem => ?_, h.discarded⟩
  rcases List.mem_append.mp mem with lost | owed
  · -- The event is an overflow of the kernel's queue.
    unfold lostToOverflow at lost
    split_ifs at lost with unmount overflow
    · cases lost
    · have reported : reports = order.map fun path => Report.reportOverflow (some path) := by
        simp only [System.dispatch, Server.handleEvent, if_neg unmount, if_pos overflow] at handled
        exact (Prod.mk.inj handled).2.symm
      exact .inr (.inr (by simpa [reported] using visits.mem_iff.mpr lost))
    · cases lost
  · exact .inl ((h.promised path owed).told idle)

/-- A promised report becomes an operation on the client's queue. -/
theorem Kept.report (h : Kept s) (step : next s .report = some t) : Kept t := by
  simp only [next] at step
  split at step
  · cases step
  next call toReport reports =>
    obtain ⟨callback, entered, rfl⟩ := Option.map_eq_some_iff.mp step
    obtain ⟨free, entered⟩ := NativeFileWatcherCallback.report_spec entered
    constructor
    case discarded => exact h.discarded
    case promised =>
      intro path mem
      have promised := h.promised path mem
      rw [Promised, reports, List.mem_cons] at promised
      rcases promised with told | ⟨event, here, -⟩ | same | later
      · left
        rcases entered with ⟨-, rfl⟩ | ⟨event, pending, -, rfl⟩ <;> exact told
      · rw [free] at here
        cases here
      · -- This is the report of the path itself.
        subst same
        rcases entered with ⟨refused, -⟩ | ⟨event, pending, enters, rfl⟩
        · cases refused
        · obtain ⟨-, rfl⟩ := Prod.mk.inj (Option.some_inj.mp enters)
          exact .inr (.inl ⟨.overflowEvent .operatingSystem (some path),
            by simp [NativeFileWatcherCallback.signalOverflow,
              NativeFileWatcherCallback.forceQueueEvent], rfl⟩)
      · exact .inr (.inr later)

/-- What a queue operation is about to put in the queue it does put there, and what is in
the queue stays unless it is cleared. -/
theorem Promised.proceed {path : U16String} (promised : s.Promised path)
    (phase : NativeFileWatcherCallback.Phase s.callback) (hcapacity : 2 ≤ capacity)
    {op : QueueOp} {rest : List QueueOp} (pending : s.callback.pending = op :: rest)
    (keeps : op ≠ .clear) {owed : List U16String} {discarded : List Stamped} :
    { s with
      callback := NativeFileWatcherCallback.perform s.callback rest op
      owed
      discarded }.Promised path := by
  cases op with
  | clear => exact absurd rfl keeps
  | queueEvent event deliverOnOverflow =>
    rcases NativeFileWatcherCallback.perform_queueEvent s.callback rest event deliverOnOverflow
      with ⟨eventQueue, queued, performed⟩ | ⟨-, performed⟩
    -- The event fits, or more steps come before those that were pending.
    · rw [performed]
      rcases promised with ⟨x, mem, informs⟩ | ⟨marker, mem, informs⟩ | later
      · exact .inl ⟨x, queued ▸ List.mem_append_left _ mem, informs⟩
      · refine .inr (.inl ⟨marker, ?_, informs⟩)
        simpa [pending] using mem
      · exact .inr (.inr later)
    · rw [performed]
      rcases promised with told | ⟨marker, mem, informs⟩ | later
      · exact .inl told
      · refine .inr (.inl ⟨marker, List.mem_append_right _ ?_, informs⟩)
        simpa [pending] using mem
      · exact .inr (.inr later)
  | forceQueueEvent event =>
    obtain ⟨eventQueue, queued, performed⟩ := NativeFileWatcherCallback.perform_forceQueueEvent
      rest event (phase.room hcapacity pending)
    rw [performed]
    rcases promised with ⟨x, mem, informs⟩ | ⟨marker, mem, informs⟩ | later
    · exact .inl ⟨x, queued ▸ List.mem_append_left _ mem, informs⟩
    · -- The marker is in the queue now, or it still comes.
      rw [pending, List.mem_cons] at mem
      rcases mem with same | mem
      · obtain rfl := QueueOp.forceQueueEvent.inj same
        exact .inl ⟨_, queued ▸ List.mem_append_right _ (List.mem_singleton_self _), informs⟩
      · exact .inr (.inl ⟨marker, mem, informs⟩)
    · exact .inr (.inr later)

/-- Once the client's queue was cleared for an overflow event, this event is promised. -/
theorem promised_clear {path : U16String} {type : OverflowType} {marked : Option U16String}
    {rest : List QueueOp} (informs : Informs (.overflowEvent type marked) path)
    {owed : List U16String} {discarded : List Stamped} :
    { s with
      callback := NativeFileWatcherCallback.perform s.callback
        (.forceQueueEvent (.overflowEvent type marked) :: rest) .clear
      owed
      discarded }.Promised path :=
  .inr (.inl ⟨.overflowEvent type marked, List.mem_cons_self, informs⟩)

/-- An operation on the client's queue that leaves no owed path behind. -/
theorem Kept.proceed (h : Kept s) (phase : NativeFileWatcherCallback.Phase s.callback)
    (hcapacity : 2 ≤ capacity) (meets : s.Spares .proceed) (step : next s .proceed = some t) :
    Kept t := by
  obtain ⟨callback, performed, rfl⟩ := Option.map_eq_some_iff.mp step
  obtain ⟨op, rest, pending, rfl⟩ := NativeFileWatcherCallback.proceed_spec performed
  -- Only a clearing takes promises away.
  by_cases clears : op = .clear
  · subst clears
    obtain ⟨⟨type, marked, rest', signals⟩, -⟩ := phase.clear_spec pending
    obtain rfl : rest = .forceQueueEvent (.overflowEvent type marked) :: rest' :=
      (List.cons.inj (pending.symm.trans signals)).2
    cases type with
    | operatingSystem =>
      have clearsFor : s.clearsFor = some marked := by simp [Pipeline.clearsFor, pending]
      -- The report of an operating-system overflow tells one path.
      obtain ⟨fresh, spared⟩ := meets marked clearsFor
      constructor
      · intro path mem
        simp only [pending, List.head?_cons, if_true] at mem
        rcases spared path mem with informs | later
        · exact promised_clear informs
        · exact .inr (.inr later)
      · simp [clearsFor, fresh, h.discarded]
    | eventQueue =>
      obtain ⟨-, rfl⟩ | ⟨other, -⟩ := phase.cause pending
      -- The overflow event of a full queue tells every path.
      · have everyone : ∀ path, Informs (.overflowEvent .eventQueue none) path := fun _ => trivial
        exact ⟨fun path _ => promised_clear (everyone path), by
          simp [Pipeline.clearsFor, pending, h.discarded]⟩
      · cases other
  · have clearsFor : s.clearsFor = none := by
      unfold Pipeline.clearsFor
      split
      next other => exact absurd (List.cons.inj (pending.symm.trans other)).1 clears
      next => rfl
    have head : s.callback.pending.head? ≠ some .clear := by simpa [pending] using clears
    constructor
    · intro path mem
      rw [if_neg head] at mem
      exact (h.promised path mem).proceed phase hcapacity pending clears
    · simp [clearsFor, h.discarded]

/-- The client takes the head of its queue. -/
theorem Kept.take (h : Kept s) (step : next s .take = some t) : Kept t := by
  obtain ⟨taken, head, step⟩ := Option.bind_eq_some_iff.mp step
  obtain ⟨callback, stepped, rfl⟩ := Option.map_eq_some_iff.mp step
  obtain ⟨first, queue, -, pending, -⟩ := NativeFileWatcherCallback.take_spec stepped
  obtain rfl : first = taken := by simpa [queue] using head
  refine ⟨fun path mem => ?_, h.discarded⟩
  obtain ⟨owed, untold⟩ := List.mem_filter.mp mem
  -- Had the taken event told the path, it would not be owed any more.
  rcases h.promised path owed with ⟨x, mem, informs⟩ | ⟨event, mem, informs⟩ | later
  · rw [queue] at mem
    rcases List.mem_cons.mp mem with rfl | mem
    · exact absurd informs (by simpa using untold)
    · exact .inl ⟨x, mem, informs⟩
  · exact .inr (.inl ⟨event, pending.symm ▸ mem, informs⟩)
  · exact .inr (.inr later)

theorem Kept.next (h : Kept s) (phase : NativeFileWatcherCallback.Phase s.callback)
    (hcapacity : 2 ≤ capacity) (meets : s.Spares label) (step : Pipeline.next s label = some t) :
    Kept t := by
  cases label with
  | system label =>
    simp only [Pipeline.next] at step
    split_ifs at step
    obtain ⟨system, -, rfl⟩ := Option.map_eq_some_iff.mp step
    exact ⟨h.promised, h.discarded⟩
  | handle order => exact h.handle step
  | processor call =>
    have promised : s.Idle → ∀ path ∈ s.owed, s.Told path := fun idle path mem =>
      (h.promised path mem).told idle
    simp only [Pipeline.next] at step
    split at step
    case h_3 => cases step
    all_goals
      split_ifs at step with idle
      obtain rfl := Option.some_inj.mp step
      exact ⟨fun path mem => .inl (promised idle path mem), h.discarded⟩
  | report => exact h.report step
  | proceed => exact h.proceed phase hcapacity meets step
  | take => exact h.take step

/-- At a capacity of at least two: if every overflow report that clears the client's queue
discards no report for the same event and leaves no owed path behind, then no overflow report
is discarded unseen, and whenever the run loop is idle, every path that is owed an overflow
event has one in the client's queue. -/
theorem covered_of_spares (hcapacity : 2 ≤ capacity) (s : Pipeline capacity)
    (reach : (machine capacity).ReachableWhere Spares s) :
    s.discarded = [] ∧ (s.Idle → ∀ path ∈ s.owed,
      ∃ x ∈ s.callback.eventQueue.toList, Informs x.1 path) := by
  have kept : Kept s := reach.invariant_of
    (fun _ reach => NativeFileWatcherCallback.Phase.of_reachable hcapacity
      (callback_reachable reach.reachable))
    ⟨by simp [machine], rfl⟩ fun _ _ _ phase h meets step => h.next phase hcapacity meets step
  exact ⟨kept.discarded, fun idle path mem => (kept.promised path mem).told idle⟩

/-- Two directories are registered, the kernel's queue overflows and `handleEvent` has two
reports to make. -/
def overflowRun : List Label :=
  let answers : ℕ → WatchDescriptor → RegisterAnswers := fun ino fresh =>
    { lstat := .ok ino, addWatch := .ok ⟨1, ino⟩, fresh }
  [.system (.registerPath (u16 "/a") (answers 7 1)), .system .enterWatchPoint,
    .system (.registerPath (u16 "/b") (answers 8 2)), .system .enterWatchPoint,
    .system (.kernel .overflow), .system (.read 1), .handle [u16 "/a", u16 "/b"]]

/-- The client takes the first overflow event before the second report is made. -/
def attentiveRun : List Label :=
  overflowRun ++ [.report, .proceed, .proceed, .take, .report, .proceed, .proceed]

theorem covered_of_spares_attentive :
    ∃ s : Pipeline 2, (machine 2).ReachableWhere Spares s ∧ s.owed = [u16 "/b"] ∧
      s.discarded = [] ∧ ∃ x ∈ s.callback.eventQueue.toList, Informs x.1 (u16 "/b") := by
  have computed : ((machine 2).execWhere Spares (machine 2).start attentiveRun).map (fun s =>
      (s.owed, decide s.Idle)) = some ([u16 "/b"], true) := by decide
  obtain ⟨s, reach, last⟩ := Machine.observe_of_execWhere computed
  simp only [Prod.mk.injEq, decide_eq_true_eq] at last
  obtain ⟨discarded, covered⟩ := covered_of_spares (by decide) s reach
  exact ⟨s, reach, last.1, discarded, covered last.2 _ (by simp [last.1])⟩

/-- The client takes nothing while both reports are made. -/
def inattentiveRun : List Label :=
  overflowRun ++ [.report, .proceed, .proceed, .report, .proceed, .proceed]

/-- Not every run keeps the overflow reports and tells every owed path: with two watched
paths the second report of one overflow discards the first. -/
theorem not_forall_covered :
    ¬ ∀ s : Pipeline 2, (machine 2).Reachable s → s.discarded = [] ∧ (s.Idle → ∀ path ∈ s.owed,
      ∃ x ∈ s.callback.eventQueue.toList, Informs x.1 path) := by
  intro always
  have computed : ((machine 2).exec (machine 2).start inattentiveRun).map (fun s =>
      (s.owed, decide s.Idle, s.callback.eventQueue.toList)) =
      some ([u16 "/b", u16 "/a"], true,
        [(.overflowEvent .operatingSystem (some (u16 "/b")), 1)]) := by decide
  obtain ⟨s, reach, last⟩ := Machine.observe_of_exec computed
  simp only [Prod.mk.injEq, decide_eq_true_eq] at last
  obtain ⟨owed, idle, queue⟩ := last
  obtain ⟨x, mem, informs⟩ :=
    (always s reach).2 idle (u16 "/a") (by simp [owed])
  rw [queue, List.mem_singleton] at mem
  subst mem
  exact absurd informs (by decide)

/-- Any other clearing discards an overflow report for the same event, or leaves an owed path
for which no overflow event is in the client's queue, about to be put there or still to be
reported. -/
theorem uncovered_of_not_spares (phase : NativeFileWatcherCallback.Phase s.callback)
    (refused : ¬ s.Spares label) (step : Pipeline.next s label = some t) :
    t.discarded ≠ s.discarded ∨ ∃ path ∈ t.owed, ¬ t.Promised path := by
  cases label with
  | system _ | handle _ | processor _ | report | take => exact absurd trivial refused
  | proceed =>
    obtain ⟨callback, performed, rfl⟩ := Option.map_eq_some_iff.mp step
    obtain ⟨op, ops, pending, rfl⟩ := NativeFileWatcherCallback.proceed_spec performed
    simp only [Spares, not_forall] at refused
    obtain ⟨marked, clears, refused⟩ := refused
    -- What clears the queue is an overflow report that found it full.
    obtain ⟨rest, signals⟩ : ∃ rest, s.callback.pending =
        .clear :: .forceQueueEvent (.overflowEvent .operatingSystem marked) :: rest := by
      unfold clearsFor at clears
      split at clears
      next path rest signals =>
        obtain rfl : path = marked := by simpa using clears
        exact ⟨rest, signals⟩
      next => cases clears
    obtain ⟨rfl, rfl⟩ := List.cons.inj (pending.symm.trans signals)
    obtain ⟨other, -⟩ | ⟨-, rfl⟩ := phase.cause signals
    · cases other
    have clearsFor : s.clearsFor = some marked := clears
    by_cases fresh : s.ownOverflows = []
    · right
      simp only [fresh, true_and, not_forall, not_or] at refused
      obtain ⟨other, mem, untold, unreported⟩ := refused
      refine ⟨other, by simpa [pending] using mem, ?_⟩
      -- The queue is empty now, and what comes next tells of another path.
      rintro (⟨x, queued, -⟩ | ⟨event, next, informs⟩ | later)
      · cases queued
      · obtain rfl : event = .overflowEvent .operatingSystem marked := by
          simpa [NativeFileWatcherCallback.perform] using next
        exact untold informs
      · exact unreported later
    · left
      simpa [clearsFor] using fresh

end Pipeline

end Linux

end FileEvents
