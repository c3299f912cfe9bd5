import FileEvents.Callback.OverflowGaps
import FileEvents.Callback.ProcessorThread
import FileEvents.Native.Lifecycle
import FileEvents.Transition.Parallel

/-!
# A watcher from its start to its end

The client, `processorThread` with the native run loop, and the callback with the queue and its
consumer, side by side. `AbstractWatcherBuilder.start` starts the thread, waits until
`runLoopInitialized` is counted down, and returns the watcher only if it was in time. Until then
the client cannot call anything.

While the thread is in a method of the callback it does nothing else.

## Main definitions

* `Watcher.machine` — the parts and the steps they take together
* `At` — where `processorThread` is, for the server and for itself

## Main results

* `invariant_thread`, `phase_callback` — every part goes through a run of its own
* `At.next`, `moves_of_advances` — the thread stays at one place
* `answer_of_next` — `awaitTermination` returns `true` only once it has joined the thread
-/

namespace FileEvents

open Transition Concurrency

namespace Watcher

/-- Where `AbstractWatcherBuilder.start` is. -/
inductive Start
  /-- About to start `processorThread`. -/
  | creating
  /-- In `runLoopInitialized.await`. -/
  | awaiting
  /-- The watcher was returned. -/
  | started
  /-- `FileWatcherTimeoutException` or `InterruptedException` was thrown. -/
  | threw
  deriving DecidableEq, Repr

/-- A watcher and its client. -/
structure State (capacity : ℕ) where
  lifecycle : Lifecycle.State
  thread : ProcessorThread.State
  callback : NativeFileWatcherCallback.State capacity
  start : Start
  /-- `runLoopInitialized` was counted down. -/
  runLoopInitialized : Bool

/-- What can happen next. -/
inductive Label
  -- the builder
  | launch
  /-- `runLoopInitialized.await` returns or throws. -/
  | awaitReturns (inTime : Bool)
  -- `processorThread`
  | report (report : Report)
  | initializeReturns
  | initializeThrows
  | countDown
  /-- `executeRunLoop` is entered. -/
  | enterRunLoop
  /-- A step of `executeRunLoop0`. -/
  | runLoop
  | abort
  | executeReturns (onShutdown : Bool)
  | executeThrows (ex : String)
  | lookAtShutdown
  | reportFailure (ex : String)
  | reportTermination
  /-- `run` returns. -/
  | ends
  -- the callback and the consumer of the queue
  | proceed
  | take
  -- the client
  | call (call : Lifecycle.Call)
  | doShutdown
  | awaitTermination (successful : Bool)
  | await
  | wake (wake : Wake)
  | join

namespace Label

/-- What it is for the client and the server. -/
def lifecycle : Label → Option Lifecycle.Label
  | launch => some .launch
  | initializeReturns | enterRunLoop | executeReturns _ | executeThrows _ | ends =>
    some .processor
  | initializeThrows => some .initializationFails
  | runLoop => some .executeRunLoop
  | abort => some .abort
  | call method => some (.call method)
  | awaitTermination successful => some (.awaitTermination successful)
  | await => some .await
  | wake reason => some (.wake reason)
  | join => some .join
  | awaitReturns _ | report _ | countDown | lookAtShutdown | reportFailure _ => none
  | reportTermination | proceed | take | doShutdown => none

/-- What it is for `processorThread`. -/
def thread : Label → Option ProcessorThread.Label
  | report what => some (.report what)
  | initializeReturns => some .initializeReturns
  | initializeThrows => some .initializeThrows
  | executeReturns onShutdown => some (.executeReturns onShutdown)
  | executeThrows ex => some (.executeThrows ex)
  | lookAtShutdown => some .lookAtShutdown
  | reportFailure _ => some .reportFailure
  | reportTermination => some .reportTermination
  | call .shutdown => some .setShutdown
  | doShutdown => some .doShutdown
  | call .startWatching | call .stopWatching | call .stopWatchingMovedPaths => none
  | launch | awaitReturns _ | countDown | enterRunLoop | runLoop | abort | ends => none
  | proceed | take | awaitTermination _ | await | wake _ | join => none

/-- What it is for the callback and the queue. -/
def callback : Label → Option NativeFileWatcherCallback.Label
  | report what => some (.report what)
  | reportFailure ex => some (.report (.reportFailure ex))
  | reportTermination => some (.report .reportTermination)
  | proceed => some .proceed
  | take => some .take
  | launch | awaitReturns _ | initializeReturns | initializeThrows | countDown => none
  | enterRunLoop | runLoop | abort | executeReturns _ | executeThrows _ => none
  | lookAtShutdown | ends | call _ | doShutdown | awaitTermination _ => none
  | await | wake _ | join => none

end Label

namespace State

variable {capacity : ℕ}

/-- The parts agree on the step. -/
def Enabled (s : State capacity) : Label → Prop
  | .launch => s.start = .creating
  | .awaitReturns inTime =>
    s.start = .awaiting ∧ (inTime = true → s.runLoopInitialized = true)
  | .report _ => s.lifecycle.processor = .started ∨
    s.lifecycle.processor = .executing ∧ s.lifecycle.native.runLoop = .running
  | .initializeReturns | .initializeThrows =>
    s.callback.pending = [] ∧ s.lifecycle.processor = .started
  | .countDown => s.lifecycle.processor = .initialized
  | .enterRunLoop => s.lifecycle.processor = .initialized ∧ s.runLoopInitialized = true
  | .runLoop | .abort | .lookAtShutdown => s.callback.pending = []
  | .executeReturns _ | .executeThrows _ =>
    s.callback.pending = [] ∧ s.lifecycle.processor = .executing
  | .reportFailure ex => s.thread.pc = .failed ex
  | .ends => s.callback.pending = [] ∧ s.lifecycle.processor = .reporting ∧ s.thread.pc = .ended
  | .call _ | .awaitTermination _ | .await | .wake _ | .join => s.start = .started
  | .reportTermination | .proceed | .take | .doShutdown => True

instance (s : State capacity) : DecidablePred s.Enabled := fun label => by
  cases label <;> unfold Enabled <;> infer_instance

/-- Where the builder is afterwards. -/
def startAfter (s : State capacity) : Label → Start
  | .launch => .awaiting
  | .awaitReturns inTime => if inTime then .started else .threw
  | _ => s.start

/-- Whether `runLoopInitialized` was counted down then. -/
def latchAfter (s : State capacity) : Label → Bool
  | .countDown => true
  | _ => s.runLoopInitialized

/-- The step function. -/
def next (s : State capacity) (label : Label) : Option (State capacity) :=
  if s.Enabled label then do
    let lifecycle ← Lifecycle.machine.advance s.lifecycle label.lifecycle
    let thread ← ProcessorThread.machine.advance s.thread label.thread
    let callback ←
      (NativeFileWatcherCallback.machine capacity).advance s.callback label.callback
    some
      { lifecycle, thread, callback
        start := s.startAfter label
        runLoopInitialized := s.latchAfter label }
  else none

end State

/-- A watcher that was just created, on an empty queue. -/
def machine (capacity : ℕ) : Machine (State capacity) Label where
  start :=
    { lifecycle := Lifecycle.machine.start
      thread := ProcessorThread.machine.start
      callback := (NativeFileWatcherCallback.machine capacity).start
      start := .creating
      runLoopInitialized := false }
  next := State.next

/-! ## The parts -/

/-- A step is one of each part. -/
structure Advances {capacity : ℕ} (s : State capacity) (label : Label) (t : State capacity) :
    Prop where
  enabled : s.Enabled label
  lifecycle : Lifecycle.machine.advance s.lifecycle label.lifecycle = some t.lifecycle
  thread : ProcessorThread.machine.advance s.thread label.thread = some t.thread
  callback : (NativeFileWatcherCallback.machine capacity).advance s.callback label.callback =
    some t.callback
  start : t.start = s.startAfter label
  runLoopInitialized : t.runLoopInitialized = s.latchAfter label

section Parts

variable {capacity : ℕ} {s t : State capacity} {label : Label}

theorem advances_of_next (step : (machine capacity).next s label = some t) :
    Advances s label t := by
  simp only [machine, State.next] at step
  split_ifs at step with enabled
  obtain ⟨lifecycle, first, step⟩ := Option.bind_eq_some_iff.mp step
  obtain ⟨thread, second, step⟩ := Option.bind_eq_some_iff.mp step
  obtain ⟨callback, third, step⟩ := Option.bind_eq_some_iff.mp step
  obtain rfl := Option.some_inj.mp step
  exact ⟨enabled, first, second, third, rfl, rfl⟩

theorem invariant_thread (reach : (machine capacity).Reachable s) :
    ProcessorThread.Invariant s.thread := by
  have own : ProcessorThread.machine.Reachable s.thread :=
    Machine.ReachableWhere.part reach State.thread Label.thread rfl (fun _ _ _ _ _ => trivial)
      fun _ _ _ step => (advances_of_next step).thread
  exact own.invariant ProcessorThread.invariant_start fun _ _ _ inv => inv.next

theorem phase_callback (hcapacity : 2 ≤ capacity) (reach : (machine capacity).Reachable s) :
    NativeFileWatcherCallback.Phase s.callback := by
  refine .of_reachable hcapacity ?_
  exact Machine.ReachableWhere.part reach State.callback Label.callback rfl
    (fun _ _ _ _ _ => trivial) fun _ _ _ step => (advances_of_next step).callback

end Parts

/-! ## Where the thread is -/

/-- The thread is at the same place for the server and for itself. -/
inductive At : Lifecycle.Processor → ProcessorThread.Pc → Prop
  | created : At .created .initializing
  | started : At .started .initializing
  | initialized : At .initialized .executing
  | executing : At .executing .executing
  | returned : At .reporting .returned
  | failed (ex : String) : At .reporting (.failed ex)
  | terminating : At .reporting .terminating
  | ended : At .reporting .ended
  | dead : At .dead .ended

/-- How the thread goes on. -/
inductive Moves : Label → Lifecycle.Processor → ProcessorThread.Pc → Lifecycle.Processor →
    ProcessorThread.Pc → Prop
  | launch {pc : ProcessorThread.Pc} : Moves .launch .created pc .started pc
  | initializeReturns :
      Moves .initializeReturns .started .initializing .initialized .executing
  | initializeThrows : Moves .initializeThrows .started .initializing .dead .ended
  | enterRunLoop {pc : ProcessorThread.Pc} : Moves .enterRunLoop .initialized pc .executing pc
  | executeReturns {onShutdown : Bool} :
      Moves (.executeReturns onShutdown) .executing .executing .reporting .returned
  | executeThrows {ex : String} :
      Moves (.executeThrows ex) .executing .executing .reporting (.failed ex)
  | seen {processor : Lifecycle.Processor} :
      Moves .lookAtShutdown processor .returned processor .terminating
  | unseen {processor : Lifecycle.Processor} {ex : String} :
      Moves .lookAtShutdown processor .returned processor (.failed ex)
  | reportFailure {processor : Lifecycle.Processor} {ex : String} :
      Moves (.reportFailure ex) processor (.failed ex) processor .terminating
  | reportTermination {processor : Lifecycle.Processor} :
      Moves .reportTermination processor .terminating processor .ended
  | ends : Moves .ends .reporting .ended .dead .ended
  | stays {label : Label} {processor : Lifecycle.Processor} {pc : ProcessorThread.Pc} :
      Moves label processor pc processor pc

theorem At.next {label : Label} {processor processor' : Lifecycle.Processor}
    {pc pc' : ProcessorThread.Pc} (place : At processor pc)
    (moves : Moves label processor pc processor' pc') : At processor' pc' := by
  cases moves <;> cases place <;> constructor

theorem At.ended_of_dead {pc : ProcessorThread.Pc} (place : At .dead pc) : pc = .ended := by
  cases place
  rfl

theorem At.executing_of_initialized {pc : ProcessorThread.Pc} (place : At .initialized pc) :
    pc = .executing := by
  cases place
  rfl

namespace Moves

variable {label : Label} {processor processor' : Lifecycle.Processor}
  {pc pc' : ProcessorThread.Pc}

theorem dead_cases (moves : Moves label processor pc .dead pc') :
    processor = .dead ∨ label = .initializeThrows ∨ label = .ends := by
  cases moves <;> simp

theorem ended_cases (moves : Moves label processor pc processor' .ended) :
    pc = .ended ∨ label = .initializeThrows ∨ label = .reportTermination := by
  cases moves <;> simp

theorem early_of_early (moves : Moves label processor pc processor' pc')
    (early : processor' = .created ∨ processor' = .started) :
    processor = .created ∨ processor = .started := by
  cases moves <;> simp_all

theorem dead_of_dead (moves : Moves label processor pc processor' pc')
    (dead : processor = .dead) : processor' = .dead := by
  cases moves <;> simp_all

end Moves

theorem Label.eq_initializeThrows {label : Label}
    (own : label.thread = some .initializeThrows) : label = .initializeThrows := by
  cases label with
  | initializeThrows => rfl
  | call call => cases call <;> cases own
  | _ => cases own

theorem Label.eq_join {label : Label} (own : label.lifecycle = some .join) : label = .join := by
  cases label with
  | join => rfl
  | _ => cases own

/-- Nothing that concerns the place of the thread has happened. -/
theorem Moves.of_same {label : Label} {processor processor' : Lifecycle.Processor}
    {pc pc' : ProcessorThread.Pc} (same : processor' = processor) (samePc : pc' = pc) :
    Moves label processor pc processor' pc' := by
  rw [same, samePc]
  exact .stays

section Lifecycle

variable {s t : Lifecycle.State} {label : Lifecycle.Label}

@[simp] theorem answer_run {method : Lifecycle.NativeMethod} :
    (s.run method).answer = s.answer := by
  unfold Lifecycle.State.run
  split_ifs <;> rfl

theorem invoke_frame (call : Lifecycle.Call) :
    (s.invoke call).processor = s.processor ∧ (s.invoke call).answer = s.answer := by
  cases call <;> unfold Lifecycle.State.invoke
  case stopWatchingMovedPaths => simp
  all_goals split_ifs <;> simp

theorem enterAwait_frame {successful : Bool} (entered : s.enterAwait successful = some t) :
    t.processor = s.processor ∧ (t.answer = s.answer ∨ t.answer = some false) := by
  unfold Lifecycle.State.enterAwait at entered
  split_ifs at entered with deleted believed
  · exact Option.some_inj.mp entered ▸ ⟨Lifecycle.processor_run, .inl answer_run⟩
  · exact Option.some_inj.mp entered ▸ ⟨Lifecycle.processor_run, .inr rfl⟩
  · obtain ⟨native, -, rfl⟩ := Option.map_eq_some_iff.mp entered
    exact ⟨rfl, .inl rfl⟩

theorem answer_stepAwait {step : Termination.Label} (stepped : s.stepAwait step = some t) :
    t.answer = s.answer ∨ t.answer = some false := by
  unfold Lifecycle.State.stepAwait at stepped
  split_ifs at stepped
  obtain ⟨native, -, rfl⟩ := Option.map_eq_some_iff.mp stepped
  split
  next => exact .inl rfl
  next => exact .inr rfl
  next => exact .inl rfl

/-- The client leaves the thread where it is, and so does the native run loop. -/
theorem processor_of_next (step : Lifecycle.machine.next s label = some t)
    (other : label ≠ .launch ∧ label ≠ .processor ∧ label ≠ .initializationFails) :
    t.processor = s.processor := by
  cases label with
  | launch | processor | initializationFails => simp at other
  | executeRunLoop | abort =>
    obtain ⟨-, native, -, rfl⟩ := Lifecycle.stepRunLoop_spec step
    exact Lifecycle.processor_run
  | call call =>
    simp only [Lifecycle.machine, Lifecycle.next] at step
    split_ifs at step
    exact Option.some_inj.mp step ▸ (invoke_frame call).1
  | awaitTermination successful =>
    simp only [Lifecycle.machine, Lifecycle.next] at step
    split_ifs at step
    exact (enterAwait_frame step).1
  | await | wake => exact (Lifecycle.stepAwait_spec step).2.1
  | join =>
    simp only [Lifecycle.machine, Lifecycle.next] at step
    split_ifs at step
    exact Option.some_inj.mp step ▸ rfl

end Lifecycle

section Watcher

variable {capacity : ℕ} {s t : State capacity} {label : Label}

theorem moves_of_advances (advances : Advances s label t) :
    Moves label s.lifecycle.processor s.thread.pc t.lifecycle.processor t.thread.pc := by
  obtain ⟨enabled, lifecycle, thread, -, -, -⟩ := advances
  obtain ⟨lifecycle', thread', callback', start', latch'⟩ := t
  dsimp only at lifecycle thread ⊢
  -- The steps of `run` in the order of its program.
  cases label with
  | launch =>
    simp only [Label.lifecycle, Label.thread, Machine.advance_none, Machine.advance_some,
      Lifecycle.machine, Lifecycle.next] at lifecycle thread
    split_ifs at lifecycle with created
    rw [← Option.some_inj.mp lifecycle, ← thread, created]
    exact .launch
  | initializeReturns =>
    simp only [Label.lifecycle, Label.thread, Machine.advance_some, Lifecycle.machine,
      Lifecycle.next, enabled.2] at lifecycle thread
    rw [← Option.some_inj.mp lifecycle, enabled.2]
    cases ProcessorThread.steps_of_next thread with
    | initializeReturns pc =>
      rw [pc]
      exact .initializeReturns
  | initializeThrows =>
    simp only [Label.lifecycle, Label.thread, Machine.advance_some, Lifecycle.machine,
      Lifecycle.next, enabled.2, if_true] at lifecycle thread
    rw [← Option.some_inj.mp lifecycle, enabled.2]
    cases ProcessorThread.steps_of_next thread with
    | initializeThrows pc =>
      rw [pc]
      exact .initializeThrows
  | enterRunLoop =>
    simp only [Label.lifecycle, Label.thread, Machine.advance_none, Machine.advance_some,
      Lifecycle.machine, Lifecycle.next, enabled.1] at lifecycle thread
    rw [← Option.some_inj.mp lifecycle, ← thread, enabled.1]
    exact .enterRunLoop
  | executeReturns onShutdown =>
    simp only [Label.lifecycle, Label.thread, Machine.advance_some, Lifecycle.machine,
      Lifecycle.next, enabled.2] at lifecycle thread
    split_ifs at lifecycle
    rw [← Option.some_inj.mp lifecycle, enabled.2]
    cases ProcessorThread.steps_of_next thread with
    | executeReturns pc =>
      rw [pc]
      exact .executeReturns
  | executeThrows ex =>
    simp only [Label.lifecycle, Label.thread, Machine.advance_some, Lifecycle.machine,
      Lifecycle.next, enabled.2] at lifecycle thread
    split_ifs at lifecycle
    rw [← Option.some_inj.mp lifecycle, enabled.2]
    cases ProcessorThread.steps_of_next thread with
    | executeThrows pc =>
      rw [pc]
      exact .executeThrows
  | lookAtShutdown =>
    simp only [Label.lifecycle, Label.thread, Machine.advance_none,
      Machine.advance_some] at lifecycle thread
    rw [← lifecycle]
    cases ProcessorThread.steps_of_next thread with
    | seen pc =>
      rw [pc]
      exact .seen
    | unseen pc =>
      rw [pc]
      exact .unseen
  | reportFailure ex =>
    simp only [Label.lifecycle, Label.thread, Machine.advance_none,
      Machine.advance_some] at lifecycle thread
    have failed : s.thread.pc = .failed ex := enabled
    rw [← lifecycle, failed]
    cases ProcessorThread.steps_of_next thread with
    | reportFailure pc => exact .reportFailure
  | reportTermination =>
    simp only [Label.lifecycle, Label.thread, Machine.advance_none,
      Machine.advance_some] at lifecycle thread
    rw [← lifecycle]
    cases ProcessorThread.steps_of_next thread with
    | reportTermination pc =>
      rw [pc]
      exact .reportTermination
  | ends =>
    obtain ⟨-, reporting, ended⟩ := enabled
    simp only [Label.lifecycle, Label.thread, Machine.advance_none, Machine.advance_some,
      Lifecycle.machine, Lifecycle.next, reporting] at lifecycle thread
    rw [← Option.some_inj.mp lifecycle, ← thread, reporting, ended]
    exact .ends
  -- The other steps are not steps of `run`.
  | awaitReturns | countDown | proceed | take =>
    rw [← Machine.advance_none.mp lifecycle, ← Machine.advance_none.mp thread]
    exact .stays
  | report | doShutdown =>
    rw [← Machine.advance_none.mp lifecycle]
    cases ProcessorThread.steps_of_next thread
    all_goals exact .stays
  | runLoop | abort | awaitTermination | await | wake | join =>
    rw [Label.lifecycle, Machine.advance_some] at lifecycle
    rw [← Machine.advance_none.mp thread]
    exact .of_same (processor_of_next lifecycle (by simp)) rfl
  | call call =>
    rw [Label.lifecycle, Machine.advance_some] at lifecycle
    refine .of_same (processor_of_next lifecycle (by simp)) ?_
    cases call with
    | startWatching | stopWatching | stopWatchingMovedPaths =>
      rw [Machine.advance_none.mp thread]
    | shutdown =>
      cases ProcessorThread.steps_of_next thread
      rfl

end Watcher

section Answer

variable {s t : Lifecycle.State} {label : Lifecycle.Label}

/-- `awaitTermination` returns `true` only where it has joined the thread. -/
theorem answer_of_next (step : Lifecycle.machine.next s label = some t)
    (answered : t.answer = some true) : s.answer = some true ∨
      label = .join ∧ (s.processor = .created ∨ s.processor = .dead) := by
  have kept (same : t.answer = s.answer ∨ t.answer = some false) : s.answer = some true := by
    rcases same with same | no
    · exact same.symm.trans answered
    · simp [no] at answered
  cases label with
  | launch | initializationFails =>
    simp only [Lifecycle.machine, Lifecycle.next] at step
    split_ifs at step
    exact .inl (kept (.inl (Option.some_inj.mp step ▸ by simp)))
  | processor =>
    simp only [Lifecycle.machine, Lifecycle.next] at step
    cases pc : s.processor <;> simp only [pc, reduceCtorEq] at step
    case executing =>
      split_ifs at step
      exact .inl (kept (.inl (Option.some_inj.mp step ▸ rfl)))
    all_goals exact .inl (kept (.inl (Option.some_inj.mp step ▸ by simp)))
  | executeRunLoop | abort =>
    obtain ⟨-, native, -, rfl⟩ := Lifecycle.stepRunLoop_spec step
    exact .inl (kept (.inl answer_run))
  | call call =>
    simp only [Lifecycle.machine, Lifecycle.next] at step
    split_ifs at step
    exact .inl (kept (.inl (Option.some_inj.mp step ▸ (invoke_frame call).2)))
  | awaitTermination successful =>
    simp only [Lifecycle.machine, Lifecycle.next] at step
    split_ifs at step
    exact .inl (kept (enterAwait_frame step).2)
  | await | wake => exact .inl (kept (answer_stepAwait step))
  | join =>
    simp only [Lifecycle.machine, Lifecycle.next] at step
    split_ifs at step
    obtain rfl := Option.some_inj.mp step
    exact .inr ⟨rfl, by simpa using answered⟩

end Answer

end Watcher

end FileEvents
