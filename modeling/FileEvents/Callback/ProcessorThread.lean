import FileEvents.Callback.Events
import FileEvents.Transition.Machine

/-!
# The processor thread of a watcher

The thread of `AbstractFileWatcher` (`AbstractFileEventFunctions.java`) beside a client that
may call `shutdown()` at any time. The thread initializes the run loop, counts down
`runLoopInitialized`, executes the run loop, and makes the last reports. `initializeRunLoop`
and `executeRunLoop` may report anything but the termination, for which the native side has
no method, and may each return or throw.

`shutdown()` sets the flag and calls `doShutdown`, and throws if the flag is set already. A
read of the flag returns what was written last.

## Main definitions

* `ProcessorThread.machine` — the thread and the client
* `ProcessorThread.Terminates` — one termination is reported, last, and a failure before it
  if there was one
* `ProcessorThread.Orderly` — the run loop is initialized, and `shutdown()` is not called
  just after it returns

## Main results

* `terminates_iff` — a thread that has ended terminates properly if and only if its run was
  orderly
-/

namespace FileEvents

open Transition

namespace ProcessorThread

/-- Where the thread is. -/
inductive Pc
  /-- In `initializeRunLoop`. -/
  | initializing
  /-- In `executeRunLoop`. -/
  | executing
  /-- `executeRunLoop` has returned, and the flag is looked at next. -/
  | returned
  /-- About to report a failure, in the `try` or in the `catch` block. -/
  | failed (ex : String)
  /-- In the `finally` block. -/
  | terminating
  /-- The thread has ended. -/
  | ended
  deriving DecidableEq, Repr

/-- How the run loop ended. -/
inductive Exit
  /-- `initializeRunLoop` has thrown. -/
  | initializeThrew
  /-- `executeRunLoop` has thrown. -/
  | executeThrew
  /-- `executeRunLoop` has returned, whether or not `shutdown()` had set the flag by then, and
  whether or not it did so because of `doShutdown`. -/
  | returned (requested onShutdown : Bool)
  deriving DecidableEq, Repr

/-- A call of the callback. -/
inductive Call
  /-- By the backend. -/
  | backend (report : Report)
  /-- By the thread itself. -/
  | processor (report : Report)
  deriving DecidableEq, Repr

/-- What is reported by a call. -/
def Call.report : Call → Report
  | .backend report | .processor report => report

/-- The thread and the client. -/
structure State where
  pc : Pc
  /-- The flag. -/
  shutdown : Bool
  /-- `doShutdown` was called. -/
  asked : Bool
  /-- How the run loop ended, if it has. -/
  exit : Option Exit
  /-- The calls of the callback so far. -/
  calls : List Call
  deriving DecidableEq

/-- What can happen next. -/
inductive Label
  /-- `initializeRunLoop` or `executeRunLoop` reports something. -/
  | report (report : Report)
  | initializeReturns
  | initializeThrows
  | executeReturns (onShutdown : Bool)
  | executeThrows (ex : String)
  /-- The thread looks at the flag. -/
  | lookAtShutdown
  | reportFailure
  | reportTermination
  /-- A client sets the flag. -/
  | setShutdown
  | doShutdown
  deriving DecidableEq, Repr

/-- "File watcher server did exit without being shutdown". -/
def exitWithoutShutdown : String := "File watcher server did exit without being shutdown"

namespace State

/-- The step function. -/
def next (s : State) : Label → Option State
  | .report report =>
    if (s.pc = .initializing ∨ s.pc = .executing) ∧ report ≠ .reportTermination then
      some { s with calls := s.calls ++ [.backend report] }
    else none
  | .initializeReturns =>
    if s.pc = .initializing then some { s with pc := .executing } else none
  | .initializeThrows =>
    -- This is outside of the `try` block.
    if s.pc = .initializing then some { s with pc := .ended, exit := some .initializeThrew }
    else none
  | .executeReturns onShutdown =>
    if s.pc = .executing ∧ (onShutdown = true → s.asked = true) then some
      { s with pc := .returned, exit := some (.returned s.shutdown onShutdown) }
    else none
  | .executeThrows ex =>
    if s.pc = .executing then some { s with pc := .failed ex, exit := some .executeThrew }
    else none
  | .lookAtShutdown =>
    if s.pc = .returned then some
      { s with pc := if s.shutdown then .terminating else .failed exitWithoutShutdown }
    else none
  | .reportFailure =>
    match s.pc with
    | .failed ex => some
        { s with pc := .terminating, calls := s.calls ++ [.processor (.reportFailure ex)] }
    | _ => none
  | .reportTermination =>
    if s.pc = .terminating then some
      { s with pc := .ended, calls := s.calls ++ [.processor .reportTermination] }
    else none
  -- `ensureOpen` throws if the flag is set.
  | .setShutdown => some { s with shutdown := true }
  | .doShutdown => if s.shutdown = true then some { s with asked := true } else none

end State

/-- A thread that was just started. -/
def machine : Machine State Label where
  start := { pc := .initializing, shutdown := false, asked := false, exit := none, calls := [] }
  next := State.next

/-- The thread has reported its termination once and last, a failure right before it if and
only if it ended by an exception or its run loop returned unasked, and no failure if the run
loop returned because of `doShutdown`. -/
structure Terminates (s : State) : Prop where
  once : (s.calls.map Call.report).count .reportTermination = 1
  last : (s.calls.map Call.report).getLast? = some .reportTermination
  failure : (∃ ex, [.processor (.reportFailure ex), .processor .reportTermination] <:+ s.calls) ↔
    s.exit = some .initializeThrew ∨ s.exit = some .executeThrew ∨
      ∃ onShutdown, s.exit = some (.returned false onShutdown)
  shutdown : ∀ requested, s.exit = some (.returned requested true) →
    ∀ ex, .processor (.reportFailure ex) ∉ s.calls

/-- `initializeRunLoop` does not throw, and nobody calls `shutdown()` for the first time
between the return of `executeRunLoop` and the look at the flag. -/
def Orderly (s : State) : Label → Prop
  | .initializeThrows => False
  | .setShutdown => s.pc = .returned → s.shutdown = true
  | _ => True

instance (s : State) : DecidablePred (Orderly s) := fun label =>
  match label with
  | .initializeThrows => instDecidableFalse
  | .setShutdown => inferInstanceAs (Decidable (s.pc = .returned → s.shutdown = true))
  | .report _ | .initializeReturns | .executeReturns _ | .executeThrows _ | .lookAtShutdown
  | .reportFailure | .reportTermination | .doShutdown => instDecidableTrue

/-- The steps of the thread and the client. -/
inductive Steps (s : State) : Label → State → Prop
  | report {report : Report} (running : s.pc = .initializing ∨ s.pc = .executing)
      (nonfinal : report ≠ .reportTermination) :
      Steps s (.report report) { s with calls := s.calls ++ [.backend report] }
  | initializeReturns (pc : s.pc = .initializing) :
      Steps s .initializeReturns { s with pc := .executing }
  | initializeThrows (pc : s.pc = .initializing) :
      Steps s .initializeThrows { s with pc := .ended, exit := some .initializeThrew }
  | executeReturns {onShutdown : Bool} (pc : s.pc = .executing)
      (asked : onShutdown = true → s.asked = true) :
      Steps s (.executeReturns onShutdown)
        { s with pc := .returned, exit := some (.returned s.shutdown onShutdown) }
  | executeThrows {ex : String} (pc : s.pc = .executing) :
      Steps s (.executeThrows ex) { s with pc := .failed ex, exit := some .executeThrew }
  | seen (pc : s.pc = .returned) (shutdown : s.shutdown = true) :
      Steps s .lookAtShutdown { s with pc := .terminating }
  | unseen (pc : s.pc = .returned) (shutdown : s.shutdown = false) :
      Steps s .lookAtShutdown { s with pc := .failed exitWithoutShutdown }
  | reportFailure {ex : String} (pc : s.pc = .failed ex) :
      Steps s .reportFailure
        { s with pc := .terminating, calls := s.calls ++ [.processor (.reportFailure ex)] }
  | reportTermination (pc : s.pc = .terminating) :
      Steps s .reportTermination
        { s with pc := .ended, calls := s.calls ++ [.processor .reportTermination] }
  | setShutdown : Steps s .setShutdown { s with shutdown := true }
  | doShutdown (shutdown : s.shutdown = true) : Steps s .doShutdown { s with asked := true }

/-- There are no other steps. -/
theorem steps_of_next {s t : State} {label : Label} (step : machine.next s label = some t) :
    Steps s label t := by
  cases label with
  | report report =>
    simp only [machine, State.next] at step
    split_ifs at step with enabled
    exact Option.some_inj.mp step ▸ .report enabled.1 enabled.2
  | initializeReturns =>
    simp only [machine, State.next] at step
    split_ifs at step with pc
    exact Option.some_inj.mp step ▸ .initializeReturns pc
  | initializeThrows =>
    simp only [machine, State.next] at step
    split_ifs at step with pc
    exact Option.some_inj.mp step ▸ .initializeThrows pc
  | executeReturns onShutdown =>
    simp only [machine, State.next] at step
    split_ifs at step with enabled
    exact Option.some_inj.mp step ▸ .executeReturns enabled.1 enabled.2
  | executeThrows ex =>
    simp only [machine, State.next] at step
    split_ifs at step with pc
    exact Option.some_inj.mp step ▸ .executeThrows pc
  | lookAtShutdown =>
    simp only [machine, State.next] at step
    split_ifs at step with pc shutdown
    · exact Option.some_inj.mp step ▸ .seen pc shutdown
    · exact Option.some_inj.mp step ▸ .unseen pc (by simpa using shutdown)
  | reportFailure =>
    simp only [machine, State.next] at step
    split at step
    next ex pc => exact Option.some_inj.mp step ▸ .reportFailure pc
    next => cases step
  | reportTermination =>
    simp only [machine, State.next] at step
    split_ifs at step with pc
    exact Option.some_inj.mp step ▸ .reportTermination pc
  | setShutdown => exact Option.some_inj.mp step ▸ .setShutdown
  | doShutdown =>
    simp only [machine, State.next] at step
    split_ifs at step with shutdown
    exact Option.some_inj.mp step ▸ .doShutdown shutdown

/-! ## What the thread has reported itself -/

/-- The thread has made these reports itself, after those of the backend. -/
def Made (calls : List Call) (own : List Report) : Prop :=
  ∃ reports : List Report, .reportTermination ∉ reports ∧
    calls = reports.map .backend ++ own.map .processor

/-- The run loop ended in a way that is reported as a failure. -/
def Exit.Failed (exit : Exit) : Prop := exit = .executeThrew ∨ exit = .returned false false

/-- The thread has reported a failure, or its run loop has returned. -/
def Finished (s : State) (last : List Report) : Prop :=
  (∃ ex exit, s.exit = some exit ∧ exit.Failed ∧ Made s.calls (.reportFailure ex :: last)) ∨
    ∃ requested onShutdown, s.exit = some (.returned requested onShutdown) ∧
      (onShutdown = true → requested = true) ∧ Made s.calls last

/-- What the thread has reported where it is. -/
def Stage (s : State) : Prop :=
  match s.pc with
  | .initializing | .executing => s.exit = none ∧ Made s.calls []
  | .returned => ∃ requested onShutdown, s.exit = some (.returned requested onShutdown) ∧
      (onShutdown = true → requested = true) ∧ (requested = true → s.shutdown = true) ∧
      Made s.calls []
  | .failed _ => (∃ exit, s.exit = some exit ∧ exit.Failed) ∧ Made s.calls []
  | .terminating => Finished s []
  | .ended => s.exit = some .initializeThrew ∧ Made s.calls [] ∨ Finished s [.reportTermination]

/-- `doShutdown` is called only after the flag was set. -/
structure Invariant (s : State) : Prop where
  stage : Stage s
  asked : s.asked = true → s.shutdown = true

section Made

variable {calls : List Call} {own : List Report} {report : Report} {ex : String}

theorem Made.backend (made : Made calls []) (nonfinal : report ≠ .reportTermination) :
    Made (calls ++ [.backend report]) [] := by
  obtain ⟨reports, silent, rfl⟩ := made
  exact ⟨reports ++ [report], by simp [silent, nonfinal.symm], by simp⟩

theorem Made.processor (made : Made calls own) :
    Made (calls ++ [.processor report]) (own ++ [report]) := by
  obtain ⟨reports, silent, rfl⟩ := made
  exact ⟨reports, silent, by simp⟩

theorem Made.mem_iff (made : Made calls own) : .processor report ∈ calls ↔ report ∈ own := by
  obtain ⟨reports, -, rfl⟩ := made
  simp

theorem Made.count (made : Made calls own) :
    (calls.map Call.report).count .reportTermination = own.count .reportTermination := by
  obtain ⟨reports, silent, rfl⟩ := made
  simp [Call.report, Function.comp_def, List.count_eq_zero.mpr silent]

theorem Made.getLast? (own : List Report) (made : Made calls (own ++ [report])) :
    (calls.map Call.report).getLast? = some report := by
  obtain ⟨reports, -, rfl⟩ := made
  simp [Call.report, ← List.append_assoc]

end Made

/-! ## How the thread ends -/

/-- Neither the failure of the initialization nor the unasked return of the run loop is going
to be reported. -/
def Astray (s : State) : Prop :=
  (s.exit = some .initializeThrew ∧ s.pc = .ended) ∨
    (∃ onShutdown, s.exit = some (.returned false onShutdown)) ∧
      (∀ ex, .processor (.reportFailure ex) ∉ s.calls) ∧
      (s.pc = .returned ∧ s.shutdown = true ∨ s.pc = .terminating ∨ s.pc = .ended)

section Run

variable {s t : State} {label : Label} {labels : List Label}

theorem Invariant.next (inv : Invariant s) (step : machine.next s label = some t) :
    Invariant t := by
  obtain ⟨stage, asked⟩ := inv
  cases steps_of_next step with
  | report running nonfinal =>
    refine ⟨?_, asked⟩
    rcases running with pc | pc <;> simp only [Stage, pc] at stage ⊢ <;>
      exact ⟨stage.1, stage.2.backend nonfinal⟩
  | initializeReturns pc =>
    simp only [Stage, pc] at stage
    exact ⟨stage, asked⟩
  | initializeThrows pc =>
    simp only [Stage, pc] at stage
    exact ⟨.inl ⟨rfl, stage.2⟩, asked⟩
  | executeReturns pc because =>
    simp only [Stage, pc] at stage
    exact ⟨⟨_, _, rfl, fun onShutdown => asked (because onShutdown), id, stage.2⟩, asked⟩
  | executeThrows pc =>
    simp only [Stage, pc] at stage
    exact ⟨⟨⟨_, rfl, .inl rfl⟩, stage.2⟩, asked⟩
  | seen pc shutdown =>
    simp only [Stage, pc] at stage
    obtain ⟨requested, onShutdown, exit, because, -, made⟩ := stage
    exact ⟨.inr ⟨requested, onShutdown, exit, because, made⟩, asked⟩
  | unseen pc shutdown =>
    simp only [Stage, pc] at stage
    obtain ⟨requested, onShutdown, exit, because, noted, made⟩ := stage
    -- The flag was not set before either.
    obtain rfl : requested = false := by
      by_contra set
      simp [noted (by simpa using set)] at shutdown
    obtain rfl : onShutdown = false := by
      by_contra set
      cases because (by simpa using set)
    exact ⟨⟨⟨_, exit, .inr rfl⟩, made⟩, asked⟩
  | reportFailure pc =>
    simp only [Stage, pc] at stage
    obtain ⟨⟨exit, ended, failed⟩, made⟩ := stage
    exact ⟨.inl ⟨_, exit, ended, failed, made.processor⟩, asked⟩
  | reportTermination pc =>
    simp only [Stage, pc] at stage
    refine ⟨.inr ?_, asked⟩
    rcases stage with ⟨ex, exit, ended, failed, made⟩ |
      ⟨requested, onShutdown, exit, because, made⟩
    · exact .inl ⟨ex, exit, ended, failed, made.processor⟩
    · exact .inr ⟨requested, onShutdown, exit, because, made.processor⟩
  | setShutdown =>
    refine ⟨?_, fun _ => rfl⟩
    cases pc : s.pc with
    | returned =>
      simp only [Stage, pc] at stage ⊢
      obtain ⟨requested, onShutdown, exit, because, -, made⟩ := stage
      exact ⟨requested, onShutdown, exit, because, fun _ => trivial, made⟩
    | _ => simpa [Stage, pc, Finished] using stage
  | doShutdown shutdown => exact ⟨stage, fun _ => shutdown⟩

theorem invariant_start : Invariant machine.start := by
  refine ⟨⟨rfl, [], ?_, rfl⟩, ?_⟩ <;> simp [machine]

/-- The thread goes astray with the first step that is not orderly. -/
theorem astray_iff_of_next (inv : Invariant s) (step : machine.next s label = some t) :
    Astray t ↔ Astray s ∨ ¬ Orderly s label := by
  obtain ⟨stage, -⟩ := inv
  cases steps_of_next step with
  | report running => rcases running with pc | pc <;> simp [Astray, Orderly, pc]
  | initializeReturns pc | executeThrows pc => simp [Astray, Orderly, pc]
  | initializeThrows pc => simp [Astray, Orderly]
  | executeReturns pc =>
    cases shutdown : s.shutdown <;> simp [Astray, Orderly, pc]
  | seen pc shutdown => simp [Astray, Orderly, pc, shutdown]
  | unseen pc shutdown => simp [Astray, Orderly, pc, shutdown]
  | @reportFailure ex pc =>
    -- A failure that is reported is in the calls from now on.
    have reported : ∃ ex', .processor (.reportFailure ex') ∈
        s.calls ++ [.processor (.reportFailure ex)] := ⟨ex, by simp⟩
    refine ⟨?_, by simp [Astray, Orderly, pc]⟩
    rintro (⟨-, ended⟩ | ⟨-, unreported, -⟩)
    · cases ended
    · exact absurd reported (not_exists.mpr unreported)
  | reportTermination pc =>
    simp only [Stage, pc] at stage
    -- A termination is not reported if the initialization has failed.
    have initialized : s.exit ≠ some .initializeThrew := by
      rcases stage with ⟨ex, exit, ended, rfl | rfl, -⟩ | ⟨requested, onShutdown, ended, -⟩ <;>
        simp [ended]
    simp [Astray, Orderly, pc, initialized]
  | setShutdown =>
    cases pc : s.pc with
    | returned =>
      simp only [Stage, pc] at stage
      obtain ⟨requested, onShutdown, exit, because, noted, made⟩ := stage
      have unreported : ∀ ex, .processor (.reportFailure ex) ∉ s.calls := fun ex =>
        made.mem_iff.not.mpr List.not_mem_nil
      cases requested <;> simp [Astray, Orderly, pc, exit, unreported, noted]
    | _ => simp [Astray, Orderly, pc]
  | doShutdown => simp [Astray, Orderly]

theorem Made.not_failed {calls : List Call} {ex : String}
    (made : Made calls [.reportTermination]) : .processor (.reportFailure ex) ∉ calls :=
  made.mem_iff.not.mpr (by simp)

/-- Without a failure the termination is all that the thread reports. -/
theorem terminates_of_returned {onShutdown : Bool}
    (exit : s.exit = some (.returned true onShutdown))
    (made : Made s.calls [.reportTermination]) : Terminates s where
  once := made.count
  last := made.getLast? []
  failure := by
    refine iff_of_false ?_ (by simp [exit])
    rintro ⟨ex, suffix⟩
    exact made.not_failed (suffix.mem List.mem_cons_self)
  shutdown := fun _ _ _ => made.not_failed

/-- A failure is reported right before the termination. -/
theorem terminates_of_failed {ex : String} {exit : Exit} (ended : s.exit = some exit)
    (failed : exit.Failed) (made : Made s.calls [.reportFailure ex, .reportTermination]) :
    Terminates s where
  once := made.count
  last := made.getLast? [.reportFailure ex]
  failure := by
    refine iff_of_true ⟨ex, ?_⟩ ?_
    · obtain ⟨reports, -, same⟩ := made
      exact ⟨reports.map .backend, same.symm⟩
    · rcases failed with rfl | rfl <;> simp [ended]
  shutdown := by
    intro requested onShutdown
    rcases failed with rfl | rfl <;> simp [ended] at onShutdown

/-- A thread that has ended terminates properly unless it has gone astray. -/
theorem terminates_iff_not_astray (inv : Invariant s) (ended : s.pc = .ended) :
    Terminates s ↔ ¬ Astray s := by
  have stage := inv.stage
  simp only [Stage, ended] at stage
  constructor
  · rintro terminates (⟨threw, -⟩ | ⟨⟨onShutdown, unasked⟩, unreported, -⟩)
    · rcases stage with ⟨-, made⟩ | finished
      · have once := terminates.once
        simp [made.count] at once
      · obtain ⟨ex, exit, other, rfl | rfl, -⟩ | ⟨requested, onShutdown, other, -⟩ := finished <;>
          simp [threw] at other
    · obtain ⟨ex, suffix⟩ := terminates.failure.mpr (.inr (.inr ⟨onShutdown, unasked⟩))
      exact unreported ex (suffix.mem List.mem_cons_self)
  · intro straight
    rcases stage with ⟨threw, -⟩ | ⟨ex, exit, how, failed, made⟩ |
      ⟨requested, onShutdown, exit, -, made⟩
    · exact absurd (.inl ⟨threw, ended⟩) straight
    · exact terminates_of_failed how failed made
    · cases requested with
      | true => exact terminates_of_returned exit made
      | false =>
        exact absurd (.inr ⟨⟨onShutdown, exit⟩, fun _ => made.not_failed, .inr (.inr ended)⟩)
          straight

/-- A thread that has ended has reported its termination once and last, a failure right
before it exactly if there was one, and no failure if it was shut down, if and only if its
run loop was initialized and `shutdown()` was not called just after it returned unasked. -/
theorem terminates_iff (labels : List Label) (s : State)
    (run : Machine.Run machine (fun _ _ => True) machine.start labels s) (ended : s.pc = .ended) :
    Terminates s ↔ Machine.Run machine Orderly machine.start labels s := by
  have inv : Invariant s := run.invariant (fun _ _ _ inv _ => inv.next) invariant_start
  rw [terminates_iff_not_astray inv ended]
  have init : ¬ Astray machine.start := by simp [Astray, machine]
  exact (run.meets_iff (fun _ _ _ inv => inv.next) (fun _ _ _ inv => astray_iff_of_next inv)
    invariant_start init).symm

/-- An event is reported and the run loop fails while the client shuts it down. -/
def failedRun : List Label :=
  [.initializeReturns, .report (.reportUnknownEvent (u16 "/a")), .setShutdown,
    .executeThrows "Couldn't poll for events", .doShutdown, .reportFailure, .reportTermination]

theorem terminates_iff_failed : ∃ s, s.pc = .ended ∧ Terminates s := by
  obtain ⟨s, run⟩ : ∃ s, machine.execWhere Orderly machine.start failedRun = some s :=
    Option.isSome_iff_exists.mp (by decide)
  have ended : s.pc = .ended := by
    have : (machine.execWhere Orderly machine.start failedRun).map State.pc = some .ended := by
      decide
    simpa [run] using this
  have orderly := Machine.run_of_execWhere run
  exact ⟨s, ended, (terminates_iff failedRun s (orderly.mono fun _ _ _ => trivial) ended).mpr
    orderly⟩

/-- The run loop cannot be initialized. -/
def uninitializedRun : List Label := [.initializeThrows]

/-- Not every processor thread that ends reports its termination. -/
theorem not_forall_terminates : ¬ ∀ s, machine.Reachable s → s.pc = .ended → Terminates s := by
  intro always
  have computed : (machine.exec machine.start uninitializedRun).map (fun s => (s.pc, s.calls)) =
    some (.ended, []) := by decide
  obtain ⟨s, reach, last⟩ := Machine.observe_of_exec computed
  simp only [Prod.mk.injEq] at last
  have once := (always s reach last.1).once
  simp [last.2] at once

end Run

end ProcessorThread

end FileEvents
