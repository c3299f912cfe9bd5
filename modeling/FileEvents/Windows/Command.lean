import FileEvents.Concurrency.Monitor
import FileEvents.Native.CppException
import FileEvents.Transition.Machine

/-!
# Commands

`Command` of `command.h`: the thread that calls `execute` schedules the command with the run
loop and waits for it under `executionMutex`; the run-loop thread runs the work, stores its
result or failure without holding the mutex and then notifies under it. The wait is a single
`wait_for` without a predicate, so it ends when it is notified, when its time is up or for no
reason at all.

Every lock operation, wait and access to `result` and `failure` is a step of its own. How
long a wait may last is left open. The work is known by what it returns or throws; what it
does to the server is not modelled here.

## Main definitions

* `State` — a command with its two threads
* `machine` — the orders in which they take their steps
* `NoEarlyWake` — no wait ends for no reason before the outcome is stored

## Main results

* `outcome_of_noEarlyWake` — then `execute` answers with the outcome of the work
* `waited_of_notified` — a notification always meets a caller that waits or has waited
-/

namespace FileEvents

open Transition Concurrency

namespace Windows

namespace Command

/-- The threads that use `executionMutex`. -/
inductive Thread | caller | runLoop
  deriving DecidableEq, Repr

/-- How `execute` ends. -/
inductive Outcome
  /-- `execute` returns `result`, which is `none` where nothing was assigned to it. -/
  | returned (result : Option Bool)
  /-- `execute` rethrows `failure`. -/
  | rethrew (failure : CppException)
  /-- `execute` throws "Execution timed out". -/
  | timedOut
  /-- `scheduleWithRunLoop` throws "Received error while queuing APC". -/
  | refused (errorCode : ErrorCode)
  deriving DecidableEq

/-- Where the caller is in `execute`. -/
inductive CallerPc
  /-- About to lock `executionMutex`. -/
  | locking
  /-- Holding the mutex, about to schedule the command. -/
  | scheduling
  /-- Holding the mutex, about to wait. -/
  | scheduled
  /-- Blocked in `wait_for`. -/
  | waiting
  /-- `wait_for` has returned, for the given reason. -/
  | resumed (wake : Wake)
  /-- The mutex is released, `execute` returns or throws. -/
  | ended (outcome : Outcome)
  deriving DecidableEq

/-- Where the run-loop thread is in `executeInsideRunLoop`. -/
inductive CallbackPc
  /-- The command was not scheduled yet. -/
  | unscheduled
  /-- The callback is queued. -/
  | queued
  /-- Inside `work()`. -/
  | working
  /-- `result` or `failure` is assigned. -/
  | stored
  /-- Holding `executionMutex`. -/
  | locked
  /-- The caller is notified. -/
  | notified
  /-- The mutex is released, `executeInsideRunLoop` returns. -/
  | finished
  deriving DecidableEq, Repr

/-- `Command`, with the two threads that use it. -/
structure State where
  /-- `executionMutex` with `executed`. -/
  executionMutex : Monitor Thread
  /-- `result`, `none` until something is assigned to it. -/
  result : Option Bool
  failure : Option CppException
  caller : CallerPc
  callback : CallbackPc
  /-- What the work returned or threw, each time it was run. -/
  runs : List (Except CppException Bool)
  deriving DecidableEq

/-- What can happen next. -/
inductive Label
  /-- The caller takes its next step. -/
  | execute
  /-- `scheduleWithRunLoop` throws. -/
  | refuse (errorCode : ErrorCode)
  /-- The caller's `wait_for` returns. -/
  | wake (wake : Wake)
  /-- The run-loop thread takes its next step. -/
  | executeInsideRunLoop
  /-- The work returns or throws. -/
  | work (outcome : Except CppException Bool)
  deriving DecidableEq

namespace State

/-- How `execute` answers, given the status of its wait. -/
def answer (s : State) : Wake → Outcome
  | .timeout => .timedOut
  | .notified | .spurious =>
    match s.failure with
    | some failure => .rethrew failure
    | none => .returned s.result

/-- The next step of `execute`. -/
def execute (s : State) : Option State :=
  match s.caller with
  | .locking => (s.executionMutex.acquire .caller).map fun executionMutex =>
      { s with executionMutex, caller := .scheduling }
  | .scheduling => some { s with callback := .queued, caller := .scheduled }
  | .scheduled => some
      { s with executionMutex := s.executionMutex.wait .caller, caller := .waiting }
  | .waiting | .ended _ => none
  | .resumed wake => some
      { s with
        executionMutex := s.executionMutex.release
        caller := .ended (s.answer wake) }

/-- The next step of `executeInsideRunLoop`. -/
def executeInsideRunLoop (s : State) : Option State :=
  match s.callback with
  | .unscheduled | .working | .finished => none
  | .queued => some { s with callback := .working }
  | .stored => (s.executionMutex.acquire .runLoop).map fun executionMutex =>
      { s with executionMutex, callback := .locked }
  | .locked => some
      { s with executionMutex := s.executionMutex.notifyAll, callback := .notified }
  | .notified => some
      { s with executionMutex := s.executionMutex.release, callback := .finished }

/-- The outcome of the work is stored. -/
def store (s : State) (outcome : Except CppException Bool) : State :=
  match outcome with
  | .ok result =>
    { s with result := some result, callback := .stored, runs := s.runs ++ [outcome] }
  | .error failure =>
    { s with failure := some failure, callback := .stored, runs := s.runs ++ [outcome] }

/-- The step function of the two threads. -/
def next (s : State) : Label → Option State
  | .execute => s.execute
  | .refuse errorCode =>
    if s.caller = .scheduling then some
      { s with
        executionMutex := s.executionMutex.release
        caller := .ended (.refused errorCode) }
    else none
  | .wake wake =>
    if s.caller = .waiting then
      (s.executionMutex.resume .caller wake).map fun executionMutex =>
        { s with executionMutex, caller := .resumed wake }
    else none
  | .executeInsideRunLoop => s.executeInsideRunLoop
  | .work outcome => if s.callback = .working then some (s.store outcome) else none

end State

/-- A command that `execute` was just called for. -/
def machine : Machine State Label where
  start :=
    { executionMutex := .free
      result := none
      failure := none
      caller := .locking
      callback := .unscheduled
      runs := [] }
  next := State.next

/-- The steps of the two threads. -/
inductive Steps (s : State) : Label → State → Prop
  | lock {executionMutex : Monitor Thread} (pc : s.caller = .locking)
      (acquired : s.executionMutex.acquire .caller = some executionMutex) :
      Steps s .execute { s with executionMutex, caller := .scheduling }
  | schedule (pc : s.caller = .scheduling) :
      Steps s .execute { s with callback := .queued, caller := .scheduled }
  | wait (pc : s.caller = .scheduled) :
      Steps s .execute
        { s with executionMutex := s.executionMutex.wait .caller, caller := .waiting }
  | answer {wake : Wake} (pc : s.caller = .resumed wake) :
      Steps s .execute
        { s with
          executionMutex := s.executionMutex.release
          caller := .ended (s.answer wake) }
  | refuse {errorCode : ErrorCode} (pc : s.caller = .scheduling) :
      Steps s (.refuse errorCode)
        { s with
          executionMutex := s.executionMutex.release
          caller := .ended (.refused errorCode) }
  | wake {executionMutex : Monitor Thread} {wake : Wake} (pc : s.caller = .waiting)
      (resumed : s.executionMutex.resume .caller wake = some executionMutex) :
      Steps s (.wake wake) { s with executionMutex, caller := .resumed wake }
  | begin (pc : s.callback = .queued) :
      Steps s .executeInsideRunLoop { s with callback := .working }
  | store {outcome : Except CppException Bool} (pc : s.callback = .working) :
      Steps s (.work outcome) (s.store outcome)
  | lockRunLoop {executionMutex : Monitor Thread} (pc : s.callback = .stored)
      (acquired : s.executionMutex.acquire .runLoop = some executionMutex) :
      Steps s .executeInsideRunLoop { s with executionMutex, callback := .locked }
  | notify (pc : s.callback = .locked) :
      Steps s .executeInsideRunLoop
        { s with executionMutex := s.executionMutex.notifyAll, callback := .notified }
  | unlock (pc : s.callback = .notified) :
      Steps s .executeInsideRunLoop
        { s with executionMutex := s.executionMutex.release, callback := .finished }

/-- There are no other steps. -/
theorem steps_of_next {s t : State} {label : Label} (step : s.next label = some t) :
    Steps s label t := by
  cases label with
  | execute =>
    simp only [State.next, State.execute] at step
    cases pc : s.caller <;> simp only [pc, Option.map_eq_some_iff, reduceCtorEq,
      Option.some.injEq] at step
    case locking =>
      obtain ⟨executionMutex, acquired, rfl⟩ := step
      exact .lock pc acquired
    case scheduling => exact step ▸ .schedule pc
    case scheduled => exact step ▸ .wait pc
    case resumed wake => exact step ▸ .answer pc
  | refuse errorCode =>
    simp only [State.next] at step
    split_ifs at step with pc
    exact Option.some_inj.mp step ▸ .refuse pc
  | wake wake =>
    simp only [State.next] at step
    split_ifs at step with pc
    obtain ⟨executionMutex, resumed, rfl⟩ := Option.map_eq_some_iff.mp step
    exact .wake pc resumed
  | executeInsideRunLoop =>
    simp only [State.next, State.executeInsideRunLoop] at step
    cases pc : s.callback <;> simp only [pc, Option.map_eq_some_iff, reduceCtorEq,
      Option.some.injEq] at step
    case queued => exact step ▸ .begin pc
    case stored =>
      obtain ⟨executionMutex, acquired, rfl⟩ := step
      exact .lockRunLoop pc acquired
    case locked => exact step ▸ .notify pc
    case notified => exact step ▸ .unlock pc
  | work outcome =>
    simp only [State.next] at step
    split_ifs at step with pc
    exact Option.some_inj.mp step ▸ .store pc

/-! ## The order of the steps -/

/-- The caller holds `executionMutex`. -/
def CallerPc.HoldsMutex (pc : CallerPc) : Prop :=
  pc = .scheduling ∨ pc = .scheduled ∨ ∃ wake, pc = .resumed wake

/-- The caller has not begun to wait. -/
def CallerPc.BeforeWait (pc : CallerPc) : Prop :=
  pc = .locking ∨ pc = .scheduling ∨ pc = .scheduled

/-- The run-loop thread holds `executionMutex`. -/
def CallbackPc.HoldsMutex (pc : CallbackPc) : Prop := pc = .locked ∨ pc = .notified

/-- The caller is notified. -/
def CallbackPc.Notified (pc : CallbackPc) : Prop := pc = .notified ∨ pc = .finished

/-- The work has returned or thrown. -/
def CallbackPc.Stored (pc : CallbackPc) : Prop :=
  pc = .stored ∨ pc = .locked ∨ pc.Notified

instance : DecidablePred CallbackPc.Stored := fun pc =>
  inferInstanceAs (Decidable (pc = .stored ∨ pc = .locked ∨ pc = .notified ∨ pc = .finished))

/-- The outcome of the work as far as `result` and `failure` show it. -/
def State.outcome (s : State) : Option (Except CppException Bool) :=
  match s.failure with
  | some failure => some (.error failure)
  | none => s.result.map .ok

/-- The mutex is held by the thread whose program counter says so, and the callback is queued
by the caller. -/
structure LockInvariant (s : State) : Prop where
  caller_holds : s.caller.HoldsMutex ↔ s.executionMutex.holder = some .caller
  runLoop_holds : s.callback.HoldsMutex ↔ s.executionMutex.holder = some .runLoop
  unscheduled : s.caller = .locking ∨ s.caller = .scheduling → s.callback = .unscheduled

/-- `result` and `failure` show what the work did when it was run, which is once. -/
structure Recorded (s : State) : Prop where
  runs : s.runs = s.outcome.toList
  stored_iff : s.callback.Stored ↔ s.outcome.isSome = true

/-- A caller that is blocked waits for the notification or was notified, and none begins to
wait after the notification. -/
structure WaitInvariant (s : State) : Prop where
  blocked : s.caller = .waiting →
    .caller ∈ s.executionMutex.waiting ∨ .caller ∈ s.executionMutex.woken
  woken : .caller ∈ s.executionMutex.woken → s.callback.Notified
  waited : s.callback.Notified →
    ¬ s.caller.BeforeWait ∧ .caller ∉ s.executionMutex.waiting

variable {s t : State} {label : Label}

/-- A step keeps the mutex with the thread whose program counter holds it. -/
theorem LockInvariant.next (lock : LockInvariant s) (step : s.next label = some t) :
    LockInvariant t := by
  obtain ⟨caller_holds, runLoop_holds, unscheduled⟩ := lock
  cases steps_of_next step with
  | lock pc acquired | lockRunLoop pc acquired =>
    -- The mutex was free, so the other thread does not hold it.
    obtain ⟨free, holder, -⟩ := Monitor.acquire_spec acquired
    constructor <;> simp_all [CallerPc.HoldsMutex, CallbackPc.HoldsMutex]
  | wake pc resumed =>
    obtain ⟨free, holder, -⟩ := Monitor.resume_spec resumed
    constructor <;> simp_all [CallerPc.HoldsMutex]
  | schedule pc | wait pc | answer pc | refuse pc =>
    constructor <;> simp_all [CallerPc.HoldsMutex, CallbackPc.HoldsMutex]
  | begin pc | notify pc | unlock pc =>
    constructor <;> simp_all [CallbackPc.HoldsMutex]
  | @store outcome pc =>
    cases outcome <;> constructor <;> simp_all [CallbackPc.HoldsMutex, State.store]

theorem lockInvariant (reach : machine.Reachable s) : LockInvariant s := by
  refine reach.invariant ?_ fun _ _ _ lock => lock.next
  constructor <;> simp [machine, CallerPc.HoldsMutex, CallbackPc.HoldsMutex]

/-- The callback is queued unless the caller has not come to that or was refused. -/
theorem scheduled (reach : machine.Reachable s) (pc : s.callback = .unscheduled) :
    s.caller = .locking ∨ s.caller = .scheduling ∨
      ∃ errorCode, s.caller = .ended (.refused errorCode) := by
  refine reach.invariant (I := fun s => s.callback = .unscheduled → s.caller = .locking ∨
    s.caller = .scheduling ∨ ∃ errorCode, s.caller = .ended (.refused errorCode)) ?_ ?_ pc
  · exact fun _ => .inl rfl
  · intro s label t before step pc
    cases steps_of_next step with
    | lock => exact .inr (.inl rfl)
    | refuse => exact .inr (.inr ⟨_, rfl⟩)
    | schedule | begin | lockRunLoop | notify | unlock => cases pc
    | wait pc' | answer pc' | wake pc' => exact absurd (before pc) (by simp [pc'])
    | @store outcome => cases outcome <;> cases pc

/-- Only the end of the work changes what `result` and `failure` show. -/
theorem Recorded.next (lock : LockInvariant s) (recorded : Recorded s)
    (step : s.next label = some t) : Recorded t := by
  obtain ⟨runs, stored_iff⟩ := recorded
  cases steps_of_next step with
  | lock | wait | answer | refuse | wake => exact ⟨runs, stored_iff⟩
  | schedule pc =>
    have pc' := lock.unscheduled (.inr pc)
    exact ⟨runs, by simp_all [CallbackPc.Stored, CallbackPc.Notified, State.outcome]⟩
  | begin pc | lockRunLoop pc | notify pc | unlock pc =>
    exact ⟨runs, by simp_all [CallbackPc.Stored, CallbackPc.Notified, State.outcome]⟩
  | @store outcome pc =>
    -- Nothing was stored before, so this is the first outcome.
    have nothing : s.outcome = none := by
      rw [pc] at stored_iff
      simpa [CallbackPc.Stored, CallbackPc.Notified] using stored_iff
    have unset : s.failure = none := by
      cases failed : s.failure with
      | none => rfl
      | some ex => simp [State.outcome, failed] at nothing
    rw [nothing] at runs
    cases outcome with
    | ok result =>
      constructor <;> simp [State.store, State.outcome, CallbackPc.Stored, unset, runs]
    | error ex =>
      constructor <;> simp [State.store, State.outcome, CallbackPc.Stored, runs]

theorem recorded (reach : machine.Reachable s) : Recorded s := by
  refine reach.invariant_of (J := LockInvariant) (fun _ reach => lockInvariant reach) ?_
    fun _ _ _ lock recorded _ step => recorded.next lock step
  constructor <;> simp [machine, State.outcome, CallbackPc.Stored, CallbackPc.Notified]

/-- A step loses no notification. -/
theorem WaitInvariant.next (lock : LockInvariant s) (inv : WaitInvariant s)
    (step : s.next label = some t) : WaitInvariant t := by
  obtain ⟨blocked, woken, waited⟩ := inv
  -- As long as the caller is about to schedule the command, nobody runs it.
  have unnotified : s.caller = .locking ∨ s.caller = .scheduling → ¬ s.callback.Notified :=
    fun pc notified => by simp [lock.unscheduled pc, CallbackPc.Notified] at notified
  cases steps_of_next step with
  | lock pc acquired =>
    obtain ⟨-, -, sameWoken⟩ := Monitor.acquire_spec acquired
    have sameWaiting := Monitor.waiting_of_acquire acquired
    exact ⟨by simp, by rwa [sameWoken], fun notified => absurd notified (unnotified (.inl pc))⟩
  | schedule pc =>
    refine ⟨by simp, fun mem => absurd (woken mem) (unnotified (.inr pc)), fun notified => ?_⟩
    simp [CallbackPc.Notified] at notified
  | wait pc =>
    refine ⟨by simp, woken, fun notified => ?_⟩
    exact absurd (.inr (.inr pc)) (waited notified).1
  | answer pc | refuse pc =>
    exact ⟨by simp, woken, fun notified => ⟨by simp [CallerPc.BeforeWait], (waited notified).2⟩⟩
  | wake pc resumed =>
    obtain ⟨-, -, sameWoken, -⟩ := Monitor.resume_spec resumed
    have sameWaiting := Monitor.waiting_of_resume resumed
    refine ⟨by simp, fun mem => woken ?_, fun notified => ⟨by simp [CallerPc.BeforeWait], ?_⟩⟩
    · rw [sameWoken] at mem
      exact List.mem_of_mem_erase mem
    · rw [sameWaiting]
      exact fun mem => (waited notified).2 (List.mem_of_mem_erase mem)
  | begin pc =>
    refine ⟨blocked, fun mem => ?_, fun notified => ?_⟩
    · simpa [pc, CallbackPc.Notified] using woken mem
    · simp [CallbackPc.Notified] at notified
  | @store outcome pc =>
    cases outcome with
    | ok | error =>
      refine ⟨blocked, fun mem => ?_, fun notified => ?_⟩
      · simpa [pc, CallbackPc.Notified] using woken mem
      · simp [State.store, CallbackPc.Notified] at notified
  | lockRunLoop pc acquired =>
    obtain ⟨-, -, sameWoken⟩ := Monitor.acquire_spec acquired
    have sameWaiting := Monitor.waiting_of_acquire acquired
    refine ⟨fun waits => ?_, fun mem => ?_, fun notified => ?_⟩
    · rw [sameWaiting, sameWoken]
      exact blocked waits
    · simpa [pc, CallbackPc.Notified] using woken (sameWoken ▸ mem)
    · simp [CallbackPc.Notified] at notified
  | notify pc =>
    refine ⟨fun waits => .inr ?_, fun _ => .inl rfl, fun _ => ⟨?_, by simp⟩⟩
    · exact List.mem_append.mpr (blocked waits)
    · -- The run loop holds the mutex, and the callback was scheduled.
      have holder : s.executionMutex.holder = some .runLoop := lock.runLoop_holds.mp (.inl pc)
      have outside : ¬ s.caller.HoldsMutex := by
        rw [lock.caller_holds, holder]
        simp
      rintro (before | before | before)
      · have queued := lock.unscheduled (.inl before)
        simp [pc] at queued
      · exact outside (.inl before)
      · exact outside (.inr (.inl before))
  | unlock pc => exact ⟨blocked, fun _ => .inr rfl, fun _ => waited (.inl pc)⟩

theorem waitInvariant (reach : machine.Reachable s) : WaitInvariant s := by
  refine reach.invariant_of (J := LockInvariant) (fun _ reach => lockInvariant reach) ?_
    fun _ _ _ lock inv _ step => inv.next lock step
  constructor <;> simp [machine, CallbackPc.Notified]

/-- Once the run loop has notified the command, the caller does not begin to wait; if it is
still blocked, it is one of those that were woken. -/
theorem waited_of_notified (reach : machine.Reachable s) (notified : s.callback.Notified) :
    ¬ s.caller.BeforeWait ∧
      (s.caller = .waiting → .caller ∈ s.executionMutex.woken) := by
  have inv := waitInvariant reach
  obtain ⟨after, unblocked⟩ := inv.waited notified
  exact ⟨after, fun waits => (inv.blocked waits).resolve_left unblocked⟩

/-! ## The answer of `execute` -/

/-- A wait that ends for no reason at all ends only once the outcome is stored. -/
def NoEarlyWake (s : State) (label : Label) : Prop :=
  label = .wake .spurious → s.callback.Stored

instance (s : State) (label : Label) : Decidable (NoEarlyWake s label) :=
  inferInstanceAs (Decidable (label = .wake .spurious → s.callback.Stored))

/-- The answer of `execute` is the outcome of the work, and the caller goes on only once it
is stored, unless its time is up. -/
structure Answered (s : State) : Prop where
  resumed : ∀ wake, s.caller = .resumed wake → wake ≠ .timeout → s.callback.Stored
  returned : ∀ result, s.caller = .ended (.returned result) →
    ∃ v, result = some v ∧ s.runs = [.ok v]
  rethrew : ∀ failure, s.caller = .ended (.rethrew failure) → s.runs = [.error failure]

/-- With the outcome stored, the caller answers with it. -/
theorem answer_spec (recorded : Recorded s) (stored : s.callback.Stored) {wake : Wake}
    (inTime : wake ≠ .timeout) :
    (∃ v, s.answer wake = .returned (some v) ∧ s.runs = [.ok v]) ∨
      ∃ failure, s.answer wake = .rethrew failure ∧ s.runs = [.error failure] := by
  have answer_eq : s.answer wake = match s.failure with
      | some failure => .rethrew failure
      | none => .returned s.result := by
    cases wake with
    | timeout => exact absurd rfl inTime
    | notified | spurious => rfl
  have some_outcome := recorded.stored_iff.mp stored
  rw [answer_eq, recorded.runs]
  unfold State.outcome at some_outcome ⊢
  cases failed : s.failure with
  | some failure => exact .inr ⟨failure, rfl, rfl⟩
  | none =>
    cases assigned : s.result with
    | some v => exact .inl ⟨v, rfl, rfl⟩
    | none => simp [failed, assigned] at some_outcome

/-- A step that does not wake the caller too early keeps its answer right. -/
theorem Answered.next (recorded : Recorded s) (wait : WaitInvariant s)
    (answered : Answered s) (meets : NoEarlyWake s label) (step : s.next label = some t) :
    Answered t := by
  obtain ⟨resumed, returned, rethrew⟩ := answered
  cases steps_of_next step with
  | lock | schedule | wait | refuse => exact ⟨by simp, by simp, by simp⟩
  | @answer wake pc =>
    by_cases inTime : wake = .timeout
    · subst inTime
      exact ⟨by simp, by simp [State.answer], by simp [State.answer]⟩
    · rcases answer_spec recorded (resumed wake pc inTime) inTime with
        ⟨v, answer, runs⟩ | ⟨failure, answer, runs⟩
      · exact ⟨by simp, by simp [answer, runs], by simp [answer]⟩
      · exact ⟨by simp, by simp [answer], by simp [answer, runs]⟩
  | @wake executionMutex wake pc resume =>
    refine ⟨fun wake' same reason => ?_, by simp, by simp⟩
    obtain rfl : wake = wake' := by simpa using same
    obtain ⟨-, -, -, notified⟩ := Monitor.resume_spec resume
    cases wake with
    | notified => exact .inr (.inr (wait.woken (notified rfl)))
    | timeout => exact absurd rfl reason
    | spurious => exact meets rfl
  | begin pc =>
    refine ⟨fun wake pc' inTime => ?_, returned, rethrew⟩
    simpa [pc, CallbackPc.Stored, CallbackPc.Notified] using resumed wake pc' inTime
  | @store outcome pc =>
    -- The work was not run before, so nobody has answered for it.
    have unstored : ¬ s.callback.Stored := by
      simp [pc, CallbackPc.Stored, CallbackPc.Notified]
    have none : s.runs = [] := by
      rw [recorded.runs]
      rw [recorded.stored_iff] at unstored
      simpa using unstored
    have stored : (s.store outcome).callback.Stored := by
      cases outcome <;> exact .inl rfl
    have same : (s.store outcome).caller = s.caller := by cases outcome <;> rfl
    refine ⟨fun _ _ _ => stored, fun result pc' => ?_, fun failure pc' => ?_⟩
    · obtain ⟨v, -, runs⟩ := returned result (same ▸ pc')
      simp [none] at runs
    · have runs := rethrew failure (same ▸ pc')
      simp [none] at runs
  | lockRunLoop | notify | unlock =>
    exact ⟨fun _ _ _ => by simp [CallbackPc.Stored, CallbackPc.Notified], returned, rethrew⟩

/-- As long as no wait ends for no reason before the outcome of the work is stored, `execute`
returns a value only if the work was run once and returned it, and rethrows an exception
only if the work was run once and threw it; and whenever the command is notified, the caller
has begun to wait and is woken if it still does. -/
theorem outcome_of_noEarlyWake (s : State) (reach : machine.ReachableWhere NoEarlyWake s) :
    (∀ result, s.caller = .ended (.returned result) →
        ∃ v, result = some v ∧ s.runs = [.ok v]) ∧
      (∀ failure, s.caller = .ended (.rethrew failure) → s.runs = [.error failure]) ∧
      (s.callback.Notified → ¬ s.caller.BeforeWait ∧
        (s.caller = .waiting → .caller ∈ s.executionMutex.woken)) := by
  have answered : Answered s := by
    refine reach.invariant_of (I := Answered)
      (J := fun s => Recorded s ∧ WaitInvariant s) (fun s reach => ?_) ?_ ?_
    · exact ⟨recorded reach.reachable, waitInvariant reach.reachable⟩
    · constructor <;> simp [machine]
    · rintro s label t ⟨recorded, wait⟩ answered meets step
      exact answered.next recorded wait meets step
  exact ⟨answered.returned, answered.rethrew, waited_of_notified reach.reachable⟩

/-- The run loop runs the work, notifies the caller and finishes, and the caller returns. -/
def notifiedRun : List Label :=
  [.execute, .execute, .executeInsideRunLoop, .execute, .work (.ok true),
    .executeInsideRunLoop, .executeInsideRunLoop, .executeInsideRunLoop, .wake .notified,
    .execute]

theorem outcome_of_noEarlyWake_notified :
    ∃ s, machine.ReachableWhere NoEarlyWake s ∧
      s.caller = .ended (.returned (some true)) ∧ s.runs = [.ok true] := by
  have computed : (machine.execWhere NoEarlyWake machine.start notifiedRun).map State.caller =
    some (.ended (.returned (some true))) := by decide
  obtain ⟨s, reach, pc⟩ := Machine.observe_of_execWhere computed
  obtain ⟨v, same, runs⟩ := (outcome_of_noEarlyWake s reach).1 _ pc
  obtain rfl := Option.some_inj.mp same
  exact ⟨s, reach, pc, runs⟩

/-- The caller wakes up for no reason before the callback has begun. -/
def earlyWakeRun : List Label :=
  [.execute, .execute, .execute, .wake .spurious, .execute]

/-- Not every value that `execute` returns is one that the work has returned: here the work
was not run, and `result` was never assigned. -/
theorem not_forall_returned :
    ¬ ∀ s, machine.Reachable s → ∀ result, s.caller = .ended (.returned result) →
      ∃ v, result = some v ∧ s.runs = [.ok v] := by
  intro always
  have computed : (machine.exec machine.start earlyWakeRun).map State.caller =
    some (.ended (.returned none)) := by decide
  obtain ⟨s, reach, last⟩ := Machine.observe_of_exec computed
  obtain ⟨v, same, -⟩ := always s reach none last
  cases same

/-- Every wake-up that comes too early is answered by a result that was never assigned. -/
theorem returned_none_of_early_wake (reach : machine.Reachable s)
    (early : ¬ NoEarlyWake s label) (step : s.next label = some t) :
    ∃ u, t.next .execute = some u ∧ u.caller = .ended (.returned none) := by
  obtain ⟨rfl, unstored⟩ : label = .wake .spurious ∧ ¬ s.callback.Stored := by
    simpa [NoEarlyWake] using early
  rw [(recorded reach).stored_iff] at unstored
  have nothing : s.failure = none ∧ s.result = none := by
    unfold State.outcome at unstored
    cases failed : s.failure with
    | some failure => simp [failed] at unstored
    | none => simpa [failed] using unstored
  simp only [State.next] at step
  split_ifs at step with waiting
  obtain ⟨executionMutex, -, rfl⟩ := Option.map_eq_some_iff.mp step
  exact ⟨_, rfl, by simp [State.answer, nothing]⟩

end Command

end Windows

end FileEvents
