import FileEvents.Concurrency.Monitor
import FileEvents.Transition.Machine

/-!
# Waiting for the native run loop to end

`executeRunLoop` and `awaitTermination` of `AbstractServer` (`generic_fsnotifier.cpp`)
with the JNI function `awaitTermination0`: the run-loop thread sets `terminated` and
notifies under `terminationMutex`, a client thread waits under the same mutex and
deletes the server when it believes the run loop has ended. The wait is a single
`wait_for` without a predicate.

Every lock operation, flag access and wait is a step of its own. How long a wait may
last is left open: it can time out at any moment.
-/

namespace FileEvents

open Transition Concurrency

namespace Termination

/-- The threads that use `terminationMutex`. -/
inductive Thread | runLoop | client
  deriving DecidableEq, Repr

/-- Where the run-loop thread is in `executeRunLoop`. -/
inductive RunLoopPc
  /-- Inside `runLoop()`. -/
  | running
  /-- `runLoop()` has returned, or thrown and been rethrown as a Java exception. -/
  | left
  /-- Rethrowing the exception has thrown in turn: `executeRunLoop` is left here. -/
  | aborted
  /-- Holding `terminationMutex`. -/
  | locked
  /-- `terminated` is set. -/
  | set
  /-- The waiting threads are notified. -/
  | notified
  /-- The mutex is released, `executeRunLoop` returns. -/
  | finished
  deriving DecidableEq, Repr

/-- Where the client thread is in `awaitTermination0`. -/
inductive ClientPc
  /-- Not in `awaitTermination0`. -/
  | idle
  /-- About to lock `terminationMutex`. -/
  | locking
  /-- Holding the mutex, about to read `terminated`. -/
  | checking
  /-- Blocked in `wait_for`. -/
  | waiting
  /-- `wait_for` has returned, for the given reason. -/
  | resumed (wake : Wake)
  /-- `awaitTermination` has returned. -/
  | returned (successful : Bool)
  deriving DecidableEq, Repr

/-- A server that is terminating. -/
structure State where
  /-- `terminationMutex` with `terminationVariable`. -/
  terminationMutex : Monitor Thread
  /-- `terminated`. -/
  terminated : Bool
  /-- The run-loop thread. -/
  runLoop : RunLoopPc
  /-- The thread that awaits the termination. -/
  client : ClientPc
  /-- How often the server was deleted. -/
  deletions : ℕ
  deriving DecidableEq, Repr

/-- What can happen next. -/
inductive Label
  /-- The run-loop thread takes its next step. -/
  | runLoop
  /-- An exception leaves `executeRunLoop`. -/
  | abort
  /-- The client enters `awaitTermination0`. -/
  | await
  /-- The client takes its next step. -/
  | client
  /-- The client's `wait_for` returns. -/
  | wake (wake : Wake)
  deriving DecidableEq, Repr

/-- The next step of `executeRunLoop`. -/
def executeRunLoop (s : State) : Option State :=
  match s.runLoop with
  | .running => some { s with runLoop := .left }
  | .left => (s.terminationMutex.acquire .runLoop).map fun terminationMutex =>
      { s with terminationMutex, runLoop := .locked }
  | .locked => some { s with terminated := true, runLoop := .set }
  | .set => some
      { s with terminationMutex := s.terminationMutex.notifyAll, runLoop := .notified }
  | .notified => some
      { s with terminationMutex := s.terminationMutex.release, runLoop := .finished }
  | .aborted | .finished => none

/-- The value `awaitTermination` computes from the status of its wait. -/
def success : Wake → Bool
  | .timeout => false
  | .notified | .spurious => true

/-- The next step of `awaitTermination0`. -/
def awaitTermination (s : State) : Option State :=
  match s.client with
  | .idle | .waiting => none
  | .locking => (s.terminationMutex.acquire .client).map fun terminationMutex =>
      { s with terminationMutex, client := .checking }
  | .checking =>
    if s.terminated then some
      { s with
        terminationMutex := s.terminationMutex.release
        client := .returned true }
    else some
      { s with
        terminationMutex := s.terminationMutex.wait .client
        client := .waiting }
  | .resumed wake => some
      { s with
        terminationMutex := s.terminationMutex.release
        client := .returned (success wake) }
  | .returned successful => some
      { s with
        deletions := if successful then s.deletions + 1 else s.deletions
        client := .idle }

/-- The step function of the two threads. The client may call `awaitTermination0` as
often as it likes as long as the server exists. -/
def next (s : State) : Label → Option State
  | .runLoop => executeRunLoop s
  | .abort => if s.runLoop = .running then some { s with runLoop := .aborted } else none
  | .await =>
    if s.client = .idle ∧ s.deletions = 0 then some { s with client := .locking } else none
  | .client => awaitTermination s
  | .wake wake =>
    if s.client = .waiting then
      (s.terminationMutex.resume .client wake).map fun terminationMutex =>
        { s with terminationMutex, client := .resumed wake }
    else none

/-- A server whose run loop is running. -/
def machine : Machine State Label where
  start :=
    { terminationMutex := .free
      terminated := false
      runLoop := .running
      client := .idle
      deletions := 0 }
  next := next

/-- The steps of the two threads. -/
inductive Steps (s : State) : Label → State → Prop
  | leave (pc : s.runLoop = .running) : Steps s .runLoop { s with runLoop := .left }
  | lock {terminationMutex : Monitor Thread} (pc : s.runLoop = .left)
      (acquired : s.terminationMutex.acquire .runLoop = some terminationMutex) :
      Steps s .runLoop { s with terminationMutex, runLoop := .locked }
  | set (pc : s.runLoop = .locked) : Steps s .runLoop { s with terminated := true, runLoop := .set }
  | notify (pc : s.runLoop = .set) :
      Steps s .runLoop
        { s with terminationMutex := s.terminationMutex.notifyAll, runLoop := .notified }
  | unlock (pc : s.runLoop = .notified) :
      Steps s .runLoop
        { s with terminationMutex := s.terminationMutex.release, runLoop := .finished }
  | abort (pc : s.runLoop = .running) : Steps s .abort { s with runLoop := .aborted }
  | await (idle : s.client = .idle) (live : s.deletions = 0) :
      Steps s .await { s with client := .locking }
  | lockClient {terminationMutex : Monitor Thread} (pc : s.client = .locking)
      (acquired : s.terminationMutex.acquire .client = some terminationMutex) :
      Steps s .client { s with terminationMutex, client := .checking }
  | succeed (pc : s.client = .checking) (set : s.terminated = true) :
      Steps s .client
        { s with terminationMutex := s.terminationMutex.release, client := .returned true }
  | wait (pc : s.client = .checking) (unset : s.terminated = false) :
      Steps s .client
        { s with terminationMutex := s.terminationMutex.wait .client, client := .waiting }
  | answer {wake : Wake} (pc : s.client = .resumed wake) :
      Steps s .client
        { s with
          terminationMutex := s.terminationMutex.release
          client := .returned (success wake) }
  | delete (pc : s.client = .returned true) :
      Steps s .client { s with deletions := s.deletions + 1, client := .idle }
  | giveUp (pc : s.client = .returned false) : Steps s .client { s with client := .idle }
  | wake {terminationMutex : Monitor Thread} {wake : Wake} (pc : s.client = .waiting)
      (resumed : s.terminationMutex.resume .client wake = some terminationMutex) :
      Steps s (.wake wake) { s with terminationMutex, client := .resumed wake }

/-- There are no other steps. -/
theorem steps_of_next {s t : State} {label : Label} (step : next s label = some t) :
    Steps s label t := by
  cases label with
  | runLoop =>
    simp only [next, executeRunLoop] at step
    cases pc : s.runLoop <;> simp only [pc, Option.map_eq_some_iff, reduceCtorEq,
      Option.some.injEq] at step
    case running => exact step ▸ .leave pc
    case left =>
      obtain ⟨terminationMutex, acquired, rfl⟩ := step
      exact .lock pc acquired
    case locked => exact step ▸ .set pc
    case set => exact step ▸ .notify pc
    case notified => exact step ▸ .unlock pc
  | abort =>
    simp only [next] at step
    split_ifs at step with pc
    exact Option.some_inj.mp step ▸ .abort pc
  | await =>
    simp only [next] at step
    split_ifs at step with enters
    exact Option.some_inj.mp step ▸ .await enters.1 enters.2
  | client =>
    simp only [next, awaitTermination] at step
    cases pc : s.client <;> simp only [pc, Option.map_eq_some_iff, reduceCtorEq] at step
    case locking =>
      obtain ⟨terminationMutex, acquired, rfl⟩ := step
      exact .lockClient pc acquired
    case checking =>
      -- The flag is set already, or the thread waits.
      split_ifs at step with set
      · exact Option.some_inj.mp step ▸ .succeed pc set
      · exact Option.some_inj.mp step ▸ .wait pc (Bool.not_eq_true _ ▸ set)
    case resumed wake => exact Option.some_inj.mp step ▸ .answer pc
    case returned successful =>
      cases successful with
      | true => exact Option.some_inj.mp step ▸ .delete pc
      | false => exact Option.some_inj.mp step ▸ .giveUp pc
  | wake wake =>
    simp only [next] at step
    split_ifs at step with waiting
    obtain ⟨terminationMutex, resumed, rfl⟩ := Option.map_eq_some_iff.mp step
    exact .wake waiting resumed

/-! ## The two threads when no wait ends too early -/

/-- A wait that ends for no reason at all ends only once `terminated` is set. -/
def NoEarlyWake (s : State) (label : Label) : Prop :=
  label = .wake .spurious → s.terminated = true

instance (s : State) (label : Label) : Decidable (NoEarlyWake s label) :=
  inferInstanceAs (Decidable (label = .wake .spurious → s.terminated = true))

/-- The run-loop thread holds `terminationMutex`. -/
def RunLoopPc.HoldsMutex (pc : RunLoopPc) : Prop := pc = .locked ∨ pc = .set ∨ pc = .notified

/-- The client holds `terminationMutex`. -/
def ClientPc.HoldsMutex (pc : ClientPc) : Prop := pc = .checking ∨ ∃ wake, pc = .resumed wake

/-- The mutex is held by the thread whose program counter says so, and `terminated` is
set exactly from the third step of `executeRunLoop` on. -/
structure LockInvariant (s : State) : Prop where
  runLoop_holds : s.runLoop.HoldsMutex ↔ s.terminationMutex.holder = some .runLoop
  client_holds : s.client.HoldsMutex ↔ s.terminationMutex.holder = some .client
  terminated_iff : s.terminated = true ↔
    s.runLoop = .set ∨ s.runLoop = .notified ∨ s.runLoop = .finished

/-- What the client knows as long as it was not woken too early: when it goes on for any
reason but its time being up, and when it returns success, the run loop has ended. -/
structure ClientInvariant (s : State) : Prop where
  woken : .client ∈ s.terminationMutex.woken → s.terminated = true
  resumed : ∀ wake, s.client = .resumed wake → wake ≠ .timeout → s.runLoop = .finished
  returned : s.client = .returned true → s.runLoop = .finished
  deleted : 0 < s.deletions → s.runLoop = .finished

variable {s t : State} {label : Label}

/-- While neither thread holds the mutex, `terminated` is set only once the run-loop
thread is through with it. -/
theorem LockInvariant.finished (lock : LockInvariant s)
    (outside : s.terminationMutex.holder ≠ some .runLoop) (set : s.terminated = true) :
    s.runLoop = .finished := by
  rcases lock.terminated_iff.mp set with pc | pc | pc
  · exact absurd (lock.runLoop_holds.mp (.inr (.inl pc))) outside
  · exact absurd (lock.runLoop_holds.mp (.inr (.inr pc))) outside
  · exact pc

/-- A step keeps the mutex with the thread whose program counter holds it. -/
theorem LockInvariant.next (lock : LockInvariant s) (step : Termination.next s label = some t) :
    LockInvariant t := by
  obtain ⟨runLoop_holds, client_holds, terminated_iff⟩ := lock
  cases steps_of_next step with
  | lock pc acquired | lockClient pc acquired =>
    -- The mutex was free, so the other thread does not hold it.
    obtain ⟨free, holder, -⟩ := Monitor.acquire_spec acquired
    constructor <;> simp_all [RunLoopPc.HoldsMutex, ClientPc.HoldsMutex]
  | wake pc resumed =>
    obtain ⟨free, holder, -⟩ := Monitor.resume_spec resumed
    constructor <;> simp_all [ClientPc.HoldsMutex]
  | leave | set | notify | unlock | abort =>
    constructor <;> simp_all [RunLoopPc.HoldsMutex]
  | await | succeed | wait | answer | delete | giveUp =>
    constructor <;> simp_all [ClientPc.HoldsMutex]

/-- The client's steps leave the run-loop thread where it is. -/
theorem runLoop_of_client_step (not_runLoop : label ≠ .runLoop) (not_abort : label ≠ .abort)
    (step : Termination.next s label = some t) : t.runLoop = s.runLoop := by
  cases steps_of_next step with
  | leave | lock | set | notify | unlock => exact absurd rfl not_runLoop
  | abort => exact absurd rfl not_abort
  | await | lockClient | succeed | wait | answer | delete | giveUp | wake => rfl

theorem lockInvariant_start : LockInvariant machine.start := by
  constructor <;> simp [machine, RunLoopPc.HoldsMutex, ClientPc.HoldsMutex]

theorem lockInvariant (reach : machine.Reachable s) : LockInvariant s :=
  reach.invariant lockInvariant_start fun _ _ _ lock => lock.next

/-- A step that does not wake the client too early keeps what the client knows. -/
theorem ClientInvariant.next (lock : LockInvariant s) (inv : ClientInvariant s)
    (meets : NoEarlyWake s label) (step : Termination.next s label = some t) :
    ClientInvariant t := by
  have outside : s.terminationMutex.holder = none → s.terminated = true →
      s.runLoop = .finished := fun free => lock.finished (by simp [free])
  have terminated_iff := lock.terminated_iff
  obtain ⟨woken, resumed, returned, deleted⟩ := inv
  cases steps_of_next step with
  | lock pc acquired =>
    obtain ⟨-, -, sameWoken⟩ := Monitor.acquire_spec acquired
    constructor <;> simp_all
  | leave | set | notify | unlock | abort =>
    -- Whatever the client knows of a finished run loop, this step is not taken by one.
    constructor <;> simp_all
  | await => exact ⟨woken, by simp, by simp, deleted⟩
  | lockClient pc acquired =>
    obtain ⟨-, -, sameWoken⟩ := Monitor.acquire_spec acquired
    exact ⟨by rwa [sameWoken], by simp, by simp, deleted⟩
  | succeed pc set =>
    have holds : s.terminationMutex.holder = some .client := lock.client_holds.mp (.inl pc)
    have finished : s.runLoop = .finished := lock.finished (by simp [holds]) set
    exact ⟨woken, by simp, fun _ => finished, deleted⟩
  | wait => exact ⟨woken, by simp, by simp, deleted⟩
  | @answer wake pc =>
    refine ⟨woken, by simp, fun success => resumed wake pc ?_, deleted⟩
    rintro rfl
    simp [Termination.success] at success
  | delete pc => exact ⟨woken, by simp, by simp, fun _ => returned pc⟩
  | giveUp => exact ⟨woken, by simp, by simp, deleted⟩
  | @wake terminationMutex wake pc resume =>
    obtain ⟨free, -, sameWoken, notified⟩ := Monitor.resume_spec resume
    refine ⟨fun still => woken ?_, fun wake' same reason => ?_, by simp, deleted⟩
    · rw [sameWoken] at still
      exact List.mem_of_mem_erase still
    · -- The mutex is free, so the run loop has ended if `terminated` is set.
      obtain rfl : wake = wake' := by simpa using same
      apply outside free
      cases wake with
      | notified => exact woken (notified rfl)
      | timeout => exact absurd rfl reason
      | spurious => exact meets rfl

theorem clientInvariant_start : ClientInvariant machine.start := by
  constructor <;> simp [machine]

theorem clientInvariant (reach : machine.ReachableWhere NoEarlyWake s) :
    ClientInvariant s :=
  reach.invariant_of (fun _ reach => lockInvariant reach.reachable) clientInvariant_start
    fun _ _ _ lock inv meets step => inv.next lock meets step

/-- As long as no wait ends for no reason before `terminated` is set, success is returned
and the server deleted only after `executeRunLoop` has set `terminated` and released the
mutex. -/
theorem finished_of_success_or_deleted (s : State)
    (reach : machine.ReachableWhere NoEarlyWake s)
    (done : s.client = .returned true ∨ 0 < s.deletions) :
    s.terminated = true ∧ s.runLoop = .finished := by
  have inv := clientInvariant reach
  have finished : s.runLoop = .finished := done.elim inv.returned inv.deleted
  exact ⟨(lockInvariant reach.reachable).terminated_iff.mpr (.inr (.inr finished)), finished⟩

/-- The client waits, the run loop ends and notifies it, and the client deletes the server. -/
def notifiedRun : List Label :=
  [.await, .client, .client, .runLoop, .runLoop, .runLoop, .runLoop, .runLoop,
    .wake .notified, .client, .client]

theorem finished_of_success_or_deleted_notified :
    ∃ s, machine.ReachableWhere NoEarlyWake s ∧ s.deletions = 1 ∧
      s.terminated = true ∧ s.runLoop = .finished := by
  have computed : (machine.execWhere NoEarlyWake machine.start notifiedRun).map State.deletions =
    some 1 := by decide
  obtain ⟨s, reach, deleted⟩ := Machine.observe_of_execWhere computed
  exact ⟨s, reach, deleted, finished_of_success_or_deleted s reach (.inr (by omega))⟩

/-- The client waits, wakes up for no reason and deletes the server of a running run
loop. -/
def earlyWakeRun : List Label :=
  [.await, .client, .client, .wake .spurious, .client, .client]

/-- Not every run deletes the server only once `terminated` is set. -/
theorem not_forall_terminated_of_deleted :
    ¬ ∀ s, machine.Reachable s → s.client = .returned true ∨ 0 < s.deletions →
      s.terminated = true := by
  intro always
  have computed : (machine.exec machine.start earlyWakeRun).map
      (fun s => (s.deletions, s.terminated)) = some (1, false) := by decide
  obtain ⟨s, reach, last⟩ := Machine.observe_of_exec computed
  simp only [Prod.mk.injEq] at last
  have set := always s reach (.inr (by omega))
  exact absurd (set.symm.trans last.2) (by decide)

/-- Every wake-up that comes too early is answered by success: with the client's next step
`awaitTermination` returns `true` while `terminated` is not set. -/
theorem returned_true_of_early_wake (early : ¬ NoEarlyWake s label)
    (step : machine.next s label = some t) :
    ∃ u, machine.next t .client = some u ∧ u.client = .returned true ∧
      u.terminated = false := by
  obtain ⟨rfl, unset⟩ : label = .wake .spurious ∧ s.terminated = false := by
    simpa [NoEarlyWake] using early
  simp only [machine, Termination.next] at step
  split_ifs at step with waiting
  obtain ⟨m, -, rfl⟩ := Option.map_eq_some_iff.mp step
  exact ⟨_, rfl, rfl, unset⟩

/-! ## One deletion -/

/-- Whether woken too early or not, the client deletes the server at most once, and is then
through with it. -/
theorem deleted_once (reach : machine.Reachable s) :
    s.deletions ≤ 1 ∧ (0 < s.deletions → s.client = .idle) := by
  refine reach.invariant (I := fun s => s.deletions ≤ 1 ∧ (0 < s.deletions → s.client = .idle))
    (by simp [machine]) ?_
  rintro s label t ⟨once, idle⟩ step
  -- A client that is about to go on has not deleted the server.
  have live : s.client ≠ .idle → s.deletions = 0 := by
    intro busy
    by_contra deleted
    exact busy (idle (by omega))
  cases steps_of_next step with
  | leave | lock | set | notify | unlock | abort => exact ⟨once, idle⟩
  | await _ undeleted => exact ⟨once, fun deleted => by simp_all⟩
  | lockClient pc | succeed pc | wait pc | answer pc | wake pc =>
    exact ⟨once, fun deleted => by simp_all⟩
  | delete pc => exact ⟨by simp [live (by simp [pc])], fun _ => rfl⟩
  | giveUp => exact ⟨once, fun _ => rfl⟩

end Termination

end FileEvents
