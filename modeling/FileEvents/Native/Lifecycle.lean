import FileEvents.Native.Termination

/-!
# The life of a native server

`AbstractFileWatcher` and `NativeFileWatcher` over a native server: one client thread
calls the methods of the watcher, the processor thread runs `initializeRunLoop0` and
`executeRunLoop0`, and `awaitTermination0` deletes the server when the wait for the run
loop was successful. Java keeps the server as a direct buffer whose address never
changes, so `getServer` finds the deleted server as it found the live one.

A native method that runs on a deleted server is recorded as a stale call. What it does
is undefined; here it changes nothing, except that `awaitTermination0` may believe the
wait successful and delete the server again.

## Main definitions

* `Lifecycle.machine` — the client thread, the processor thread and the server
* `Lifecycle.Admitted` — the steps a careful client and a careful condition variable take

## Main results

* `no_stale_call` — under such steps no native method runs on a deleted server
* `stale_of_not_admitted` — every other call after the deletion is a stale call
-/

namespace FileEvents

open Transition Concurrency

namespace Lifecycle

/-- The native methods of the watcher. -/
inductive NativeMethod
  | initializeRunLoop0
  | executeRunLoop0
  | startWatching0
  | stopWatching0
  | stopWatchingMovedPaths0
  | shutdown0
  | awaitTermination0
  deriving DecidableEq, Repr

/-- The methods of the watcher that run one native method and return. -/
inductive Call
  | startWatching
  | stopWatching
  | stopWatchingMovedPaths
  | shutdown
  deriving DecidableEq, Repr

/-- Where `processorThread` is in its `run` method. -/
inductive Processor
  /-- Not started. -/
  | created
  /-- Started, about to call `initializeRunLoop0`. -/
  | started
  /-- About to call `executeRunLoop0`. -/
  | initialized
  /-- In `executeRunLoop0`. -/
  | executing
  /-- `executeRunLoop0` has returned or thrown: about to report the termination. -/
  | reporting
  | dead
  deriving DecidableEq, Repr

/-- Where the client thread is in `awaitTermination`. -/
inductive Client
  /-- Not in `awaitTermination`. -/
  | idle
  /-- In `awaitTermination0`. -/
  | awaiting
  /-- Joining `processorThread`. -/
  | joining
  deriving DecidableEq, Repr

/-- A watcher with its native server. -/
structure State where
  /-- The native server. -/
  native : Termination.State
  /-- `shutdown`, the flag that `ensureOpen` checks. -/
  shutdown : Bool
  processor : Processor
  client : Client
  /-- What `awaitTermination` returned last. -/
  answer : Option Bool
  /-- The native methods that ran on a deleted server, the last one first. -/
  staleCalls : List NativeMethod
  deriving DecidableEq, Repr

/-- What can happen next. -/
inductive Label
  /-- `initialize` starts `processorThread`. -/
  | launch
  /-- `processorThread` takes its next step in Java. -/
  | processor
  /-- `initializeRunLoop0` throws, which ends `processorThread`. -/
  | initializationFails
  /-- A step of `executeRunLoop0`. -/
  | executeRunLoop
  /-- An exception leaves `executeRunLoop`. -/
  | abort
  /-- The client calls a method. -/
  | call (call : Call)
  /-- The client calls `awaitTermination`. On a deleted server `successful` is what the
  native method believes. -/
  | awaitTermination (successful : Bool)
  /-- A step of `awaitTermination0`. -/
  | await
  /-- The wait in `awaitTermination0` ends. -/
  | wake (wake : Wake)
  /-- `processorThread.join` returns. -/
  | join
  deriving DecidableEq, Repr

/-- A native method is run on the server. -/
def State.run (s : State) (method : NativeMethod) : State :=
  if 0 < s.native.deletions then { s with staleCalls := method :: s.staleCalls } else s

/-- `startWatching`, `stopWatching`, `shutdown` and the platforms'
`stopWatchingMovedPaths`, which alone does not call `ensureOpen`. Whether the native
method returns or throws makes no difference here. -/
def State.invoke (s : State) : Call → State
  | .startWatching => if s.shutdown then s else s.run .startWatching0
  | .stopWatching => if s.shutdown then s else s.run .stopWatching0
  | .stopWatchingMovedPaths => s.run .stopWatchingMovedPaths0
  | .shutdown => if s.shutdown then s else { s with shutdown := true }.run .shutdown0

/-- The entry of `awaitTermination`. -/
def State.enterAwait (s : State) (successful : Bool) : Option State :=
  if 0 < s.native.deletions then
    -- `getServer` finds the address it has always found.
    let s := s.run .awaitTermination0
    if successful then some
      { s with
        native := { s.native with deletions := s.native.deletions + 1 }
        client := .joining }
    else some { s with answer := some false }
  else (Termination.next s.native .await).map fun native =>
    { s with native, client := .awaiting }

/-- A step of `executeRunLoop0`, taken by `processorThread`. -/
def State.stepRunLoop (s : State) (step : Termination.Label) : Option State :=
  if s.processor = .executing then
    (Termination.next s.native step).map fun native => { s.run .executeRunLoop0 with native }
  else none

/-- A step of `awaitTermination0`, taken by the client. -/
def State.stepAwait (s : State) (step : Termination.Label) : Option State :=
  if s.client = .awaiting then
    (Termination.next s.native step).map fun native =>
      match s.native.client with
      -- Only a successful wait is followed by the join.
      | .returned true => { s with native, client := .joining }
      | .returned false => { s with native, client := .idle, answer := some false }
      | _ => { s with native }
  else none

/-- The step function of the client thread and the processor thread. -/
def next (s : State) : Label → Option State
  | .launch => if s.processor = .created then some { s with processor := .started } else none
  | .processor =>
    match s.processor with
    | .created | .dead => none
    | .started => some { s.run .initializeRunLoop0 with processor := .initialized }
    | .initialized => some { s.run .executeRunLoop0 with processor := .executing }
    | .executing =>
      if s.native.runLoop = .finished ∨ s.native.runLoop = .aborted then
        some { s with processor := .reporting }
      else none
    | .reporting => some { s with processor := .dead }
  -- The exception leaves `run`, and nothing is reported.
  | .initializationFails =>
    if s.processor = .started then
      some { s.run .initializeRunLoop0 with processor := .dead }
    else none
  | .executeRunLoop => s.stepRunLoop .runLoop
  | .abort => s.stepRunLoop .abort
  | .call call => if s.client = .idle then some (s.invoke call) else none
  | .awaitTermination successful => if s.client = .idle then s.enterAwait successful else none
  | .await => s.stepAwait .client
  | .wake wake => s.stepAwait (.wake wake)
  | .join =>
    if s.client = .joining then
      some
        { s with
          client := .idle
          -- A thread that was never started is not alive either.
          answer := some (decide (s.processor = .created ∨ s.processor = .dead)) }
    else none

/-- A watcher that was just created. -/
def machine : Machine State Label where
  start :=
    { native := Termination.machine.start
      shutdown := false
      processor := .created
      client := .idle
      answer := none
      staleCalls := [] }
  next := next

/-! ## Runs without stale calls -/

/-- The wait for the run loop does not end for no reason too early, and once the server
is deleted the client calls only methods that find the watcher shut down. -/
def Admitted (s : State) : Label → Prop
  | .wake wake => Termination.NoEarlyWake s.native (.wake wake)
  | .call .stopWatchingMovedPaths | .awaitTermination _ => s.native.deletions = 0
  | .call _ => 0 < s.native.deletions → s.shutdown = true
  | _ => True

instance (s : State) : (label : Label) → Decidable (Admitted s label)
  | .wake wake => inferInstanceAs (Decidable (Termination.NoEarlyWake s.native (.wake wake)))
  | .call .stopWatchingMovedPaths | .awaitTermination _ =>
    inferInstanceAs (Decidable (s.native.deletions = 0))
  | .call .startWatching | .call .stopWatching | .call .shutdown =>
    inferInstanceAs (Decidable (0 < s.native.deletions → s.shutdown = true))
  | .launch | .processor | .initializationFails | .executeRunLoop | .abort | .await | .join =>
    instDecidableTrue

/-- No native method has run on a deleted server, and `processorThread` is in or past
`executeRunLoop0` as soon as the run loop has done anything. -/
structure Sound (s : State) : Prop where
  no_stale : s.staleCalls = []
  entered : s.processor ≠ .created ∧ s.processor ≠ .started ∧ s.processor ≠ .initialized ∨
    s.native.runLoop = .running

variable {s t : State} {label : Label} {method : NativeMethod}

@[simp] theorem native_run : (s.run method).native = s.native := by
  unfold State.run
  split_ifs <;> rfl

@[simp] theorem shutdown_run : (s.run method).shutdown = s.shutdown := by
  unfold State.run
  split_ifs <;> rfl

@[simp] theorem processor_run : (s.run method).processor = s.processor := by
  unfold State.run
  split_ifs <;> rfl

theorem run_eq_self (live : s.native.deletions = 0) : s.run method = s := by
  simp [State.run, live]

theorem staleCalls_run (deleted : 0 < s.native.deletions) :
    (s.run method).staleCalls = method :: s.staleCalls := by
  simp [State.run, deleted]

theorem stepRunLoop_spec {step : Termination.Label} (h : s.stepRunLoop step = some t) :
    s.processor = .executing ∧
      ∃ native, Termination.next s.native step = some native ∧
        t = { s.run .executeRunLoop0 with native } := by
  unfold State.stepRunLoop at h
  split_ifs at h with executing
  obtain ⟨native, step, rfl⟩ := Option.map_eq_some_iff.mp h
  exact ⟨executing, native, step, rfl⟩

theorem stepAwait_spec {step : Termination.Label} (h : s.stepAwait step = some t) :
    Termination.next s.native step = some t.native ∧ t.processor = s.processor ∧
      t.staleCalls = s.staleCalls := by
  unfold State.stepAwait at h
  split_ifs at h with awaiting
  obtain ⟨native, step, rfl⟩ := Option.map_eq_some_iff.mp h
  split <;> exact ⟨step, rfl, rfl⟩

/-- A call that returns at once leaves the server's threads alone, and is stale only if it
is not admitted. -/
theorem invoke_spec {call : Call} (meets : Admitted s (.call call)) :
    (s.invoke call).native = s.native ∧ (s.invoke call).processor = s.processor ∧
      (s.invoke call).staleCalls = s.staleCalls := by
  have unshut : (0 < s.native.deletions → s.shutdown = true) → ¬ s.shutdown = true →
      s.native.deletions = 0 := by
    intro checked unshut
    by_contra deleted
    exact unshut (checked (Nat.pos_of_ne_zero deleted))
  cases call with
  | stopWatchingMovedPaths => simp [State.invoke, run_eq_self meets]
  | startWatching | stopWatching =>
    simp only [State.invoke]
    split_ifs with shut
    · exact ⟨rfl, rfl, rfl⟩
    · simp [run_eq_self (unshut meets shut)]
  | shutdown =>
    simp only [State.invoke]
    split_ifs with shut
    · exact ⟨rfl, rfl, rfl⟩
    · have live : ({ s with shutdown := true } : State).native.deletions = 0 := unshut meets shut
      simp [run_eq_self live]

/-- On a live server `awaitTermination` enters `awaitTermination0`. -/
theorem enterAwait_spec {successful : Bool} (live : s.native.deletions = 0)
    (h : s.enterAwait successful = some t) :
    Termination.next s.native .await = some t.native ∧ t.processor = s.processor ∧
      t.staleCalls = s.staleCalls := by
  simp only [State.enterAwait, live, Nat.lt_irrefl, if_false] at h
  obtain ⟨native, step, rfl⟩ := Option.map_eq_some_iff.mp h
  exact ⟨step, rfl, rfl⟩

/-- The server of a watcher that is used as `Admitted` says goes through a run of its own
without early wake-ups. -/
theorem native_reachable (reach : machine.ReachableWhere Admitted s) :
    Termination.machine.ReachableWhere Termination.NoEarlyWake s.native := by
  have silent : ∀ {label : Termination.Label} {u : Termination.State},
      label ≠ .wake .spurious → Termination.NoEarlyWake u label :=
    fun other early => absurd early other
  apply reach.map (N := Termination.machine) State.native rfl
  intro s label t meets step
  cases label with
  | launch | join =>
    simp only [machine, next] at step
    -- Neither thread is in the server yet, or any more.
    split_ifs at step
    obtain rfl := Option.some_inj.mp step
    exact .inl rfl
  | processor =>
    simp only [machine, next] at step
    cases pc : s.processor <;> simp only [pc, reduceCtorEq] at step
    case executing =>
      split_ifs at step
      obtain rfl := Option.some_inj.mp step
      exact .inl rfl
    all_goals
      obtain rfl := Option.some_inj.mp step
      exact .inl (by simp)
  | initializationFails =>
    simp only [machine, next] at step
    split_ifs at step
    obtain rfl := Option.some_inj.mp step
    exact .inl (by simp)
  | executeRunLoop =>
    -- The processor thread is the run-loop thread of the server.
    obtain ⟨-, native, stepped, rfl⟩ := stepRunLoop_spec step
    exact .inr ⟨.runLoop, silent (by simp), stepped⟩
  | abort =>
    obtain ⟨-, native, stepped, rfl⟩ := stepRunLoop_spec step
    exact .inr ⟨.abort, silent (by simp), stepped⟩
  | call call =>
    simp only [machine, next] at step
    split_ifs at step
    obtain rfl := Option.some_inj.mp step
    exact .inl (invoke_spec meets).1
  | awaitTermination successful =>
    simp only [machine, next] at step
    split_ifs at step
    exact .inr ⟨.await, silent (by simp), (enterAwait_spec meets step).1⟩
  | await => exact .inr ⟨.client, silent (by simp), (stepAwait_spec step).1⟩
  | wake wake => exact .inr ⟨.wake wake, meets, (stepAwait_spec step).1⟩

theorem sound_start : Sound machine.start := ⟨rfl, .inr rfl⟩

/-- An admitted step makes no stale call. -/
theorem Sound.next (client : Termination.ClientInvariant s.native) (sound : Sound s)
    (meets : Admitted s label) (step : Lifecycle.next s label = some t) : Sound t := by
  -- As long as the run loop has not ended, the server is alive.
  have live : s.native.runLoop ≠ .finished → s.native.deletions = 0 := by
    intro running
    by_contra deleted
    exact running (client.deleted (Nat.pos_of_ne_zero deleted))
  obtain ⟨no_stale, entered⟩ := sound
  cases label with
  | launch =>
    simp only [Lifecycle.next] at step
    split_ifs at step with created
    obtain rfl := Option.some_inj.mp step
    exact ⟨no_stale, .inr (entered.resolve_left (by simp [created]))⟩
  | processor =>
    simp only [Lifecycle.next] at step
    cases pc : s.processor <;> simp only [pc, reduceCtorEq] at step
    case started | initialized =>
      have running : s.native.runLoop = .running := entered.resolve_left (by simp [pc])
      obtain rfl := Option.some_inj.mp step
      simp only [run_eq_self (live (by simp [running]))]
      exact ⟨no_stale, .inr running⟩
    case executing =>
      split_ifs at step
      obtain rfl := Option.some_inj.mp step
      exact ⟨no_stale, .inl (by simp)⟩
    case reporting =>
      obtain rfl := Option.some_inj.mp step
      exact ⟨no_stale, .inl (by simp)⟩
  | initializationFails =>
    simp only [Lifecycle.next] at step
    split_ifs at step with started
    have running : s.native.runLoop = .running := entered.resolve_left (by simp [started])
    obtain rfl := Option.some_inj.mp step
    simp only [run_eq_self (live (by simp [running]))]
    exact ⟨no_stale, .inr running⟩
  | executeRunLoop =>
    obtain ⟨executing, native, stepped, rfl⟩ := stepRunLoop_spec step
    have running : s.native.runLoop ≠ .finished := by
      rintro finished
      simp [Termination.next, Termination.executeRunLoop, finished] at stepped
    simp only [run_eq_self (live running)]
    exact ⟨no_stale, .inl (by simp [executing])⟩
  | abort =>
    obtain ⟨executing, native, stepped, rfl⟩ := stepRunLoop_spec step
    have running : s.native.runLoop ≠ .finished := by
      rintro finished
      simp [Termination.next, finished] at stepped
    simp only [run_eq_self (live running)]
    exact ⟨no_stale, .inl (by simp [executing])⟩
  | call call =>
    simp only [Lifecycle.next] at step
    split_ifs at step
    obtain rfl := Option.some_inj.mp step
    obtain ⟨native, processor, staleCalls⟩ := invoke_spec meets
    exact ⟨staleCalls.trans no_stale, by rwa [native, processor]⟩
  | awaitTermination successful =>
    simp only [Lifecycle.next] at step
    split_ifs at step
    obtain ⟨native, processor, staleCalls⟩ := enterAwait_spec meets step
    exact ⟨staleCalls.trans no_stale, by
      rwa [processor, Termination.runLoop_of_client_step (by simp) (by simp) native]⟩
  | await =>
    obtain ⟨native, processor, staleCalls⟩ := stepAwait_spec step
    exact ⟨staleCalls.trans no_stale, by
      rwa [processor, Termination.runLoop_of_client_step (by simp) (by simp) native]⟩
  | wake wake =>
    obtain ⟨native, processor, staleCalls⟩ := stepAwait_spec step
    exact ⟨staleCalls.trans no_stale, by
      rwa [processor, Termination.runLoop_of_client_step (by simp) (by simp) native]⟩
  | join =>
    simp only [Lifecycle.next] at step
    split_ifs at step
    obtain rfl := Option.some_inj.mp step
    exact ⟨no_stale, entered⟩

/-- Under admitted steps no native method runs on a deleted server, and the server is
deleted at most once. -/
theorem no_stale_call (s : State) (reach : machine.ReachableWhere Admitted s) :
    s.staleCalls = [] ∧ s.native.deletions ≤ 1 := by
  have sound : Sound s := reach.invariant_of
    (fun _ reach => Termination.clientInvariant (native_reachable reach)) sound_start
    fun _ _ _ client sound meets step => sound.next client meets step
  exact ⟨sound.no_stale, (Termination.deleted_once (native_reachable reach).reachable).1⟩

/-- The client shuts the watcher down and waits until `awaitTermination` has deleted the
server; a later `startWatching` finds the watcher closed. -/
def orderlyRun : List Label :=
  [.launch, .processor, .processor, .call .startWatching, .call .shutdown, .executeRunLoop,
    .awaitTermination true, .await, .await, .executeRunLoop, .executeRunLoop, .executeRunLoop,
    .executeRunLoop, .wake .notified, .await, .await, .processor, .processor, .join,
    .call .startWatching]

theorem no_stale_call_orderly :
    ∃ s, machine.ReachableWhere Admitted s ∧ s.native.deletions = 1 ∧ s.answer = some true ∧
      s.staleCalls = [] := by
  have computed : (machine.execWhere Admitted machine.start orderlyRun).map
      (fun s => (s.native.deletions, s.answer)) = some (1, some true) := by decide
  obtain ⟨s, reach, last⟩ := Machine.observe_of_execWhere computed
  simp only [Prod.mk.injEq] at last
  exact ⟨s, reach, last.1, last.2, (no_stale_call s reach).1⟩

/-- After the shutdown `awaitTermination0` deletes the server while `processorThread` is
still alive, so `awaitTermination` returns `false`; the client calls it again. -/
def impatientRun : List Label :=
  [.launch, .processor, .processor, .call .shutdown, .executeRunLoop, .executeRunLoop,
    .executeRunLoop, .executeRunLoop, .executeRunLoop, .awaitTermination true, .await, .await,
    .await, .join, .awaitTermination true]

/-- Not every run is free of native methods on a deleted server and of second deletions. -/
theorem not_forall_no_stale_call :
    ¬ ∀ s, machine.Reachable s → s.staleCalls = [] ∧ s.native.deletions ≤ 1 := by
  intro always
  have computed : (machine.exec machine.start impatientRun).map
      (fun s => (s.staleCalls, s.native.deletions)) = some ([.awaitTermination0], 2) := by decide
  obtain ⟨s, reach, last⟩ := Machine.observe_of_exec computed
  simp only [Prod.mk.injEq] at last
  have once := (always s reach).2
  omega

/-- Every other call of the client on a deleted server runs a native method on it. -/
theorem stale_of_not_admitted (refused : ¬ Admitted s label) (step : machine.next s label = some t)
    (late : ∀ wake, label ≠ .wake wake) : t.staleCalls ≠ s.staleCalls := by
  have other : ∀ method : NativeMethod, method :: s.staleCalls ≠ s.staleCalls := by
    intro method same
    simpa using congrArg List.length same
  cases label with
  | wake wake => exact absurd rfl (late wake)
  | call call =>
    simp only [machine, Lifecycle.next] at step
    split_ifs at step
    obtain rfl := Option.some_inj.mp step
    cases call with
    | stopWatchingMovedPaths =>
      rw [State.invoke, staleCalls_run (Nat.pos_of_ne_zero refused)]
      exact other _
    | startWatching | stopWatching =>
      -- The shutdown flag is not set, or Java would have stopped the call.
      simp only [Admitted, Classical.not_imp] at refused
      rw [State.invoke, if_neg refused.2, staleCalls_run refused.1]
      exact other _
    | shutdown =>
      simp only [Admitted, Classical.not_imp] at refused
      have deleted : 0 < ({ s with shutdown := true } : State).native.deletions := refused.1
      rw [State.invoke, if_neg refused.2, staleCalls_run deleted]
      exact other _
  | awaitTermination successful =>
    have deleted : 0 < s.native.deletions := Nat.pos_of_ne_zero refused
    simp only [machine, Lifecycle.next, State.enterAwait, if_pos deleted] at step
    split_ifs at step <;>
    · obtain rfl := Option.some_inj.mp step
      simp only [staleCalls_run deleted]
      exact other _
  | launch | processor | initializationFails | executeRunLoop | abort | await | join =>
    exact absurd trivial refused

end Lifecycle

end FileEvents
