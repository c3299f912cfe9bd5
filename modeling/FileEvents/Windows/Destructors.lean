import FileEvents.Windows.StatusInvariant

/-!
# Completions of destroyed watch points

The Windows server at work together with the watch points it has destroyed. An
outstanding read is pending, completed or aborted; its completion routine runs once, in
some later alertable wait of the run-loop thread, and is passed the watch point by address.
The destructor of a watch point cancels the read and waits alertably once, with a timeout of
zero. When it returns, the routine may have run or not.

A routine that runs after the destructor finds freed memory. What it does then is left open.

## Main definitions

* `Destructors.State` — the server, what it destroyed and what was reported too late
* `Destructors.Awaited` — the steps that destroy no watch point with an outstanding read

## Main results

* `reachable_system` — the server is at work as in `Windows.machine`
* `no_dangling_of_awaited` — where such steps lead, no routine ran for a destroyed watch
  point, and nothing was reported for a path after its watch point was destroyed
* `dangling_of_not_awaited` — after any other step a routine may run too late
-/

namespace FileEvents

open Transition

namespace Windows

namespace Destructors

/-- A server at work and the watch points it has destroyed. -/
structure State where
  system : System
  /-- The watch points whose destructor has returned, once for each outstanding read. -/
  destroyed : List WatchPoint
  /-- The destroyed watch points for which a completion routine has run. -/
  dangling : List WatchPoint
  /-- The paths of all watch points whose destructor has returned. -/
  ended : List U16String
  /-- What was reported for a path that was not watched any more. -/
  late : List (U16String × Report)

/-- What can happen next. -/
inductive Label
  | registerPath (path : U16String) (answers : ConstructAnswers)
  | unregisterPath (path : U16String) (cancelIo : Except ErrorCode Unit)
  /-- The innermost destructor returns. -/
  | destroyed (answers : ConstructAnswers) (cancelIo : Except ErrorCode Unit)
  | completion (path : U16String) (completion : Completion)
  | lateCompletion (index : ℕ) (completion : Completion)
  /-- The completion routine of a watch point whose destructor has returned. What it
  reports depends on what the freed memory holds by then. -/
  | dangling (index : ℕ) (reports : List Report)
  | stopWatchingMovedPaths (visits : List Server.Visit)
  | shutdown

namespace State

/-- The path was watched, and is not watched now. -/
def Unwatched (s : State) (path : U16String) : Prop :=
  path ∈ s.ended ∧ path ∉ s.system.server.watchPoints

instance (s : State) : DecidablePred s.Unwatched := fun path =>
  inferInstanceAs (Decidable (path ∈ s.ended ∧ path ∉ s.system.server.watchPoints))

/-- A completion routine reports events for a watch point. -/
def report (s : State) (watchPoint : WatchPoint) (reports : List Report) : State :=
  if s.Unwatched watchPoint.registeredPath then
    { s with late := s.late ++ reports.map fun report => (watchPoint.registeredPath, report) }
  else s

/-- A destructor has returned. -/
def returned (s : State) (watchPoint : WatchPoint) : State :=
  { s with
    destroyed := List.replicate watchPoint.outstandingReads watchPoint ++ s.destroyed
    ended := watchPoint.registeredPath :: s.ended }

/-- `~WatchPoint` up to its wait, or to its end if `cancel` throws. -/
def destroy (s : State) (watchPoint : WatchPoint) (cancelIo : Except ErrorCode Unit)
    (thenRegister : Option U16String) : State :=
  let s' := { s with system := s.system.destroy watchPoint cancelIo thenRegister }
  match watchPoint.cancel cancelIo with
  | (.ok _, _) => s'
  | (.error _, watchPoint) => s'.returned watchPoint

/-- The `emplace` of `registerPath`. -/
def enter (s : State) (path : U16String) (answers : ConstructAnswers)
    (cancelIo : Except ErrorCode Unit) : State :=
  match s.system.server.enterWatchPoint path answers with
  | (_, server, none) => { s with system := { s.system with server } }
  | (_, server, some watchPoint) =>
    { s with system := { s.system with server } }.destroy watchPoint cancelIo none

/-- `registerPath`. A finished watch point has nothing to cancel. -/
def register (s : State) (path : U16String) (answers : ConstructAnswers) : State :=
  match s.system.server.beginRegisterPath path with
  | .error _ => s
  | .ok (none, server) =>
    { s with system := { s.system with server } }.enter path answers (.ok ())
  | .ok (some watchPoint, server) =>
    { s with system := { s.system with server } }.destroy watchPoint (.ok ()) (some path)

/-- `unregisterPath`. -/
def unregister (s : State) (path : U16String) (cancelIo : Except ErrorCode Unit) : State :=
  match s.system.server.unregisterPath path with
  | (none, _) => s
  | (some watchPoint, server) =>
    { s with system := { s.system with server } }.destroy watchPoint cancelIo none

/-- The step function. -/
def next (s : State) : Label → Option State
  | .registerPath path answers => some (s.register path answers)
  | .unregisterPath path cancelIo => some (s.unregister path cancelIo)
  | .destroyed answers cancelIo =>
    match s.system.destroying with
    | [] => none
    | ⟨watchPoint, none⟩ :: destroying =>
      some ({ s with system := { s.system with destroying } }.returned watchPoint)
    | ⟨watchPoint, some path⟩ :: destroying =>
      some (({ s with system := { s.system with destroying } }.returned watchPoint).enter path
        answers cancelIo)
  | .completion path completion =>
    match s.system.server.watchPoints.lookup path with
    | none => none
    | some watchPoint =>
      (s.system.next (.completion path completion)).map fun system =>
        { s.report watchPoint (s.system.server.handleEventsInBuffer watchPoint completion).2 with
          system }
  | .lateCompletion index completion =>
    match s.system.destroying[index]? with
    | none => none
    | some ⟨watchPoint, _⟩ =>
      (s.system.next (.lateCompletion index completion)).map fun system =>
        { s.report watchPoint (s.system.server.handleEventsInBuffer watchPoint completion).2 with
          system }
  | .dangling index reports =>
    match s.destroyed[index]? with
    | none => none
    | some watchPoint => some
        { s.report watchPoint reports with
          destroyed := s.destroyed.eraseIdx index
          dangling := watchPoint :: s.dangling }
  | .stopWatchingMovedPaths visits =>
    (s.system.next (.stopWatchingMovedPaths visits)).map fun system => { s with system }
  | .shutdown => (s.system.next .shutdown).map fun system => { s with system }

end State

/-- A server that was just created. -/
def machine : Machine State Label where
  start :=
    { system := Windows.machine.start
      destroyed := []
      dangling := []
      ended := []
      late := [] }
  next := State.next

/-! ## The server under it -/

section Projection

variable {s t : State} {label : Label}

@[simp] theorem system_report {watchPoint : WatchPoint} {reports : List Report} :
    (s.report watchPoint reports).system = s.system := by
  unfold State.report
  split_ifs <;> rfl

@[simp] theorem system_returned {watchPoint : WatchPoint} :
    (s.returned watchPoint).system = s.system := rfl

@[simp] theorem system_destroy {watchPoint : WatchPoint} {cancelIo : Except ErrorCode Unit}
    {thenRegister : Option U16String} :
    (s.destroy watchPoint cancelIo thenRegister).system =
      s.system.destroy watchPoint cancelIo thenRegister := by
  unfold State.destroy
  dsimp only
  split <;> rfl

@[simp] theorem system_enter {path : U16String} {answers : ConstructAnswers}
    {cancelIo : Except ErrorCode Unit} :
    (s.enter path answers cancelIo).system = s.system.enter path answers cancelIo := by
  unfold State.enter System.enter
  rcases s.system.server.enterWatchPoint path answers with ⟨_, server, _ | watchPoint⟩
  · rfl
  · exact system_destroy

@[simp] theorem system_register {path : U16String} {answers : ConstructAnswers} :
    (s.register path answers).system = s.system.register path answers := by
  unfold State.register System.register
  rcases s.system.server.beginRegisterPath path with _ | ⟨_ | watchPoint, server⟩
  · rfl
  · exact system_enter
  · exact system_destroy

@[simp] theorem system_unregister {path : U16String} {cancelIo : Except ErrorCode Unit} :
    (s.unregister path cancelIo).system = s.system.unregister path cancelIo := by
  unfold State.unregister System.unregister
  rcases s.system.server.unregisterPath path with ⟨_ | watchPoint, server⟩
  · rfl
  · exact system_destroy

/-- When a destructor returns, its watch point is gone, and its `registerPath` goes on if it
was run by one. -/
theorem destroyed_spec {answers : ConstructAnswers} {cancelIo : Except ErrorCode Unit}
    (step : s.next (.destroyed answers cancelIo) = some t) :
    ∃ destruction destroying, s.system.destroying = destruction :: destroying ∧
      ((destruction.thenRegister = none ∧
          t = { s with system := { s.system with destroying } }.returned
            destruction.watchPoint) ∨
        ∃ path, destruction.thenRegister = some path ∧
          t = ({ s with system := { s.system with destroying } }.returned
            destruction.watchPoint).enter path answers cancelIo) := by
  dsimp only [State.next] at step
  split at step
  next => cases step
  next watchPoint destroying waiting =>
    exact ⟨_, destroying, waiting, .inl ⟨rfl, (Option.some_inj.mp step).symm⟩⟩
  next watchPoint path destroying waiting =>
    exact ⟨_, destroying, waiting, .inr ⟨path, rfl, (Option.some_inj.mp step).symm⟩⟩

/-- A completion routine runs for a watch point of the server. -/
theorem completion_spec {path : U16String} {completion : Completion}
    (step : s.next (.completion path completion) = some t) :
    ∃ watchPoint system, s.system.server.watchPoints.lookup path = some watchPoint ∧
      s.system.next (.completion path completion) = some system ∧
      t = { s.report watchPoint
              (s.system.server.handleEventsInBuffer watchPoint completion).2 with system } := by
  dsimp only [State.next] at step
  split at step
  next => cases step
  next watchPoint known =>
    obtain ⟨system, inner, rfl⟩ := Option.map_eq_some_iff.mp step
    exact ⟨watchPoint, system, known, inner, rfl⟩

/-- A completion routine runs for a watch point that is being destroyed. -/
theorem lateCompletion_spec {index : ℕ} {completion : Completion}
    (step : s.next (.lateCompletion index completion) = some t) :
    ∃ destruction system, s.system.destroying[index]? = some destruction ∧
      s.system.next (.lateCompletion index completion) = some system ∧
      t = { s.report destruction.watchPoint (s.system.server.handleEventsInBuffer
              destruction.watchPoint completion).2 with system } := by
  dsimp only [State.next] at step
  split at step
  next => cases step
  next watchPoint thenRegister waiting =>
    obtain ⟨system, inner, rfl⟩ := Option.map_eq_some_iff.mp step
    exact ⟨⟨watchPoint, thenRegister⟩, system, waiting, inner, rfl⟩

/-- A completion routine runs for a destroyed watch point. -/
theorem dangling_spec {index : ℕ} {reports : List Report}
    (step : s.next (.dangling index reports) = some t) :
    ∃ watchPoint, s.destroyed[index]? = some watchPoint ∧
      t = { s.report watchPoint reports with
            destroyed := s.destroyed.eraseIdx index
            dangling := watchPoint :: s.dangling } := by
  dsimp only [State.next] at step
  split at step
  next => cases step
  next watchPoint freed => exact ⟨watchPoint, freed, (Option.some_inj.mp step).symm⟩

/-- Under every step but that of a dangling routine, the server takes a step of its own. -/
theorem system_next (step : machine.next s label = some t) :
    t.system = s.system ∨ ∃ inner, s.system.next inner = some t.system := by
  cases label with
  | registerPath path answers =>
    obtain rfl := Option.some_inj.mp step
    exact .inr ⟨.registerPath path answers, congrArg some system_register.symm⟩
  | unregisterPath path cancelIo =>
    obtain rfl := Option.some_inj.mp step
    exact .inr ⟨.unregisterPath path cancelIo, congrArg some system_unregister.symm⟩
  | destroyed answers cancelIo =>
    refine .inr ⟨.destroyed answers cancelIo, ?_⟩
    obtain ⟨⟨watchPoint, thenRegister⟩, destroying, waiting, ⟨rfl, rfl⟩ | ⟨path, rfl, rfl⟩⟩ :=
      destroyed_spec step
    · simp only [System.next, waiting, system_returned]
    · simp only [System.next, waiting, system_enter, system_returned]
  | completion path completion =>
    obtain ⟨_, system, -, inner, rfl⟩ := completion_spec step
    exact .inr ⟨_, inner⟩
  | lateCompletion index completion =>
    obtain ⟨_, system, -, inner, rfl⟩ := lateCompletion_spec step
    exact .inr ⟨_, inner⟩
  | dangling index reports =>
    -- Whatever a routine does with freed memory, the server keeps its state here.
    obtain ⟨_, -, rfl⟩ := dangling_spec step
    exact .inl system_report
  | stopWatchingMovedPaths visits =>
    obtain ⟨system, inner, rfl⟩ := Option.map_eq_some_iff.mp step
    exact .inr ⟨_, inner⟩
  | shutdown =>
    obtain rfl := Option.some_inj.mp step
    exact .inr ⟨.shutdown, rfl⟩

/-- Whatever was destroyed, the server is at work as in `Windows.machine`. -/
theorem reachable_system (reach : machine.Reachable s) :
    Windows.machine.Reachable s.system := by
  refine reach.map State.system rfl fun s label t _ step => ?_
  rcases system_next step with same | ⟨inner, step'⟩
  · exact .inl same
  · exact .inr ⟨inner, trivial, step'⟩

end Projection

/-! ## The paths of the watch points -/

/-- Every watch point is entered under its own path. -/
def Registered (server : Server) : Prop :=
  ∀ path watchPoint, server.watchPoints.lookup path = some watchPoint →
    watchPoint.registeredPath = path

section Registered

variable {server : Server} {watchPoint : WatchPoint} {path : U16String}
variable {answers : ConstructAnswers}

@[simp] theorem registeredPath_listen (watchPoint : WatchPoint) (answers : ListenAnswers) :
    (watchPoint.listen answers).2.registeredPath = watchPoint.registeredPath := by
  unfold WatchPoint.listen
  split
  next => rfl
  next => split_ifs <;> exact WatchPoint.registeredPath_close

@[simp] theorem registeredPath_cancel {cancelIo : Except ErrorCode Unit} :
    (watchPoint.cancel cancelIo).2.registeredPath = watchPoint.registeredPath := by
  unfold WatchPoint.cancel
  split_ifs
  · cases cancelIo with
    | ok => rfl
    | error =>
      dsimp only
      split_ifs <;> exact WatchPoint.registeredPath_close
  · rfl

theorem registeredPath_construct {path : U16String} {answers : ConstructAnswers}
    (built : WatchPoint.construct path answers = (.ok (), some watchPoint)) :
    watchPoint.registeredPath = path := by
  obtain ⟨registeredFinalPath, watchPoint', same, listened⟩ := WatchPoint.construct_ok built
  obtain rfl := Option.some_inj.mp same
  have kept := registeredPath_listen { WatchPoint.opened path with registeredFinalPath }
    answers.listen
  rwa [listened] at kept

theorem registeredPath_tryHandleEvents {completion : Completion} :
    (server.tryHandleEvents watchPoint completion).2.1.registeredPath =
      watchPoint.registeredPath := by
  unfold Server.tryHandleEvents
  by_cases success : completion.errorCode = ERROR_SUCCESS
  · rw [if_neg (not_not.mpr success)]
    cases completion.finalPath with
    | error ex => rfl
    | ok currentFinalPath =>
      dsimp only
      split_ifs with moved terminating
      · exact WatchPoint.registeredPath_close
      · rfl
      · split
        next => rfl
        next =>
          have kept := registeredPath_listen watchPoint completion.listen
          split <;> next listened => rwa [listened] at kept
  · rw [if_pos success]
    split_ifs
    · exact WatchPoint.registeredPath_close
    · rfl

@[simp] theorem registeredPath_handleEventsInBuffer {completion : Completion} :
    (server.handleEventsInBuffer watchPoint completion).1.registeredPath =
      watchPoint.registeredPath := by
  unfold Server.handleEventsInBuffer
  dsimp only
  split_ifs
  · exact WatchPoint.registeredPath_close
  · rfl
  · exact handleEvents_fst ▸ registeredPath_tryHandleEvents

theorem Registered.insert (registered : Registered server)
    (own : watchPoint.registeredPath = path) :
    Registered { server with watchPoints := server.watchPoints.insert path watchPoint } := by
  intro other found known
  rw [lookup_insert_eq] at known
  split_ifs at known with same
  · obtain rfl := Option.some_inj.mp known
    exact own.trans same.symm
  · exact registered other found known

theorem Registered.erase (registered : Registered server) :
    Registered { server with watchPoints := server.watchPoints.erase path } := by
  intro other found known
  rw [lookup_erase_eq] at known
  split_ifs at known
  exact registered other found known

/-- `emplace` enters a watch point for the path, unless there is one already, or nothing. -/
theorem enterWatchPoint_cases (server : Server) (path : U16String) (answers : ConstructAnswers) :
    (server.enterWatchPoint path answers).2 = (server, none) ∨
      ∃ watchPoint, WatchPoint.construct path answers = (.ok (), some watchPoint) ∧
        (server.enterWatchPoint path answers).2 =
          ({ server with watchPoints := emplace server.watchPoints path watchPoint },
            if path ∈ server.watchPoints then some watchPoint else none) := by
  unfold Server.enterWatchPoint
  cases WatchPoint.construct path answers with
  | mk result object =>
    rcases result with ex | ⟨⟩ <;> rcases object with _ | watchPoint
    · exact .inl rfl
    · exact .inl rfl
    · exact .inl rfl
    · exact .inr ⟨watchPoint, rfl, rfl⟩

/-- What `emplace` finds later is what was there, or the new watch point. -/
theorem lookup_cases_enter {s : System} {other : U16String} {cancelIo : Except ErrorCode Unit}
    (known : (s.enter other answers cancelIo).server.watchPoints.lookup path =
      some watchPoint) :
    s.server.watchPoints.lookup path = some watchPoint ∨
      path = other ∧ WatchPoint.construct path answers = (.ok (), some watchPoint) := by
  have same : (s.enter other answers cancelIo).server =
      (s.server.enterWatchPoint other answers).2.1 := by
    unfold System.enter
    split
    next h => rw [h]
    next h => rw [h, server_destroy]
  rw [same] at known
  obtain unchanged | ⟨new, built, unchanged⟩ := enterWatchPoint_cases s.server other answers
  · rw [unchanged] at known
    exact .inl known
  · rw [unchanged] at known
    unfold emplace at known
    split_ifs at known
    · exact .inl known
    · dsimp only at known
      rw [lookup_insert_eq] at known
      split_ifs at known with own
      · obtain rfl := Option.some_inj.mp known
        exact .inr ⟨own, own ▸ built⟩
      · exact .inl known

theorem Registered.enterWatchPoint (registered : Registered server) (path : U16String)
    (answers : ConstructAnswers) : Registered (server.enterWatchPoint path answers).2.1 := by
  obtain same | ⟨watchPoint, built, same⟩ := enterWatchPoint_cases server path answers
  · rwa [same]
  · rw [same]
    by_cases known : path ∈ server.watchPoints
    · simpa only [emplace, known, if_true] using registered
    · rw [emplace_of_not_mem known]
      exact registered.insert (registeredPath_construct built)

theorem Registered.stopWatchingMovedPath (registered : Registered server) (visit : Server.Visit) :
    Registered (server.stopWatchingMovedPath visit).2 := by
  unfold Server.stopWatchingMovedPath
  split
  next => exact registered
  next watchPoint known =>
    split_ifs
    · exact registered
    · exact registered.insert (registeredPath_cancel.trans (registered _ _ known))
    · exact registered

theorem Registered.stopWatchingMovedPaths {visits : List Server.Visit}
    (registered : Registered server) : Registered (server.stopWatchingMovedPaths visits).2 := by
  induction visits generalizing server with
  | nil => exact registered
  | cons visit visits ih =>
    have round := registered.stopWatchingMovedPath visit
    unfold Server.stopWatchingMovedPaths
    split
    next thrown => rwa [thrown] at round
    next returned =>
      rw [returned] at round
      exact ih round

variable {s t : System} {label : Windows.Label}

theorem Registered.enter {cancelIo : Except ErrorCode Unit} (registered : Registered s.server) :
    Registered (s.enter path answers cancelIo).server := by
  have entered := registered.enterWatchPoint path answers
  unfold System.enter
  split
  next h => rwa [h] at entered
  next h =>
    rw [h] at entered
    rwa [server_destroy]

/-- A step enters no watch point under a path that is not its own. -/
theorem Registered.next (registered : Registered s.server) (step : s.next label = some t) :
    Registered t.server := by
  cases label with
  | registerPath path answers =>
    obtain rfl := Option.some_inj.mp step
    unfold System.register Server.beginRegisterPath
    cases known : s.server.watchPoints.lookup path with
    | none => exact registered.enter
    | some watchPoint =>
      by_cases finished : watchPoint.status = .finished
      · simp only [finished, if_true, server_destroy]
        -- A finished watch point makes room for a new one.
        exact registered.erase
      · simpa only [finished, if_false] using registered
  | unregisterPath path cancelIo =>
    obtain rfl := Option.some_inj.mp step
    obtain same | same := unregister_spec s path cancelIo
    · exact same ▸ registered
    · exact same ▸ registered.erase
  | destroyed answers cancelIo =>
    obtain ⟨-, _, -, ⟨-, rfl⟩ | ⟨path, -, rfl⟩⟩ := System.destroyed_spec step
    · exact registered
    · exact Registered.enter (s := { s with destroying := _ }) registered
  | completion path completion =>
    obtain ⟨watchPoint, known, -, rfl⟩ := System.completion_spec step
    exact registered.insert (registeredPath_handleEventsInBuffer.trans (registered _ _ known))
  | lateCompletion index completion =>
    exact System.server_of_lateCompletion step ▸ registered
  | stopWatchingMovedPaths visits =>
    obtain ⟨-, rfl⟩ := System.stopWatchingMovedPaths_spec step
    exact registered.stopWatchingMovedPaths
  | shutdown =>
    obtain rfl := Option.some_inj.mp step
    exact registered

theorem registered_of_reachable (reach : Windows.machine.Reachable s) : Registered s.server :=
  reach.invariant (I := fun s => Registered s.server) (by intro path _ known; cases known)
    fun _ _ _ registered step => registered.next step

end Registered

/-! ## Destructors that wait for the outstanding reads -/

/-- If a read of the watch point is outstanding, `CancelIoEx` does not keep its destructor
from waiting: it succeeds or finds nothing to cancel. -/
def Waits (watchPoint : WatchPoint) (cancelIo : Except ErrorCode Unit) : Prop :=
  0 < watchPoint.outstandingReads → watchPoint.status = .listening →
    cancelIo = .ok () ∨ cancelIo = .error ERROR_NOT_FOUND

instance (watchPoint : WatchPoint) (cancelIo : Except ErrorCode Unit) :
    Decidable (Waits watchPoint cancelIo) := inferInstanceAs (Decidable
  (0 < watchPoint.outstandingReads → watchPoint.status = .listening →
    cancelIo = .ok () ∨ cancelIo = .error ERROR_NOT_FOUND))

/-- Every destructor waits, and returns only when the completion routines of the reads of
its watch point have run. -/
def Awaited (s : State) : Label → Prop
  | .unregisterPath path cancelIo =>
    ∀ watchPoint ∈ s.system.server.watchPoints.lookup path, Waits watchPoint cancelIo
  | .destroyed answers cancelIo => ∀ destruction ∈ s.system.destroying.head?,
      destruction.watchPoint.outstandingReads = 0 ∧
        ∀ path ∈ destruction.thenRegister,
          ∀ watchPoint ∈ (s.system.server.enterWatchPoint path answers).2.2,
            Waits watchPoint cancelIo
  | _ => True

instance (s : State) : DecidablePred (Awaited s) := fun label =>
  match label with
  | .unregisterPath path cancelIo => inferInstanceAs (Decidable
      (∀ watchPoint ∈ s.system.server.watchPoints.lookup path, Waits watchPoint cancelIo))
  | .destroyed answers cancelIo => inferInstanceAs (Decidable
      (∀ destruction ∈ s.system.destroying.head?,
        destruction.watchPoint.outstandingReads = 0 ∧
          ∀ path ∈ destruction.thenRegister,
            ∀ watchPoint ∈ (s.system.server.enterWatchPoint path answers).2.2,
              Waits watchPoint cancelIo))
  | .registerPath .. | .completion .. | .lateCompletion .. | .dangling ..
  | .stopWatchingMovedPaths .. | .shutdown => instDecidableTrue

/-- No watch point was destroyed with an outstanding read, and those being destroyed have
stopped listening. -/
structure Safe (s : State) : Prop where
  silenced : ∀ destruction ∈ s.system.destroying,
    destruction.watchPoint.status ≠ .listening
  destroyed : s.destroyed = []
  dangling : s.dangling = []
  late : s.late = []

section WatchPoint

variable {server : Server} {watchPoint : WatchPoint} {cancelIo : Except ErrorCode Unit}

/-- Cancelled or not, the watch point does not listen any more. -/
theorem status_cancel_ne (watchPoint : WatchPoint) (cancelIo : Except ErrorCode Unit) :
    (watchPoint.cancel cancelIo).2.status ≠ .listening := by
  unfold WatchPoint.cancel
  split_ifs with listening
  · cases cancelIo with
    | ok => simp
    | error =>
      dsimp only
      split_ifs <;> simp
  · exact listening

theorem outstandingReads_cancel (watchPoint : WatchPoint) (cancelIo : Except ErrorCode Unit) :
    (watchPoint.cancel cancelIo).2.outstandingReads = watchPoint.outstandingReads := by
  unfold WatchPoint.cancel
  split_ifs
  · cases cancelIo with
    | ok => rfl
    | error =>
      dsimp only
      split_ifs <;> exact WatchPoint.outstandingReads_close
  · rfl

/-- `cancel` throws exactly where `CancelIoEx` fails for a read it has found. -/
theorem cancel_throws_iff (watchPoint : WatchPoint) (cancelIo : Except ErrorCode Unit) :
    (∃ ex, (watchPoint.cancel cancelIo).1 = .error ex) ↔
      watchPoint.status = .listening ∧ cancelIo ≠ .ok () ∧
        cancelIo ≠ .error ERROR_NOT_FOUND := by
  unfold WatchPoint.cancel
  by_cases listening : watchPoint.status = .listening
  · cases cancelIo with
    | ok => simp [listening]
    | error cancelError =>
      by_cases finished : cancelError = ERROR_NOT_FOUND <;> simp [listening, finished]
  · simp [listening]

/-- Of a watch point that does not listen, the completion routine reports nothing, and it
does not listen again. -/
theorem handleEventsInBuffer_silent (server : Server) (completion : Completion)
    (silent : watchPoint.status ≠ .listening) :
    (server.handleEventsInBuffer watchPoint completion).2 = [] ∧
      (server.handleEventsInBuffer watchPoint completion).1.status ≠ .listening := by
  unfold Server.handleEventsInBuffer
  dsimp only
  split_ifs with aborted
  · simp
  · exact ⟨rfl, silent⟩

end WatchPoint

section Safe

variable {s t : State} {label : Label} {watchPoint : WatchPoint} {path : U16String}
variable {answers : ConstructAnswers} {cancelIo : Except ErrorCode Unit}

theorem report_of_watched {reports : List Report}
    (watched : watchPoint.registeredPath ∈ s.system.server.watchPoints) :
    s.report watchPoint reports = s := if_neg fun unwatched => unwatched.2 watched

theorem report_nil : s.report watchPoint [] = s := by
  unfold State.report
  split_ifs <;> simp

/-- A destructor that returns when nothing is outstanding leaves nothing behind. -/
theorem Safe.returned (safe : Safe s) (idle : watchPoint.outstandingReads = 0) :
    Safe (s.returned watchPoint) where
  silenced := safe.silenced
  destroyed := by simpa [State.returned, idle] using safe.destroyed
  dangling := safe.dangling
  late := safe.late

theorem Safe.destroy {thenRegister : Option U16String} (safe : Safe s)
    (waits : Waits watchPoint cancelIo) :
    Safe (s.destroy watchPoint cancelIo thenRegister) := by
  have silent := status_cancel_ne watchPoint cancelIo
  have reads := outstandingReads_cancel watchPoint cancelIo
  have throws_iff := cancel_throws_iff watchPoint cancelIo
  unfold State.destroy System.destroy
  rcases cancelled : watchPoint.cancel cancelIo with ⟨ex | result, closed⟩ <;> dsimp only
  · -- The destructor is through, so nothing may be outstanding.
    rw [cancelled] at throws_iff reads
    obtain ⟨listening, failed, other⟩ := throws_iff.mp ⟨ex, rfl⟩
    have idle : watchPoint.outstandingReads = 0 := by
      by_contra outstanding
      rcases waits (Nat.pos_of_ne_zero outstanding) listening with ok | notFound
      · exact failed ok
      · exact other notFound
    exact safe.returned (reads.trans idle)
  · rw [cancelled] at silent
    exact ⟨List.forall_mem_cons.mpr ⟨silent, safe.silenced⟩, safe.destroyed, safe.dangling,
      safe.late⟩

theorem Safe.enter (safe : Safe s)
    (waits : ∀ watchPoint ∈ (s.system.server.enterWatchPoint path answers).2.2,
      Waits watchPoint cancelIo) :
    Safe (s.enter path answers cancelIo) := by
  unfold State.enter
  split
  next => exact ⟨safe.silenced, safe.destroyed, safe.dangling, safe.late⟩
  next result server watchPoint entered =>
    rw [entered] at waits
    exact Safe.destroy (s := { s with system := { s.system with server } })
      ⟨safe.silenced, safe.destroyed, safe.dangling, safe.late⟩ (waits watchPoint rfl)

/-- A step whose destructors wait for the outstanding reads leaves nothing behind. -/
theorem Safe.next (registered : Registered s.system.server) (safe : Safe s)
    (awaited : Awaited s label) (step : s.next label = some t) : Safe t := by
  cases label with
  | registerPath path answers =>
    obtain rfl := Option.some_inj.mp step
    unfold State.register Server.beginRegisterPath
    cases known : s.system.server.watchPoints.lookup path with
    | none =>
      refine safe.enter fun watchPoint lost => ?_
      -- An unknown path is entered, so the new watch point is not destroyed.
      have unknown : path ∉ s.system.server.watchPoints := fun mem => by
        obtain ⟨found, known'⟩ := mem_iff_lookup.mp mem
        rw [known] at known'
        cases known'
      obtain same | ⟨_, -, same⟩ := enterWatchPoint_cases s.system.server path answers
      · rw [same] at lost
        cases lost
      · rw [same, if_neg unknown] at lost
        cases lost
    | some watchPoint =>
      by_cases finished : watchPoint.status = .finished
      · simp only [finished, if_true]
        exact Safe.destroy (s := { s with system := { s.system with server := _ } })
          ⟨safe.silenced, safe.destroyed, safe.dangling, safe.late⟩
          fun _ listening => absurd (finished.symm.trans listening) (by decide)
      · simpa only [finished, if_false] using safe
  | unregisterPath path cancelIo =>
    obtain rfl := Option.some_inj.mp step
    unfold State.unregister Server.unregisterPath
    cases known : s.system.server.watchPoints.lookup path with
    | none => exact safe
    | some watchPoint =>
      exact Safe.destroy (s := { s with system := { s.system with server := _ } })
        ⟨safe.silenced, safe.destroyed, safe.dangling, safe.late⟩ (awaited watchPoint known)
  | destroyed answers cancelIo =>
    obtain ⟨destruction, destroying, waiting, ends⟩ := destroyed_spec step
    obtain ⟨idle, waits⟩ := awaited destruction (by simp [waiting])
    have safe' : Safe { s with system := { s.system with destroying } } :=
      ⟨fun other mem => safe.silenced other (waiting ▸ List.mem_cons_of_mem _ mem),
        safe.destroyed, safe.dangling, safe.late⟩
    obtain ⟨-, rfl⟩ | ⟨path, goesOn, rfl⟩ := ends
    · exact safe'.returned idle
    · exact (safe'.returned idle).enter (waits path goesOn)
  | completion path completion =>
    obtain ⟨watchPoint, system, known, inner, rfl⟩ := completion_spec step
    have watched : watchPoint.registeredPath ∈ s.system.server.watchPoints := by
      rw [registered path watchPoint known]
      exact mem_iff_lookup.mpr ⟨watchPoint, known⟩
    obtain ⟨_, -, -, rfl⟩ := System.completion_spec inner
    rw [report_of_watched watched]
    exact ⟨safe.silenced, safe.destroyed, safe.dangling, safe.late⟩
  | lateCompletion index completion =>
    obtain ⟨destruction, system, waiting, inner, rfl⟩ := lateCompletion_spec step
    have silent := handleEventsInBuffer_silent s.system.server completion
      (safe.silenced _ (List.mem_of_getElem? waiting))
    rw [silent.1, report_nil]
    refine ⟨fun other mem => ?_, safe.destroyed, safe.dangling, safe.late⟩
    simp only [System.next, waiting] at inner
    split_ifs at inner
    obtain rfl := Option.some_inj.mp inner
    rcases List.mem_or_eq_of_mem_set mem with old | rfl
    · exact safe.silenced other old
    · exact silent.2
  | dangling index reports =>
    obtain ⟨watchPoint, freed, -⟩ := dangling_spec step
    rw [safe.destroyed] at freed
    cases freed
  | stopWatchingMovedPaths visits =>
    obtain ⟨system, inner, rfl⟩ := Option.map_eq_some_iff.mp step
    obtain ⟨-, rfl⟩ := System.stopWatchingMovedPaths_spec inner
    exact ⟨safe.silenced, safe.destroyed, safe.dangling, safe.late⟩
  | shutdown =>
    obtain rfl := Option.some_inj.mp step
    exact ⟨safe.silenced, safe.destroyed, safe.dangling, safe.late⟩

/-- Where every destructor returns only after the completion routines of its reads, no
routine runs for a destroyed watch point, and nothing is reported for a path that was
unregistered. -/
theorem no_dangling_of_awaited (s : State) (reach : machine.ReachableWhere Awaited s) :
    s.dangling = [] ∧ s.late = [] := by
  have safe : Safe s := by
    refine reach.invariant_of (I := Safe) (J := fun s => Registered s.system.server)
      (fun s reach => registered_of_reachable (reachable_system reach.reachable))
      ⟨by simp [machine, Windows.machine], rfl, rfl, rfl⟩ ?_
    exact fun s label t registered safe awaited step => safe.next registered awaited step
  exact ⟨safe.dangling, safe.late⟩

/-- A directory is registered and unregistered, and its read is aborted while the destructor
waits. -/
def awaitedRun : List Label :=
  [.registerPath (u16 "C:\\a") directoryAnswers, .unregisterPath (u16 "C:\\a") (.ok ()),
    .lateCompletion 0 (failedCompletion ERROR_OPERATION_ABORTED),
    .destroyed directoryAnswers (.ok ())]

theorem no_dangling_of_awaited_unregistered :
    ∃ s, machine.ReachableWhere Awaited s ∧ s.ended = [u16 "C:\\a"] ∧ s.dangling = [] ∧
      s.late = [] := by
  have computed : (machine.execWhere Awaited machine.start awaitedRun).map State.ended =
    some [u16 "C:\\a"] := by decide
  obtain ⟨s, reach, ended⟩ := Machine.observe_of_execWhere computed
  exact ⟨s, reach, ended, no_dangling_of_awaited s reach⟩

/-- `CancelIoEx` succeeds, but the aborted completion is queued only when the destructor has
returned already. -/
def danglingRun : List Label :=
  [.registerPath (u16 "C:\\a") directoryAnswers, .unregisterPath (u16 "C:\\a") (.ok ()),
    .destroyed directoryAnswers (.ok ()), .dangling 0 []]

/-- In some run a completion routine runs for a watch point whose destructor has
returned. -/
theorem not_forall_no_dangling :
    ¬ ∀ s, machine.Reachable s → s.dangling = [] ∧ s.late = [] := by
  intro always
  have computed : (machine.exec machine.start danglingRun).map
      (fun s => s.dangling.map fun watchPoint => watchPoint.registeredPath) =
        some [u16 "C:\\a"] := by decide
  obtain ⟨s, reach, dangling⟩ := Machine.observe_of_exec computed
  rw [(always s reach).1] at dangling
  cases dangling

/-! ## Destructors that do not wait long enough -/

theorem destroyed_returned (outstanding : 0 < watchPoint.outstandingReads) :
    (s.returned watchPoint).destroyed ≠ [] := by
  simp only [State.returned, ne_eq, List.append_eq_nil_iff, List.replicate_eq_nil_iff, not_and]
  intro idle
  omega

theorem destroyed_destroy {thenRegister : Option U16String}
    (earlier : s.destroyed ≠ [] ∨ ¬ Waits watchPoint cancelIo) :
    (s.destroy watchPoint cancelIo thenRegister).destroyed ≠ [] := by
  have reads := outstandingReads_cancel watchPoint cancelIo
  have throws_iff := cancel_throws_iff watchPoint cancelIo
  unfold State.destroy
  dsimp only
  split
  next cancelled =>
    refine earlier.elim id fun fails => absurd (fun _ listening => ?_) fails
    by_contra failed
    rw [cancelled] at throws_iff
    obtain ⟨ex, throws⟩ := throws_iff.mpr ⟨listening, not_or.mp failed⟩
    cases throws
  next ex closed cancelled =>
    rw [cancelled] at reads
    rcases earlier with earlier | fails
    · simp [State.returned, earlier]
    · have outstanding : 0 < watchPoint.outstandingReads := by
        by_contra idle
        exact fails fun outstanding => absurd outstanding idle
      exact destroyed_returned (reads ▸ outstanding)

theorem destroyed_enter (earlier : s.destroyed ≠ [] ∨
    ∃ watchPoint ∈ (s.system.server.enterWatchPoint path answers).2.2,
      ¬ Waits watchPoint cancelIo) :
    (s.enter path answers cancelIo).destroyed ≠ [] := by
  unfold State.enter
  split
  next entered =>
    rw [entered] at earlier
    exact earlier.elim id fun ⟨_, nothing, _⟩ => by cases nothing
  next entered =>
    rw [entered] at earlier
    refine destroyed_destroy (earlier.imp id ?_)
    rintro ⟨watchPoint, same, fails⟩
    exact Option.some_inj.mp same ▸ fails

/-- After any other step a completion routine may run for a destroyed watch point. -/
theorem dangling_of_not_awaited (fails : ¬ Awaited s label)
    (step : machine.next s label = some t) :
    ∃ u, machine.next t (.dangling 0 []) = some u ∧ u.dangling ≠ [] := by
  have left : t.destroyed ≠ [] := by
    cases label with
    | unregisterPath path cancelIo =>
      obtain rfl := Option.some_inj.mp step
      simp only [Awaited, not_forall] at fails
      obtain ⟨watchPoint, known, fails⟩ := fails
      simp only [State.unregister, Server.unregisterPath, Option.mem_def.mp known]
      exact destroyed_destroy (.inr fails)
    | destroyed answers cancelIo =>
      obtain ⟨destruction, destroying, waiting, ends⟩ := destroyed_spec step
      simp only [Awaited, waiting, List.head?_cons, Option.mem_def, Option.some_inj,
        forall_eq', not_and_or, not_forall] at fails
      -- It is freed with a read outstanding, or the watch point that is entered next and
      -- destroyed at once is.
      obtain outstanding | ⟨path, goesOn, watchPoint, entered, fails⟩ := fails
      · have gone := destroyed_returned (s := { s with system := { s.system with destroying } })
          (Nat.pos_of_ne_zero outstanding)
        obtain ⟨-, rfl⟩ | ⟨path, -, rfl⟩ := ends
        · exact gone
        · exact destroyed_enter (.inl gone)
      · obtain ⟨stops, -⟩ | ⟨path', goesOn', rfl⟩ := ends
        · rw [goesOn] at stops
          cases stops
        · obtain rfl := Option.some_inj.mp (goesOn.symm.trans goesOn')
          exact destroyed_enter (.inr ⟨watchPoint, entered, fails⟩)
    | _ => exact absurd trivial fails
  obtain ⟨watchPoint, rest, freed⟩ := List.exists_cons_of_ne_nil left
  exact ⟨{ t.report watchPoint [] with
      destroyed := t.destroyed.eraseIdx 0
      dangling := watchPoint :: t.dangling },
    by simp [machine, State.next, freed], List.cons_ne_nil _ _⟩

end Safe

end Destructors

end Windows

end FileEvents
