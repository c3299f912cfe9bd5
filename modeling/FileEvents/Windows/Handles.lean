import FileEvents.Delivery.ClosedStream
import FileEvents.Windows.StatusInvariant

/-!
# The directory handles of the Windows server

A directory handle belongs to one watch point, from the `CreateFileW` in its constructor to
the end of its destructor. The calls that pass the handle to the operating system are
listed in order, function by function, beside what the functions do to the watch point.

The life of a handle is any sequence of completions, cancellations, visits of
`stopWatchingMovedPaths` and calls of `listen`, ended by the destructor, or by the
constructor if it throws. A constructor that throws runs no destructor.

## Main definitions

* `HandleCall` — the calls that are passed the handle
* `Handles.machine` — the lives of a handle, by the answers to the constructor
* `Handles.Owned` — the handle is closed once in the end, and not used afterwards

## Main results

* `sound` — the handle is not used after it was closed, and it is closed exactly if the
  watch point is finished
* `owned_iff` — a handle is closed in the end exactly if the constructor has resolved its
  final path and reserved the event buffer
-/

namespace FileEvents

open Delivery Transition

namespace Windows

/-- The calls of the operating system that are passed a directory handle. -/
inductive HandleCall | getFinalPathNameByHandle | readDirectoryChanges | cancelIo | closeHandle
  deriving DecidableEq, Repr

namespace Handles

/-! ## The calls that the functions make -/

/-- `WatchPoint::close`. -/
def close (watchPoint : WatchPoint) : List HandleCall :=
  if watchPoint.status ≠ .finished then [.closeHandle] else []

/-- `WatchPoint::listen`. -/
def listen (watchPoint : WatchPoint) (answers : ListenAnswers) : List HandleCall :=
  .readDirectoryChanges :: match answers.readDirectoryChanges with
    | .ok () => []
    | .error _ => close watchPoint

/-- `WatchPoint::cancel`. -/
def cancel (watchPoint : WatchPoint) (cancelIo : Except ErrorCode Unit) : List HandleCall :=
  if watchPoint.status = .listening then
    .cancelIo :: match cancelIo with
      | .ok () => []
      | .error _ => close watchPoint
  else []

/-- The constructor, once `CreateFileW` has returned the handle. -/
def construct (path : U16String) (answers : ConstructAnswers) : List HandleCall :=
  .getFinalPathNameByHandle :: match answers.finalPath with
    | .error _ | .ok none => []
    | .ok (some registeredFinalPath) =>
      match reserve (eventBufferSize answers.bufferSize) answers.allocates with
      | .error _ => []
      | .ok () => listen { WatchPoint.opened path with registeredFinalPath } answers.listen

/-- `Server::handleEvents`. -/
def handleEvents (server : Server) (watchPoint : WatchPoint) (completion : Completion) :
    List HandleCall :=
  if completion.errorCode ≠ ERROR_SUCCESS then
    if completion.errorCode = ERROR_ACCESS_DENIED ∧ ¬ isValidDirectory completion.attrib then
      close watchPoint
    else []
  else .getFinalPathNameByHandle :: match completion.finalPath with
    | .error _ => []
    | .ok currentFinalPath =>
      if currentFinalPath ≠ some watchPoint.registeredFinalPath then close watchPoint
      else if server.shouldTerminate then []
      else match (completion.reportEvents watchPoint.registeredPath).2 with
        | .error _ => []
        | .ok () => listen watchPoint completion.listen

/-- `WatchPoint::handleEventsInBuffer`. -/
def handleEventsInBuffer (server : Server) (watchPoint : WatchPoint) (completion : Completion) :
    List HandleCall :=
  if completion.errorCode = ERROR_OPERATION_ABORTED then close watchPoint
  else if watchPoint.status ≠ .listening then []
  else handleEvents server { watchPoint with status := .notListening } completion

/-- A visit of `stopWatchingMovedPaths`. -/
def stopWatchingMovedPath (watchPoint : WatchPoint) (visit : Server.Visit) : List HandleCall :=
  if watchPoint.status = .finished then []
  else .getFinalPathNameByHandle ::
    if visit.finalPath ≠ some watchPoint.registeredFinalPath then
      cancel watchPoint visit.cancelIo
    else []

/-- What a visit of `stopWatchingMovedPaths` leaves of a watch point. -/
def visited (watchPoint : WatchPoint) (visit : Server.Visit) : WatchPoint :=
  if watchPoint.status = .finished then watchPoint
  else if visit.finalPath ≠ some watchPoint.registeredFinalPath then
    (watchPoint.cancel visit.cancelIo).2
  else watchPoint

/-- It is what `stopWatchingMovedPaths` leaves in the table. -/
theorem lookup_stopWatchingMovedPath {server : Server} {visit : Server.Visit}
    {watchPoint : WatchPoint} (known : server.watchPoints.lookup visit.path = some watchPoint) :
    (server.stopWatchingMovedPath visit).2.watchPoints.lookup visit.path =
      some (visited watchPoint visit) := by
  unfold Server.stopWatchingMovedPath visited
  rw [known]
  dsimp only
  split_ifs
  · exact known
  · exact AList.lookup_insert _
  · exact known

/-! ## What the calls do to the handle -/

/-- A function is called on a watch point with an open handle, which was passed to
`CloseHandle` a number of times before. -/
structure Proceeds (closeCalls : ℕ) (calls : List HandleCall) (after : WatchPoint) : Prop where
  atEnd : ClosesAtEnd (fun call => call = .closeHandle) calls
  closed : .closeHandle ∈ calls ↔ after.status = .finished
  counted : after.closeCalls = closeCalls + calls.count .closeHandle

/-- A function makes calls with the handle of a watch point. If the handle was closed
before, it makes none. -/
def Moves (before : WatchPoint) (calls : List HandleCall) (after : WatchPoint) : Prop :=
  (before.status = .finished ∧ calls = [] ∧ after.status = .finished ∧
      after.closeCalls = before.closeCalls) ∨
    (before.status ≠ .finished ∧ Proceeds before.closeCalls calls after)

section Moves

variable {watchPoint : WatchPoint} {closeCalls : ℕ} {calls : List HandleCall}
variable {after : WatchPoint} {server : Server} {completion : Completion}

theorem Proceeds.nil (unfinished : after.status ≠ .finished) :
    Proceeds after.closeCalls [] after where
  atEnd := .nil
  closed := by simp [unfinished]
  counted := rfl

/-- Another call may come before. -/
theorem Proceeds.cons (h : Proceeds closeCalls calls after) {call : HandleCall}
    (stays : call ≠ .closeHandle) : Proceeds closeCalls (call :: calls) after where
  atEnd := Open.append (l := [call]) (by simp [Open, stays]) h.atEnd
  closed := by simp [h.closed, stays.symm]
  counted := by rw [h.counted, List.count_cons_of_ne stays]

theorem proceeds_close (unfinished : watchPoint.status ≠ .finished) :
    Proceeds watchPoint.closeCalls (close watchPoint) watchPoint.close := by
  unfold close WatchPoint.close
  rw [if_pos unfinished, if_pos unfinished]
  exact ⟨Open.close .nil, by simp, by simp⟩

theorem proceeds_listen (answers : ListenAnswers) (unfinished : watchPoint.status ≠ .finished) :
    Proceeds watchPoint.closeCalls (listen watchPoint answers) (watchPoint.listen answers).2 := by
  unfold listen WatchPoint.listen
  apply Proceeds.cons _ (by decide)
  cases answers.readDirectoryChanges with
  | ok => exact ⟨.nil, by simp, rfl⟩
  | error listenError =>
    dsimp only
    split_ifs
    · exact proceeds_close unfinished
    · exact proceeds_close unfinished

theorem proceeds_handleEvents (server : Server) (watchPoint : WatchPoint)
    (completion : Completion) (unfinished : watchPoint.status ≠ .finished) :
    Proceeds watchPoint.closeCalls (handleEvents server watchPoint completion)
      (server.handleEvents watchPoint completion).1 := by
  rw [handleEvents_fst]
  unfold handleEvents Server.tryHandleEvents
  by_cases success : completion.errorCode = ERROR_SUCCESS
  · simp only [success, ne_eq, not_true_eq_false, if_false]
    apply Proceeds.cons _ (by decide)
    cases completion.finalPath with
    | error ex => exact .nil unfinished
    | ok currentFinalPath =>
      dsimp only
      split_ifs
      · exact .nil unfinished
      · cases completion.reportEvents watchPoint.registeredPath with
        | mk reports result =>
          cases result with
          | error ex => exact .nil unfinished
          | ok =>
            -- Behind the reports it listens again, however that ends.
            have listens := proceeds_listen completion.listen unfinished
            dsimp only
            split
            next listening => rwa [listening] at listens
            next listening => rwa [listening] at listens
            next listening => rwa [listening] at listens
      · exact proceeds_close unfinished
  · simp only [success, ne_eq, not_false_eq_true, if_true]
    split_ifs
    · exact proceeds_close unfinished
    · exact .nil unfinished

theorem moves_close (watchPoint : WatchPoint) :
    Moves watchPoint (close watchPoint) watchPoint.close := by
  by_cases finished : watchPoint.status = .finished
  · exact .inl ⟨finished, by simp [close, finished], by simp, by simp [WatchPoint.close, finished]⟩
  · exact .inr ⟨finished, proceeds_close finished⟩

theorem moves_cancel (watchPoint : WatchPoint) (cancelIo : Except ErrorCode Unit) :
    Moves watchPoint (cancel watchPoint cancelIo) (watchPoint.cancel cancelIo).2 := by
  unfold cancel WatchPoint.cancel
  split_ifs with listening
  · have unfinished : watchPoint.status ≠ .finished := by simp [listening]
    refine .inr ⟨unfinished, Proceeds.cons ?_ (by decide)⟩
    cases cancelIo with
    | ok => exact ⟨.nil, by simp, rfl⟩
    | error cancelError =>
      dsimp only
      split_ifs
      · exact proceeds_close unfinished
      · exact proceeds_close unfinished
  · by_cases finished : watchPoint.status = .finished
    · exact .inl ⟨finished, rfl, finished, rfl⟩
    · exact .inr ⟨finished, .nil finished⟩

theorem moves_visit (watchPoint : WatchPoint) (visit : Server.Visit) :
    Moves watchPoint (stopWatchingMovedPath watchPoint visit) (visited watchPoint visit) := by
  unfold stopWatchingMovedPath visited
  split_ifs with finished moved
  · exact .inl ⟨finished, rfl, finished, rfl⟩
  · have cancels := moves_cancel watchPoint visit.cancelIo
    obtain ⟨same, -⟩ | ⟨-, proceeds⟩ := cancels
    · exact absurd same finished
    · exact .inr ⟨finished, proceeds.cons (by decide)⟩
  · exact .inr ⟨finished, (Proceeds.nil finished).cons (by decide)⟩

theorem moves_handleEventsInBuffer (server : Server) (watchPoint : WatchPoint)
    (completion : Completion) :
    Moves watchPoint (handleEventsInBuffer server watchPoint completion)
      (server.handleEventsInBuffer watchPoint completion).1 := by
  unfold handleEventsInBuffer Server.handleEventsInBuffer
  dsimp only
  split_ifs with aborted silent
  -- Nothing but the number of outstanding reads is different.
  · exact moves_close { watchPoint with outstandingReads := watchPoint.outstandingReads - 1 }
  · by_cases finished : watchPoint.status = .finished
    · exact .inl ⟨finished, rfl, finished, rfl⟩
    · exact .inr ⟨finished, .nil, by simp [finished], rfl⟩
  · have unfinished : watchPoint.status ≠ .finished := by simp [not_not.mp silent]
    exact .inr ⟨unfinished, proceeds_handleEvents server
      { watchPoint with
        status := .notListening, outstandingReads := watchPoint.outstandingReads - 1 }
      completion (by simp)⟩

end Moves

/-! ## The life of a handle -/

/-- Where the watch point of a handle is in its life. -/
inductive Phase
  | constructed
  /-- The destructor waits, between `cancel` and `close`. -/
  | destroying
  /-- The destructor has returned, or the constructor has thrown. -/
  | ended
  deriving DecidableEq, Repr

/-- A handle with the watch point it belongs to. -/
structure State where
  phase : Phase
  watchPoint : WatchPoint
  /-- The calls that were passed the handle so far. -/
  calls : List HandleCall
  deriving DecidableEq, Repr

/-- What can happen next. -/
inductive Label
  /-- The completion routine, whatever the server is doing. -/
  | completion (server : Server) (completion : Completion)
  | cancel (cancelIo : Except ErrorCode Unit)
  | listen (answers : ListenAnswers)
  | stopWatchingMovedPath (visit : Server.Visit)
  /-- `~WatchPoint` up to its wait, or to its end if `cancel` throws. -/
  | destroy (cancelIo : Except ErrorCode Unit)
  /-- The rest of the destructor. -/
  | destroyed

namespace State

/-- A function is called on the watch point. -/
def call (s : State) (calls : List HandleCall) (watchPoint : WatchPoint) : State :=
  { s with watchPoint, calls := s.calls ++ calls }

/-- The step function. -/
def next (s : State) : Label → Option State
  | .completion server completion =>
    if s.phase ≠ .ended then
      some (s.call (handleEventsInBuffer server s.watchPoint completion)
        (server.handleEventsInBuffer s.watchPoint completion).1)
    else none
  | .cancel cancelIo =>
    if s.phase = .constructed then
      some (s.call (Handles.cancel s.watchPoint cancelIo) (s.watchPoint.cancel cancelIo).2)
    else none
  -- It is called by the constructor and by `handleEvents`, before the watch point listens.
  | .listen answers =>
    if s.phase ≠ .ended ∧ s.watchPoint.status = .notListening then
      some (s.call (Handles.listen s.watchPoint answers) (s.watchPoint.listen answers).2)
    else none
  | .stopWatchingMovedPath visit =>
    if s.phase = .constructed then
      some (s.call (Handles.stopWatchingMovedPath s.watchPoint visit) (visited s.watchPoint visit))
    else none
  | .destroy cancelIo =>
    if s.phase = .constructed then
      some
        { s.call (Handles.cancel s.watchPoint cancelIo) (s.watchPoint.cancel cancelIo).2 with
          phase :=
            if (s.watchPoint.cancel cancelIo).1.isOk then .destroying else .ended }
    else none
  | .destroyed =>
    if s.phase = .destroying then
      some { s.call (Handles.close s.watchPoint) s.watchPoint.close with phase := .ended }
    else none

end State

/-- The lives of the handle that `CreateFileW` has returned to a constructor. -/
def machine (path : U16String) (answers : ConstructAnswers) : Machine State Label where
  start :=
    match WatchPoint.construct path { answers with createFile := .ok () } with
    | (result, watchPoint) =>
      { phase := if result.isOk then .constructed else .ended
        watchPoint := watchPoint.getD (.opened path)
        calls := construct path answers }
  next := State.next

/-- The handle is closed exactly once by the end of its life and never twice, no call is
passed it afterwards, and it is closed exactly if the watch point is finished. -/
structure Owned (s : State) : Prop where
  atEnd : ClosesAtEnd (fun call => call = .closeHandle) s.calls
  closed : .closeHandle ∈ s.calls ↔ s.watchPoint.status = .finished
  ended : s.phase = .ended → s.calls.count .closeHandle = 1

/-- The handle is not used once it is closed. -/
structure Sound (s : State) : Prop where
  atEnd : ClosesAtEnd (fun call => call = .closeHandle) s.calls
  closed : .closeHandle ∈ s.calls ↔ s.watchPoint.status = .finished
  counted : s.watchPoint.closeCalls = s.calls.count .closeHandle

section Sound

variable {s t : State} {label : Label} {path : U16String} {answers : ConstructAnswers}

theorem Sound.call (sound : Sound s) {calls : List HandleCall} {watchPoint : WatchPoint}
    (moves : Moves s.watchPoint calls watchPoint) : Sound (s.call calls watchPoint) := by
  obtain ⟨finished, rfl, still, same⟩ | ⟨unfinished, proceeds⟩ := moves
  · refine ⟨by simpa [State.call] using sound.atEnd, ?_, ?_⟩
    · simpa [State.call, still, finished] using sound.closed
    · simpa [State.call, same] using sound.counted
  · have untouched : .closeHandle ∉ s.calls := fun closed => unfinished (sound.closed.mp closed)
    have stillOpen : Open (fun call => call = .closeHandle) s.calls := by
      rintro call mem rfl
      exact untouched mem
    refine ⟨stillOpen.append proceeds.atEnd, ?_, ?_⟩
    · simpa [State.call, untouched] using proceeds.closed
    · simp [State.call, proceeds.counted, sound.counted]

/-- The constructor closes the handle if it does not finish otherwise. -/
theorem proceeds_construct (path : U16String) (answers : ConstructAnswers) :
    Proceeds 0 (construct path answers) (machine path answers).start.watchPoint := by
  have unfinished (registeredFinalPath : U16String) :
      { WatchPoint.opened path with registeredFinalPath }.status ≠ .finished := by
    simp [WatchPoint.opened]
  unfold construct machine WatchPoint.construct
  apply Proceeds.cons _ (by decide)
  cases answers.finalPath with
  | error ex => exact .nil (unfinished [])
  | ok finalPath =>
    cases finalPath with
    | none => exact .nil (unfinished [])
    | some registeredFinalPath =>
      have listens := proceeds_listen answers.listen (unfinished registeredFinalPath)
      dsimp only
      cases reserve (eventBufferSize answers.bufferSize) answers.allocates with
      | error ex => exact .nil (unfinished registeredFinalPath)
      | ok =>
        dsimp only
        split
        next listening => rwa [listening] at listens
        next listening => rwa [listening] at listens
        next listening => rwa [listening] at listens

theorem sound_start (path : U16String) (answers : ConstructAnswers) :
    Sound (machine path answers).start :=
  have proceeds := proceeds_construct path answers
  ⟨proceeds.atEnd, proceeds.closed, proceeds.counted.trans (Nat.zero_add _)⟩

/-- Every step of a handle's life keeps the handle from being used once it is closed. -/
theorem Sound.next (sound : Sound s) (step : s.next label = some t) : Sound t := by
  cases label with
  | completion server completion =>
    simp only [State.next] at step
    split_ifs at step
    exact Option.some_inj.mp step ▸
      sound.call (moves_handleEventsInBuffer server s.watchPoint completion)
  | cancel cancelIo =>
    simp only [State.next] at step
    split_ifs at step
    exact Option.some_inj.mp step ▸ sound.call (moves_cancel s.watchPoint cancelIo)
  | listen answers =>
    simp only [State.next] at step
    split_ifs at step with enabled
    have unfinished : s.watchPoint.status ≠ .finished := by simp [enabled.2]
    exact Option.some_inj.mp step ▸
      sound.call (.inr ⟨unfinished, proceeds_listen answers unfinished⟩)
  | stopWatchingMovedPath visit =>
    simp only [State.next] at step
    split_ifs at step
    exact Option.some_inj.mp step ▸ sound.call (moves_visit s.watchPoint visit)
  -- The destructor cancels the read first. It does not get to the closing if that throws.
  | destroy cancelIo =>
    simp only [State.next] at step
    obtain ⟨atEnd, closed, counted⟩ := sound.call (moves_cancel s.watchPoint cancelIo)
    split_ifs at step
    · exact Option.some_inj.mp step ▸ ⟨atEnd, closed, counted⟩
    · exact Option.some_inj.mp step ▸ ⟨atEnd, closed, counted⟩
  | destroyed =>
    simp only [State.next] at step
    obtain ⟨atEnd, closed, counted⟩ := sound.call (moves_close s.watchPoint)
    split_ifs at step
    exact Option.some_inj.mp step ▸ ⟨atEnd, closed, counted⟩

theorem sound (reach : (machine path answers).Reachable s) : Sound s :=
  reach.invariant (sound_start path answers) fun _ _ _ sound step => sound.next step

/-- `cancel` closes the handle before it throws. -/
theorem finished_of_cancel_throws {watchPoint : WatchPoint} {cancelIo : Except ErrorCode Unit}
    (throws : (watchPoint.cancel cancelIo).1.isOk = false) :
    (watchPoint.cancel cancelIo).2.status = .finished := by
  unfold WatchPoint.cancel at throws ⊢
  split_ifs with listening
  · rw [if_pos listening] at throws
    cases cancelIo with
    | ok => cases throws
    | error cancelError =>
      dsimp only
      split_ifs <;> exact WatchPoint.status_close
  · rw [if_neg listening] at throws
    cases throws

/-- A constructor that comes to `listen` closes the handle before it throws. -/
theorem finished_of_construct_throws {registeredFinalPath : U16String}
    (resolved : answers.finalPath = .ok (some registeredFinalPath))
    (reserved : reserve (eventBufferSize answers.bufferSize) answers.allocates = .ok ())
    (throws : (machine path answers).start.phase = .ended) :
    (machine path answers).start.watchPoint.status = .finished := by
  revert throws
  unfold machine WatchPoint.construct
  rw [resolved]
  unfold WatchPoint.listen
  dsimp only
  rw [reserved]
  dsimp only
  cases answers.listen.readDirectoryChanges with
  | ok =>
    intro throws
    cases throws
  | error listenError =>
    intro _
    dsimp only
    split_ifs <;> exact WatchPoint.status_close

/-- A step that ends the life of the handle leaves its watch point finished. -/
theorem finished_of_ended (step : s.next label = some t) (ended : t.phase = .ended) :
    t.watchPoint.status = .finished := by
  cases label with
  | completion server completion =>
    simp only [State.next] at step
    split_ifs at step with alive
    obtain rfl := Option.some_inj.mp step
    exact absurd ended alive
  | cancel cancelIo | stopWatchingMovedPath visit =>
    simp only [State.next] at step
    split_ifs at step with constructed
    obtain rfl := Option.some_inj.mp step
    rw [State.call, constructed] at ended
    cases ended
  | listen answers =>
    simp only [State.next] at step
    split_ifs at step with alive
    obtain rfl := Option.some_inj.mp step
    exact absurd ended alive.1
  | destroy cancelIo =>
    simp only [State.next] at step
    split_ifs at step with constructed returns
    · obtain rfl := Option.some_inj.mp step
      cases ended
    · obtain rfl := Option.some_inj.mp step
      -- `cancel` has closed the handle before it throws.
      exact finished_of_cancel_throws (Bool.not_eq_true _ ▸ returns)
  | destroyed =>
    simp only [State.next] at step
    split_ifs at step
    obtain rfl := Option.some_inj.mp step
    exact WatchPoint.status_close

end Sound

/-- A constructor that throws before it comes to `listen` leaves the handle open. -/
theorem leaks_of_unreserved (path : U16String)
    (throws : ¬ ((∃ registeredFinalPath, answers.finalPath = .ok (some registeredFinalPath)) ∧
      reserve (eventBufferSize answers.bufferSize) answers.allocates = .ok ())) :
    (machine path answers).start.phase = .ended ∧
      construct path answers = [.getFinalPathNameByHandle] := by
  unfold machine WatchPoint.construct construct
  cases found : answers.finalPath with
  | error ex => exact ⟨rfl, rfl⟩
  | ok finalPath =>
    cases finalPath with
    | none => exact ⟨rfl, rfl⟩
    | some registeredFinalPath =>
      cases reserved : reserve (eventBufferSize answers.bufferSize) answers.allocates with
      | error ex => exact ⟨rfl, rfl⟩
      | ok => exact absurd ⟨⟨registeredFinalPath, found⟩, reserved⟩ throws

/-- Whatever happens to a watch point, its handle is closed exactly once in the end and not
used afterwards, if and only if its constructor has resolved the final path and the event
buffer was reserved, which takes a size that is not negative and enough memory. -/
theorem owned_iff (path : U16String) (answers : ConstructAnswers) :
    (∀ s, (machine path answers).Reachable s → Owned s) ↔
      (∃ registeredFinalPath, answers.finalPath = .ok (some registeredFinalPath)) ∧
        0 ≤ answers.bufferSize ∧ answers.allocates = true := by
  rw [← reserve_eq_ok_iff]
  constructor
  · intro always
    by_contra throws
    obtain ⟨ended, leaks⟩ := leaks_of_unreserved path throws
    have once : (construct path answers).count .closeHandle = 1 :=
      (always _ Machine.Reachable.start).ended ended
    rw [leaks] at once
    exact absurd once (by decide)
  · rintro ⟨⟨registeredFinalPath, resolved⟩, reserved⟩ s reach
    have kept := sound reach
    have finished : s.phase = .ended → s.watchPoint.status = .finished :=
      reach.invariant (finished_of_construct_throws resolved reserved)
        fun _ _ _ _ step => finished_of_ended step
    refine ⟨kept.atEnd, kept.closed, fun ended => ?_⟩
    have least := List.count_pos_iff.mpr (kept.closed.mpr (finished ended))
    have most := kept.atEnd.countP_le_one
    have same : s.calls.countP (fun call => decide (call = .closeHandle)) =
        s.calls.count .closeHandle := by
      unfold List.count
      congr 1
    omega

/-- `GetFinalPathNameByHandleW` fails for the directory that was just opened. -/
def unresolvedAnswers : ConstructAnswers := { directoryAnswers with finalPath := .ok none }

/-- Not every handle is closed. -/
theorem not_forall_owned :
    ¬ ∀ path answers s, (machine path answers).Reachable s → Owned s := by
  intro always
  obtain ⟨⟨registeredFinalPath, resolved⟩, -⟩ :=
    (owned_iff (u16 "C:\\a") unresolvedAnswers).mp (always _ _)
  cases resolved

end Handles

end Windows

end FileEvents
