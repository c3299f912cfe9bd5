import FileEvents.Transition.Machine
import FileEvents.Windows.Server

/-!
# The Windows server at work

The run-loop thread waits alertably, either in the run loop itself or in the destructor of
a watch point. While it waits, the operating system runs completion routines and queued
commands on it, so commands may run inside one another. The destructors that wait are a
stack: a command goes on when the destructor it is in returns.

A step is

* one `registerPath` or one `unregisterPath`, up to the destructor it runs,
* the return of the innermost destructor, with the rest of its `registerPath`,
* one run of the completion routine of an outstanding read,
* one `stopWatchingMovedPaths`, on the thread of a client, or
* the shutdown command.

A command on a list of paths is several steps, which only admits more interleavings. The
completions of watch points whose destructor has returned are left out: nothing they do
concerns a watch point of the server.

## Main definitions

* `System` — the server with the destructors that wait
* `machine` — all interleavings
-/

namespace FileEvents

open Transition

namespace Windows

/-- A destructor that waits for completions. -/
structure Destruction where
  watchPoint : WatchPoint
  /-- The path whose registration goes on afterwards. -/
  thenRegister : Option U16String
  deriving DecidableEq, Repr

/-- A server at work. -/
structure System where
  server : Server
  /-- The destructors that wait, the innermost first. -/
  destroying : List Destruction

/-- What can happen next. -/
inductive Label
  /-- A `registerPath`, with the answers to the constructor if it is run at once. -/
  | registerPath (path : U16String) (answers : ConstructAnswers)
  /-- An `unregisterPath`, with what `CancelIoEx` returns. -/
  | unregisterPath (path : U16String) (cancelIo : Except ErrorCode Unit)
  /-- The innermost destructor returns. The answers are those to the constructor of the
  watch point registered then, and to its destructor if it is run. -/
  | destroyed (answers : ConstructAnswers) (cancelIo : Except ErrorCode Unit)
  /-- The completion routine of a watch point of the server. -/
  | completion (path : U16String) (completion : Completion)
  /-- The completion routine of a watch point that is being destroyed. -/
  | lateCompletion (index : ℕ) (completion : Completion)
  | stopWatchingMovedPaths (visits : List Server.Visit)
  | shutdown

namespace System

/-- `~WatchPoint` up to its wait. An exception of `cancel` is caught and skips it. -/
def destroy (s : System) (watchPoint : WatchPoint) (cancelIo : Except ErrorCode Unit)
    (thenRegister : Option U16String) : System :=
  match watchPoint.cancel cancelIo with
  | (.ok _, watchPoint) => { s with destroying := ⟨watchPoint, thenRegister⟩ :: s.destroying }
  | (.error _, _) => s

/-- The `emplace` of `registerPath`. -/
def enter (s : System) (path : U16String) (answers : ConstructAnswers)
    (cancelIo : Except ErrorCode Unit) : System :=
  match s.server.enterWatchPoint path answers with
  | (_, server, none) => { s with server }
  | (_, server, some watchPoint) => { s with server }.destroy watchPoint cancelIo none

/-- `registerPath`. A finished watch point has nothing to cancel. -/
def register (s : System) (path : U16String) (answers : ConstructAnswers) : System :=
  match s.server.beginRegisterPath path with
  | .error _ => s
  | .ok (none, server) => { s with server }.enter path answers (.ok ())
  | .ok (some watchPoint, server) =>
    { s with server }.destroy watchPoint (.ok ()) (some path)

/-- `unregisterPath`. -/
def unregister (s : System) (path : U16String) (cancelIo : Except ErrorCode Unit) : System :=
  match s.server.unregisterPath path with
  | (none, _) => s
  | (some watchPoint, server) => { s with server }.destroy watchPoint cancelIo none

/-- The completion routine of a watch point of the server. -/
def complete (s : System) (path : U16String) (watchPoint : WatchPoint)
    (completion : Completion) : System :=
  { s with
    server :=
      { s.server with
        watchPoints := s.server.watchPoints.insert path
          (s.server.handleEventsInBuffer watchPoint completion).1 } }

/-- The step function. -/
def next (s : System) : Label → Option System
  | .registerPath path answers => some (s.register path answers)
  | .unregisterPath path cancelIo => some (s.unregister path cancelIo)
  | .destroyed answers cancelIo =>
    match s.destroying with
    | [] => none
    | ⟨_, none⟩ :: destroying => some { s with destroying }
    | ⟨_, some path⟩ :: destroying => some ({ s with destroying }.enter path answers cancelIo)
  | .completion path completion =>
    match s.server.watchPoints.lookup path with
    | none => none
    | some watchPoint =>
      if 0 < watchPoint.outstandingReads then some (s.complete path watchPoint completion)
      else none
  | .lateCompletion index completion =>
    match s.destroying[index]? with
    | none => none
    | some destruction =>
      if 0 < destruction.watchPoint.outstandingReads then
        some
          { s with
            destroying := s.destroying.set index
              { destruction with
                watchPoint :=
                  (s.server.handleEventsInBuffer destruction.watchPoint completion).1 } }
      else none
  | .stopWatchingMovedPaths visits =>
    if (visits.map fun visit => visit.path).Nodup then
      some { s with server := (s.server.stopWatchingMovedPaths visits).2 }
    else none
  | .shutdown => some { s with server := { s.server with shouldTerminate := true } }

end System

/-- A server that was just created. -/
def machine : Machine System Label where
  start := { server := { watchPoints := ∅, shouldTerminate := false }, destroying := [] }
  next := System.next

namespace System

variable {s t : System}

/-- When a destructor returns, the server is as it was or its `registerPath` goes on. -/
theorem destroyed_spec {answers : ConstructAnswers} {cancelIo : Except ErrorCode Unit}
    (step : s.next (.destroyed answers cancelIo) = some t) :
    ∃ destruction destroying, s.destroying = destruction :: destroying ∧
      ((destruction.thenRegister = none ∧ t = { s with destroying }) ∨
        ∃ path, destruction.thenRegister = some path ∧
          t = { s with destroying }.enter path answers cancelIo) := by
  dsimp only [next] at step
  split at step
  next => cases step
  next watchPoint destroying waiting =>
    exact ⟨_, destroying, waiting, .inl ⟨rfl, (Option.some_inj.mp step).symm⟩⟩
  next watchPoint path destroying waiting =>
    exact ⟨_, destroying, waiting, .inr ⟨path, rfl, (Option.some_inj.mp step).symm⟩⟩

/-- A completion routine runs for an outstanding read of a watch point of the server. -/
theorem completion_spec {path : U16String} {completion : Completion}
    (step : s.next (.completion path completion) = some t) :
    ∃ watchPoint, s.server.watchPoints.lookup path = some watchPoint ∧
      0 < watchPoint.outstandingReads ∧ t = s.complete path watchPoint completion := by
  dsimp only [next] at step
  split at step
  next => cases step
  next watchPoint known =>
    split_ifs at step with outstanding
    exact ⟨watchPoint, known, outstanding, (Option.some_inj.mp step).symm⟩

/-- The completion routine of a watch point that is being destroyed leaves the server
alone. -/
theorem server_of_lateCompletion {index : ℕ} {completion : Completion}
    (step : s.next (.lateCompletion index completion) = some t) : t.server = s.server := by
  dsimp only [next] at step
  split at step
  next => cases step
  next =>
    split_ifs at step
    exact (congrArg server (Option.some_inj.mp step)).symm

theorem stopWatchingMovedPaths_spec {visits : List Server.Visit}
    (step : s.next (.stopWatchingMovedPaths visits) = some t) :
    (visits.map fun visit => visit.path).Nodup ∧
      t = { s with server := (s.server.stopWatchingMovedPaths visits).2 } := by
  dsimp only [next] at step
  split_ifs at step with once
  exact ⟨once, (Option.some_inj.mp step).symm⟩

end System

end Windows

end FileEvents
