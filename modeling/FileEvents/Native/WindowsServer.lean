import FileEvents.Native.Calls

/-!
# The calls of the Windows server

The functions of `win_fsnotifier.cpp` with the calls they make and what they throw. A
command that is executed on the run loop makes its calls while `execute` waits for it. The
wide-character paths of the log messages are converted without exceptions.
-/

namespace FileEvents

open Calls
open Calls.Program (raise noexcept)

namespace Native

namespace WindowsServer

open Windows (ListenResult WatchPointStatus ERROR_ACCESS_DENIED ERROR_NOT_FOUND isValidDirectory
  eventBufferSize)

/-! ## `WatchPoint` -/

/-- `resolveFinalPath`. -/
def resolveFinalPath : Code (Except ErrorCode U16String) := do
  match ← ask .getFinalPathName with
  | .ok path => pure (.ok path)
  | .error errorCode => do
    logToJava .warn "Couldn't get final path for handle 0x%x, error code: %d"
    pure (.error errorCode)

/-- The `CloseHandle` of `WatchPoint::close`. -/
def closeDirectoryHandle : Code Unit := do
  match ← ask .closeHandle with
  | .ok () => pure ()
  | .error _ => logToJava .error "Couldn't close handle %p for '%ls': %d"

/-- `WatchPoint::close`, given the status. -/
def close (status : WatchPointStatus) : Code Unit :=
  if status = .finished then pure ()
  else closeDirectoryHandle.tryCatch fun _ =>
    logToJava .error "Couldn't close handle %p for '%ls': %s"

/-- `WatchPoint::listen`. -/
def listen (path : U16String) : Code ListenResult := do
  match ← ask .readDirectoryChanges with
  | .ok () => pure .success
  | .error listenError => do
    close .notListening
    if listenError = ERROR_ACCESS_DENIED then do
      let attrib ← ask .getFileAttributes
      if isValidDirectory attrib then
        raise (fileWatcherException "Couldn't add watch" path listenError)
      else pure .deleted
    else raise (fileWatcherException "Couldn't add watch" path listenError)

/-- `eventBuffer.reserve`. -/
def reserve : Code Unit := do
  let (bufferSize, allocates) ← ask .reserve
  match Windows.reserve (eventBufferSize bufferSize) allocates with
  | .ok () => pure ()
  | .error ex => raise ex

/-- The constructor of `WatchPoint`. -/
def createWatchPoint (path : U16String) : Code Unit := do
  orThrow (← ask (.createFile path)) fun errorCode =>
    fileWatcherException "Couldn't add watch" path errorCode
  let finalPath ← resolveFinalPath
  let _ ← orThrow finalPath fun errorCode =>
    fileWatcherException "Couldn't resolve final path of" path errorCode
  reserve
  let result ← listen path
  throwIf (result = .deleted)
    (fileWatcherException "Couldn't add watch, path is not a directory" path none)

/-- `WatchPoint::cancel`. It returns the status it leaves; no caller looks at what the
source returns. -/
def cancel (path : U16String) (status : WatchPointStatus) : Code WatchPointStatus :=
  if status = .listening then do
    logToJava .trace "Cancelling %s"
    match ← ask .cancelIo with
    | .ok () => pure .cancelled
    | .error cancelError => do
      close status
      if cancelError = ERROR_NOT_FOUND then do
        logToJava .trace "Watch point already finished %s"
        pure .finished
      else raise (fileWatcherException "Couldn't cancel watch point" path cancelError)
  else pure status

/-- The `try` block of `~WatchPoint`. -/
def cancelAndClose (path : U16String) (status : WatchPointStatus) : Code Unit := do
  let status ← cancel path status
  let _ ← rethrow (← ask .sleepEx)
  close status

/-- The log message of `~WatchPoint`. -/
def couldNotCancel : String := "Couldn't cancel watch point %s: %s"

/-- `~WatchPoint`. -/
def destroyWatchPoint (path : U16String) (status : WatchPointStatus) : Code Unit :=
  noexcept ((cancelAndClose path status).tryCatch fun _ => logToJava .warn couldNotCancel)

/-! ## `Server` -/

/-- The constructor of `Server`. -/
def create : Code Unit := createAbstractServer

/-- `~Server`. -/
def destroy : Code Unit := do
  let watchPoints ← ask .watchPoints
  watchPoints.forM fun watchPoint =>
    destroyWatchPoint watchPoint.registeredPath watchPoint.status
  destroyAbstractServer

/-- `Server::initializeRunLoop`. -/
def initializeRunLoop : Code Unit := do
  orThrow (← ask .openThread) fun errorCode =>
    .fileWatcherException "Couldn't open current thread" none (some errorCode)

/-- `Server::executeOnRunLoop`. -/
def executeOnRunLoop {α : Type} (work : Code α) : Code α := do
  orThrow (← ask .queueUserApc) fun errorCode =>
    .fileWatcherException "Received error while queuing APC" none (some errorCode)
  let executed ← ask .awaitExecuted
  throwIf (executed = false) (.fileWatcherException "Execution timed out" none none)
  work

/-- `Server::shutdownRunLoop`. -/
def shutdownRunLoop : Code Unit := executeOnRunLoop (pure ())

/-- The cancelling of one remaining watch point in `Server::runLoop`. -/
def cancelRemaining (watchPoint : Windows.WatchPoint) : Code Unit :=
  if watchPoint.status = .listening then
    Program.tryCatch (do let _ ← cancel watchPoint.registeredPath watchPoint.status) fun _ =>
      logToJava .error "%s"
  else pure ()

/-- The warning about an unfinished watch point in `Server::runLoop`. -/
def warnUnfinished (watchPoint : Windows.WatchPoint) : Code Unit :=
  if watchPoint.status = .notListening ∨ watchPoint.status = .finished then pure ()
  else
    logToJava .warn "Watch point %s did not finish before termination timeout (status = %d)"

/-- The end of `Server::runLoop`, after its loop. -/
def finishRunLoop : Code Unit := do
  logToJava .trace "Finished with run loop, now cancelling remaining watch points"
  (← ask .watchPoints).forM cancelRemaining
  logToJava .trace "Waiting for any pending watch points to abort completely"
  let _ ← rethrow (← ask .sleepEx)
  (← ask .watchPoints).forM warnUnfinished

/-- `Server::runLoop`. -/
def runLoop : ℕ → Code Unit
  | 0 => .done .running
  | rounds + 1 => do
    let shouldTerminate ← rethrow (← ask .sleepEx)
    if shouldTerminate then finishRunLoop else runLoop rounds

/-- `Server::registerPath` up to the `emplace`. -/
def eraseFinished (path : U16String) : Code Unit := do
  match ← ask (.findWindowsWatchPoint path) with
  | none => pure ()
  | some watchPoint =>
    if watchPoint.status = .finished then destroyWatchPoint path watchPoint.status
    else raise (fileWatcherException "Already watching path" path none)

/-- The `emplace` of `Server::registerPath`. The new watch point is destroyed again if the
path has got another one meanwhile. -/
def emplaceWatchPoint (path : U16String) : Code Unit := do
  createWatchPoint path
  match ← ask (.findWindowsWatchPoint path) with
  | none => pure ()
  | some _ => destroyWatchPoint path .listening

/-- `Server::registerPath`. -/
def registerPath (path : U16String) : Code Unit := do
  eraseFinished path
  emplaceWatchPoint path

/-- `Server::registerPaths`. -/
def registerPaths (paths : List U16String) : Code Unit :=
  executeOnRunLoop (paths.forM registerPath)

/-- `Server::unregisterPath`. -/
def unregisterPath (path : U16String) : Code Bool := do
  match ← ask (.findWindowsWatchPoint path) with
  | none => do
    logToJava .info "Path is not watched: %s"
    pure false
  | some watchPoint => do
    destroyWatchPoint path watchPoint.status
    pure true

/-- The loop of `Server::unregisterPaths`. -/
def unregisterEach : List U16String → Code Bool
  | [] => pure true
  | path :: paths => do
    let success ← unregisterPath path
    let others ← unregisterEach paths
    pure (success && others)

/-- `Server::unregisterPaths`. -/
def unregisterPaths (paths : List U16String) : Code Bool :=
  executeOnRunLoop (unregisterEach paths)

/-- One round of the loop of `Server::stopWatchingMovedPaths`. Adding to the list clears
the Java exception it may raise. -/
def stopWatchingMovedPath (watchPoint : Windows.WatchPoint) : Code Unit :=
  if watchPoint.status = .finished then pure ()
  else do
    let currentFinalPath ← resolveFinalPath
    if currentFinalPath.toOption = some watchPoint.registeredFinalPath then pure ()
    else do
      let _ ← cancel watchPoint.registeredPath watchPoint.status

/-- `Server::stopWatchingMovedPaths`. -/
def stopWatchingMovedPaths : Code Unit := do
  getThreadEnv
  (← ask .watchPoints).forM stopWatchingMovedPath

/-- The virtual functions of `Server`. -/
def server : AbstractServer :=
  { initializeRunLoop, runLoop, registerPaths, unregisterPaths, shutdownRunLoop, destroy }

end WindowsServer

end Native

end FileEvents
