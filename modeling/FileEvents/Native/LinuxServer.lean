import FileEvents.Native.Calls

/-!
# The calls of the Linux server

The functions of `linux_fsnotifier.cpp` with the calls they make and what they throw. The
tables of the server are looked up with calls, so they may hold anything.
-/

namespace FileEvents

open Calls
open Calls.Program (raise)

namespace Native

namespace LinuxServer

open Linux (Errno CancelResult EINVAL ENOSPC)

/-- `EMFILE`. -/
def EMFILE : Errno := 24

/-- The constructor of `Inotify`. -/
def createInotify : Code Unit := do
  orThrow (← ask .inotifyInit1) fun errno =>
    if errno = EMFILE then .inotifyInstanceLimitTooLowException
    else .fileWatcherException "Couldn't register inotify handle" none (some errno)

/-- The constructor of `ShutdownEvent`. -/
def createShutdownEvent : Code Unit := do
  orThrow (← ask .eventfd) fun errno =>
    .fileWatcherException "Couldn't register event source" none (some errno)

/-- The members of `Server`. -/
def createMembers : Code Unit := do
  createInotify
  createShutdownEvent

/-- The constructor of `Server`. -/
def create : Code Unit := do
  createAbstractServer
  createMembers.onThrow destroyAbstractServer

/-- `~Server`. -/
def destroy : Code Unit := destroyAbstractServer

/-- `Server::initializeRunLoop`. -/
def initializeRunLoop : Code Unit := pure ()

/-- `Server::shutdownRunLoop`. What `write` returns is not looked at. -/
def shutdownRunLoop : Code Unit := pure ()

/-- The handling of events in `Server::processQueues`. -/
def handleEventsOrReport : Code Unit :=
  Program.tryCatch (do rethrow (← ask .handleEvents)) fun _ => getThreadEnv

/-- `Server::processQueues`: whether the server is to terminate. -/
def processQueues : Code Bool := do
  let polled ← orThrow (← ask .poll) fun errno =>
    .fileWatcherException "Couldn't poll for events" none (some errno)
  if polled.shutdownEvent then do
    orThrow (← ask .consume) fun errno =>
      .fileWatcherException "Couldn't read from termination event notifier" none (some errno)
    pure true
  else if polled.inotify then do
    handleEventsOrReport
    pure false
  else pure false

/-- `Server::runLoop`. -/
def runLoop : ℕ → Code Unit
  | 0 => .done .running
  | rounds + 1 => do
    if ← processQueues then pure () else runLoop rounds

/-- `WatchPoint::cancel`. -/
def cancel (watchPoint : Linux.WatchPoint) : Code CancelResult :=
  if watchPoint.status = .cancelled then pure .alreadyCancelled
  else do
    match ← ask .inotifyRmWatch with
    | .ok () => pure .cancelled
    | .error errno =>
      if errno = EINVAL then do
        logPathToJava .info
          "Couldn't stop watching %s (probably because the directory was removed)"
          watchPoint.path
        pure .notCancelled
      else raise (fileWatcherException "Couldn't stop watching" watchPoint.path errno)

/-- The end of `Server::registerPath`, where `inotify_add_watch` has failed. -/
def addWatchFailed (path : U16String) (errno : Errno) : Code Unit :=
  if errno = ENOSPC then do
    getThreadEnv
    throwNew
    raise .javaExceptionThrownException
  else raise (fileWatcherException "Couldn't add watch, inotify_add_watch failed" path errno)

/-- `Server::registerPath`. -/
def registerPath (path : U16String) : Code Unit := do
  let known ← ask (.findWatchPoint path)
  throwIf (known.isSome = true) (fileWatcherException "Already watching path" path none)
  throwIf (utf16ToUtf8String path = none) toBytesError
  let _ ← orThrow (← ask (.lstat path)) fun errno =>
    fileWatcherException "Couldn't add watch, stat failed" path errno
  match ← ask (.inotifyAddWatch path) with
  | .error errno => addWatchFailed path errno
  | .ok () => do
    let used ← ask .findWatchRoot
    throwIf (used = true) (fileWatcherException "Already watching path" path none)

/-- `Server::registerPaths`. -/
def registerPaths (paths : List U16String) : Code Unit := paths.forM registerPath

/-- `Server::unregisterPath`. -/
def unregisterPath (path : U16String) : Code Bool := do
  match ← ask (.findWatchPoint path) with
  | none => do
    logPathToJava .info "Path is not watched: %s" path
    pure false
  | some watchPoint => do
    let ret ← cancel watchPoint
    pure (ret = .cancelled)

/-- `Server::unregisterPaths`. -/
def unregisterPaths : List U16String → Code Bool
  | [] => pure true
  | path :: paths => do
    let success ← unregisterPath path
    let others ← unregisterPaths paths
    pure (success && others)

/-- `Server::addToList`. -/
def addToList : Code Unit := do
  let throws ← ask .listAdd
  throwIf (throws = true) .javaExceptionThrownException

/-- One round of the loop of `Server::stopWatchingMovedPaths`. -/
def stopWatchingMovedPath (pathToCheck : U16String) : Code Unit := do
  javaToUtf16String
  match ← ask (.findWatchPoint pathToCheck) with
  | none => addToList
  | some watchPoint =>
    if watchPoint.status ≠ .listening then addToList
    else do
      throwIf (utf16ToUtf8String watchPoint.path = none) toBytesError
      let st ← ask (.lstat watchPoint.path)
      if st.toOption = some watchPoint.inode then pure ()
      else do
        addToList
        let _ ← cancel watchPoint

/-- `Server::stopWatchingMovedPaths`. -/
def stopWatchingMovedPaths (absolutePathsToCheck : List U16String) : Code Unit := do
  getThreadEnv
  absolutePathsToCheck.forM stopWatchingMovedPath

/-- The virtual functions of `Server`. -/
def server : AbstractServer :=
  { initializeRunLoop, runLoop, registerPaths, unregisterPaths, shutdownRunLoop, destroy }

end LinuxServer

end Native

end FileEvents
