import FileEvents.Native.Calls

/-!
# The calls of the macOS server

The functions of `apple_fsnotifier.cpp` with the calls they make and what they throw.
-/

namespace FileEvents

open Calls

namespace Native

namespace AppleServer

/-- The constructor of `WatchPoint`. -/
def createWatchPoint (path : U16String) : Code Unit := do
  let cfPath ← ask .createString
  throwIf (cfPath = false) (fileWatcherException "Could not allocate CFString for path" path none)
  let pathArray ← ask .createArray
  throwIf (pathArray = false)
    (fileWatcherException "Could not allocate array to store root to watch" path none)
  let watcherStream ← ask .createStream
  throwIf (watcherStream = false) (fileWatcherException "Couldn't add watch" path none)
  let started ← ask .startStream
  throwIf (started = false)
    (fileWatcherException "Could not start the FSEvents stream" path none)

/-- The constructor of `Server`. -/
def create : Code Unit := createAbstractServer

/-- `~Server`. -/
def destroy : Code Unit := destroyAbstractServer

/-- `Server::initializeRunLoop`. -/
def initializeRunLoop : Code Unit := pure ()

/-- The loop of `Server::runLoop`. -/
def processQueue : ℕ → Code Unit
  | 0 => .done .running
  | rounds + 1 => do
    match ← ask .dequeue with
    | .poisonPill => pure ()
    | .fileEvent => do
      rethrow (← ask .handleEvent)
      processQueue rounds
    | .errorEvent => processQueue rounds

/-- `Server::runLoop`. -/
def runLoop (rounds : ℕ) : Code Unit := do
  getThreadEnv
  processQueue rounds

/-- `Server::shutdownRunLoop`. -/
def shutdownRunLoop : Code Unit := pure ()

/-- One round of the loop of `Server::registerPaths`. -/
def registerPath (path : U16String) : Code Unit := do
  let known ← ask (.findStream path)
  throwIf (known = true) (fileWatcherException "Already watching path" path none)
  createWatchPoint path

/-- `Server::registerPaths`. -/
def registerPaths (paths : List U16String) : Code Unit := paths.forM registerPath

/-- `Server::unregisterPaths`. -/
def unregisterPaths : List U16String → Code Bool
  | [] => pure true
  | path :: paths => do
    let known ← ask (.findStream path)
    if known then unregisterPaths paths
    else do
      logPathToJava .info "Path is not watched: %s" path
      let _ ← unregisterPaths paths
      pure false

/-- The virtual functions of `Server`. -/
def server : AbstractServer :=
  { initializeRunLoop, runLoop, registerPaths, unregisterPaths, shutdownRunLoop, destroy }

end AppleServer

end Native

end FileEvents
