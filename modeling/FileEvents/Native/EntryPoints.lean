import FileEvents.Native.AppleServer
import FileEvents.Native.LinuxServer
import FileEvents.Native.WindowsServer

/-!
# The JNI entry points

The exported functions of `generic_fsnotifier.cpp` and of the platforms, with their
`catch` clauses. Each returns a value to Java; what its operation failed with is recorded
next to it.

## Main definitions

* `rethrowing`, `rethrowingOthers` — the two kinds of `try` statements around a body
* `EntryPoint`, `EntryPoint.code` — the entry points of all platforms
-/

namespace FileEvents

open Calls
open Calls.Program (raise)

namespace Native

/-- What an entry point returns to Java. -/
inductive JavaValue
  | void
  | null
  | object
  | boolean (value : Bool)
  deriving DecidableEq, Repr

/-- A returned value, with the exception the operation failed with. Java sees the value
only. -/
structure Returned where
  value : JavaValue
  failure : Option CppException
  deriving DecidableEq, Repr

/-- Returns a value after success. -/
def succeed (value : JavaValue) : Code Returned := pure { value, failure := none }

/-- Returns a value after a failure. -/
def fail (value : JavaValue) (ex : CppException) : Code Returned :=
  pure { value, failure := some ex }

/-- `try` with the clause `catch (const exception& e)`. -/
def rethrowing (value : JavaValue) (body : Code Returned) : Code Returned :=
  body.tryCatch fun ex => do
    rethrowAsJavaException
    fail value ex

/-- `try` with a silent clause for `JavaExceptionThrownException` before that. -/
def rethrowingOthers (value : JavaValue) (body : Code Returned) : Code Returned :=
  body.tryCatch fun ex =>
    if ex = .javaExceptionThrownException then fail value ex
    else do
      rethrowAsJavaException
      fail value ex

/-- `getServer`. -/
def getServer : Code Unit := do
  let server ← ask .getDirectBufferAddress
  throwIf (server = false) (.fileWatcherException "Closed already" none none)

/-- `AbstractServer::executeRunLoop`: the exception of the run loop, if there is one. -/
def executeRunLoop (server : AbstractServer) (rounds : ℕ) : Code (Option CppException) :=
  Program.tryCatch
    (do
      server.runLoop rounds
      pure none)
    fun ex => do
      rethrowAsJavaException
      pure (some ex)

/-- `initializeRunLoop0`. -/
def initializeRunLoop0 (server : AbstractServer) : Code Returned := rethrowing .void do
  getServer
  server.initializeRunLoop
  succeed .void

/-- `executeRunLoop0`. -/
def executeRunLoop0 (server : AbstractServer) (rounds : ℕ) : Code Returned :=
  rethrowing .void do
    getServer
    let failure ← executeRunLoop server rounds
    pure { value := .void, failure }

/-- `startWatching0`. -/
def startWatching0 (server : AbstractServer) (javaPaths : List U16String) : Code Returned :=
  rethrowingOthers .void do
    getServer
    javaToUtf16StringArray javaPaths
    server.registerPaths javaPaths
    succeed .void

/-- `stopWatching0`. -/
def stopWatching0 (server : AbstractServer) (javaPaths : List U16String) : Code Returned :=
  rethrowing (.boolean false) do
    getServer
    javaToUtf16StringArray javaPaths
    let success ← server.unregisterPaths javaPaths
    succeed (.boolean success)

/-- `shutdown0`. -/
def shutdown0 (server : AbstractServer) : Code Returned := rethrowing .void do
  getServer
  server.shutdownRunLoop
  succeed .void

/-- The `delete server` of `awaitTermination0`. -/
def deleteIf (successful : Bool) (server : AbstractServer) : Code Unit :=
  if successful then server.destroy else pure ()

/-- `awaitTermination0`. -/
def awaitTermination0 (server : AbstractServer) : Code Returned :=
  rethrowing (.boolean false) do
    getServer
    let successful ← ask .awaitTerminated
    deleteIf successful server
    succeed (.boolean successful)

/-- `startWatcher0` on Linux. -/
def linuxStartWatcher0 : Code Returned :=
  Program.tryCatch
    (do
      LinuxServer.create
      succeed .object)
    fun ex =>
      if ex = .inotifyInstanceLimitTooLowException then do
        throwNew
        fail .null ex
      else raise ex

/-- `startWatcher0` on Windows. -/
def windowsStartWatcher0 : Code Returned := do
  WindowsServer.create
  succeed .object

/-- `startWatcher0` on macOS. -/
def appleStartWatcher0 : Code Returned := do
  AppleServer.create
  succeed .object

/-- `stopWatchingMovedPaths0` on Linux. -/
def linuxStopWatchingMovedPaths0 (absolutePathsToCheck : List U16String) : Code Returned :=
  rethrowingOthers .void do
    getServer
    LinuxServer.stopWatchingMovedPaths absolutePathsToCheck
    succeed .void

/-- `stopWatchingMovedPaths0` on Windows. -/
def windowsStopWatchingMovedPaths0 : Code Returned := rethrowing .void do
  getServer
  WindowsServer.stopWatchingMovedPaths
  succeed .void

/-- The platforms. -/
inductive Platform | linux | windows | apple
  deriving DecidableEq, Repr

/-- The server of a platform. -/
def Platform.server : Platform → AbstractServer
  | linux => LinuxServer.server
  | windows => WindowsServer.server
  | apple => AppleServer.server

/-- The exported functions of the servers. -/
inductive EntryPoint
  | startWatcher0 (platform : Platform)
  | initializeRunLoop0 (platform : Platform)
  | executeRunLoop0 (platform : Platform) (rounds : ℕ)
  | startWatching0 (platform : Platform) (javaPaths : List U16String)
  | stopWatching0 (platform : Platform) (javaPaths : List U16String)
  | linuxStopWatchingMovedPaths0 (absolutePathsToCheck : List U16String)
  | windowsStopWatchingMovedPaths0
  | shutdown0 (platform : Platform)
  | awaitTermination0 (platform : Platform)

/-- The code of an entry point. -/
def EntryPoint.code : EntryPoint → Code Returned
  | startWatcher0 .linux => linuxStartWatcher0
  | startWatcher0 .windows => windowsStartWatcher0
  | startWatcher0 .apple => appleStartWatcher0
  | initializeRunLoop0 platform => Native.initializeRunLoop0 platform.server
  | executeRunLoop0 platform rounds => Native.executeRunLoop0 platform.server rounds
  | startWatching0 platform javaPaths => Native.startWatching0 platform.server javaPaths
  | stopWatching0 platform javaPaths => Native.stopWatching0 platform.server javaPaths
  | linuxStopWatchingMovedPaths0 absolutePathsToCheck =>
    Native.linuxStopWatchingMovedPaths0 absolutePathsToCheck
  | windowsStopWatchingMovedPaths0 => Native.windowsStopWatchingMovedPaths0
  | shutdown0 platform => Native.shutdown0 platform.server
  | awaitTermination0 platform => Native.awaitTermination0 platform.server

end Native

end FileEvents
