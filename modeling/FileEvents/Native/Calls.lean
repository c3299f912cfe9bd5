import FileEvents.Calls.Program
import FileEvents.Linux.Server
import FileEvents.Windows.WatchPoint

/-!
# The calls of the native code

What the native code asks of the JVM, of the operating system and of the tables of its
server, as far as an answer may make it throw. Calls whose failure is not looked at are
left out: reporting an event, for instance, clears whatever Java exception it raises.

`logToJava` is one call. `Logging::send` throws a `runtime_error` where the thread has no
JNI environment or where the Java logger throws, and a `range_error` where the Java
exception's text cannot be converted.

Handling events, running completion routines and waiting for them are calls too: what they
throw is an answer.

## Main definitions

* `Call`, `Call.Answer` — the calls and what answers them
* `Code` — native code
* `pending` — whether a Java exception is pending after some calls
* `AbstractServer` — the functions of a server
-/

namespace FileEvents

open Calls
open Calls.Program (raise noexcept)

namespace Native

/-- `LogLevel`. -/
inductive LogLevel | trace | debug | info | warn | error
  deriving DecidableEq, Repr

/-- What `Logging::send` throws. -/
inductive LoggingError
  | runtimeError (message : String)
  | rangeError
  deriving DecidableEq, Repr

/-- The exception of a failed log message. -/
def LoggingError.exception : LoggingError → CppException
  | runtimeError message => .runtimeError message
  | rangeError => toBytesError

/-- The exceptions of the code that handles events. Only `registerPath` and `addToList` on
Linux throw the one that is missing. -/
abbrev HandlingException := { ex : CppException // ex ≠ .javaExceptionThrownException }

/-- What `poll` finds readable. -/
structure Polled where
  shutdownEvent : Bool
  inotify : Bool
  deriving DecidableEq, Repr

/-- `QueueItem` of the macOS server. -/
inductive QueueItem | poisonPill | fileEvent | errorEvent
  deriving DecidableEq, Repr

/-- The calls. -/
inductive Call
  -- the JVM
  | getJavaVm
  | getEnv
  | newGlobalRef
  /-- The `GetEnv` in `~JniGlobalRef`. -/
  | deleteGlobalRef
  | getDirectBufferAddress
  | getStringCritical
  | throwNew
  /-- `List.add` on the list of dropped paths. -/
  | listAdd
  | logToJava (level : LogLevel) (message : String)
  /-- The `wait_for` of `awaitTermination`, or `terminated` before it. -/
  | awaitTerminated
  -- Linux
  | inotifyInit1
  | eventfd
  | poll
  /-- The `read` of `ShutdownEvent::consume`. -/
  | consume
  | handleEvents
  | findWatchPoint (path : U16String)
  | findWatchRoot
  | lstat (path : U16String)
  | inotifyAddWatch (path : U16String)
  | inotifyRmWatch
  -- Windows
  | openThread
  | queueUserApc
  /-- The `wait_for` of `Command::execute`. -/
  | awaitExecuted
  | sleepEx
  | watchPoints
  | findWindowsWatchPoint (path : U16String)
  | createFile (path : U16String)
  | getFinalPathName
  /-- The buffer size of the server, and the memory for another event buffer. -/
  | reserve
  | readDirectoryChanges
  | getFileAttributes
  | cancelIo
  | closeHandle
  -- macOS
  | findStream (path : U16String)
  | createString
  | createArray
  | createStream
  | startStream
  | dequeue
  | handleEvent

/-- What answers a call. -/
abbrev Call.Answer : Call → Type
  -- a status, zero on success
  | getJavaVm | getEnv | deleteGlobalRef | throwNew => ℤ
  -- something that is not null
  | newGlobalRef | getDirectBufferAddress | getStringCritical => Bool
  | createString | createArray | createStream => Bool
  -- whether it throws
  | listAdd => Bool
  | logToJava _ _ => Option LoggingError
  -- whether it succeeds
  | startStream => Bool
  -- whether it ends before the time-out
  | awaitTerminated | awaitExecuted => Bool
  | inotifyInit1 | eventfd | consume | inotifyAddWatch _ | inotifyRmWatch =>
    Except Linux.Errno Unit
  | poll => Except Linux.Errno Polled
  | lstat _ => Except Linux.Errno ℕ
  -- the exception it throws
  | handleEvents | handleEvent => Except HandlingException Unit
  -- the exception of a completion routine, or `shouldTerminate` afterwards
  | sleepEx => Except HandlingException Bool
  | findWatchPoint _ => Option Linux.WatchPoint
  -- whether it is found
  | findWatchRoot | findStream _ => Bool
  | openThread | queueUserApc | createFile _ | readDirectoryChanges | cancelIo | closeHandle =>
    Except ErrorCode Unit
  | getFinalPathName => Except ErrorCode U16String
  -- the size, and whether there is enough memory
  | reserve => Int32 × Bool
  | getFileAttributes => UInt32
  | watchPoints => List Windows.WatchPoint
  | findWindowsWatchPoint _ => Option Windows.WatchPoint
  | dequeue => QueueItem

/-- A call with its answer. -/
abbrev Step := Sigma Call.Answer

/-- What a step makes of a pending Java exception. A log message takes it away, as the
exception or as none. -/
def pendingAfter (pending : Bool) : Step → Bool
  | ⟨.throwNew, ret⟩ => pending || ret == 0
  | ⟨.listAdd, throws⟩ => pending || throws
  | ⟨.logToJava _ _, _⟩ => false
  | _ => pending

/-- A Java exception is pending. -/
def pending (trace : List Step) : Bool := trace.foldl pendingAfter false

/-- Native code that returns an `α`. -/
abbrev Code (α : Type) := Program Call.Answer CppException α

/-- Makes a call. -/
def ask (call : Call) : Code call.Answer := Program.ask call

variable {α : Type}

/-- Throws if something has failed. -/
def throwIf (failed : Prop) [Decidable failed] (ex : CppException) : Code Unit :=
  if failed then raise ex else pure ()

/-- The value, or the exception made of the error code. -/
def orThrow (answer : Except ErrorCode α) (ex : ErrorCode → CppException) : Code α :=
  match answer with
  | .ok value => pure value
  | .error errorCode => raise (ex errorCode)

/-- The value, or the exception. -/
def rethrow (answer : Except HandlingException α) : Code α :=
  match answer with
  | .ok value => pure value
  | .error ex => raise ex.val

/-! ## The JNI support -/

/-- `getJavaVm`. -/
def getJavaVm : Code Unit := do
  let jvmStatus ← ask .getJavaVm
  throwIf (jvmStatus ≠ 0) (.runtimeError ("Could not get jvm instance: " ++ toString jvmStatus))

/-- The exception of `JniSupport::getThreadEnv`. -/
def noJniEnv (ret : ℤ) : CppException :=
  .runtimeError ("Failed to get JNI env for current thread: " ++ toString ret)

/-- `JniSupport::getThreadEnv`. -/
def getThreadEnv : Code Unit := do
  let ret ← ask .getEnv
  throwIf (ret ≠ 0) (noJniEnv ret)

/-- The constructor of `JniGlobalRef`. -/
def createJniGlobalRef : Code Unit := do
  getJavaVm
  let ref ← ask .newGlobalRef
  throwIf (ref = false) (.runtimeError "Failed to create global JNI reference")

/-- `~JniGlobalRef`. -/
def destroyJniGlobalRef : Code Unit := noexcept do
  let ret ← ask .deleteGlobalRef
  throwIf (ret ≠ 0) (noJniEnv ret)

/-- `logToJava`. -/
def logToJava (level : LogLevel) (message : String) : Code Unit := do
  match ← ask (.logToJava level message) with
  | none => pure ()
  | some error => raise error.exception

/-- A log message with a path, which is converted to UTF-8 first. -/
def logPathToJava (level : LogLevel) (message : String) (path : U16String) : Code Unit := do
  throwIf (utf16ToUtf8String path = none) toBytesError
  logToJava level message

/-- `javaToUtf16String`. -/
def javaToUtf16String : Code Unit := do
  let javaChars ← ask .getStringCritical
  throwIf (javaChars = false) (.runtimeError "Could not get Java string character")

/-- `javaToUtf16StringArray`. -/
def javaToUtf16StringArray : List U16String → Code Unit
  | [] => pure ()
  | _ :: javaStrings => do
    javaToUtf16String
    javaToUtf16StringArray javaStrings

/-- `rethrowAsJavaException` with an exception class. That `ThrowNew` fails is only
printed. -/
def throwNew : Code Unit := do
  let _ ← ask .throwNew

/-- The log message of `rethrowAsJavaException`. -/
def caughtException : String := "Caught exception: %s"

/-- `rethrowAsJavaException`. -/
def rethrowAsJavaException : Code Unit := do
  logToJava .error caughtException
  throwNew

/-! ## `AbstractServer` -/

/-- The constructor of `AbstractServer`. -/
def createAbstractServer : Code Unit := do
  getJavaVm
  createJniGlobalRef

/-- `~AbstractServer`. -/
def destroyAbstractServer : Code Unit := destroyJniGlobalRef

/-- `AbstractServer`: what each platform implements. -/
structure AbstractServer where
  initializeRunLoop : Code Unit
  /-- The run loop, followed for some rounds. -/
  runLoop : ℕ → Code Unit
  registerPaths : List U16String → Code Unit
  unregisterPaths : List U16String → Code Bool
  shutdownRunLoop : Code Unit
  /-- The destructor. -/
  destroy : Code Unit

end Native

end FileEvents
