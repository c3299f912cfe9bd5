import FileEvents.Text

/-!
# Exceptions of the native code

The C++ exceptions of the native servers with the texts of `exception.h`.
-/

namespace FileEvents

/-- An error code of the operating system: `errno`, or what `GetLastError` returns. -/
abbrev ErrorCode := ℕ

/-- The C++ exceptions that the native code throws or catches. -/
inductive CppException
  /-- `FileWatcherException`, with the arguments of its constructor. -/
  | fileWatcherException (message : String) (path : Option U16String)
      (errorCode : Option ErrorCode)
  /-- `InotifyInstanceLimitTooLowException`, a `FileWatcherException` of its own. -/
  | inotifyInstanceLimitTooLowException
  /-- `JavaExceptionThrownException`: a Java exception is pending already. -/
  | javaExceptionThrownException
  /-- A `runtime_error` of the JNI support or of the logging. -/
  | runtimeError (message : String)
  /-- `range_error`, thrown by a conversion between UTF-8 and UTF-16. -/
  | rangeError (conversion : String)
  /-- `out_of_range`, thrown by `unordered_map::at`. -/
  | outOfRange
  /-- `length_error`, thrown by `vector::reserve`. -/
  | lengthError
  /-- `bad_alloc`: there is not enough memory. -/
  | badAlloc
  deriving DecidableEq, Repr

/-- What `utf8ToUtf16String` throws. -/
def fromBytesError : CppException := .rangeError "wstring_convert: from_bytes error"

/-- What `utf16ToUtf8String` throws. -/
def toBytesError : CppException := .rangeError "wstring_convert: to_bytes error"

/-- A `FileWatcherException` with a path: its constructor converts the path to UTF-8, which
may throw instead. -/
def fileWatcherException (message : String) (path : U16String) (errorCode : Option ErrorCode) :
    CppException :=
  match utf16ToUtf8String path with
  | some _ => .fileWatcherException message (some path) errorCode
  | none => toBytesError

theorem fileWatcherException_ne (message : String) (path : U16String)
    (errorCode : Option ErrorCode) :
    fileWatcherException message path errorCode ≠ .javaExceptionThrownException := by
  unfold fileWatcherException
  split <;> simp [toBytesError]

/-- `FileWatcherException("Already watching path", path)`. -/
def alreadyWatchingPath (path : U16String) : CppException :=
  .fileWatcherException "Already watching path" (some path) none

/-- `createMessage`. -/
def createMessage (message : String) (path : Option U16String) (errorCode : Option ErrorCode) :
    String :=
  message ++ errorCode.elim "" (fun code => ", error = " ++ toString code) ++
    path.elim "" (fun path => ": " ++ text path)

/-- `what()`. The texts of the standard exceptions are those of libc++. -/
def CppException.what : CppException → String
  | .fileWatcherException message path errorCode => createMessage message path errorCode
  | .inotifyInstanceLimitTooLowException => "Inotify instance limit too low"
  | .javaExceptionThrownException => "Java exception thrown from native code"
  | .runtimeError message => message
  | .rangeError conversion => conversion
  | .outOfRange => "unordered_map::at: key not found"
  | .lengthError => "vector"
  | .badAlloc => "std::bad_alloc"

end FileEvents
