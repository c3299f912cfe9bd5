import FileEvents.Callback.Events
import FileEvents.Native.UnorderedMap
import FileEvents.Windows.WatchPoint

/-!
# The Windows server

The functions of `Server` in `win_fsnotifier.cpp` that change its watch points: the
completion routine with `handleEvents` and `handleEvent`, `registerPath`,
`unregisterPath` and `stopWatchingMovedPaths`.

The event buffer is the list of its `FILE_NOTIFY_EXTENDED_INFORMATION` records. A wide
string has the code units of the `u16string` it is made from.

The calls that report an event do not throw, but the log messages before them may, as
does the conversion to UTF-8 in `reportOverflow`. What is thrown inside `handleEvents` is
caught there and reported as a failure.

`registerPath` is cut in two where it destroys a finished watch point, because the
destructor waits alertably and other routines run meanwhile.

## Main definitions

* `handleEvent` — what one record is reported as
* `Completion`, `Server.handleEventsInBuffer` — one run of the completion routine
* `Server.beginRegisterPath`, `Server.enterWatchPoint` — the two parts of `registerPath`
* `Server.unregisterPath`, `Server.stopWatchingMovedPaths`
-/

namespace FileEvents

namespace Windows

def FILE_ACTION_ADDED : UInt32 := 1
def FILE_ACTION_REMOVED : UInt32 := 2
def FILE_ACTION_MODIFIED : UInt32 := 3
def FILE_ACTION_RENAMED_OLD_NAME : UInt32 := 4
def FILE_ACTION_RENAMED_NEW_NAME : UInt32 := 5

/-- `FILE_NOTIFY_EXTENDED_INFORMATION`. -/
structure NotifyRecord where
  action : UInt32
  fileAttributes : UInt32
  fileName : U16String
  deriving DecidableEq, Repr

/-- A code unit of `L"\\"`. -/
def backslash : UInt16 := 0x5C

/-- The path of a changed entry of a watched directory. -/
def changedPath (watchedPath fileName : U16String) : U16String :=
  watchedPath ++ if fileName = [] then [] else backslash :: fileName

/-- `Server::handleEvent`: what a record is reported as, if it is reported. -/
def handleEvent (watchedPath : U16String) (info : NotifyRecord) : Option Report :=
  let path := changedPath watchedPath info.fileName
  if info.action = FILE_ACTION_ADDED ∨ info.action = FILE_ACTION_RENAMED_NEW_NAME then
    some (.reportChangeEvent ChangeType.created.index path)
  else if info.action = FILE_ACTION_REMOVED ∨ info.action = FILE_ACTION_RENAMED_OLD_NAME then
    some (.reportChangeEvent ChangeType.removed.index path)
  else if info.action = FILE_ACTION_MODIFIED then
    if (info.fileAttributes &&& FILE_ATTRIBUTE_DIRECTORY) != 0 then none
    else some (.reportChangeEvent ChangeType.modified.index path)
  else some (.reportUnknownEvent path)

/-- A run of the completion routine: its arguments, what it finds in the buffer and what
the operating system answers meanwhile. -/
structure Completion where
  errorCode : ErrorCode
  bytesTransferred : ℕ
  /-- The records in the event buffer. -/
  records : List NotifyRecord
  /-- What `GetFileAttributesW` returns. -/
  attrib : UInt32
  /-- The final path of the watched handle. -/
  finalPath : FinalPath
  /-- The record, or the overflow, before whose report a log message throws. -/
  throwsAt : Option (ℕ × CppException)
  /-- The answers to the `listen` after the reports. -/
  listen : ListenAnswers

/-- Makes reports in order, up to the one whose log message throws. -/
def deliver (reports : List (Option Report)) (throwsAt : Option (ℕ × CppException)) :
    List Report × Except CppException Unit :=
  match throwsAt with
  | none => (reports.reduceOption, .ok ())
  | some (count, ex) =>
    ((reports.take count).reduceOption, if count < reports.length then .error ex else .ok ())

/-- The reports for the records of the buffer, or the overflow reported for an empty
one. -/
def Completion.reportEvents (completion : Completion) (path : U16String) :
    List Report × Except CppException Unit :=
  if completion.bytesTransferred = 0 then
    match utf16ToUtf8String path with
    | none => ([], .error toBytesError)
    | some _ => deliver [some (.reportOverflow (some path))] completion.throwsAt
  else deliver (completion.records.map (handleEvent path)) completion.throwsAt

/-- `Server`. -/
structure Server where
  watchPoints : AList fun _ : U16String => WatchPoint
  shouldTerminate : Bool

/-- `Server::reportWatchPointDeleted`. -/
def reportWatchPointDeleted (watchPoint : WatchPoint) : WatchPoint × List Report :=
  (watchPoint.close,
    [.reportChangeEvent ChangeType.removed.index watchPoint.registeredPath])

namespace Server

/-- The `try` block of `Server::handleEvents`: whether it throws, the watch point and the
reports. -/
def tryHandleEvents (server : Server) (watchPoint : WatchPoint) (completion : Completion) :
    Except CppException Unit × WatchPoint × List Report :=
  if completion.errorCode ≠ ERROR_SUCCESS then
    if completion.errorCode = ERROR_ACCESS_DENIED ∧ ¬ isValidDirectory completion.attrib then
      (.ok (), reportWatchPointDeleted watchPoint)
    else
      (.error (fileWatcherException "Error received when handling events"
        watchPoint.registeredPath completion.errorCode), watchPoint, [])
  else match completion.finalPath with
    | .error ex => (.error ex, watchPoint, [])
    | .ok currentFinalPath =>
      if currentFinalPath ≠ some watchPoint.registeredFinalPath then
        (.ok (), reportWatchPointDeleted watchPoint)
      else if server.shouldTerminate then (.ok (), watchPoint, [])
      else match completion.reportEvents watchPoint.registeredPath with
        | (reports, .error ex) => (.error ex, watchPoint, reports)
        | (reports, .ok ()) =>
          match watchPoint.listen completion.listen with
          | (.ok .success, watchPoint) => (.ok (), watchPoint, reports)
          | (.ok .deleted, watchPoint) =>
            (.ok (), watchPoint, reports ++
              [.reportChangeEvent ChangeType.removed.index watchPoint.registeredPath])
          | (.error ex, watchPoint) => (.error ex, watchPoint, reports)

/-- `Server::handleEvents`. -/
def handleEvents (server : Server) (watchPoint : WatchPoint) (completion : Completion) :
    WatchPoint × List Report :=
  match server.tryHandleEvents watchPoint completion with
  | (.ok (), watchPoint, reports) => (watchPoint, reports)
  | (.error ex, watchPoint, reports) => (watchPoint, reports ++ [.reportFailure ex.what])

/-- `WatchPoint::handleEventsInBuffer`, the completion routine of a read. The read is
outstanding no longer. -/
def handleEventsInBuffer (server : Server) (watchPoint : WatchPoint) (completion : Completion) :
    WatchPoint × List Report :=
  let watchPoint :=
    { watchPoint with outstandingReads := watchPoint.outstandingReads - 1 }
  if completion.errorCode = ERROR_OPERATION_ABORTED then (watchPoint.close, [])
  else if watchPoint.status ≠ .listening then (watchPoint, [])
  else server.handleEvents { watchPoint with status := .notListening } completion

/-- `Server::registerPath` up to the destructor of the finished watch point it replaces,
if there is one. -/
def beginRegisterPath (server : Server) (path : U16String) :
    Except CppException (Option WatchPoint × Server) :=
  match server.watchPoints.lookup path with
  | none => .ok (none, server)
  | some watchPoint =>
    if watchPoint.status = .finished then
      .ok (some watchPoint, { server with watchPoints := server.watchPoints.erase path })
    else .error (fileWatcherException "Already watching path" path none)

/-- The `emplace` at the end of `Server::registerPath`: its result, the server and the
watch point that is destroyed again because the path has got another one meanwhile. -/
def enterWatchPoint (server : Server) (path : U16String) (answers : ConstructAnswers) :
    Except CppException Unit × Server × Option WatchPoint :=
  match WatchPoint.construct path answers with
  | (.ok (), some watchPoint) =>
    (.ok (), { server with watchPoints := emplace server.watchPoints path watchPoint },
      if path ∈ server.watchPoints then some watchPoint else none)
  | (result, _) => (result, server, none)

/-- `Server::unregisterPath` up to the destructor of the watch point it removes, if there
is one. -/
def unregisterPath (server : Server) (path : U16String) : Option WatchPoint × Server :=
  match server.watchPoints.lookup path with
  | none => (none, server)
  | some watchPoint =>
    (some watchPoint, { server with watchPoints := server.watchPoints.erase path })

/-- What `stopWatchingMovedPaths` finds for one watch point. The warning of `resolveFinalPath` is
left out here. -/
structure Visit where
  path : U16String
  /-- The final path of the handle, if there is one. -/
  finalPath : Option U16String
  /-- What `CancelIoEx` returns. -/
  cancelIo : Except ErrorCode Unit

/-- One round of the loop of `Server::stopWatchingMovedPaths`: the path, if it is dropped,
and the server, or an exception. -/
def stopWatchingMovedPath (server : Server) (visit : Visit) :
    Except CppException (Option U16String) × Server :=
  match server.watchPoints.lookup visit.path with
  | none => (.ok none, server)
  | some watchPoint =>
    if watchPoint.status = .finished then (.ok none, server)
    else if visit.finalPath ≠ some watchPoint.registeredFinalPath then
      match watchPoint.cancel visit.cancelIo with
      | (result, watchPoint) =>
        (result.map fun _ => some visit.path,
          { server with watchPoints := server.watchPoints.insert visit.path watchPoint })
    else (.ok none, server)

/-- `Server::stopWatchingMovedPaths` over the watch points it visits. An exception leaves
the later ones unvisited. -/
def stopWatchingMovedPaths (server : Server) :
    List Visit → Except CppException (List U16String) × Server
  | [] => (.ok [], server)
  | visit :: visits =>
    match server.stopWatchingMovedPath visit with
    | (.error ex, server) => (.error ex, server)
    | (.ok dropped, server) =>
      match server.stopWatchingMovedPaths visits with
      | (result, server) => (result.map (dropped.toList ++ ·), server)

end Server

end Windows

end FileEvents
