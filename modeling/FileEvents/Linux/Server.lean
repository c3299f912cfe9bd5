import FileEvents.Callback.Events
import FileEvents.Linux.Inotify
import FileEvents.Native.CppException
import FileEvents.Native.UnorderedMap

/-!
# The Linux server

The tables of `Server` in `linux_fsnotifier.cpp` and the functions that change them:
`WatchPoint::cancel`, `registerPath`, `unregisterPath`, `stopWatchingMovedPaths` and
`handleEvent`. What the operating system answers to `lstat` and `inotify_add_watch` is an
argument; the inotify instance is part of the server.

`registerPath` is cut in two at `inotify_add_watch`, after which the kernel may queue
events although the tables do not know the watch yet.

Log messages are left out. Those that convert a watched path to UTF-8 cannot fail:
`registerPath` has converted it before.
-/

namespace FileEvents

namespace Linux

/-- `WatchPointStatus`. -/
inductive WatchPointStatus
  /-- The watch point is listening, events are expected. -/
  | listening
  /-- The watch point was cancelled, `IN_IGNORED` is expected. -/
  | cancelled
  deriving DecidableEq, Repr

/-- `CancelResult`. -/
inductive CancelResult | cancelled | notCancelled | alreadyCancelled
  deriving DecidableEq, Repr

/-- `WatchPoint`. -/
structure WatchPoint where
  status : WatchPointStatus
  watchDescriptor : WatchDescriptor
  path : U16String
  inode : ℕ
  deriving DecidableEq, Repr

/-- `WatchPoint::cancel`: the result, the watch point and the inotify instance. -/
def WatchPoint.cancel (watchPoint : WatchPoint) (inotify : Inotify) :
    Except CppException CancelResult × WatchPoint × Inotify :=
  if watchPoint.status = .cancelled then (.ok .alreadyCancelled, watchPoint, inotify)
  else
    let cancelled := { watchPoint with status := .cancelled }
    match inotify.rmWatch watchPoint.watchDescriptor with
    | .ok inotify => (.ok .cancelled, cancelled, inotify)
    | .error errno =>
      if errno = EINVAL then (.ok .notCancelled, cancelled, inotify)
      else (.error (.fileWatcherException "Couldn't stop watching" (some watchPoint.path)
        (some errno)), cancelled, inotify)

/-- `Server`. The buffer holds the events that were read and not handled yet. -/
structure Server where
  watchPoints : AList fun _ : U16String => WatchPoint
  watchRoots : AList fun _ : WatchDescriptor => U16String
  recentlyUnregisteredWatchRoots : AList fun _ : WatchDescriptor => U16String
  inotify : Inotify
  shouldTerminate : Bool
  buffer : List InotifyEvent

/-- What the operating system answers to a `registerPath`. -/
structure RegisterAnswers where
  /-- `st_ino` as `lstat` returns it. -/
  lstat : Except Errno ℕ
  /-- The object `inotify_add_watch` finds under the path. -/
  addWatch : Except Errno FileObject
  /-- The descriptor the kernel grants if that object is not watched yet. -/
  fresh : WatchDescriptor

namespace Server

/-- `registerPath` up to `inotify_add_watch`. It returns the watch point to be entered. -/
def beginRegisterPath (server : Server) (path : U16String) (answers : RegisterAnswers) :
    Except CppException (WatchPoint × Inotify) :=
  if path ∈ server.watchPoints then .error (alreadyWatchingPath path)
  else match utf16ToUtf8String path with
    | none => .error toBytesError
    | some _ => match answers.lstat with
      | .error errno => .error (.fileWatcherException "Couldn't add watch, stat failed"
          (some path) (some errno))
      | .ok inode => match answers.addWatch with
        | .error errno =>
          -- The Java exception for the limit on watches is pending by now.
          if errno = ENOSPC then .error .javaExceptionThrownException
          else .error (.fileWatcherException "Couldn't add watch, inotify_add_watch failed"
            (some path) (some errno))
        | .ok object =>
          let (watchDescriptor, inotify) := server.inotify.addWatch object answers.fresh
          .ok ({ status := .listening, watchDescriptor, path, inode }, inotify)

/-- The rest of `registerPath`. -/
def enterWatchPoint (server : Server) (watchPoint : WatchPoint) : Except CppException Server :=
  -- The same directory is watched under another path.
  if watchPoint.watchDescriptor ∈ server.watchRoots then
    .error (alreadyWatchingPath watchPoint.path)
  else .ok
    { server with
      watchPoints := emplace server.watchPoints watchPoint.path watchPoint
      watchRoots := server.watchRoots.insert watchPoint.watchDescriptor watchPoint.path }

/-- `registerPath`. What the kernel did is not undone by an exception. -/
def registerPath (server : Server) (path : U16String) (answers : RegisterAnswers) :
    Except CppException Unit × Server :=
  match server.beginRegisterPath path answers with
  | .error ex => (.error ex, server)
  | .ok (watchPoint, inotify) =>
    match { server with inotify }.enterWatchPoint watchPoint with
    | .error ex => (.error ex, { server with inotify })
    | .ok server => (.ok (), server)

/-- Cancels a watch point in place. -/
def cancelWatchPoint (server : Server) (path : U16String) (watchPoint : WatchPoint) :
    Except CppException CancelResult × Server :=
  let (result, watchPoint, inotify) := watchPoint.cancel server.inotify
  (result, { server with watchPoints := server.watchPoints.insert path watchPoint, inotify })

/-- Moves a watch point from the tables of watched paths to the recently unregistered ones. -/
def forgetWatchPoint (server : Server) (path : U16String) (wd : WatchDescriptor) : Server :=
  { server with
    recentlyUnregisteredWatchRoots := emplace server.recentlyUnregisteredWatchRoots wd path
    watchRoots := server.watchRoots.erase wd
    watchPoints := server.watchPoints.erase path }

/-- `unregisterPath`. -/
def unregisterPath (server : Server) (path : U16String) : Except CppException Bool × Server :=
  match server.watchPoints.lookup path with
  | none => match utf16ToUtf8String path with
    -- The path is converted for a log message only.
    | none => (.error toBytesError, server)
    | some _ => (.ok false, server)
  | some watchPoint =>
    match server.cancelWatchPoint path watchPoint with
    | (.error ex, server) => (.error ex, server)
    | (.ok .alreadyCancelled, server) => (.ok false, server)
    | (.ok result, server) =>
      (.ok (result == .cancelled), server.forgetWatchPoint path watchPoint.watchDescriptor)

/-- One iteration of `stopWatchingMovedPaths`: whether the path is added to
`droppedPaths`. -/
def stopWatchingMovedPath (server : Server) (path : U16String) (lstat : Except Errno ℕ) :
    Except CppException Bool × Server :=
  match server.watchPoints.lookup path with
  -- A path that is not watched counts as dropped.
  | none => (.ok true, server)
  | some watchPoint =>
    if watchPoint.status ≠ .listening then (.ok true, server)
    else match utf16ToUtf8String watchPoint.path with
      | none => (.error toBytesError, server)
      | some _ =>
        -- The directory is still the one that was registered.
        if lstat = .ok watchPoint.inode then (.ok false, server)
        -- The cancelled entry stays in the tables until its `IN_IGNORED` is handled.
        else match server.cancelWatchPoint path watchPoint with
          | (.error ex, server) => (.error ex, server)
          | (.ok _, server) => (.ok true, server)

/-- `stopWatchingMovedPaths` on paths with what `lstat` answers for them: the
`droppedPaths`. -/
def stopWatchingMovedPaths (server : Server) :
    List (U16String × Except Errno ℕ) → Except CppException (List U16String) × Server
  | [] => (.ok [], server)
  | (path, lstat) :: absolutePathsToCheck =>
    match server.stopWatchingMovedPath path lstat with
    | (.error ex, server) => (.error ex, server)
    | (.ok dropped, server) =>
      match server.stopWatchingMovedPaths absolutePathsToCheck with
      | (.error ex, server) => (.error ex, server)
      | (.ok droppedPaths, server) =>
        (.ok (if dropped then path :: droppedPaths else droppedPaths), server)

end Server

/-- The descriptor belongs to a listening watch point. -/
def Server.listensOn (server : Server) (wd : WatchDescriptor) : Bool :=
  ((server.watchRoots.lookup wd).bind fun path => server.watchPoints.lookup path).any
    fun watchPoint => watchPoint.status = .listening

/-- The type of change an event stands for, `none` for an unknown event. -/
def changeType (mask : UInt32) : Option ChangeType :=
  if isSet mask (IN_CREATE ||| IN_MOVED_TO) then some .created
  else if isSet mask (IN_DELETE ||| IN_DELETE_SELF ||| IN_MOVED_FROM) then some .removed
  else if isSet mask IN_MODIFY then some .modified
  else none

/-- The path of an entry of a watched directory, or of the directory itself. -/
def joinName (path name : U16String) : U16String :=
  if name = [] then path else path ++ u16 "/" ++ name

/-- The report `handleEvent` makes for a path. -/
def reportOf (mask : UInt32) (path : U16String) : Report :=
  match changeType mask with
  | some type => .reportChangeEvent type.index path
  | none => .reportUnknownEvent path

/-- `handleEvent`: the tables afterwards and the reports made. The watch points are
visited in the given order when the queue has overflowed. -/
def Server.handleEvent (server : Server) (event : InotifyEvent) (order : List U16String) :
    Except CppException (Server × List Report) :=
  if isSet event.mask IN_UNMOUNT then .ok (server, [])
  else if isSet event.mask IN_Q_OVERFLOW then
    .ok (server, order.map fun path => .reportOverflow (some path))
  else match server.watchRoots.lookup event.wd with
    -- Not watched, or not any more.
    | none => match server.recentlyUnregisteredWatchRoots.lookup event.wd with
      | none => .ok (server, [])
      | some _ =>
        if isSet event.mask IN_IGNORED then .ok
          ({ server with
            recentlyUnregisteredWatchRoots :=
              server.recentlyUnregisteredWatchRoots.erase event.wd }, [])
        else .ok (server, [])
    | some path => match server.watchPoints.lookup path with
      | none => .error .outOfRange
      | some watchPoint =>
        if isSet event.mask IN_IGNORED then .ok
          ({ server with
            watchRoots := server.watchRoots.erase event.wd
            watchPoints := server.watchPoints.erase path }, [])
        -- The watch point is cancelled, its `IN_IGNORED` is still to come.
        else if watchPoint.status ≠ .listening then .ok (server, [])
        else if server.shouldTerminate then .ok (server, [])
        else match utf8ToUtf16String event.name with
          | none => .error fromBytesError
          | some name => .ok (server, [reportOf event.mask (joinName path name)])

/-! ## What the functions return -/

section Specs

variable {server server' : Server} {path : U16String} {answers : RegisterAnswers}
variable {watchPoint : WatchPoint} {inotify : Inotify} {event : InotifyEvent}
variable {order : List U16String} {reports : List Report}

/-- `registerPath` gets as far as `inotify_add_watch` only on a path without a watch
point. -/
theorem Server.beginRegisterPath_spec
    (begun : server.beginRegisterPath path answers = .ok (watchPoint, inotify)) :
    ∃ object, answers.addWatch = .ok object ∧
      server.inotify.addWatch object answers.fresh = (watchPoint.watchDescriptor, inotify) ∧
      watchPoint.path = path ∧ watchPoint.status = .listening ∧ path ∉ server.watchPoints := by
  unfold Server.beginRegisterPath at begun
  split_ifs at begun with absent
  split at begun
  · cases begun
  split at begun
  · cases begun
  split at begun
  · split_ifs at begun
  · rename_i object granted
    obtain ⟨rfl, rfl⟩ := Prod.mk.inj (Except.ok.inj begun)
    exact ⟨object, granted, rfl, rfl, rfl, absent⟩

/-- The rest of `registerPath` enters the watch point, unless its descriptor is in the
tables. -/
theorem Server.enterWatchPoint_spec (entered : server.enterWatchPoint watchPoint = .ok server') :
    watchPoint.watchDescriptor ∉ server.watchRoots ∧ server' =
      { server with
        watchPoints := emplace server.watchPoints watchPoint.path watchPoint
        watchRoots :=
          server.watchRoots.insert watchPoint.watchDescriptor watchPoint.path } := by
  unfold Server.enterWatchPoint at entered
  split_ifs at entered with taken
  exact ⟨taken, (Except.ok.inj entered).symm⟩

theorem Server.enterWatchPoint_refused {ex : CppException}
    (refused : server.enterWatchPoint watchPoint = .error ex) :
    watchPoint.watchDescriptor ∈ server.watchRoots := by
  by_contra free
  simp [Server.enterWatchPoint, free] at refused

/-- The tables after `IN_IGNORED` was handled for a descriptor. -/
def Server.finish (server : Server) (wd : WatchDescriptor) : Server :=
  match server.watchRoots.lookup wd with
  | none =>
    { server with
      recentlyUnregisteredWatchRoots := server.recentlyUnregisteredWatchRoots.erase wd }
  | some path =>
    { server with
      watchRoots := server.watchRoots.erase wd
      watchPoints := server.watchPoints.erase path }

/-- `handleEvent` on the end of a watch. -/
theorem Server.handleEvent_ignored (concerns : event.Concerns event.wd) (ends : event.IsIgnored)
    (handled : server.handleEvent event order = .ok (server', reports)) :
    server' = server.finish event.wd ∧ reports = [] := by
  unfold Server.handleEvent at handled
  simp only [ends.1, ends.2, concerns.2, Bool.false_eq_true, if_false, if_true] at handled
  unfold Server.finish
  split at handled
  next =>
    split at handled
    next unknown =>
      obtain ⟨rfl, rfl⟩ := Prod.mk.inj (Except.ok.inj handled)
      have same : server.recentlyUnregisteredWatchRoots.erase event.wd =
          server.recentlyUnregisteredWatchRoots :=
        AList.ext (List.kerase_of_notMem_keys (AList.lookup_eq_none.mp unknown))
      simp [same]
    next =>
      obtain ⟨rfl, rfl⟩ := Prod.mk.inj (Except.ok.inj handled)
      exact ⟨rfl, rfl⟩
  next =>
    split at handled
    · cases handled
    · obtain ⟨rfl, rfl⟩ := Prod.mk.inj (Except.ok.inj handled)
      exact ⟨rfl, rfl⟩

/-- On any other event `handleEvent` leaves the tables alone. -/
theorem Server.handleEvent_other (other : ¬ (event.Concerns event.wd ∧ event.IsIgnored))
    (handled : server.handleEvent event order = .ok (server', reports)) : server' = server := by
  simp only [InotifyEvent.Concerns, InotifyEvent.IsIgnored, true_and, not_and,
    Bool.not_eq_false] at other
  have same : ∀ {reports'}, Except.ok (server, reports') =
      (Except.ok (server', reports) : Except CppException (Server × List Report)) →
      server' = server := fun h => (Prod.mk.inj (Except.ok.inj h)).1.symm
  unfold Server.handleEvent at handled
  split at handled
  next => exact same handled
  next mounted =>
    split at handled
    next => exact same handled
    next delivered =>
      have stays : isSet event.mask IN_IGNORED = false := by
        by_contra ends
        exact mounted (other (by simpa using delivered) (by simpa using ends))
      simp only [stays, Bool.false_eq_true, if_false] at handled
      split at handled
      next => split at handled <;> exact same handled
      next =>
        split at handled
        · cases handled
        split_ifs at handled
        · exact same handled
        · exact same handled
        · split at handled
          · cases handled
          · exact same handled

end Specs

end Linux

end FileEvents
