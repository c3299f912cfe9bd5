import FileEvents.Native.Containment

/-!
# The servers are contained

Every virtual function of the three servers is plain, except that `registerPaths` is only
contained on Linux, where `inotify_add_watch` fails with `ENOSPC`, as is
`stopWatchingMovedPaths` there, where adding to the list of dropped paths fails.

## Main results

* `linux_contained`, `windows_contained`, `apple_contained` — one platform each
* `server_contained` — all of them
-/

namespace FileEvents

open Calls

namespace Native

/-- What the entry points rely on. -/
structure AbstractServer.IsContained (server : AbstractServer) : Prop where
  initializeRunLoop : IsPlain server.initializeRunLoop
  runLoop : ∀ rounds, IsLooping (server.runLoop rounds)
  registerPaths : ∀ paths, Native.IsContained (server.registerPaths paths)
  unregisterPaths : ∀ paths, IsPlain (server.unregisterPaths paths)
  shutdownRunLoop : IsPlain server.shutdownRunLoop
  destroy : IsPlain server.destroy

/-! ## Linux -/

namespace LinuxServer

theorem isPlain_processQueues : IsPlain processQueues := by
  refine (isPlain_ask .poll rfl).bind fun answer => ?_
  refine (isPlain_orThrow fun _ => by simp).bind fun polled => ?_
  split_ifs
  · refine (isPlain_ask .consume rfl).bind fun answer => ?_
    exact (isPlain_orThrow fun _ => by simp).bind fun _ => isPlain_pure true
  · refine IsPlain.bind ?_ fun _ => isPlain_pure false
    refine IsPlain.tryCatch ?_ fun _ => isPlain_getThreadEnv
    exact (isPlain_ask .handleEvents rfl).bind fun _ => isPlain_rethrow
  · exact isPlain_pure false

theorem isLooping_runLoop (rounds : ℕ) : IsLooping (runLoop rounds) := by
  induction rounds with
  | zero => exact isLooping_running
  | succ rounds ih =>
    refine IsLooping.bind isPlain_processQueues fun shouldTerminate => ?_
    split_ifs
    · exact (isPlain_pure ()).isLooping
    · exact ih

theorem isPlain_cancel (watchPoint : Linux.WatchPoint) : IsPlain (cancel watchPoint) := by
  unfold cancel
  split_ifs
  · exact isPlain_pure _
  · refine (isPlain_ask .inotifyRmWatch rfl).bind fun answer => ?_
    split
    next => exact isPlain_pure _
    next errno =>
      split_ifs
      · exact (isPlain_logPathToJava (by decide)).bind fun _ => isPlain_pure _
      · exact isPlain_raise (fileWatcherException_ne _ _ _)

/-- With `ENOSPC` the Java exception is pending unless `ThrowNew` fails. -/
theorem isContained_addWatchFailed (path : U16String) (errno : Linux.Errno) :
    IsContained (addWatchFailed path errno) := by
  unfold addWatchFailed
  split_ifs
  · refine isPlain_getThreadEnv.isContained.bind fun _ => ?_
    refine meets_ask_bind fun ret => Program.Meets.done ?_
    simp [Contained, HandlerFails, pending, pendingAfter, Fatal]
  · exact (isPlain_raise (fileWatcherException_ne _ _ _)).isContained

theorem isContained_registerPath (path : U16String) : IsContained (registerPath path) := by
  refine (isPlain_ask (.findWatchPoint path) rfl).isContained.bind fun known => ?_
  refine (isPlain_throwIf (fileWatcherException_ne _ _ _)).isContained.bind fun _ => ?_
  refine (isPlain_throwIf (by simp [toBytesError])).isContained.bind fun _ => ?_
  refine (isPlain_ask (.lstat path) rfl).isContained.bind fun st => ?_
  refine (isPlain_orThrow fun _ => fileWatcherException_ne _ _ _).isContained.bind fun _ => ?_
  refine (isPlain_ask (.inotifyAddWatch path) rfl).isContained.bind fun watchDescriptor => ?_
  split
  next errno => exact isContained_addWatchFailed path errno
  next =>
    refine (isPlain_ask .findWatchRoot rfl).isContained.bind fun used => ?_
    exact (isPlain_throwIf (fileWatcherException_ne _ _ _)).isContained

theorem isPlain_unregisterPath (path : U16String) : IsPlain (unregisterPath path) := by
  refine (isPlain_ask (.findWatchPoint path) rfl).bind fun known => ?_
  split
  next => exact (isPlain_logPathToJava (by decide)).bind fun _ => isPlain_pure _
  next watchPoint => exact (isPlain_cancel watchPoint).bind fun _ => isPlain_pure _

theorem isPlain_unregisterPaths (paths : List U16String) : IsPlain (unregisterPaths paths) := by
  induction paths with
  | nil => exact isPlain_pure true
  | cons path paths ih =>
    exact (isPlain_unregisterPath path).bind fun _ => ih.bind fun _ => isPlain_pure _

/-- The Java exception of the list is pending where `addToList` throws. -/
theorem isContained_addToList : IsContained addToList := by
  refine meets_ask_bind fun throws => ?_
  cases throws with
  | false => exact Program.Meets.done ⟨by simp [Fatal], by simp [HandlerFails], rfl⟩
  | true =>
    apply Program.Meets.done
    simp [Contained, HandlerFails, pending, pendingAfter, Fatal]

theorem isContained_stopWatchingMovedPath (pathToCheck : U16String) :
    IsContained (stopWatchingMovedPath pathToCheck) := by
  refine isPlain_javaToUtf16String.isContained.bind fun _ => ?_
  refine (isPlain_ask (.findWatchPoint pathToCheck) rfl).isContained.bind fun known => ?_
  split
  next => exact isContained_addToList
  next watchPoint =>
    split_ifs
    · exact isContained_addToList
    · refine (isPlain_throwIf (by simp [toBytesError])).isContained.bind fun _ => ?_
      refine (isPlain_ask (.lstat watchPoint.path) rfl).isContained.bind fun st => ?_
      split_ifs
      · exact (isPlain_pure ()).isContained
      · refine isContained_addToList.bind fun _ => ?_
        exact ((isPlain_cancel watchPoint).bind fun _ => isPlain_pure ()).isContained

theorem isContained_stopWatchingMovedPaths (absolutePathsToCheck : List U16String) :
    IsContained (stopWatchingMovedPaths absolutePathsToCheck) :=
  isPlain_getThreadEnv.isContained.bind fun _ =>
    isContained_forM isContained_stopWatchingMovedPath

end LinuxServer

theorem linux_contained : LinuxServer.server.IsContained where
  initializeRunLoop := isPlain_pure ()
  runLoop := LinuxServer.isLooping_runLoop
  registerPaths _ := isContained_forM LinuxServer.isContained_registerPath
  unregisterPaths := LinuxServer.isPlain_unregisterPaths
  shutdownRunLoop := isPlain_pure ()
  destroy := isPlain_destroyJniGlobalRef

/-! ## Windows -/

namespace WindowsServer

open Windows (WatchPointStatus)

variable {path : U16String} {status : WatchPointStatus}

theorem isPlain_resolveFinalPath : IsPlain resolveFinalPath := by
  refine (isPlain_ask .getFinalPathName rfl).bind fun answer => ?_
  split
  next => exact isPlain_pure _
  next => exact (isPlain_logToJava (by decide)).bind fun _ => isPlain_pure _

theorem isPlain_close : IsPlain (close status) := by
  unfold close
  split_ifs
  · exact isPlain_pure ()
  · refine IsPlain.tryCatch ?_ fun _ => isPlain_logToJava (by decide)
    refine (isPlain_ask .closeHandle rfl).bind fun answer => ?_
    split
    next => exact isPlain_pure ()
    next => exact isPlain_logToJava (by decide)

theorem isPlain_listen : IsPlain (listen path) := by
  refine (isPlain_ask .readDirectoryChanges rfl).bind fun answer => ?_
  split
  next => exact isPlain_pure _
  next listenError =>
    refine isPlain_close.bind fun _ => ?_
    split_ifs
    · refine (isPlain_ask .getFileAttributes rfl).bind fun attrib => ?_
      split_ifs
      · exact isPlain_raise (fileWatcherException_ne _ _ _)
      · exact isPlain_pure _
    · exact isPlain_raise (fileWatcherException_ne _ _ _)

theorem isPlain_reserve : IsPlain reserve := by
  refine (isPlain_ask .reserve rfl).bind fun answer => ?_
  dsimp only
  split
  next => exact isPlain_pure ()
  next ex throws =>
    rcases Windows.reserve_error throws with rfl | rfl
    · exact isPlain_raise (by simp)
    · exact isPlain_raise (by simp)

theorem isPlain_createWatchPoint : IsPlain (createWatchPoint path) := by
  refine (isPlain_ask (.createFile path) rfl).bind fun answer => ?_
  refine (isPlain_orThrow fun _ => fileWatcherException_ne _ _ _).bind fun _ => ?_
  refine isPlain_resolveFinalPath.bind fun finalPath => ?_
  refine (isPlain_orThrow fun _ => fileWatcherException_ne _ _ _).bind fun _ => ?_
  refine isPlain_reserve.bind fun _ => ?_
  exact isPlain_listen.bind fun _ => isPlain_throwIf (fileWatcherException_ne _ _ _)

theorem isPlain_cancel : IsPlain (cancel path status) := by
  unfold cancel
  split_ifs
  · refine (isPlain_logToJava (by decide)).bind fun _ => ?_
    refine (isPlain_ask .cancelIo rfl).bind fun answer => ?_
    split
    next => exact isPlain_pure _
    next cancelError =>
      refine isPlain_close.bind fun _ => ?_
      split_ifs
      · exact (isPlain_logToJava (by decide)).bind fun _ => isPlain_pure _
      · exact isPlain_raise (fileWatcherException_ne _ _ _)
  · exact isPlain_pure _

/-- An exception leaves `~WatchPoint` only where the log message of its handler throws. -/
theorem isPlain_destroyWatchPoint : IsPlain (destroyWatchPoint path status) := by
  refine isPlain_noexcept (guarded_tryCatch ?_ fun _ => ?_)
  · refine isPlain_cancel.bind fun _ => ?_
    refine (isPlain_ask .sleepEx rfl).bind fun _ => ?_
    exact isPlain_rethrow.bind fun _ => isPlain_close
  · refine meets_ask_bind fun error => ?_
    cases error with
    | none => exact Program.Meets.done ⟨by simp [Fatal], by simp [HandlerFails], rfl⟩
    | some error => exact Program.Meets.done ⟨_, List.mem_singleton_self _, rfl, rfl⟩

theorem isPlain_destroy : IsPlain destroy := by
  refine (isPlain_ask .watchPoints rfl).bind fun watchPoints => ?_
  exact (isPlain_forM fun _ => isPlain_destroyWatchPoint).bind fun _ =>
    isPlain_destroyJniGlobalRef

theorem isPlain_executeOnRunLoop {α : Type} {work : Code α} (h : IsPlain work) :
    IsPlain (executeOnRunLoop work) := by
  refine (isPlain_ask .queueUserApc rfl).bind fun answer => ?_
  refine (isPlain_orThrow fun _ => by simp).bind fun _ => ?_
  refine (isPlain_ask .awaitExecuted rfl).bind fun executed => ?_
  exact (isPlain_throwIf (by simp)).bind fun _ => h

theorem isPlain_finishRunLoop : IsPlain finishRunLoop := by
  refine (isPlain_logToJava (by decide)).bind fun _ => ?_
  refine (isPlain_ask .watchPoints rfl).bind fun watchPoints => ?_
  refine (isPlain_forM fun watchPoint => ?_).bind fun _ => ?_
  · unfold cancelRemaining
    split_ifs
    · refine IsPlain.tryCatch ?_ fun _ => isPlain_logToJava (by decide)
      exact isPlain_cancel.bind fun _ => isPlain_pure ()
    · exact isPlain_pure ()
  refine (isPlain_logToJava (by decide)).bind fun _ => ?_
  refine (isPlain_ask .sleepEx rfl).bind fun answer => ?_
  refine isPlain_rethrow.bind fun _ => ?_
  refine (isPlain_ask .watchPoints rfl).bind fun watchPoints => ?_
  refine isPlain_forM fun watchPoint => ?_
  unfold warnUnfinished
  split_ifs
  · exact isPlain_pure ()
  · exact isPlain_logToJava (by decide)

theorem isLooping_runLoop (rounds : ℕ) : IsLooping (runLoop rounds) := by
  induction rounds with
  | zero => exact isLooping_running
  | succ rounds ih =>
    refine IsLooping.bind (isPlain_ask .sleepEx rfl) fun answer => ?_
    refine IsLooping.bind isPlain_rethrow fun shouldTerminate => ?_
    split_ifs
    · exact isPlain_finishRunLoop.isLooping
    · exact ih

theorem isPlain_registerPath : IsPlain (registerPath path) := by
  refine IsPlain.bind ?_ fun _ => ?_
  · refine (isPlain_ask (.findWindowsWatchPoint path) rfl).bind fun known => ?_
    split
    next => exact isPlain_pure ()
    next =>
      split_ifs
      · exact isPlain_destroyWatchPoint
      · exact isPlain_raise (fileWatcherException_ne _ _ _)
  · refine isPlain_createWatchPoint.bind fun _ => ?_
    refine (isPlain_ask (.findWindowsWatchPoint path) rfl).bind fun known => ?_
    split
    next => exact isPlain_pure ()
    next => exact isPlain_destroyWatchPoint

theorem isPlain_unregisterPath : IsPlain (unregisterPath path) := by
  refine (isPlain_ask (.findWindowsWatchPoint path) rfl).bind fun known => ?_
  split
  next => exact (isPlain_logToJava (by decide)).bind fun _ => isPlain_pure _
  next => exact isPlain_destroyWatchPoint.bind fun _ => isPlain_pure _

theorem isPlain_unregisterEach (paths : List U16String) : IsPlain (unregisterEach paths) := by
  induction paths with
  | nil => exact isPlain_pure true
  | cons path paths ih =>
    exact isPlain_unregisterPath.bind fun _ => ih.bind fun _ => isPlain_pure _

theorem isPlain_stopWatchingMovedPaths : IsPlain stopWatchingMovedPaths := by
  refine isPlain_getThreadEnv.bind fun _ => ?_
  refine (isPlain_ask .watchPoints rfl).bind fun watchPoints => ?_
  refine isPlain_forM fun watchPoint => ?_
  unfold stopWatchingMovedPath
  split_ifs
  · exact isPlain_pure ()
  · refine isPlain_resolveFinalPath.bind fun currentFinalPath => ?_
    split_ifs
    · exact isPlain_pure ()
    · exact isPlain_cancel.bind fun _ => isPlain_pure ()

end WindowsServer

theorem windows_contained : WindowsServer.server.IsContained where
  initializeRunLoop :=
    (isPlain_ask .openThread rfl).bind fun _ => isPlain_orThrow fun _ => by simp
  runLoop := WindowsServer.isLooping_runLoop
  registerPaths _ := (WindowsServer.isPlain_executeOnRunLoop
    (isPlain_forM fun _ => WindowsServer.isPlain_registerPath)).isContained
  unregisterPaths paths :=
    WindowsServer.isPlain_executeOnRunLoop (WindowsServer.isPlain_unregisterEach paths)
  shutdownRunLoop := WindowsServer.isPlain_executeOnRunLoop (isPlain_pure ())
  destroy := WindowsServer.isPlain_destroy

/-! ## macOS -/

namespace AppleServer

theorem isLooping_processQueue (rounds : ℕ) : IsLooping (processQueue rounds) := by
  induction rounds with
  | zero => exact isLooping_running
  | succ rounds ih =>
    refine IsLooping.bind (isPlain_ask .dequeue rfl) fun item => ?_
    split
    next => exact (isPlain_pure ()).isLooping
    next =>
      refine IsLooping.bind (isPlain_ask .handleEvent rfl) fun answer => ?_
      exact IsLooping.bind isPlain_rethrow fun _ => ih
    next => exact ih

theorem isPlain_registerPath (path : U16String) : IsPlain (registerPath path) := by
  have refusal {message : String} {failed : Prop} [Decidable failed] :
      IsPlain (throwIf failed (fileWatcherException message path none)) :=
    isPlain_throwIf (fileWatcherException_ne _ _ _)
  refine (isPlain_ask (.findStream path) rfl).bind fun known => refusal.bind fun _ => ?_
  refine (isPlain_ask .createString rfl).bind fun cfPath => refusal.bind fun _ => ?_
  refine (isPlain_ask .createArray rfl).bind fun pathArray => refusal.bind fun _ => ?_
  refine (isPlain_ask .createStream rfl).bind fun stream => refusal.bind fun _ => ?_
  exact (isPlain_ask .startStream rfl).bind fun started => refusal

theorem isPlain_unregisterPaths (paths : List U16String) : IsPlain (unregisterPaths paths) := by
  induction paths with
  | nil => exact isPlain_pure true
  | cons path paths ih =>
    refine (isPlain_ask (.findStream path) rfl).bind fun known => ?_
    split_ifs
    · exact ih
    · refine (isPlain_logPathToJava (by decide)).bind fun _ => ?_
      exact ih.bind fun _ => isPlain_pure false

end AppleServer

theorem apple_contained : AppleServer.server.IsContained where
  initializeRunLoop := isPlain_pure ()
  runLoop rounds :=
    IsLooping.bind isPlain_getThreadEnv fun _ => AppleServer.isLooping_processQueue rounds
  registerPaths _ := (isPlain_forM AppleServer.isPlain_registerPath).isContained
  unregisterPaths := AppleServer.isPlain_unregisterPaths
  shutdownRunLoop := isPlain_pure ()
  destroy := isPlain_destroyJniGlobalRef

/-- Every server is contained. -/
theorem server_contained (platform : Platform) : platform.server.IsContained := by
  cases platform with
  | linux => exact linux_contained
  | windows => exact windows_contained
  | apple => exact apple_contained

end Native

end FileEvents
