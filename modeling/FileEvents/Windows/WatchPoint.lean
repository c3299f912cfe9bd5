import FileEvents.Native.CppException

/-!
# The watch points of the Windows server

`WatchPoint` of `win_fsnotifier.cpp`: a directory handle on which reads are started with
`ReadDirectoryChangesExW` and whose completion routine runs later, on the run-loop thread.
What the operating system answers to a call is an argument.

A watch point counts the reads that were started and whose completion routine has not run
yet, and how often its handle was passed to `CloseHandle`. The code keeps neither count.

Log messages are left out, except for the warning of `resolveFinalPath` in the constructor and
in the completion routine.

## Main definitions

* `WatchPoint` — a watch point with its outstanding reads
* `reserve` — the allocation of the event buffer, which may throw
* `WatchPoint.close`, `WatchPoint.listen`, `WatchPoint.cancel` — what changes its status
* `WatchPoint.construct` — the constructor, with what is left where it throws
* `WatchPoint.Settled` — it is watched by one read, or it is finished and closed
-/

namespace FileEvents

namespace Windows

/-! ## Error codes and attributes -/

def ERROR_SUCCESS : ErrorCode := 0
def ERROR_ACCESS_DENIED : ErrorCode := 5
def ERROR_OPERATION_ABORTED : ErrorCode := 995
def ERROR_NOT_FOUND : ErrorCode := 1168

def FILE_ATTRIBUTE_DIRECTORY : UInt32 := 0x10
def INVALID_FILE_ATTRIBUTES : UInt32 := 0xFFFFFFFF

/-- What `resolveFinalPath` does: it finds the path, it finds none and returns false, or
its warning throws. -/
abbrev FinalPath := Except CppException (Option U16String)

/-- `WatchPoint::isValidDirectory`, given what `GetFileAttributesW` returns. -/
def isValidDirectory (attrib : UInt32) : Bool :=
  attrib != INVALID_FILE_ATTRIBUTES && (attrib &&& FILE_ATTRIBUTE_DIRECTORY) != 0

/-- `ListenResult`. -/
inductive ListenResult | success | deleted
  deriving DecidableEq, Repr

/-- `WatchPointStatus`. -/
inductive WatchPointStatus
  /-- The watch point has been constructed, but is not listening. -/
  | notListening
  /-- The watch point is listening, events are expected. -/
  | listening
  /-- The watch point was cancelled, `ERROR_OPERATION_ABORTED` is expected. -/
  | cancelled
  /-- `ERROR_OPERATION_ABORTED` arrived, or starting the listener failed. -/
  | finished
  deriving DecidableEq, Repr

/-- `WatchPoint`. -/
structure WatchPoint where
  registeredPath : U16String
  registeredFinalPath : U16String
  status : WatchPointStatus
  /-- The reads that were started and whose completion routine has not run yet. -/
  outstandingReads : ℕ
  /-- How often the directory handle was passed to `CloseHandle`. -/
  closeCalls : ℕ
  deriving DecidableEq, Repr

/-- What the operating system answers to a `listen`. -/
structure ListenAnswers where
  /-- What `ReadDirectoryChangesExW` returns. -/
  readDirectoryChanges : Except ErrorCode Unit
  /-- What `GetFileAttributesW` returns afterwards. -/
  attrib : UInt32

/-- What the operating system answers to the constructor, and the size of the event buffer. -/
structure ConstructAnswers where
  /-- What `CreateFileW` returns. -/
  createFile : Except ErrorCode Unit
  finalPath : FinalPath
  /-- What `GetLastError` returns where there is no final path. -/
  finalPathError : ErrorCode
  /-- What `withBufferSize` was called with. The server passes it on to every constructor. -/
  bufferSize : Int32
  /-- There is enough memory for the event buffer. -/
  allocates : Bool
  listen : ListenAnswers

/-- The `eventBufferSize` that `startWatcher0` makes of a `jint`, as a `size_t`. -/
def eventBufferSize (bufferSize : Int32) : UInt64 := bufferSize.toInt64.toUInt64

/-- `max_size` of a `vector<BYTE>`. -/
def maxSize : UInt64 := 0x7FFFFFFFFFFFFFFF

/-- `eventBuffer.reserve`. -/
def reserve (eventBufferSize : UInt64) (allocates : Bool) : Except CppException Unit :=
  if maxSize < eventBufferSize then .error .lengthError
  else if allocates then .ok ()
  else .error .badAlloc

theorem reserve_error {size : UInt64} {allocates : Bool} {ex : CppException}
    (throws : reserve size allocates = .error ex) : ex = .lengthError ∨ ex = .badAlloc := by
  unfold reserve at throws
  split_ifs at throws
  · exact .inl (Except.error.inj throws).symm
  · exact .inr (Except.error.inj throws).symm

/-- A server whose buffer size is not negative reserves its event buffers wherever there is
memory. A negative size is more than any vector holds. -/
theorem reserve_eq_ok_iff (bufferSize : Int32) (allocates : Bool) :
    reserve (eventBufferSize bufferSize) allocates = .ok () ↔
      0 ≤ bufferSize ∧ allocates = true := by
  have fits : ¬ maxSize < eventBufferSize bufferSize ↔ 0 ≤ bufferSize := by
    have cond := BitVec.toInt_eq_toNat_cond bufferSize.toInt64.toBitVec
    have same : bufferSize.toInt64.toBitVec.toInt = bufferSize.toInt := bufferSize.toInt_toInt64
    have size : (eventBufferSize bufferSize).toNat = bufferSize.toInt64.toBitVec.toNat := rfl
    have most : maxSize.toNat = 2 ^ 63 - 1 := rfl
    have zero : (0 : Int32).toInt = 0 := rfl
    rw [UInt64.lt_iff_toNat_lt, Int32.le_iff_toInt_le, size, most, zero, ← same, cond]
    split_ifs <;> omega
  unfold reserve
  rw [← fits]
  split_ifs with large memory
  · simp [large]
  · simp [large, memory]
  · simp [memory]

namespace WatchPoint

/-- `WatchPoint::close`. That `CloseHandle` may fail is only logged. -/
def close (watchPoint : WatchPoint) : WatchPoint :=
  if watchPoint.status ≠ .finished then
    { watchPoint with status := .finished, closeCalls := watchPoint.closeCalls + 1 }
  else watchPoint

/-- `WatchPoint::listen`. -/
def listen (watchPoint : WatchPoint) (answers : ListenAnswers) :
    Except CppException ListenResult × WatchPoint :=
  match answers.readDirectoryChanges with
  | .ok () =>
    (.ok .success,
      { watchPoint with
        status := .listening
        outstandingReads := watchPoint.outstandingReads + 1 })
  | .error listenError =>
    if listenError = ERROR_ACCESS_DENIED ∧ ¬ isValidDirectory answers.attrib then
      (.ok .deleted, watchPoint.close)
    else
      (.error (fileWatcherException "Couldn't add watch" watchPoint.registeredPath listenError),
        watchPoint.close)

/-- `WatchPoint::cancel`, given what `CancelIoEx` returns. -/
def cancel (watchPoint : WatchPoint) (cancelIo : Except ErrorCode Unit) :
    Except CppException Bool × WatchPoint :=
  if watchPoint.status = .listening then
    match cancelIo with
    | .ok () => (.ok true, { watchPoint with status := .cancelled })
    | .error cancelError =>
      if cancelError = ERROR_NOT_FOUND then (.ok false, watchPoint.close)
      else
        (.error (fileWatcherException "Couldn't cancel watch point" watchPoint.registeredPath
          cancelError), watchPoint.close)
  else (.ok false, watchPoint)

/-- The watch point whose handle was just opened. -/
def opened (path : U16String) : WatchPoint where
  registeredPath := path
  registeredFinalPath := []
  status := .notListening
  outstandingReads := 0
  closeCalls := 0

/-- The constructor: its result, and the watch point as far as it was built. There is none
where `CreateFileW` failed. -/
def construct (path : U16String) (answers : ConstructAnswers) :
    Except CppException Unit × Option WatchPoint :=
  match answers.createFile with
  | .error errorCode =>
    (.error (fileWatcherException "Couldn't add watch" path errorCode), none)
  | .ok () =>
    match answers.finalPath with
    | .error ex => (.error ex, some (opened path))
    | .ok none =>
      (.error (fileWatcherException "Couldn't resolve final path of" path
        answers.finalPathError), some (opened path))
    | .ok (some registeredFinalPath) =>
      match reserve (eventBufferSize answers.bufferSize) answers.allocates with
      | .error ex => (.error ex, some { opened path with registeredFinalPath })
      | .ok () =>
        match { opened path with registeredFinalPath }.listen answers.listen with
        | (.ok .success, watchPoint) => (.ok (), some watchPoint)
        | (.ok .deleted, watchPoint) =>
          (.error (fileWatcherException "Couldn't add watch, path is not a directory" path none),
            some watchPoint)
        | (.error ex, watchPoint) => (.error ex, some watchPoint)

/-- The watch point has one outstanding read and is listening or cancelled, or it has none
and is finished, with its handle closed. -/
def Settled (watchPoint : WatchPoint) : Prop :=
  (watchPoint.outstandingReads = 1 ∧
      (watchPoint.status = .listening ∨ watchPoint.status = .cancelled)) ∨
    (watchPoint.outstandingReads = 0 ∧ watchPoint.status = .finished ∧
      0 < watchPoint.closeCalls)

instance : DecidablePred Settled := fun watchPoint => inferInstanceAs (Decidable
  ((watchPoint.outstandingReads = 1 ∧
      (watchPoint.status = .listening ∨ watchPoint.status = .cancelled)) ∨
    (watchPoint.outstandingReads = 0 ∧ watchPoint.status = .finished ∧
      0 < watchPoint.closeCalls)))

/-! ## What the functions leave behind -/

variable {watchPoint watchPoint' : WatchPoint}

@[simp] theorem status_close : watchPoint.close.status = .finished := by
  unfold close
  split_ifs with unfinished
  · rfl
  · exact not_not.mp unfinished

@[simp] theorem registeredPath_close :
    watchPoint.close.registeredPath = watchPoint.registeredPath := by
  unfold close
  split_ifs <;> rfl

@[simp] theorem outstandingReads_close :
    watchPoint.close.outstandingReads = watchPoint.outstandingReads := by
  unfold close
  split_ifs <;> rfl

/-- Closing a watch point settles it if nothing is read. -/
theorem settled_close (unfinished : watchPoint.status ≠ .finished)
    (idle : watchPoint.outstandingReads = 0) : watchPoint.close.Settled := by
  refine .inr ⟨outstandingReads_close.trans idle, status_close, ?_⟩
  unfold close
  rw [if_pos unfinished]
  exact Nat.succ_pos _

/-- Whatever `listen` returns, it settles a watch point on which nothing is read. -/
theorem settled_listen (answers : ListenAnswers)
    (unfinished : watchPoint.status ≠ .finished) (idle : watchPoint.outstandingReads = 0) :
    (watchPoint.listen answers).2.Settled := by
  unfold listen
  split
  next => exact .inl ⟨by rw [idle], .inl rfl⟩
  next =>
    split_ifs
    · exact settled_close unfinished idle
    · exact settled_close unfinished idle

/-- The constructor returns only with a watch point that it has made listen. -/
theorem construct_ok {path : U16String} {answers : ConstructAnswers}
    {built : Option WatchPoint} (h : construct path answers = (.ok (), built)) :
    ∃ registeredFinalPath watchPoint, built = some watchPoint ∧
      { opened path with registeredFinalPath }.listen answers.listen =
        (.ok .success, watchPoint) := by
  unfold construct at h
  split at h
  next => simp at h
  next =>
    split at h
    next => simp at h
    next => simp at h
    next registeredFinalPath _ =>
      split at h
      next => simp at h
      next =>
        split at h
        next watchPoint listening =>
          exact ⟨registeredFinalPath, watchPoint, (Prod.mk.inj h).2.symm, listening⟩
        next => simp at h
        next => simp at h

/-- The constructor returns only with a settled watch point. -/
theorem settled_construct {path : U16String} {answers : ConstructAnswers}
    (h : construct path answers = (.ok (), some watchPoint)) : watchPoint.Settled := by
  obtain ⟨registeredFinalPath, watchPoint', same, listening⟩ := construct_ok h
  obtain rfl := Option.some_inj.mp same
  have settled : ({ opened path with registeredFinalPath }.listen answers.listen).2.Settled :=
    settled_listen answers.listen (by simp [opened]) rfl
  rwa [listening] at settled

/-- `cancel` keeps a listening watch point settled exactly where `CancelIoEx` succeeds. -/
theorem settled_cancel_iff {cancelIo : Except ErrorCode Unit} (settled : watchPoint.Settled)
    (listening : watchPoint.status = .listening) :
    (watchPoint.cancel cancelIo).2.Settled ↔ cancelIo = .ok () := by
  obtain ⟨reads, -⟩ | ⟨-, finished, -⟩ := settled
  · unfold cancel
    rw [if_pos listening]
    cases cancelIo with
    | ok => exact ⟨fun _ => rfl, fun _ => .inl ⟨reads, .inr rfl⟩⟩
    | error cancelError =>
      have unsettled : ¬ watchPoint.close.Settled := by
        rintro (⟨-, status⟩ | ⟨idle, -⟩)
        · simp at status
        · rw [outstandingReads_close, reads] at idle
          exact Nat.one_ne_zero idle
      refine ⟨fun settled => absurd settled ?_, fun success => by cases success⟩
      dsimp only
      split_ifs
      · exact unsettled
      · exact unsettled
  · rw [listening] at finished
    cases finished

end WatchPoint

end Windows

end FileEvents
