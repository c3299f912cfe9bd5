import FileEvents.Windows.LongPath
import FileEvents.Windows.Server

/-!
# Watching a long path

The constructor of `WatchPoint` opens the long form of the registered path, but
`isValidDirectory` asks `GetFileAttributesW` for the path as it was registered. Without the
prefix the operating system takes no path of more than 259 units, so a long path looks as if
it was deleted whenever `ERROR_ACCESS_DENIED` is received.

## Main definitions

* `FileSystem` — what a path denotes, and what `GetFileAttributesW` answers for it
* `FileSystem.TakesOnlyDeleted` — only a deleted directory is taken for deleted
* `FileSystem.SeesOpened` — the registered path leads where the opened one does

## Main results

* `FileSystem.takesOnlyDeleted_iff` — the two are the same
-/

namespace FileEvents

namespace Windows

/-- The attributes of the objects that exist, by the paths that denote them. -/
abbrev FileSystem := U16String → Option UInt32

namespace FileSystem

variable (fs : FileSystem) (path : U16String)

/-- `GetFileAttributesW`. Without a prefix a path of more than 259 units is refused. -/
def getFileAttributesW : UInt32 :=
  if 259 < path.length ∧ isLongPath path = false then INVALID_FILE_ATTRIBUTES
  else (fs path).getD INVALID_FILE_ATTRIBUTES

/-- The path denotes a directory. -/
def IsDirectory : Prop := isValidDirectory ((fs path).getD INVALID_FILE_ATTRIBUTES) = true

instance : Decidable (fs.IsDirectory path) :=
  inferInstanceAs (Decidable
    (isValidDirectory ((fs path).getD INVALID_FILE_ATTRIBUTES) = true))

/-- The path that the constructor opens denotes a directory that the operating system
finds. -/
def OpenedIsDirectory : Prop :=
  isValidDirectory (fs.getFileAttributesW (convertToLongPathIfNeeded path)) = true

/-- Where `ERROR_ACCESS_DENIED` is received for a registered path, it counts as deleted only
if the path that was opened does not denote a directory. -/
structure TakesOnlyDeleted : Prop where
  /-- `isValidDirectory` finds what it would find under the path that was opened. -/
  agrees : isValidDirectory (fs.getFileAttributesW path) = true ↔ fs.OpenedIsDirectory path
  /-- A completion with the error reports the path removed. -/
  completion : ∀ (server : Server) (watchPoint : WatchPoint) (completion : Completion),
    watchPoint.registeredPath = path → completion.errorCode = ERROR_ACCESS_DENIED →
    completion.attrib = fs.getFileAttributesW path →
    Report.reportChangeEvent ChangeType.removed.index path ∈
      (server.handleEvents watchPoint completion).2 → ¬ fs.OpenedIsDirectory path
  /-- `listen` finds the directory deleted, which is reported as well. -/
  listen : ∀ (watchPoint : WatchPoint) (answers : ListenAnswers),
    watchPoint.registeredPath = path →
    answers.readDirectoryChanges = .error ERROR_ACCESS_DENIED →
    answers.attrib = fs.getFileAttributesW path →
    (watchPoint.listen answers).1 = .ok .deleted → ¬ fs.OpenedIsDirectory path
  /-- The constructor, which has opened the directory, rejects it in the end. -/
  construct : ∀ (answers : ConstructAnswers) (registeredFinalPath : U16String),
    answers.createFile = .ok () → answers.finalPath = .ok (some registeredFinalPath) →
    answers.listen.readDirectoryChanges = .error ERROR_ACCESS_DENIED →
    answers.listen.attrib = fs.getFileAttributesW path →
    (WatchPoint.construct path answers).1 = .error (.fileWatcherException
      "Couldn't add watch, path is not a directory" (some path) none) →
    ¬ fs.OpenedIsDirectory path

/-- The path is opened as it was registered, or it is short enough to be asked for and
denotes a directory as its long form does, or its long form denotes none. -/
def SeesOpened : Prop :=
  ¬ NeedsLongPath path ∨
    (path.length ≤ 259 ∧
      (fs.IsDirectory path ↔ fs.IsDirectory (convertToLongPathIfNeeded path))) ∨
    (259 < path.length ∧ ¬ fs.IsDirectory (convertToLongPathIfNeeded path))

variable {fs path}

/-! ## What `GetFileAttributesW` finds -/

/-- A path with the prefix is looked up, whatever its length. -/
theorem openedIsDirectory_iff (needs : NeedsLongPath path) :
    fs.OpenedIsDirectory path ↔ fs.IsDirectory (convertToLongPathIfNeeded path) := by
  have long := isLongPath_convertToLongPathIfNeeded needs
  unfold OpenedIsDirectory getFileAttributesW
  rw [if_neg (by simp [long])]
  rfl

/-- A path without the prefix is looked up if it is short. -/
theorem isValidDirectory_iff (unprefixed : ¬ u16 "\\\\?\\" <+: path) :
    isValidDirectory (fs.getFileAttributesW path) = true ↔
      path.length ≤ 259 ∧ fs.IsDirectory path := by
  have plain : isLongPath path = false := by
    rw [Bool.eq_false_iff]
    exact mt isLongPath_iff.mp unprefixed
  unfold getFileAttributesW
  split_ifs with refused
  · have none : isValidDirectory INVALID_FILE_ATTRIBUTES = false := by decide
    rw [none]
    exact iff_of_false Bool.false_ne_true fun ⟨short, _⟩ => absurd refused.1 (by omega)
  · have short : path.length ≤ 259 := by
      by_contra long
      exact refused ⟨by omega, plain⟩
    exact ⟨fun valid => ⟨short, valid⟩, fun ⟨_, valid⟩ => valid⟩

/-- `isValidDirectory` agrees with the path that was opened exactly if the registered path
leads there. -/
theorem agrees_iff :
    (isValidDirectory (fs.getFileAttributesW path) = true ↔ fs.OpenedIsDirectory path) ↔
      fs.SeesOpened path := by
  by_cases needs : NeedsLongPath path
  · rw [openedIsDirectory_iff needs, isValidDirectory_iff needs.2.1, SeesOpened]
    constructor
    · intro agrees
      by_cases short : path.length ≤ 259
      · refine .inr (.inl ⟨short, ?_⟩)
        rw [← agrees]
        exact ⟨fun directory => ⟨short, directory⟩, fun ⟨_, directory⟩ => directory⟩
      · refine .inr (.inr ⟨by omega, fun directory => ?_⟩)
        exact short (agrees.mpr directory).1
    · rintro (kept | ⟨short, same⟩ | ⟨long, deleted⟩)
      · exact absurd needs kept
      · rw [← same]
        exact ⟨fun ⟨_, directory⟩ => directory, fun directory => ⟨short, directory⟩⟩
      · exact iff_of_false (fun ⟨short, _⟩ => absurd long (by omega)) deleted
  · have same := convertToLongPathIfNeeded_eq_self needs
    exact iff_of_true (by rw [OpenedIsDirectory, same]) (.inl needs)

/-! ## What is taken for deleted -/

/-- `listen` finds the directory deleted only where `isValidDirectory` does not find it. -/
theorem invalid_of_listen {watchPoint : WatchPoint} {answers : ListenAnswers}
    (denied : answers.readDirectoryChanges = .error ERROR_ACCESS_DENIED)
    (deleted : (watchPoint.listen answers).1 = .ok .deleted) :
    isValidDirectory answers.attrib = false := by
  simp only [WatchPoint.listen, denied] at deleted
  split_ifs at deleted with invalid
  simpa using invalid

/-- A completion with the error reports the path removed only where `isValidDirectory` does
not find it. -/
theorem invalid_of_completion {server : Server} {watchPoint : WatchPoint}
    {completion : Completion} {path : U16String}
    (denied : completion.errorCode = ERROR_ACCESS_DENIED)
    (removed : Report.reportChangeEvent ChangeType.removed.index path ∈
      (server.handleEvents watchPoint completion).2) :
    isValidDirectory completion.attrib = false := by
  by_contra valid
  have found : isValidDirectory completion.attrib = true := by simpa using valid
  have failed : ERROR_ACCESS_DENIED ≠ ERROR_SUCCESS := by decide
  simp [Server.handleEvents, Server.tryHandleEvents, denied, failed, found] at removed

/-- The constructor rejects a path as no directory only where `isValidDirectory` does not find
it. -/
theorem invalid_of_construct {path registeredFinalPath : U16String} {answers : ConstructAnswers}
    (opened : answers.createFile = .ok ())
    (resolved : answers.finalPath = .ok (some registeredFinalPath))
    (denied : answers.listen.readDirectoryChanges = .error ERROR_ACCESS_DENIED)
    (rejected : (WatchPoint.construct path answers).1 = .error (.fileWatcherException
      "Couldn't add watch, path is not a directory" (some path) none)) :
    isValidDirectory answers.listen.attrib = false := by
  by_contra valid
  have found : isValidDirectory answers.listen.attrib = true := by simpa using valid
  cases reserved : reserve (eventBufferSize answers.bufferSize) answers.allocates with
  | error ex =>
    simp only [WatchPoint.construct, opened, resolved, reserved, Except.error.injEq] at rejected
    rcases reserve_error reserved with rfl | rfl <;> cases rejected
  | ok =>
    simp only [WatchPoint.construct, opened, resolved, reserved, WatchPoint.listen, denied, found,
      not_true_eq_false, and_false, if_false, Except.error.injEq] at rejected
    -- The exception is that of `listen`, which has another message.
    unfold fileWatcherException at rejected
    split at rejected
    · simp at rejected
    · cases rejected

/-- Only a deleted directory is taken for deleted exactly where the registered path leads to
the directory that was opened: it was opened as it is, or it has at most 259 units and its
long form denotes a directory if it does, or its long form denotes no directory anyway. -/
theorem takesOnlyDeleted_iff (fs : FileSystem) (path : U16String) :
    fs.TakesOnlyDeleted path ↔ fs.SeesOpened path := by
  rw [← agrees_iff]
  constructor
  · exact TakesOnlyDeleted.agrees
  · intro agrees
    have deleted {attrib : UInt32} (asked : attrib = fs.getFileAttributesW path)
        (invalid : isValidDirectory attrib = false) : ¬ fs.OpenedIsDirectory path := by
      rw [← agrees, ← asked, invalid]
      exact Bool.false_ne_true
    constructor
    case agrees => exact agrees
    case completion =>
      intro server watchPoint completion _ denied asked removed
      exact deleted asked (invalid_of_completion denied removed)
    case listen =>
      intro watchPoint answers _ denied asked found
      exact deleted asked (invalid_of_listen denied found)
    case construct =>
      intro answers registeredFinalPath opened resolved denied asked rejected
      exact deleted asked (invalid_of_construct opened resolved denied rejected)

/-- A directory with a path of 260 units. -/
def deepDirectory : U16String :=
  u16 "C:\\" ++ List.replicate 128 0x61 ++ u16 "\\" ++ List.replicate 128 0x62

/-- The only directory there is. -/
def deepFileSystem : FileSystem := fun path =>
  if path = u16 "\\\\?\\" ++ deepDirectory ∨ path = deepDirectory then
    some FILE_ATTRIBUTE_DIRECTORY
  else none

/-- A completion with `ERROR_ACCESS_DENIED` for that directory. -/
def deniedCompletion : Completion where
  errorCode := ERROR_ACCESS_DENIED
  bytesTransferred := 0
  records := []
  attrib := deepFileSystem.getFileAttributesW deepDirectory
  finalPath := .ok (some [])
  throwsAt := none
  listen := { readDirectoryChanges := .ok (), attrib := FILE_ATTRIBUTE_DIRECTORY }

/-- A directory whose path has 260 units is reported removed although it exists. -/
theorem not_forall_takesOnlyDeleted :
    ¬ ∀ (fs : FileSystem) (path : U16String), fs.TakesOnlyDeleted path := by
  intro always
  have removed : Report.reportChangeEvent ChangeType.removed.index deepDirectory ∈
      (Server.handleEvents { watchPoints := ∅, shouldTerminate := false }
        (.opened deepDirectory) deniedCompletion).2 := by decide +kernel
  have stillThere : isValidDirectory (deepFileSystem.getFileAttributesW
      (convertToLongPathIfNeeded deepDirectory)) = true := by decide +kernel
  exact (always deepFileSystem deepDirectory).completion _ (.opened deepDirectory)
    deniedCompletion rfl rfl (by simp only [deniedCompletion]) removed stillThere

end FileSystem

end Windows

end FileEvents
