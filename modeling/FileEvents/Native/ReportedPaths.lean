import FileEvents.Linux.Server
import FileEvents.Paths.Pathname
import FileEvents.Windows.Server

/-!
# The paths that are reported

The Linux and the Windows server report a path made of the watched path, a separator and the
name from the event. Clients compare it with the paths of `java.io.File`: the watched path is
the string of an absolute pathname (`File.getAbsolutePath`), and what is inside has the string
of `new File(watched, name)`, in which every two names are separated by one separator and a
root keeps its own.

## Main definitions

* `Report.path` — the path of a reported event
* `ReportedLikeJava` — the path is the one that Java would build

## Main results

* `reportedLikeJava_iff` — it is, except for what is inside a root of the file system
-/

namespace FileEvents

open Paths

/-- The path of a reported change, or of an unknown event. -/
def Report.path : Report → Option U16String
  | .reportChangeEvent _ path | .reportUnknownEvent path => some path
  | .reportOverflow _ | .reportFailure _ | .reportTermination => none

variable {separator : UInt16}

/-- The reported path is that of the watched directory, or `new File(watched, name)`. -/
structure ReportedLikeJava (watched : Pathname separator) (name : List (Name separator))
    (reported : U16String) : Prop where
  itself : name = [] → reported = watched.toList
  inside : name ≠ [] → reported = (watched.resolve name).toList ∧
    watched.SeparatedOnce name reported

/-- How both servers append a name. -/
def appendName (separator : UInt16) (watchedPath name : U16String) : U16String :=
  if name = [] then watchedPath else watchedPath ++ separator :: name

section Append

variable {watched : Pathname separator} {name : List (Name separator)}

/-- Appending a name makes the path that Java would build, except inside a root. -/
theorem reportedLikeJava_appendName_iff :
    ReportedLikeJava watched name (appendName separator watched.toList (join name)) ↔
      name = [] ∨ ¬ watched.IsRoot := by
  by_cases none : name = []
  · refine iff_of_true ⟨fun _ => ?_, fun some => absurd none some⟩ (.inl none)
    rw [appendName, if_pos (join_eq_nil_iff.mpr none)]
  · rw [appendName, if_neg (mt join_eq_nil_iff.mp none)]
    constructor
    · intro like
      exact .inr ((Pathname.toList_append_eq_iff none).mp (like.inside none).1)
    · rintro (empty | inner)
      · exact absurd empty none
      · have same := (Pathname.toList_append_eq_iff none).mpr inner
        refine ⟨fun empty => absurd empty none, fun _ => ⟨same, ?_⟩⟩
        rw [same]
        exact Pathname.separatedOnce_resolve inner none

end Append

/-! ## What the servers report -/

namespace Linux

/-- The code unit of `u"/"`. -/
def pathSeparator : UInt16 := 0x2F

theorem joinName_eq (path name : U16String) :
    joinName path name = appendName pathSeparator path name := by
  have separator : u16 "/" = [pathSeparator] := by decide
  unfold joinName appendName
  rw [separator, List.append_assoc]
  rfl

theorem path_reportOf (mask : UInt32) (path : U16String) :
    (reportOf mask path).path = some path := by
  unfold reportOf
  split
  · rfl
  · rfl

/-- A change or an unknown event is reported for the watched path with the name appended. -/
theorem Server.path_of_handleEvent {server server' : Server} {event : InotifyEvent}
    {order : List U16String} {reports : List Report} {watchedPath name path : U16String}
    (watched : server.watchRoots.lookup event.wd = some watchedPath)
    (named : utf8ToUtf16String event.name = some name)
    (handled : server.handleEvent event order = .ok (server', reports))
    (reported : path ∈ reports.filterMap Report.path) : path = joinName watchedPath name := by
  obtain ⟨report, mem, hasPath⟩ := List.mem_filterMap.mp reported
  have silent {server'' : Server} (same : Except.ok (server'', ([] : List Report)) =
      (Except.ok (server', reports) : Except CppException (Server × List Report))) : False := by
    obtain ⟨-, rfl⟩ := Prod.mk.inj (Except.ok.inj same)
    cases mem
  unfold Server.handleEvent at handled
  simp only [watched, named] at handled
  split at handled
  next => exact (silent handled).elim
  next =>
    split at handled
    next =>
      -- An overflow is reported for every watched path, and is no event for a path.
      obtain ⟨-, rfl⟩ := Prod.mk.inj (Except.ok.inj handled)
      obtain ⟨other, -, rfl⟩ := List.mem_map.mp mem
      cases hasPath
    next =>
      split at handled
      next => cases handled
      next =>
        split_ifs at handled
        · exact (silent handled).elim
        · exact (silent handled).elim
        · exact (silent handled).elim
        · obtain ⟨-, rfl⟩ := Prod.mk.inj (Except.ok.inj handled)
          obtain rfl := List.mem_singleton.mp mem
          rw [path_reportOf] at hasPath
          exact (Option.some_inj.mp hasPath).symm

end Linux

namespace Windows

theorem changedPath_eq (watchedPath fileName : U16String) :
    changedPath watchedPath fileName = appendName backslash watchedPath fileName := by
  unfold changedPath appendName
  split_ifs
  · exact List.append_nil _
  · rfl

/-- A record is reported for the watched path with the file name appended. -/
theorem path_of_handleEvent {watchedPath : U16String} {info : NotifyRecord} {report : Report}
    (reported : handleEvent watchedPath info = some report) :
    report.path = some (changedPath watchedPath info.fileName) := by
  unfold handleEvent at reported
  split_ifs at reported
  all_goals
    obtain rfl := Option.some_inj.mp reported
    rfl

end Windows

/-! ## The paths that Java would build -/

/-- What is reported for an event has the path that Java would build from the watched path and
the name in the event. -/
def Linux.ReportsLikeJava (watched : Pathname pathSeparator)
    (name : List (Name pathSeparator)) : Prop :=
  ∀ (server server' : Server) (event : InotifyEvent) (order : List U16String)
    (reports : List Report), server.watchRoots.lookup event.wd = some watched.toList →
    utf8ToUtf16String event.name = some (join name) →
    server.handleEvent event order = .ok (server', reports) →
    ∀ path ∈ reports.filterMap Report.path, ReportedLikeJava watched name path

/-- The path of every report is the one that Java would build if the name in the event is empty
or the watched directory is not a root, and is another one otherwise. -/
theorem reportedLikeJava_iff (linuxPath : Pathname Linux.pathSeparator)
    (linuxName : List (Name Linux.pathSeparator)) (windowsPath : Pathname Windows.backslash)
    (windowsName : List (Name Windows.backslash)) :
    (∀ (server server' : Linux.Server) (event : Linux.InotifyEvent) (order : List U16String)
        (reports : List Report) (path : U16String),
      server.watchRoots.lookup event.wd = some linuxPath.toList →
      utf8ToUtf16String event.name = some (join linuxName) →
      server.handleEvent event order = .ok (server', reports) →
      path ∈ reports.filterMap Report.path →
      (ReportedLikeJava linuxPath linuxName path ↔ linuxName = [] ∨ ¬ linuxPath.IsRoot)) ∧
    (∀ (info : Windows.NotifyRecord) (report : Report) (path : U16String),
      info.fileName = join windowsName →
      Windows.handleEvent windowsPath.toList info = some report → report.path = some path →
      (ReportedLikeJava windowsPath windowsName path ↔
        windowsName = [] ∨ ¬ windowsPath.IsRoot)) := by
  constructor
  · intro server server' event order reports path found named handled reported
    rw [Linux.Server.path_of_handleEvent found named handled reported, Linux.joinName_eq]
    exact reportedLikeJava_appendName_iff
  · intro info report path named handled reported
    have path_eq := (Windows.path_of_handleEvent handled).symm.trans reported
    rw [← Option.some_inj.mp path_eq, named, Windows.changedPath_eq]
    exact reportedLikeJava_appendName_iff

/-- The file `f` is created. -/
def rootFile : Linux.InotifyEvent where
  wd := 1
  mask := Linux.IN_CREATE
  name := [0x66]

/-- `/` is watched. -/
def rootServer : Linux.Server where
  watchPoints := (∅ : AList fun _ : U16String => Linux.WatchPoint).insert (u16 "/")
    { status := .listening, watchDescriptor := 1, path := u16 "/", inode := 2 }
  watchRoots := (∅ : AList fun _ : Linux.WatchDescriptor => U16String).insert 1 (u16 "/")
  recentlyUnregisteredWatchRoots := ∅
  inotify :=
    { active := (∅ : AList fun _ : Linux.WatchDescriptor => Linux.FileObject).insert 1
        { dev := 0, ino := 2 }
      queue := []
      retired := []
      queued := [] }
  shouldTerminate := false
  buffer := []

/-- `/`. -/
def linuxRoot : Pathname Linux.pathSeparator where
  root := u16 "/"
  names := []
  closed := by decide

/-- `C:\`. -/
def windowsRoot : Pathname Windows.backslash where
  root := u16 "C:\\"
  names := []
  closed := by decide

/-- `f`. -/
def fileName (separator : UInt16) (other : separator ≠ 0x66) : Name separator where
  chars := u16 "f"
  nonempty := by decide
  clean := by
    have chars : u16 "f" = [0x66] := by decide
    rw [chars, List.mem_singleton]
    exact other

/-- `C:\a`. -/
def windowsDirectory : Pathname Windows.backslash where
  root := u16 "C:\\"
  names := [⟨u16 "a", by decide, by decide⟩]
  closed := by decide

theorem reportedLikeJava_iff_root :
    ¬ ReportedLikeJava linuxRoot [fileName Linux.pathSeparator (by decide)] (u16 "//f") ∧
      ReportedLikeJava windowsDirectory [fileName Windows.backslash (by decide)]
        (u16 "C:\\a\\f") := by
  obtain ⟨onLinux, onWindows⟩ := reportedLikeJava_iff linuxRoot
    [fileName Linux.pathSeparator (by decide)] windowsDirectory
    [fileName Windows.backslash (by decide)]
  constructor
  · have reported : ∃ server', rootServer.handleEvent rootFile [] =
        .ok (server', [.reportChangeEvent ChangeType.created.index (u16 "//f")]) := ⟨_, rfl⟩
    obtain ⟨server', handled⟩ := reported
    rw [onLinux rootServer server' rootFile [] _ (u16 "//f") rfl rfl handled (by decide)]
    rintro (empty | inner)
    · cases empty
    · exact inner rfl
  · refine (onWindows ⟨Windows.FILE_ACTION_ADDED, 0, u16 "f"⟩ _ (u16 "C:\\a\\f") (by decide) rfl
      (by decide)).mpr (.inr ?_)
    exact List.cons_ne_nil _ _

/-- A file in `/` is reported as `//f`. -/
theorem not_forall_reportsLikeJava :
    ¬ ∀ (watched : Pathname Linux.pathSeparator) (name : List (Name Linux.pathSeparator)),
      Linux.ReportsLikeJava watched name := by
  intro always
  have reported : ∃ server', rootServer.handleEvent rootFile [] =
      .ok (server', [.reportChangeEvent ChangeType.created.index (u16 "//f")]) := ⟨_, rfl⟩
  obtain ⟨server', handled⟩ := reported
  have like := always linuxRoot [fileName Linux.pathSeparator (by decide)] rootServer server'
    rootFile [] _ rfl rfl handled (u16 "//f") (by decide)
  exact absurd (like.inside (by simp)).1 (by decide)

/-- A file in `C:\` is reported with two separators. -/
example : ∃ report, Windows.handleEvent windowsRoot.toList
      ⟨Windows.FILE_ACTION_ADDED, 0, join [fileName Windows.backslash (by decide)]⟩ =
        some report ∧ report.path = some (u16 "C:\\\\f") :=
  ⟨_, rfl, by decide⟩

end FileEvents
