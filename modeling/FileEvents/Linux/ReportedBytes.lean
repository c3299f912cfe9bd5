import FileEvents.Linux.BadEvent
import FileEvents.Linux.MovedPaths
import FileEvents.Native.ReportedPaths
import FileEvents.Text.Formats

/-!
# The bytes of a reported path

The Linux kernel has bytes for the names of objects, Java has UTF-16. A watched path went to
the kernel as UTF-8, up to its first NUL, and the name the kernel gives is appended to it as
UTF-16. Converted back, a reported path without NUL is byte for byte that of the object the
kernel has the event for, so two objects are never reported under one path.

## Main definitions

* `entryBytes` — the path of an entry of a directory, in bytes
* `Server.objectBytes` — the path of the object an event is for
* `System.Reports` — a path is reported for an object

## Main results

* `reports_objects` — what is reported, and what is refused instead
-/

namespace FileEvents

open JvmText (cStr)
open Text Transition

namespace Linux

/-- The bytes of the path of an entry, or of the directory itself. -/
def entryBytes (directory name : ByteString) : ByteString :=
  if name = [] then directory else directory ++ 0x2F :: name

/-- The bytes of the path of the object that the kernel has the event for. `inotify_add_watch`
was given the path of the directory as a C string. -/
def Server.objectBytes (server : Server) (event : InotifyEvent) : Option ByteString :=
  ((server.watchRoots.lookup event.wd).bind utf16ToUtf8String).map fun pathNarrow =>
    entryBytes (cStr pathNarrow) event.name

/-- The next event of the buffer is reported, with the path, for the object. -/
def System.Reports (s : System) (path : U16String) (object : ByteString) : Prop :=
  ∃ order t reports event, s.handle order = some (t, reports) ∧ 0 ∉ path ∧
    path ∈ reports.filterMap Report.path ∧ event ∈ s.server.buffer.head? ∧
    s.server.objectBytes event = some object

section Names

variable {path name : U16String} {bytes nameBytes : ByteString}

/-- A path without NUL is given to the kernel as a whole. -/
theorem cStr_of_clean (converted : utf16ToUtf8String path = some bytes) (clean : 0 ∉ path) :
    cStr bytes = bytes := by
  obtain ⟨points, decoded, rfl⟩ := Option.map_eq_some_iff.mp converted
  obtain ⟨rfl, scalars⟩ := decodeUtf16_eq_some_iff.mp decoded
  have kept : (points.takeWhile fun c => c ≠ 0) = points := by
    rw [List.takeWhile_eq_self_iff]
    intro c mem
    rw [decide_eq_true_eq]
    rintro rfl
    exact clean (List.mem_flatMap.mpr ⟨0, mem, List.mem_singleton_self _⟩)
  have cut := JvmText.cStr_encode scalars
  rwa [kept] at cut

theorem not_mem_of_joinName (clean : 0 ∉ joinName path name) : 0 ∉ path := by
  intro mem
  unfold joinName at clean
  split_ifs at clean
  · exact clean mem
  · exact clean (List.mem_append_left _ (List.mem_append_left _ mem))

/-- A name is appended in UTF-16 as it is in bytes. -/
theorem utf16ToUtf8String_joinName (watched : utf16ToUtf8String path = some bytes)
    (named : utf8ToUtf16String nameBytes = some name) :
    utf16ToUtf8String (joinName path name) = some (entryBytes bytes nameBytes) := by
  have back := utf8ToUtf16String_eq_some_iff.mp named
  have separator : utf16ToUtf8String (u16 "/") = some [0x2F] := by decide
  unfold joinName entryBytes
  by_cases empty : name = []
  · subst empty
    obtain rfl : nameBytes = [] := (Option.some_inj.mp back).symm
    exact watched
  · have someBytes : nameBytes ≠ [] := by
      rintro rfl
      exact empty (Option.some_inj.mp named).symm
    rw [if_neg empty, if_neg someBytes,
      utf16ToUtf8String_append (utf16ToUtf8String_append watched separator) back,
      List.append_assoc]
    rfl

end Names

section Reachable

variable {s t : System} {order : List U16String} {reports : List Report}

/-- A path that is not well formed is no watched path. -/
theorem not_mem_watchPoints {path : U16String} (reach : machine.Reachable s)
    (illFormed : utf16ToUtf8String path = none) : path ∉ s.server.watchPoints := by
  intro mem
  obtain ⟨watchPoint, found⟩ := mem_iff_lookup.mp mem
  have converts := (named reach path watchPoint found).2
  rw [illFormed] at converts
  cases converts

/-- A watched directory has a path in bytes. -/
theorem converts_of_root {wd : WatchDescriptor} {directory : U16String}
    (reach : machine.Reachable s) (root : s.server.watchRoots.lookup wd = some directory) :
    ∃ bytes, utf16ToUtf8String directory = some bytes := by
  obtain ⟨watchPoint, found, -⟩ := ((sound reach).consistent.roots wd directory).mp root
  exact Option.isSome_iff_exists.mp (named reach directory watchPoint found).2

/-- Nothing is reported, an overflow of all watched paths, or one path. -/
theorem Server.reports_cases {server server' : Server} {event : InotifyEvent}
    (handled : server.handleEvent event order = .ok (server', reports)) :
    reports = [] ∨ reports = (order.map fun path => .reportOverflow (some path)) ∨
      ∃ directory name, server.watchRoots.lookup event.wd = some directory ∧
        utf8ToUtf16String event.name = some name ∧
        reports = [reportOf event.mask (joinName directory name)] := by
  have reported {server : Server} {found : List Report} (same : Except.ok (server, found) =
      (Except.ok (server', reports) : Except CppException (Server × List Report))) :
      reports = found := (Prod.mk.inj (Except.ok.inj same)).2.symm
  unfold Server.handleEvent at handled
  split at handled
  next => exact .inl (reported handled)
  split at handled
  next => exact .inr (.inl (reported handled))
  split at handled
  next =>
    split at handled
    next => exact .inl (reported handled)
    next => split at handled <;> exact .inl (reported handled)
  next directory root =>
    split at handled
    next => cases handled
    next =>
      split_ifs at handled
      · exact .inl (reported handled)
      · exact .inl (reported handled)
      · exact .inl (reported handled)
      · split at handled
        next => cases handled
        next name named => exact .inr (.inr ⟨directory, name, root, named, reported handled⟩)

/-- The report of an event. -/
theorem path_of_handle {path : U16String} (reach : machine.Reachable s)
    (handled : s.handle order = some (t, reports))
    (reported : path ∈ reports.filterMap Report.path) (clean : 0 ∉ path) :
    ∃ event ∈ s.server.buffer.head?, ∃ object, s.server.objectBytes event = some object ∧
      utf16ToUtf8String path = some object := by
  obtain ⟨event, buffer, -, next, -, dispatched⟩ := System.handle_spec handled
  refine ⟨event, by rw [next]; rfl, ?_⟩
  unfold System.dispatch at dispatched
  split at dispatched
  next ex thrown =>
    obtain ⟨-, rfl⟩ := Prod.mk.inj dispatched
    simp [Report.path] at reported
  next server reports' succeeded =>
    obtain ⟨-, rfl⟩ := Prod.mk.inj dispatched
    obtain rfl | rfl | ⟨directory, name, watched, converts, rfl⟩ :=
      Server.reports_cases succeeded
    · cases reported
    · simp [Report.path] at reported
    · obtain ⟨bytes, known⟩ := converts_of_root reach watched
      rw [List.filterMap_cons_some (path_reportOf _ _), List.filterMap_nil,
        List.mem_singleton] at reported
      subst reported
      refine ⟨entryBytes bytes event.name, ?_, utf16ToUtf8String_joinName known converts⟩
      rw [Server.objectBytes, watched, Option.bind_some, known, Option.map_some,
        cStr_of_clean known (not_mem_of_joinName clean)]

/-- A failure is reported for a bad name, and for nothing else. -/
theorem failure_iff (reach : machine.Reachable s) (handled : s.handle order = some (t, reports)) :
    ∃ event ∈ s.server.buffer.head?,
      ((∃ what, .reportFailure what ∈ reports) ↔ s.server.Throws event) := by
  obtain ⟨event, buffer, -, next, -, dispatched⟩ := System.handle_spec handled
  refine ⟨event, by rw [next]; rfl, ?_⟩
  have inverse : { s.server with buffer }.Inverse := (sound reach).consistent.roots
  rw [show s.server.Throws event ↔ { s.server with buffer }.Throws event from .rfl,
    ← inverse.handleEvent_error_iff order]
  unfold System.dispatch at dispatched
  split at dispatched
  next ex thrown =>
    obtain ⟨-, rfl⟩ := Prod.mk.inj dispatched
    exact iff_of_true ⟨ex.what, List.mem_singleton_self _⟩ ⟨ex, thrown⟩
  next server reports' succeeded =>
    obtain ⟨-, rfl⟩ := Prod.mk.inj dispatched
    refine iff_of_false ?_ ?_
    · rintro ⟨what, mem⟩
      obtain rfl | rfl | ⟨directory, name, -, -, rfl⟩ := Server.reports_cases succeeded
      · cases mem
      · simp at mem
      · rw [List.mem_singleton, reportOf] at mem
        split at mem <;> cases mem
    · rintro ⟨ex, thrown⟩
      rw [succeeded] at thrown
      cases thrown

/-- A path that is not well formed is refused before anything is asked of the kernel. -/
theorem registerPath_of_illFormed {path : U16String} (reach : machine.Reachable s)
    (illFormed : utf16ToUtf8String path = none) (answers : RegisterAnswers) :
    s.server.registerPath path answers = (.error toBytesError, s.server) := by
  have refused : s.server.beginRegisterPath path answers = .error toBytesError := by
    rw [Server.beginRegisterPath, if_neg (not_mem_watchPoints reach illFormed), illFormed]
  rw [Server.registerPath, refused]

end Reachable

/-- An event is bad if a watched path would be reported for it, and its name is no UTF-8 of
scalar values. -/
theorem Server.throws_iff {server : Server} {event : InotifyEvent} :
    server.Throws event ↔
      (isSet event.mask IN_UNMOUNT = false ∧ isSet event.mask IN_Q_OVERFLOW = false ∧
        isSet event.mask IN_IGNORED = false ∧ server.listensOn event.wd = true ∧
        server.shouldTerminate = false) ∧
      ∀ points, (∀ c ∈ points, IsScalar c) → encode points ≠ event.name := by
  have bad : utf8ToUtf16String event.name = none ↔
      ∀ points, (∀ c ∈ points, IsScalar c) → encode points ≠ event.name := by
    rw [utf8ToUtf16String, Option.map_eq_none_iff, Option.eq_none_iff_forall_ne_some]
    refine forall_congr' fun points => ?_
    rw [ne_eq, decodeUtf8_eq_some_iff, not_and']
  simp only [Server.Throws, bad, and_assoc]

/-- Every path without NUL that is reported for an event is, in bytes, the one of the event's
object, and is read back from these bytes; objects with different bytes have different paths. A
failure is reported instead exactly if the name of the object is not UTF-8. A path that is not
UTF-16 is refused and is not watched. -/
theorem reports_objects {s : System} (reach : machine.Reachable s) :
    (∀ order t reports, s.handle order = some (t, reports) →
      ∃ event ∈ s.server.buffer.head?,
        (∀ path ∈ reports.filterMap Report.path, 0 ∉ path → ∃ object,
          s.server.objectBytes event = some object ∧ utf16ToUtf8String path = some object ∧
            utf8ToUtf16String object = some path) ∧
        ((∃ what, .reportFailure what ∈ reports) ↔ s.server.Throws event)) ∧
      (∀ event, s.server.Throws event ↔
        (isSet event.mask IN_UNMOUNT = false ∧ isSet event.mask IN_Q_OVERFLOW = false ∧
          isSet event.mask IN_IGNORED = false ∧ s.server.listensOn event.wd = true ∧
          s.server.shouldTerminate = false) ∧
        ∀ points, (∀ c ∈ points, IsScalar c) → encode points ≠ event.name) ∧
      (∀ s', machine.Reachable s' → ∀ path object path' object', s.Reports path object →
        s'.Reports path' object' → (path = path' ↔ object = object')) ∧
      ∀ path, utf16ToUtf8String path = none → path ∉ s.server.watchPoints ∧
        ∀ answers, s.server.registerPath path answers = (.error toBytesError, s.server) := by
  have converts {s : System} (reach : machine.Reachable s) {path : U16String} {object : ByteString}
      (reports : s.Reports path object) : utf16ToUtf8String path = some object := by
    obtain ⟨order, t, reports, event, handled, clean, reported, mem, isObject⟩ := reports
    obtain ⟨event', mem', object', isObject', converts⟩ :=
      path_of_handle reach handled reported clean
    obtain rfl := Option.mem_unique mem mem'
    obtain rfl := Option.some_inj.mp (isObject.symm.trans isObject')
    exact converts
  refine ⟨fun order t reports handled => ?_, fun event => Server.throws_iff,
    fun s' reach' path object path' object' reported reported' => ?_, fun path illFormed =>
      ⟨not_mem_watchPoints reach illFormed, registerPath_of_illFormed reach illFormed⟩⟩
  · obtain ⟨event, mem, failure⟩ := failure_iff reach handled
    refine ⟨event, mem, fun path reported clean => ?_, failure⟩
    obtain ⟨event', mem', object, isObject, converts⟩ :=
      path_of_handle reach handled reported clean
    obtain rfl := Option.mem_unique mem mem'
    exact ⟨object, isObject, converts, utf8ToUtf16String_eq_some_iff.mpr converts⟩
  · have first := converts reach reported
    have second := converts reach' reported'
    constructor
    · rintro rfl
      exact Option.some_inj.mp (first.symm.trans second)
    · rintro rfl
      -- The same bytes are read back as the same path.
      exact Option.some_inj.mp ((utf8ToUtf16String_eq_some_iff.mpr first).symm.trans
        (utf8ToUtf16String_eq_some_iff.mpr second))

/-- A file with a name outside ASCII is created in a watched directory. -/
theorem reports_objects_umlaut :
    ∃ s t, machine.Reachable s ∧
      s.handle [u16 "/a"] =
        some (t, [.reportChangeEvent ChangeType.created.index (u16 "/a/ä")]) ∧
      utf8ToUtf16String [0x2F, 0x61, 0x2F, 0xC3, 0xA4] = some (u16 "/a/ä") := by
  have computed : (machine.exec machine.start
      [.registerPath (u16 "/a") { lstat := .ok 7, addWatch := .ok ⟨1, 7⟩, fresh := 1 },
        .enterWatchPoint, .kernel (.event 1 IN_CREATE [0xC3, 0xA4]), .read 1]).map (fun s =>
        ((s.handle [u16 "/a"]).map Prod.snd, s.server.buffer.head?.bind s.server.objectBytes)) =
      some (some [.reportChangeEvent ChangeType.created.index (u16 "/a/ä")],
        some [0x2F, 0x61, 0x2F, 0xC3, 0xA4]) := by decide
  obtain ⟨s, reach, last⟩ := Machine.observe_of_exec computed
  obtain ⟨handled, isObject⟩ := Prod.mk.inj last
  obtain ⟨⟨t, reports⟩, handled, rfl⟩ := Option.map_eq_some_iff.mp handled
  obtain ⟨event, mem, named, -⟩ := (reports_objects reach).1 _ _ _ handled
  obtain ⟨object, same, -, back⟩ := named (u16 "/a/ä")
    (List.mem_filterMap.mpr ⟨_, List.mem_cons_self, rfl⟩) (by decide)
  rw [Option.mem_def.mp mem, Option.bind_some, same] at isObject
  obtain rfl := Option.some_inj.mp isObject
  exact ⟨s, t, reach, handled, back⟩

end Linux

end FileEvents
