import FileEvents.Delivery.ListedSet
import FileEvents.Linux.Invariant
import Mathlib.Algebra.Order.Ring.Int
import Mathlib.Order.Interval.Set.Infinite

/-!
# Watching a set of directories

A client that calls `startWatching` and `stopWatching` with any lists of paths, one call after
the other, beside the kernel and the run loop. Every path names the same directory all the
time, nobody else ends a watch, and the kernel grants every watch.

If the paths the client uses name directories, no two of them the same one, the server is a
set of paths: `startWatching` inserts, `stopWatching` erases.

## Main definitions

* `WatchedSet.machine` — the client, the server and the kernel
* `WatchedSet.perform` — what a call does to the set of watched paths

## Main results

* `performs` — every call has the outcome it has on the set, and between two calls the
  listening watch points and the active watches are those of the set
-/

namespace FileEvents

open Delivery Transition

namespace Linux

namespace WatchedSet

/-! ## The set -/

/-- `startWatching` and `stopWatching`. -/
inductive Call
  | startWatching (paths : List U16String)
  | stopWatching (paths : List U16String)
  deriving DecidableEq

/-- How a call ends. -/
inductive Outcome
  | started
  | stopped (success : Bool)
  | threw (ex : CppException)
  deriving DecidableEq

/-- What a call does to the set of watched paths. -/
def perform (S : Finset U16String) : Call → Outcome × Finset U16String
  | .startWatching paths =>
    match insertAll S paths with
    | (none, S) => (.started, S)
    | (some path, S) => (.threw (alreadyWatchingPath path), S)
  | .stopWatching paths => (.stopped (eraseAll S paths).1, (eraseAll S paths).2)

/-- `startWatching` succeeds if the paths are new and differ from one another. -/
theorem perform_startWatching_started_iff {S : Finset U16String} {paths : List U16String} :
    (perform S (.startWatching paths)).1 = .started ↔
      paths.Nodup ∧ ∀ path ∈ paths, path ∉ S := by
  rw [← insertAll_eq_none_iff, perform]
  split
  next inserted => simp [inserted]
  next path _ stopped => simp [stopped]

/-- Otherwise it throws at the first path that is watched, and those before it stay. -/
theorem perform_startWatching_threw {S : Finset U16String} {paths : List U16String}
    {ex : CppException} (threw : (perform S (.startWatching paths)).1 = .threw ex) :
    ∃ before path after, paths = before ++ path :: after ∧ ex = alreadyWatchingPath path ∧
      perform S (.startWatching before) = (.started, (perform S (.startWatching paths)).2) ∧
      path ∈ (perform S (.startWatching paths)).2 := by
  rw [perform] at threw ⊢
  split at threw
  next => cases threw
  next path inserted stopped =>
    obtain rfl := Outcome.threw.inj threw
    obtain ⟨before, after, rfl, earlier, again⟩ := insertAll_eq_some (congrArg Prod.fst stopped)
    rw [stopped] at earlier again
    exact ⟨before, path, after, rfl, rfl, by simp [perform, earlier], by simpa [stopped]⟩

/-- `stopWatching` erases the paths, and succeeds if each is watched and listed once. -/
theorem perform_stopWatching {S : Finset U16String} {paths : List U16String} :
    perform S (.stopWatching paths) =
      (.stopped (decide (paths.Nodup ∧ ∀ path ∈ paths, path ∈ S)), S \ paths.toFinset) := by
  rw [perform, eraseAll_snd, ← Bool.decide_coe (eraseAll S paths).1]
  simp only [eraseAll_fst_iff]

/-- What calls do to the set, one after the other. -/
def performAll (S : Finset U16String) : List Call → List Outcome × Finset U16String
  | [] => ([], S)
  | call :: calls =>
    ((perform S call).1 :: (performAll (perform S call).2 calls).1,
      (performAll (perform S call).2 calls).2)

theorem performAll_concat {S : Finset U16String} {calls : List Call} {call : Call} :
    performAll S (calls ++ [call]) =
      ((performAll S calls).1 ++ [(perform (performAll S calls).2 call).1],
        (perform (performAll S calls).2 call).2) := by
  induction calls generalizing S with
  | nil => rfl
  | cons first calls ih => simp only [List.cons_append, performAll, ih]

/-! ## The server -/

/-- `ENOENT`. -/
def ENOENT : Errno := 2

/-- The directory under each name. -/
abbrev Disk := ByteString → Option FileObject

/-- The directory that a path names. -/
def directory (disk : Disk) (path : U16String) : Option FileObject :=
  (utf16ToUtf8String path).bind disk

/-- What the operating system answers for a path, where the kernel grants every watch. -/
def answers (disk : Disk) (path : U16String) (fresh : WatchDescriptor) : RegisterAnswers :=
  match directory disk path with
  | none => { lstat := .error ENOENT, addWatch := .error ENOENT, fresh }
  | some object => { lstat := .ok object.ino, addWatch := .ok object, fresh }

@[simp] theorem fresh_answers {disk : Disk} {path : U16String} {fresh : WatchDescriptor} :
    (answers disk path fresh).fresh = fresh := by
  unfold answers
  split <;> rfl

/-- What is left to do of a call. -/
inductive Progress
  | registering (paths rest : List U16String)
  | unregistering (paths rest : List U16String) (success : Bool)
  deriving DecidableEq

/-- The client and the server. -/
structure Session where
  system : System
  /-- The call in progress. -/
  progress : Option Progress
  /-- The calls that have ended. -/
  history : List (Call × Outcome)

/-- What can happen next. -/
inductive Label
  | call (call : Call)
  /-- `registerPath` on the next path, up to `inotify_add_watch`. -/
  | registerPath (fresh : WatchDescriptor)
  /-- The rest of it. -/
  | enterWatchPoint
  /-- `unregisterPath` on the next path. -/
  | unregisterPath
  /-- The call returns. -/
  | returns
  | kernel (step : Inotify.Step)
  | read (count : ℕ)
  | handle (order : List U16String)

namespace Session

/-- The call in progress ends. -/
def finish (s : Session) (call : Call) (outcome : Outcome) : Session :=
  { s with progress := none, history := s.history ++ [(call, outcome)] }

/-- The step function. -/
def next (disk : Disk) (s : Session) : Label → Option Session
  | .call (.startWatching paths) =>
    if s.progress = none then some { s with progress := some (.registering paths paths) } else none
  | .call (.stopWatching paths) =>
    if s.progress = none then some { s with progress := some (.unregistering paths paths true) }
    else none
  | .registerPath fresh =>
    match s.progress with
    | some (.registering paths (path :: _)) =>
      (s.system.next (.registerPath path (answers disk path fresh))).map fun system =>
        match s.system.server.beginRegisterPath path (answers disk path fresh) with
        | .error ex => { s with system }.finish (.startWatching paths) (.threw ex)
        | .ok _ => { s with system }
    | _ => none
  | .enterWatchPoint =>
    match s.progress, s.system.registering with
    | some (.registering paths (_ :: rest)), some watchPoint =>
      (s.system.next .enterWatchPoint).map fun system =>
        match s.system.server.enterWatchPoint watchPoint with
        | .error ex => { s with system }.finish (.startWatching paths) (.threw ex)
        | .ok _ => { s with system, progress := some (.registering paths rest) }
    | _, _ => none
  | .unregisterPath =>
    match s.progress with
    | some (.unregistering paths (path :: rest) success) =>
      (s.system.next (.unregisterPath path)).map fun system =>
        match (s.system.server.unregisterPath path).1 with
        | .error ex => { s with system }.finish (.stopWatching paths) (.threw ex)
        | .ok result =>
          { s with system, progress := some (.unregistering paths rest (success && result)) }
    | _ => none
  | .returns =>
    match s.progress with
    | some (.registering paths []) => some (s.finish (.startWatching paths) .started)
    | some (.unregistering paths [] success) =>
      some (s.finish (.stopWatching paths) (.stopped success))
    | _ => none
  | .kernel step => (s.system.next (.kernel step)).map fun system => { s with system }
  | .read count => (s.system.next (.read count)).map fun system => { s with system }
  | .handle order => (s.system.next (.handle order)).map fun system => { s with system }

/-- The set of watched paths after the calls that have ended. -/
def watched (s : Session) : Finset U16String := (performAll ∅ (s.history.map Prod.fst)).2

end Session

/-- A client and a server that was just created. -/
def machine (disk : Disk) : Machine Session Label where
  start := { system := Linux.machine.start, progress := none, history := [] }
  next := Session.next disk

/-- The client uses only these paths, and no directory is deleted or unmounted. -/
def Names (D : Set U16String) (_ : Session) : Label → Prop
  | .call (.startWatching paths) | .call (.stopWatching paths) => ∀ path ∈ paths, path ∈ D
  | .kernel (.remove ..) => False
  | _ => True

instance (D : Set U16String) [DecidablePred (· ∈ D)] (s : Session) :
    DecidablePred (Names D s) := fun label =>
  match label with
  | .call (.startWatching paths) | .call (.stopWatching paths) =>
    inferInstanceAs (Decidable (∀ path ∈ paths, path ∈ D))
  | .kernel (.remove ..) => instDecidableFalse
  | .kernel (.event ..) | .kernel .overflow | .kernel (.lose _) | .registerPath _
  | .enterWatchPoint | .unregisterPath | .returns | .read _ | .handle _ => instDecidableTrue

/-! ## The watch points -/

/-- The paths name directories, no two of them the same one. -/
structure Distinct (disk : Disk) (D : Set U16String) : Prop where
  existing : ∀ path ∈ D, ∃ object, directory disk path = some object
  unaliased : ∀ path ∈ D, ∀ other ∈ D, directory disk path = directory disk other → path = other

/-- Every watch point listens, and its directory is watched under its descriptor. -/
def Watching (disk : Disk) (D : Set U16String) (server : Server) : Prop :=
  ∀ path watchPoint, server.watchPoints.lookup path = some watchPoint →
    path ∈ D ∧ watchPoint.status = .listening ∧
      server.inotify.active.lookup watchPoint.watchDescriptor = directory disk path

/-- The watched paths. -/
def paths (server : Server) : Finset U16String := server.watchPoints.keys.toFinset

@[simp] theorem mem_paths {server : Server} {path : U16String} :
    path ∈ paths server ↔ path ∈ server.watchPoints := by simp [paths, AList.mem_keys]

section Watching

variable {disk : Disk} {D : Set U16String} {server : Server} {path : U16String}
variable {fresh : WatchDescriptor} {object : FileObject} {s t : System}

theorem Watching.congr {after : Server} (h : Watching disk D server)
    (watchPoints : after.watchPoints = server.watchPoints)
    (active : after.inotify.active = server.inotify.active) : Watching disk D after := by
  intro path watchPoint found
  rw [watchPoints] at found
  rw [active]
  exact h path watchPoint found

/-- The descriptor of a watch point is active. -/
theorem Watching.mem_active (h : Watching disk D server) (distinct : Distinct disk D)
    {watchPoint : WatchPoint} (found : server.watchPoints.lookup path = some watchPoint) :
    watchPoint.watchDescriptor ∈ server.inotify.active := by
  obtain ⟨named, -, watched⟩ := h path watchPoint found
  obtain ⟨object, names⟩ := distinct.existing path named
  exact mem_iff_lookup.mpr ⟨object, watched.trans names⟩

/-- No directory is watched whose path is not. -/
theorem Watching.watchOf_eq_none (h : Watching disk D server) (distinct : Distinct disk D)
    (consistent : Consistent server none) (named : path ∈ D)
    (names : directory disk path = some object) (absent : path ∉ server.watchPoints) :
    server.inotify.watchOf object = none := by
  refine Inotify.watchOf_eq_none fun wd watched => ?_
  obtain ⟨other, watchPoint, found, -, rfl⟩ | ⟨watchPoint, entering, -⟩ :=
    consistent.listening wd (mem_iff_lookup.mpr ⟨object, watched⟩)
  · obtain ⟨named', -, watched'⟩ := h other watchPoint found
    obtain rfl := distinct.unaliased path named other named'
      (names.trans (watched.symm.trans watched'))
    exact absent (mem_iff_lookup.mpr ⟨watchPoint, found⟩)
  · cases entering

/-- `registerPath` gets as far as `inotify_add_watch` on a directory that is not watched. -/
theorem beginRegisterPath_of_absent (names : directory disk path = some object)
    (unwatched : server.inotify.watchOf object = none) (absent : path ∉ server.watchPoints) :
    server.beginRegisterPath path (answers disk path fresh) =
      .ok ({ status := .listening, watchDescriptor := fresh, path, inode := object.ino },
        { server.inotify with
          active := server.inotify.active.insert fresh object
          queued := server.inotify.queued.filter fun event => ¬ event.Concerns fresh }) := by
  obtain ⟨pathNarrow, converted, -⟩ := Option.bind_eq_some_iff.mp names
  simp [Server.beginRegisterPath, absent, converted, answers, names, Inotify.addWatch, unwatched]

/-- Handling an event changes no watch point and ends no watch. -/
theorem Watching.handle (h : Watching disk D s.server) (distinct : Distinct disk D)
    (sound : Sound s.server none) {order : List U16String}
    (step : s.next (.handle order) = some t) :
    t.server.watchPoints = s.server.watchPoints ∧
      t.server.inotify.active = s.server.inotify.active := by
  obtain ⟨event, buffer, -, next, ⟨ex, -, rfl⟩ | ⟨server, reports, handled, rfl⟩⟩ :=
    System.handled_cases step
  · exact ⟨rfl, rfl⟩
  · by_cases ends : event.Concerns event.wd ∧ event.IsIgnored
    · -- The descriptor is not active any more, so no watch point has it.
      obtain ⟨-, gone, -⟩ := sound.streams.of_ignored ends.2 ends.1 next
      obtain ⟨rfl, -⟩ := Server.handleEvent_ignored ends.1 ends.2 handled
      have unwatched : s.server.watchRoots.lookup event.wd = none := by
        cases root : s.server.watchRoots.lookup event.wd with
        | none => rfl
        | some path =>
          obtain ⟨watchPoint, found, here⟩ := (sound.consistent.roots _ _).mp root
          exact absurd (here ▸ h.mem_active distinct found) gone
      simp [ends, Server.finish, unwatched]
    · obtain rfl := Server.handleEvent_other ends handled
      simp [ends]

/-- `unregisterPath` on a watched path. -/
theorem Watching.unregisterPath (h : Watching disk D server) (distinct : Distinct disk D)
    {watchPoint : WatchPoint} (found : server.watchPoints.lookup path = some watchPoint) :
    (server.unregisterPath path).1 = .ok true ∧
      (server.unregisterPath path).2.watchPoints =
        (server.watchPoints.insert path { watchPoint with status := .cancelled }).erase path ∧
      (server.unregisterPath path).2.inotify =
        server.inotify.retire watchPoint.watchDescriptor := by
  obtain ⟨-, listens, -⟩ := h path watchPoint found
  have active := h.mem_active distinct found
  simp [Server.unregisterPath, found, Server.cancelWatchPoint, WatchPoint.cancel, listens,
    Inotify.rmWatch, active, Server.forgetWatchPoint]

/-- `unregisterPath` on a directory that is not watched. -/
theorem unregisterPath_of_absent (names : directory disk path = some object)
    (absent : path ∉ server.watchPoints) : server.unregisterPath path = (.ok false, server) := by
  obtain ⟨pathNarrow, converted, -⟩ := Option.bind_eq_some_iff.mp names
  simp [Server.unregisterPath, AList.lookup_eq_none.mpr absent, converted]

end Watching

/-! ## The server is the set -/

/-- On the set of the watched paths, what is left of the call in progress does what the call
does on the set before it. -/
def Continues (D : Set U16String) (s : Session) : Prop :=
  match s.progress with
  | none => paths s.system.server = s.watched
  | some (.registering listed rest) => (∀ path ∈ rest, path ∈ D) ∧
      insertAll s.watched listed = insertAll (paths s.system.server) rest
  | some (.unregistering listed rest success) => (∀ path ∈ rest, path ∈ D) ∧
      eraseAll s.watched listed =
        (success && (eraseAll (paths s.system.server) rest).1,
          (eraseAll (paths s.system.server) rest).2)

/-- The server behaves as the set. -/
structure Refines (disk : Disk) (D : Set U16String) (s : Session) : Prop where
  sound : Sound s.system.server s.system.registering
  watching : Watching disk D s.system.server
  /-- A watch point about to be entered has a descriptor of its own. -/
  entering : ∀ watchPoint, s.system.registering = some watchPoint →
    watchPoint.watchDescriptor ∉ s.system.server.watchRoots ∧
      s.system.server.inotify.active.lookup watchPoint.watchDescriptor =
        directory disk watchPoint.path ∧
      ∃ listed rest, s.progress = some (.registering listed (watchPoint.path :: rest))
  outcomes : s.history.map Prod.snd = (performAll ∅ (s.history.map Prod.fst)).1
  continues : Continues D s

section Refines

variable {disk : Disk} {D : Set U16String} {s t : Session} {system : System}

namespace Refines

/-- A step that leaves the tables and the watches alone. -/
theorem same (h : Refines disk D s) {label : Linux.Label}
    (step : s.system.next label = some system)
    (registering : system.registering = none ∨ system.registering = s.system.registering)
    (watchPoints : system.server.watchPoints = s.system.server.watchPoints)
    (watchRoots : system.registering = none ∨ system.server.watchRoots = s.system.server.watchRoots)
    (active : system.server.inotify.active = s.system.server.inotify.active) :
    Refines disk D { s with system } := by
  refine ⟨h.sound.next step, h.watching.congr watchPoints active, ?_, h.outcomes, ?_⟩
  · intro watchPoint entering
    have busy : system.registering ≠ none := by simp [show system.registering = _ from entering]
    obtain ⟨free, watched, progress⟩ :=
      h.entering watchPoint (registering.resolve_left busy ▸ entering)
    exact ⟨watchRoots.resolve_left busy ▸ free, active ▸ watched, progress⟩
  · have kept : paths system.server = paths s.system.server := by simp [paths, watchPoints]
    have continues := h.continues
    unfold Continues at continues ⊢
    dsimp only
    rw [kept]
    exact continues

/-- A call ends with the outcome it has on the set. -/
theorem finish (h : Refines disk D s) {call : Call} {outcome : Outcome}
    (idle : s.system.registering = none)
    (performed : perform s.watched call = (outcome, paths s.system.server)) :
    Refines disk D (s.finish call outcome) := by
  have after : (s.finish call outcome).watched = paths s.system.server := by
    simp only [Session.watched, Session.finish, List.map_append, List.map_cons, List.map_nil,
      performAll_concat]
    exact congrArg Prod.snd performed
  refine ⟨h.sound, h.watching, ?_, ?_, after.symm⟩
  · simp [Session.finish, idle]
  · simp only [Session.finish, List.map_append, List.map_cons, List.map_nil, performAll_concat,
      h.outcomes]
    rw [show perform (performAll ∅ (s.history.map Prod.fst)).2 call = _ from performed]

/-- A call begins. -/
theorem call (h : Refines disk D s) {call : Call} (named : Names D s (.call call))
    (step : s.next disk (.call call) = some t) : Refines disk D t := by
  cases call with
  | startWatching listed | stopWatching listed =>
    simp only [Session.next] at step
    split_ifs at step with idle
    obtain rfl := Option.some_inj.mp step
    have continues : paths s.system.server = s.watched := by
      simpa [Continues, idle] using h.continues
    refine ⟨h.sound, h.watching, fun watchPoint entering => ?_, h.outcomes, named, ?_⟩
    · obtain ⟨-, -, listed, rest, progress⟩ := h.entering watchPoint entering
      rw [idle] at progress
      cases progress
    · simp [continues, Session.watched]

/-- The first half of `registerPath`. -/
theorem registerPath (h : Refines disk D s) (distinct : Distinct disk D)
    {fresh : WatchDescriptor} (step : s.next disk (.registerPath fresh) = some t) :
    Refines disk D t := by
  simp only [Session.next] at step
  split at step
  next listed path rest progress =>
    obtain ⟨system, inner, rfl⟩ := Option.map_eq_some_iff.mp step
    obtain ⟨idle, canGrant, -⟩ := System.registerPath_spec inner
    rw [fresh_answers] at canGrant
    have consistent : Consistent s.system.server none := idle ▸ h.sound.consistent
    obtain ⟨named, continues⟩ : (∀ other ∈ path :: rest, other ∈ D) ∧
        insertAll s.watched listed = insertAll (paths s.system.server) (path :: rest) := by
      simpa only [Continues, progress] using h.continues
    have enabled : s.system.register path (answers disk path fresh) = system := by
      simpa [System.next, idle, canGrant] using inner
    unfold System.register at enabled
    by_cases present : path ∈ s.system.server.watchPoints
    · -- The path is in the set: the call ends here.
      have refused : s.system.server.beginRegisterPath path (answers disk path fresh) =
          .error (alreadyWatchingPath path) := by simp [Server.beginRegisterPath, present]
      rw [refused] at enabled ⊢
      obtain rfl := enabled
      apply h.finish idle
      rw [perform, continues, insertAll_cons_of_mem (mem_paths.mpr present)]
    · -- The path is not in the set, so its directory is not watched.
      obtain ⟨object, names⟩ := distinct.existing path (named path List.mem_cons_self)
      have unwatched := h.watching.watchOf_eq_none distinct consistent
        (named path List.mem_cons_self) names present
      rw [beginRegisterPath_of_absent names unwatched present] at enabled ⊢
      obtain ⟨-, unused, unretired⟩ := canGrant
      have sound := h.sound.next inner
      obtain rfl := enabled
      refine ⟨sound, fun other watchPoint found => ?_, fun watchPoint entering => ?_, h.outcomes,
        ?_⟩
      · -- The descriptors of the other watch points are active already.
        obtain ⟨named', listens, watched⟩ := h.watching other watchPoint found
        have different : watchPoint.watchDescriptor ≠ fresh := fun same =>
          unused (same ▸ h.watching.mem_active distinct found)
        exact ⟨named', listens, (AList.lookup_insert_ne different).trans watched⟩
      · -- The descriptor that was granted is in none of the tables.
        obtain rfl := Option.some_inj.mp entering
        refine ⟨fun root => ?_, ?_, listed, rest, progress⟩
        · exact (consistent.known fresh root).elim unused unretired
        · exact (AList.lookup_insert _).trans names.symm
      · exact h.continues
  next => cases step

/-- The second half of `registerPath`. -/
theorem enterWatchPoint (h : Refines disk D s)
    (step : s.next disk .enterWatchPoint = some t) : Refines disk D t := by
  simp only [Session.next] at step
  split at step
  next listed path rest watchPoint progress entering =>
    obtain ⟨system, inner, rfl⟩ := Option.map_eq_some_iff.mp step
    obtain ⟨free, watched, listed', rest', progress'⟩ := h.entering watchPoint entering
    obtain ⟨absent, listens, -⟩ := h.sound.consistent.entering watchPoint entering
    obtain ⟨rfl, same⟩ : listed' = listed ∧ watchPoint.path :: rest' = path :: rest := by
      simpa [progress] using progress'.symm
    obtain ⟨rfl, rfl⟩ := List.cons_eq_cons.mp same
    obtain ⟨named, continues⟩ : (∀ other ∈ watchPoint.path :: rest', other ∈ D) ∧
        insertAll s.watched listed' =
          insertAll (paths s.system.server) (watchPoint.path :: rest') := by
      simpa only [Continues, progress] using h.continues
    have sound := h.sound.next inner
    -- Neither the path nor the descriptor is in a table yet.
    have entered : s.system.server.enterWatchPoint watchPoint = .ok
        { s.system.server with
          watchPoints := s.system.server.watchPoints.insert watchPoint.path watchPoint
          watchRoots := s.system.server.watchRoots.insert watchPoint.watchDescriptor
            watchPoint.path } := by
      simp [Server.enterWatchPoint, free, emplace_of_not_mem absent]
    obtain rfl : s.system.enter watchPoint = system := by
      simpa [System.next, entering] using inner
    rw [entered]
    simp only [System.enter, entered] at sound ⊢
    refine ⟨sound, fun other watchPoint' found => ?_, by simp, h.outcomes, ?_⟩
    · -- The new watch point is listening under its own path, the others as before.
      simp only [lookup_insert_eq] at found
      split_ifs at found with here
      · obtain rfl := Option.some_inj.mp found
        exact ⟨here ▸ named _ List.mem_cons_self, listens, here ▸ watched⟩
      · exact h.watching other watchPoint' found
    · -- The path goes over from the list to the set.
      refine ⟨fun other mem => named other (List.mem_cons_of_mem _ mem), ?_⟩
      refine continues.trans ((insertAll_cons_of_notMem (by simpa using absent)).trans ?_)
      congr 1
      ext other
      simp
  next => cases step

/-- `unregisterPath`. -/
theorem unregisterPath (h : Refines disk D s) (distinct : Distinct disk D)
    (step : s.next disk .unregisterPath = some t) : Refines disk D t := by
  simp only [Session.next] at step
  split at step
  next listed path rest success progress =>
    obtain ⟨system, inner, rfl⟩ := Option.map_eq_some_iff.mp step
    have sound := h.sound.next inner
    obtain ⟨idle, stopped, -, rfl⟩ := System.unregisterPath_spec inner
    have consistent : Consistent s.system.server none := idle ▸ h.sound.consistent
    obtain ⟨named, continues⟩ : (∀ other ∈ path :: rest, other ∈ D) ∧
        eraseAll s.watched listed =
          (success && (eraseAll (paths s.system.server) (path :: rest)).1,
            (eraseAll (paths s.system.server) (path :: rest)).2) := by
      simpa only [Continues, progress] using h.continues
    have unnamed : ∀ other ∈ rest, other ∈ D :=
      fun other mem => named other (List.mem_cons_of_mem _ mem)
    by_cases present : path ∈ s.system.server.watchPoints
    · obtain ⟨watchPoint, found⟩ := mem_iff_lookup.mp present
      obtain ⟨result, watchPoints, inotify⟩ := h.watching.unregisterPath distinct found
      rw [result]
      refine ⟨sound, fun other watchPoint' found' => ?_, by simp [idle], h.outcomes, unnamed, ?_⟩
      · simp only [watchPoints, lookup_erase_eq, lookup_insert_eq] at found'
        split_ifs at found' with here
        obtain ⟨named', listens, watched⟩ := h.watching other watchPoint' found'
        refine ⟨named', listens, ?_⟩
        -- The watch that ends is not that of another path.
        have different : watchPoint'.watchDescriptor ≠ watchPoint.watchDescriptor := fun same =>
          here (consistent.path_unique found' found same)
        simp only [inotify, Inotify.active_retire]
        exact (AList.lookup_erase_ne different).trans watched
      · have less : paths (s.system.server.unregisterPath path).2 =
            (paths s.system.server).erase path := by
          ext other
          simp +contextual [watchPoints, AList.mem_erase]
        apply continues.trans
        rw [eraseAll_cons_of_mem (mem_paths.mpr present)]
        simp only [Bool.and_true, less]
    · obtain ⟨object, names⟩ := distinct.existing path (named path List.mem_cons_self)
      have result := unregisterPath_of_absent names present
      rw [result] at sound ⊢
      refine ⟨sound, h.watching, by simp [idle], h.outcomes, unnamed, ?_⟩
      apply continues.trans
      rw [eraseAll_cons_of_notMem (mem_paths.not.mpr present)]
      simp only [Bool.and_false, Bool.false_and]
  next => cases step

/-- A call returns. -/
theorem returns (h : Refines disk D s) (step : s.next disk .returns = some t) :
    Refines disk D t := by
  have idle : ∀ progress, s.progress = some progress →
      (∀ listed path rest, progress ≠ .registering listed (path :: rest)) →
      s.system.registering = none := by
    intro progress here done
    by_contra busy
    obtain ⟨watchPoint, entering⟩ := Option.ne_none_iff_exists'.mp busy
    obtain ⟨-, -, listed, rest, progress'⟩ := h.entering watchPoint entering
    exact done _ _ _ (Option.some_inj.mp (here.symm.trans progress'))
  have continues := h.continues
  simp only [Session.next] at step
  split at step
  next listed progress =>
    obtain rfl := Option.some_inj.mp step
    simp only [Continues, progress, insertAll_nil] at continues
    apply h.finish (idle _ progress (by simp))
    rw [perform, continues.2]
  next listed success progress =>
    obtain rfl := Option.some_inj.mp step
    simp only [Continues, progress, eraseAll_nil, Bool.and_true] at continues
    apply h.finish (idle _ progress (by simp))
    rw [perform, continues.2]
  next => cases step

/-- Every step of a client that uses distinct directories keeps the server to the set. -/
theorem next (h : Refines disk D s) (distinct : Distinct disk D) {label : Label}
    (named : Names D s label) (step : (machine disk).next s label = some t) :
    Refines disk D t := by
  cases label with
  | call call => exact h.call named step
  | registerPath fresh => exact h.registerPath distinct step
  | enterWatchPoint => exact h.enterWatchPoint step
  | unregisterPath => exact h.unregisterPath distinct step
  | returns => exact h.returns step
  | kernel kernelStep =>
    obtain ⟨system, inner, rfl⟩ := Option.map_eq_some_iff.mp step
    -- The kernel ends no watch, as no directory that is named is removed.
    obtain ⟨inotify, taken, rfl⟩ := Option.map_eq_some_iff.mp inner
    apply h.same inner (.inr rfl) rfl (.inr rfl)
    obtain ⟨wd, mask, name, -, -, -, -, rfl⟩ | ⟨wd, mask, rfl, -⟩ | ⟨-, rfl⟩ | ⟨index, -, rfl⟩ :=
      Inotify.step_cases taken
    · rfl
    · exact named.elim
    · rfl
    · rfl
  | read count =>
    obtain ⟨system, inner, rfl⟩ := Option.map_eq_some_iff.mp step
    obtain ⟨-, -, -, rfl⟩ := System.read_spec inner
    exact h.same inner (.inr rfl) rfl (.inr rfl) rfl
  | handle order =>
    obtain ⟨system, inner, rfl⟩ := Option.map_eq_some_iff.mp step
    obtain ⟨event, buffer, idle, -⟩ := System.handled_cases inner
    obtain ⟨watchPoints, active⟩ := h.watching.handle distinct (idle ▸ h.sound) inner
    -- Events are handled between the registrations.
    have after : system.registering = none := by
      obtain ⟨event, buffer, -, -, ⟨ex, -, rfl⟩ | ⟨server, reports, -, rfl⟩⟩ :=
        System.handled_cases inner
      · exact idle
      · exact idle
    exact h.same inner (.inl after) watchPoints (.inl after) active

end Refines

/-- How many steps of the client the call in progress takes at most. -/
def left (s : Session) : ℕ :=
  match s.progress with
  | none => 0
  | some (.registering _ rest) => 2 * rest.length + if s.system.registering = none then 1 else 0
  | some (.unregistering _ rest _) => rest.length + 1

/-- Some descriptor may always be granted. -/
theorem exists_canGrant (inotify : Inotify) : ∃ fresh, inotify.CanGrant fresh := by
  obtain ⟨fresh, positive, new⟩ := (Set.Ioi_infinite (0 : ℤ)).exists_notMem_finset
    (inotify.active.keys ++ inotify.retired).toFinset
  simp only [List.mem_toFinset, List.mem_append, AList.mem_keys.symm, not_or] at new
  exact ⟨fresh, positive, AList.mem_keys.not.mpr new.1, new.2⟩

/-- The client can go on with the call in progress. -/
theorem Refines.goes_on (h : Refines disk D s) (busy : s.progress ≠ none) :
    ∃ label t, Names D s label ∧ (machine disk).next s label = some t ∧
      (t.progress = none ∨ left t < left s) := by
  obtain ⟨progress, here⟩ := Option.ne_none_iff_exists'.mp busy
  cases entering : s.system.registering with
  -- The second half of a `registerPath` is next.
  | some watchPoint =>
    obtain ⟨-, -, listed, rest, here⟩ := h.entering watchPoint entering
    obtain ⟨t, step⟩ : ∃ t, (machine disk).next s .enterWatchPoint = some t := by
      simp [machine, Session.next, here, entering, System.next]
    refine ⟨.enterWatchPoint, t, trivial, step, ?_⟩
    simp only [machine, Session.next, here, entering, System.next, Option.map_some,
      Option.some_inj] at step
    subst step
    split
    · exact .inl rfl
    · right
      simp only [left, here, entering, List.length_cons, reduceCtorEq, if_false]
      split_ifs <;> omega
  | none =>
    cases progress with
    | registering listed rest =>
      cases rest with
      | nil =>
        exact ⟨.returns, s.finish (.startWatching listed) .started, trivial,
          by simp [machine, Session.next, here], .inl rfl⟩
      | cons path rest =>
        obtain ⟨fresh, canGrant⟩ := exists_canGrant s.system.server.inotify
        obtain ⟨t, step⟩ : ∃ t, (machine disk).next s (.registerPath fresh) = some t := by
          simp [machine, Session.next, here, entering, System.next, canGrant]
        refine ⟨.registerPath fresh, t, trivial, step, ?_⟩
        simp only [machine, Session.next, here, entering, System.next, fresh_answers, canGrant,
          and_self, if_true, Option.map_some, Option.some_inj] at step
        subst step
        split
        · exact .inl rfl
        · rename_i begun
          right
          simp [left, here, entering, System.register, begun]
    | unregistering listed rest success =>
      cases rest with
      | nil =>
        exact ⟨.returns, s.finish (.stopWatching listed) (.stopped success), trivial,
          by simp [machine, Session.next, here], .inl rfl⟩
      | cons path rest =>
        obtain ⟨t, step⟩ : ∃ t, (machine disk).next s .unregisterPath = some t := by
          simp [machine, Session.next, here, entering, System.next]
        refine ⟨.unregisterPath, t, trivial, step, ?_⟩
        simp only [machine, Session.next, here, entering, System.next, if_true, Option.map_some,
          Option.some_inj] at step
        subst step
        split
        · exact .inl rfl
        · right
          simp [left, here]

/-- A call in progress can end. -/
theorem Refines.ends (h : Refines disk D s) (distinct : Distinct disk D) :
    ∃ labels t, Machine.Run (machine disk) (Names D) s labels t ∧ t.progress = none := by
  induction steps : left s using Nat.strong_induction_on generalizing s with
  | _ n ih =>
    by_cases busy : s.progress = none
    · exact ⟨[], s, .nil s, busy⟩
    · obtain ⟨label, t, named, step, returned | less⟩ := h.goes_on busy
      · exact ⟨[label], t, .single named step, returned⟩
      · obtain ⟨labels, u, run, returned⟩ := ih _ (steps ▸ less) (h.next distinct named step) rfl
        exact ⟨label :: labels, u, .cons named step run, returned⟩

theorem refines (distinct : Distinct disk D)
    (reach : (machine disk).ReachableWhere (Names D) s) : Refines disk D s := by
  refine reach.invariant ?_ fun _ _ _ h => h.next distinct
  exact ⟨sound_start, fun path watchPoint found => by simp [machine, Linux.machine] at found,
    by simp [machine, Linux.machine], rfl, rfl⟩

/-- If the paths the client uses name directories, no two of them the same one, then every
call has the outcome it has on the set of watched paths. Between two calls the listening
watch points are those of the set, and the active watches are those of its directories under
the descriptors of their watch points. A call in progress can always end. -/
theorem performs (disk : Disk) (D : Set U16String) (distinct : Distinct disk D) (s : Session)
    (reach : (machine disk).ReachableWhere (Names D) s) :
    s.history.map Prod.snd = (performAll ∅ (s.history.map Prod.fst)).1 ∧
    (s.progress = none →
      (∀ path, path ∈ s.watched ↔ ∃ watchPoint,
        s.system.server.watchPoints.lookup path = some watchPoint ∧
          watchPoint.status = .listening) ∧
      ∀ wd object, s.system.server.inotify.active.lookup wd = some object ↔
        ∃ path ∈ s.watched, ∃ watchPoint,
          s.system.server.watchPoints.lookup path = some watchPoint ∧
          watchPoint.watchDescriptor = wd ∧ directory disk path = some object) ∧
    ∃ labels t, Machine.Run (machine disk) (Names D) s labels t ∧ t.progress = none := by
  have h := refines distinct reach
  refine ⟨h.outcomes, fun between => ?_, h.ends distinct⟩
  have watched : paths s.system.server = s.watched := by
    simpa only [Continues, between] using h.continues
  have listed (path : U16String) : path ∈ s.watched ↔ path ∈ s.system.server.watchPoints := by
    rw [← watched, mem_paths]
  refine ⟨fun path => ?_, fun wd object => ⟨fun active => ?_, ?_⟩⟩
  · rw [listed, mem_iff_lookup]
    refine exists_congr fun watchPoint => ⟨fun found => ?_, And.left⟩
    exact ⟨found, (h.watching path watchPoint found).2.1⟩
  · -- The watch belongs to a watch point, as none is being registered.
    obtain ⟨path, watchPoint, found, -, here⟩ | ⟨watchPoint, entering, -⟩ :=
      h.sound.consistent.listening wd (mem_iff_lookup.mpr ⟨object, active⟩)
    · obtain ⟨-, -, watches⟩ := h.watching path watchPoint found
      refine ⟨path, (listed path).mpr (mem_iff_lookup.mpr ⟨watchPoint, found⟩), watchPoint, found,
        here, ?_⟩
      rw [← watches, here, active]
    · obtain ⟨-, -, all, rest, progress⟩ := h.entering watchPoint entering
      rw [between] at progress
      cases progress
  · rintro ⟨path, -, watchPoint, found, rfl, names⟩
    exact (h.watching path watchPoint found).2.2.trans names

/-- Two directories. -/
def twoDirectories : Disk := fun name =>
  if some name = utf16ToUtf8String (u16 "/a") then some ⟨1, 7⟩
  else if some name = utf16ToUtf8String (u16 "/b") then some ⟨1, 8⟩
  else none

theorem distinct_twoDirectories : Distinct twoDirectories {path | path ∈ [u16 "/a", u16 "/b"]} where
  existing := fun path mem => Option.isSome_iff_exists.mp <| by
    have existing : ∀ path ∈ [u16 "/a", u16 "/b"], (directory twoDirectories path).isSome = true :=
      by decide
    exact existing path mem
  unaliased := by
    have unaliased : ∀ path ∈ [u16 "/a", u16 "/b"], ∀ other ∈ [u16 "/a", u16 "/b"],
        directory twoDirectories path = directory twoDirectories other → path = other := by decide
    exact unaliased

/-- A directory is listed twice, stopped twice and watched again, and the end of its first
watch is handled then. -/
def listedTwiceRun : List Label :=
  [.call (.startWatching [u16 "/a", u16 "/b", u16 "/a"]), .registerPath 1, .enterWatchPoint,
    .registerPath 2, .enterWatchPoint, .registerPath 3,
    .call (.stopWatching [u16 "/a", u16 "/a"]), .unregisterPath,
    .kernel (.event 2 IN_CREATE [0x66]), .unregisterPath, .returns,
    .call (.startWatching [u16 "/a"]), .registerPath 3, .enterWatchPoint, .returns, .read 2,
    .handle [u16 "/a", u16 "/b"], .handle [u16 "/a", u16 "/b"]]

theorem performs_listedTwice :
    ∃ s, (machine twoDirectories).ReachableWhere (Names {path | path ∈ [u16 "/a", u16 "/b"]}) s ∧
      s.history.map Prod.snd =
        [.threw (alreadyWatchingPath (u16 "/a")), .stopped false, .started] ∧
      s.history.map Prod.snd = (performAll ∅ (s.history.map Prod.fst)).1 ∧
      ∀ path, path ∈ s.watched ↔ ∃ watchPoint,
        s.system.server.watchPoints.lookup path = some watchPoint ∧
          watchPoint.status = .listening := by
  have computed : ((machine twoDirectories).execWhere (Names {path | path ∈ [u16 "/a", u16 "/b"]})
      (machine twoDirectories).start listedTwiceRun).map (fun s =>
        (s.history.map Prod.snd, s.progress)) =
        some ([.threw (alreadyWatchingPath (u16 "/a")), .stopped false, .started], none) := by
      decide
  obtain ⟨s, reach, last⟩ := Machine.observe_of_execWhere computed
  simp only [Prod.mk.injEq] at last
  obtain ⟨outcomes, between, -⟩ := performs twoDirectories _ distinct_twoDirectories s reach
  exact ⟨s, reach, last.1, outcomes, (between last.2).1⟩

end Refines

end WatchedSet

end Linux

end FileEvents
