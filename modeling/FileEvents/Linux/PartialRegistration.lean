import FileEvents.Linux.Invariant

/-!
# `registerPaths` stops at the first path that fails

`registerPaths` enters the paths one by one and does not undo what it has done when one of
them throws. A path may fail before `inotify_add_watch`, in it, or after it, when its
descriptor turns out to be that of a watched directory; in none of these cases is anything
left behind of it.

## Main definitions

* `Server.registerPaths` — the loop
* `Server.GrantsUnused` — the kernel grants descriptors that are not in use
* `Enters` — the tables and the kernel have grown by these watch points, and by nothing else

## Main results

* `Server.registerPath_cases` — one path is entered, or nothing changes
* `Server.registerPaths_enters` — a beginning of the list is entered
-/

namespace FileEvents

namespace Linux

open Transition

/-- `registerPaths` on paths with what the operating system answers for them. -/
def Server.registerPaths (server : Server) :
    List (U16String × RegisterAnswers) → Except CppException Unit × Server
  | [] => (.ok (), server)
  | (path, answers) :: paths =>
    match server.registerPath path answers with
    | (.error ex, server) => (.error ex, server)
    | (.ok (), server) => server.registerPaths paths

/-- The descriptor is not active, and none of its events is unhandled. -/
def Server.Unused (server : Server) (wd : WatchDescriptor) : Prop :=
  wd ∉ server.inotify.active ∧ server.concerning wd = []

/-- For each path that `registerPaths` gets to, the kernel would grant an unused
descriptor. -/
def Server.GrantsUnused (server : Server) : List (U16String × RegisterAnswers) → Prop
  | [] => True
  | (path, answers) :: paths => server.Unused answers.fresh ∧
    ((server.registerPath path answers).1.isOk = true →
      (server.registerPath path answers).2.GrantsUnused paths)

instance (server : Server) (wd : WatchDescriptor) : Decidable (server.Unused wd) :=
  inferInstanceAs (Decidable (wd ∉ server.inotify.active ∧ server.concerning wd = []))

instance Server.decidableGrantsUnused : (server : Server) →
    (paths : List (U16String × RegisterAnswers)) → Decidable (server.GrantsUnused paths)
  | _, [] => instDecidableTrue
  | server, (path, answers) :: paths =>
    have := Server.decidableGrantsUnused (server.registerPath path answers).2 paths
    inferInstanceAs (Decidable (server.Unused answers.fresh ∧
      ((server.registerPath path answers).1.isOk = true →
        (server.registerPath path answers).2.GrantsUnused paths)))

/-- The tables and the watches of the kernel are the old ones and one for each of these
watch points. -/
structure Enters (before : Server) (entered : List WatchPoint) (after : Server) : Prop where
  listening : ∀ watchPoint ∈ entered, watchPoint.status = .listening
  /-- They are found under their paths, which are new and distinct. -/
  watchPoints : ∀ path, after.watchPoints.lookup path =
    (entered.find? fun watchPoint => watchPoint.path = path).or (before.watchPoints.lookup path)
  newPaths : ∀ watchPoint ∈ entered, watchPoint.path ∉ before.watchPoints
  distinctPaths : (entered.map WatchPoint.path).Nodup
  /-- And under their descriptors, which are new and distinct, too. -/
  watchRoots : ∀ wd, after.watchRoots.lookup wd =
    ((entered.find? fun watchPoint => watchPoint.watchDescriptor = wd).map WatchPoint.path).or
      (before.watchRoots.lookup wd)
  newRoots : ∀ watchPoint ∈ entered, watchPoint.watchDescriptor ∉ before.watchRoots
  distinctRoots : (entered.map WatchPoint.watchDescriptor).Nodup
  /-- The kernel watches what it watched before and their descriptors. -/
  active : ∀ wd, wd ∈ after.inotify.active ↔
    wd ∈ before.inotify.active ∨ wd ∈ entered.map WatchPoint.watchDescriptor
  oldWatches : ∀ wd ∈ before.inotify.active,
    after.inotify.active.lookup wd = before.inotify.active.lookup wd
  newWatches : ∀ watchPoint ∈ entered, watchPoint.watchDescriptor ∉ before.inotify.active
  /-- No event was queued or handled. -/
  recentlyUnregisteredWatchRoots :
    after.recentlyUnregisteredWatchRoots = before.recentlyUnregisteredWatchRoots
  queue : after.inotify.queue = before.inotify.queue
  buffer : after.buffer = before.buffer
  shouldTerminate : after.shouldTerminate = before.shouldTerminate

section Enters

variable {before middle after : Server} {watchPoint : WatchPoint} {entered : List WatchPoint}

theorem Enters.nil (server : Server) : Enters server [] server := by
  constructor <;> simp

theorem Enters.growsWatchPoints (enters : Enters before entered after) :
    Grows WatchPoint.path id before.watchPoints entered after.watchPoints :=
  ⟨fun path => by rw [enters.watchPoints path, Option.map_id, id], enters.newPaths,
    enters.distinctPaths⟩

theorem Enters.growsWatchRoots (enters : Enters before entered after) :
    Grows WatchPoint.watchDescriptor WatchPoint.path before.watchRoots entered after.watchRoots :=
  ⟨enters.watchRoots, enters.newRoots, enters.distinctRoots⟩

/-- One watch point is entered, and then more of them. -/
theorem Enters.cons (first : Enters before [watchPoint] middle)
    (rest : Enters middle entered after) : Enters before (watchPoint :: entered) after := by
  have listed : watchPoint ∈ [watchPoint] := List.mem_singleton_self watchPoint
  have watchPoints := first.growsWatchPoints.cons rest.growsWatchPoints
  have watchRoots := first.growsWatchRoots.cons rest.growsWatchRoots
  constructor
  case listening =>
    intro other mem
    rcases List.mem_cons.mp mem with rfl | mem
    · exact first.listening other listed
    · exact rest.listening other mem
  case watchPoints =>
    intro path
    rw [watchPoints.lookup path, Option.map_id, id]
  case newPaths => exact watchPoints.new
  case distinctPaths => exact watchPoints.distinct
  case watchRoots => exact watchRoots.lookup
  case newRoots => exact watchRoots.new
  case distinctRoots => exact watchRoots.distinct
  case active =>
    intro wd
    rw [rest.active, first.active]
    simp [or_assoc]
  case oldWatches =>
    intro wd old
    -- A descriptor that was active before all of it was so in the middle.
    rw [rest.oldWatches wd ((first.active wd).mpr (.inl old)), first.oldWatches wd old]
  case newWatches =>
    intro other mem
    rcases List.mem_cons.mp mem with rfl | mem
    · exact first.newWatches other listed
    · exact fun old => rest.newWatches other mem ((first.active _).mpr (.inl old))
  case recentlyUnregisteredWatchRoots =>
    exact rest.recentlyUnregisteredWatchRoots.trans first.recentlyUnregisteredWatchRoots
  case queue => exact rest.queue.trans first.queue
  case buffer => exact rest.buffer.trans first.buffer
  case shouldTerminate => exact rest.shouldTerminate.trans first.shouldTerminate

end Enters

/-! ## One path -/

section RegisterPath

variable {server after : Server} {path : U16String} {answers : RegisterAnswers}
variable {watchPoint : WatchPoint} {wd fresh : WatchDescriptor}

/-- An unused descriptor is in none of the tables. -/
theorem TableInvariant.unknown_of_unused (invariant : TableInvariant server none)
    (unused : server.Unused wd) :
    wd ∉ server.watchRoots ∧ wd ∉ server.recentlyUnregisteredWatchRoots := by
  obtain ⟨inactive, nothing⟩ := unused
  constructor
  · intro watched
    simpa [nothing, inactive] using invariant.watched wd watched
  · intro recent
    simpa [nothing] using (invariant.recent wd recent).2

/-- While nothing is registered, the tables know every active descriptor. -/
theorem TableInvariant.root_of_active (invariant : TableInvariant server none)
    (active : wd ∈ server.inotify.active) : wd ∈ server.watchRoots := by
  obtain ⟨path, watchPoint, found, -, same⟩ | ⟨_, none, -⟩ := invariant.listening wd active
  · exact mem_iff_lookup.mpr ⟨path, (invariant.inverse wd path).mpr ⟨watchPoint, found, same⟩⟩
  · cases none

/-- The server with a new watch point and its watch. -/
def Server.withWatchPoint (server : Server) (watchPoint : WatchPoint) (object : FileObject) :
    Server :=
  { server with
    watchPoints := server.watchPoints.insert watchPoint.path watchPoint
    watchRoots := server.watchRoots.insert watchPoint.watchDescriptor watchPoint.path
    inotify :=
      { server.inotify with
        active := server.inotify.active.insert watchPoint.watchDescriptor object
        queued := server.inotify.queued.filter fun event =>
          ¬ event.Concerns watchPoint.watchDescriptor } }

/-- `registerPath` enters a watch point with the descriptor granted, or it throws and changes
nothing. -/
theorem Server.registerPath_cases (invariant : TableInvariant server none)
    (path : U16String) (unused : server.Unused answers.fresh) :
    (∃ ex, server.registerPath path answers = (.error ex, server)) ∨
      ∃ watchPoint object, server.registerPath path answers =
          (.ok (), server.withWatchPoint watchPoint object) ∧
        watchPoint.path = path ∧ watchPoint.status = .listening ∧
        path ∉ server.watchPoints ∧ server.Unused watchPoint.watchDescriptor := by
  unfold Server.registerPath
  split
  next ex thrown => exact .inl ⟨ex, rfl⟩
  next watchPoint inotify begun =>
    obtain ⟨object, -, added, rfl, listens, absent⟩ := Server.beginRegisterPath_spec begun
    rcases Inotify.addWatch_spec added with ⟨active, rfl⟩ | ⟨-, granted, rfl⟩
    · -- The directory is watched under another path, or its descriptor is not known.
      have watched := invariant.root_of_active active
      exact .inl ⟨_, by simp only [Server.enterWatchPoint, if_pos watched]; rfl⟩
    · obtain ⟨unknown, -⟩ := invariant.unknown_of_unused unused
      rw [← granted] at unused unknown
      refine .inr ⟨watchPoint, object, ?_, rfl, listens, absent, unused⟩
      simp only [Server.enterWatchPoint, ← granted, if_neg unknown, emplace_of_not_mem absent]
      rfl

theorem Server.enters_withWatchPoint (invariant : TableInvariant server none) {object : FileObject}
    (listens : watchPoint.status = .listening) (absent : watchPoint.path ∉ server.watchPoints)
    (unused : server.Unused watchPoint.watchDescriptor) :
    Enters server [watchPoint] (server.withWatchPoint watchPoint object) := by
  obtain ⟨unknown, -⟩ := invariant.unknown_of_unused unused
  constructor
  case watchPoints =>
    intro path
    simp only [Server.withWatchPoint, lookup_insert_eq, List.find?_cons, List.find?_nil]
    by_cases same : watchPoint.path = path
    · simp [same]
    · simp [same, Ne.symm same]
  case watchRoots =>
    intro wd
    simp only [Server.withWatchPoint, lookup_insert_eq, List.find?_cons, List.find?_nil]
    by_cases same : watchPoint.watchDescriptor = wd
    · simp [same]
    · simp [same, Ne.symm same]
  case active =>
    intro wd
    simp [Server.withWatchPoint, or_comm]
  case oldWatches =>
    intro wd old
    refine AList.lookup_insert_ne ?_
    rintro rfl
    exact unused.1 old
  case newWatches => simpa using unused.1
  all_goals simp [Server.withWatchPoint, listens, absent, unknown]

/-- The invariant holds with the new watch point, too. -/
theorem TableInvariant.withWatchPoint (invariant : TableInvariant server none)
    {object : FileObject} (listens : watchPoint.status = .listening)
    (absent : watchPoint.path ∉ server.watchPoints)
    (unused : server.Unused watchPoint.watchDescriptor) :
    TableInvariant (server.withWatchPoint watchPoint object) none := by
  obtain ⟨unknown, forgotten⟩ := invariant.unknown_of_unused unused
  have nothing : (server.withWatchPoint watchPoint object).concerning = server.concerning := rfl
  have inverse : (server.withWatchPoint watchPoint object).Inverse := by
    have before := invariant.inverse
    simp only [Server.Inverse, Server.withWatchPoint, lookup_insert_eq]
    grind [mem_iff_lookup]
  constructor
  case inverse => exact inverse
  case at_succeeds => exact inverse.at_succeeds
  case disjoint =>
    intro wd watched
    rcases (AList.mem_insert _).mp watched with rfl | watched
    · exact forgotten
    · exact invariant.disjoint wd watched
  case watched =>
    -- The new watch is active and has no event yet.
    intro wd watched
    rw [nothing]
    rcases (AList.mem_insert _).mp watched with rfl | watched
    · simp [unused.2, Server.withWatchPoint]
    · have other : wd ≠ watchPoint.watchDescriptor := by
        rintro rfl
        exact unknown watched
      simp [invariant.watched wd watched, Server.withWatchPoint, other]
  case recent =>
    intro wd recent
    obtain ⟨inactive, once⟩ := invariant.recent wd recent
    refine ⟨fun active => ?_, once⟩
    rcases (AList.mem_insert _).mp active with rfl | active
    · exact forgotten recent
    · exact inactive active
  case cancelled =>
    intro path other found stopped active
    simp only [Server.withWatchPoint, lookup_insert_eq] at found
    split_ifs at found with same
    · obtain rfl := Option.some_inj.mp found
      rw [listens] at stopped
      cases stopped
    · -- A cancelled watch point does not have the descriptor that was granted.
      rcases (AList.mem_insert _).mp active with here | active
      · refine unknown (mem_iff_lookup.mpr ⟨path, ?_⟩)
        exact (invariant.inverse _ path).mpr ⟨other, found, here⟩
      · exact invariant.cancelled path other found stopped active
  case listening =>
    intro wd active
    left
    rcases (AList.mem_insert _).mp active with rfl | active
    · exact ⟨watchPoint.path, watchPoint, AList.lookup_insert _, listens, rfl⟩
    · obtain ⟨path, other, found, rest⟩ | ⟨_, none, -⟩ := invariant.listening wd active
      · have different : path ≠ watchPoint.path := by
          rintro rfl
          exact absent (mem_iff_lookup.mpr ⟨other, found⟩)
        exact ⟨path, other, (AList.lookup_insert_ne different).trans found, rest⟩
      · cases none

end RegisterPath

/-! ## The list -/

/-- On tables that satisfy the invariant, `registerPaths` enters one watch point for each path
before the first that fails, and nothing else. It returns if none fails, and otherwise it
throws what the first failing path does. -/
theorem Server.registerPaths_enters (server : Server) (paths : List (U16String × RegisterAnswers))
    (invariant : TableInvariant server none) (granted : server.GrantsUnused paths) :
    ∃ entered : List WatchPoint,
      Enters server entered (server.registerPaths paths).2 ∧
      entered.map WatchPoint.path = (paths.map Prod.fst).take entered.length ∧
      TableInvariant (server.registerPaths paths).2 none ∧
      ((server.registerPaths paths).1 = .ok () ∧ entered.length = paths.length ∨
        ∃ ex path answers, (server.registerPaths paths).1 = .error ex ∧
          paths[entered.length]? = some (path, answers) ∧
          (server.registerPaths paths).2.registerPath path answers =
            (.error ex, (server.registerPaths paths).2)) := by
  induction paths generalizing server with
  | nil => exact ⟨[], .nil server, rfl, invariant, .inl ⟨rfl, rfl⟩⟩
  | cons request paths ih =>
    obtain ⟨path, answers⟩ := request
    obtain ⟨unused, later⟩ := granted
    rcases Server.registerPath_cases invariant path unused with
      ⟨ex, thrown⟩ | ⟨watchPoint, object, registered, rfl, listens, absent, unused⟩
    · -- The loop ends here.
      have result : server.registerPaths ((path, answers) :: paths) = (.error ex, server) := by
        simp only [Server.registerPaths, thrown]
      rw [result]
      exact ⟨[], .nil server, rfl, invariant, .inr ⟨ex, path, answers, rfl, rfl, thrown⟩⟩
    · -- The loop goes on with the server that has the new watch point.
      have result : server.registerPaths ((watchPoint.path, answers) :: paths) =
          (server.withWatchPoint watchPoint object).registerPaths paths := by
        simp only [Server.registerPaths, registered]
      have middle : TableInvariant (server.withWatchPoint watchPoint object) none :=
        invariant.withWatchPoint listens absent unused
      rw [registered] at later
      obtain ⟨entered, enters, named, kept, outcome⟩ := ih _ middle (later rfl)
      rw [result]
      refine ⟨watchPoint :: entered, ?_, ?_, kept, ?_⟩
      · exact (Server.enters_withWatchPoint invariant listens absent unused).cons enters
      · simp [named]
      · simpa using outcome

/-- The second path leads to the directory that is watched already, and the third is not
tried. -/
def requests : List (U16String × RegisterAnswers) :=
  [(u16 "/b", { lstat := .ok 8, addWatch := .ok ⟨1, 8⟩, fresh := 2 }),
    (u16 "/link", { lstat := .ok 9, addWatch := .ok ⟨1, 7⟩, fresh := 3 }),
    (u16 "/c", { lstat := .ok 10, addWatch := .ok ⟨1, 10⟩, fresh := 3 })]

theorem Server.registerPaths_enters_linked :
    ∃ server, server.watchPoints.keys = [u16 "/a"] ∧
      (server.registerPaths requests).2.watchPoints.keys = [u16 "/b", u16 "/a"] ∧
      ∃ entered : List WatchPoint,
        Enters server entered (server.registerPaths requests).2 ∧
          TableInvariant (server.registerPaths requests).2 none := by
  let first : List Label :=
    [.registerPath (u16 "/a") { lstat := .ok 7, addWatch := .ok ⟨1, 7⟩, fresh := 1 },
      .enterWatchPoint]
  have computed : (machine.execWhere Lossless machine.start first).map (fun s =>
      (s.registering, s.server.watchPoints.keys,
        (s.server.registerPaths requests).2.watchPoints.keys,
        decide (s.server.GrantsUnused requests))) =
    some (none, [u16 "/a"], [u16 "/b", u16 "/a"], true) := by decide
  obtain ⟨s, reach, observed⟩ := Machine.observe_of_execWhere computed
  simp only [Prod.mk.injEq, decide_eq_true_eq] at observed
  obtain ⟨idle, before, after, granted⟩ := observed
  obtain ⟨entered, enters, -, kept, -⟩ := Server.registerPaths_enters s.server requests
    (idle ▸ tables_invariant s reach) granted
  exact ⟨s.server, before, after, entered, enters, kept⟩

end Linux

end FileEvents
