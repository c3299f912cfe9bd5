import FileEvents.Linux.Invariant

/-!
# What `stopWatchingMovedPaths` does

A path is dropped if it has no listening watch point or if `lstat` does not show the inode
that was registered. The loop cancels watch points as it goes, and the paths behind see
that: a path that is listed twice is dropped twice, but its watch point is cancelled once.

## Main definitions

* `Server.Named` — the watch points carry the paths they are found under
* `Server.Moved` — the path is dropped
* `Stops` — what the loop does to the tables and to the kernel
* `Muted` — nothing is reported for the descriptor

## Main results

* `named` — every reachable server is named
* `Server.stopsMoved` — the dropped paths, the state afterwards and a second call
-/

namespace FileEvents

namespace Linux

open Transition

/-- Every watch point carries the path it is found under, which converts to UTF-8. -/
def Server.Named (server : Server) : Prop :=
  ∀ path watchPoint, server.watchPoints.lookup path = some watchPoint →
    watchPoint.path = path ∧ (utf16ToUtf8String path).isSome = true

/-- The path has no listening watch point, or `lstat` does not show its inode. -/
def Server.Moved (server : Server) (lstat : U16String → Except Errno ℕ) (path : U16String) :
    Prop :=
  ∀ watchPoint ∈ server.watchPoints.lookup path, watchPoint.status = .listening →
    lstat path ≠ .ok watchPoint.inode

instance (server : Server) (lstat : U16String → Except Errno ℕ) :
    DecidablePred (server.Moved lstat) := fun path =>
  inferInstanceAs (Decidable (∀ watchPoint ∈ server.watchPoints.lookup path,
    watchPoint.status = .listening → lstat path ≠ .ok watchPoint.inode))

/-- The watch under this descriptor is that of a listening watch point to be dropped. -/
def Server.Drops (server : Server) (lstat : U16String → Except Errno ℕ) (path : U16String)
    (wd : WatchDescriptor) : Prop :=
  ∃ watchPoint, server.watchPoints.lookup path = some watchPoint ∧
    watchPoint.status = .listening ∧ lstat path ≠ .ok watchPoint.inode ∧
    watchPoint.watchDescriptor = wd

/-- The watch point is cancelled. -/
def WatchPoint.stopped (watchPoint : WatchPoint) : WatchPoint :=
  { watchPoint with status := .cancelled }

/-- What the loop does to the tables and to the kernel's watches. -/
structure Stops (lstat : U16String → Except Errno ℕ) (paths : List U16String)
    (before after : Server) : Prop where
  cancelled : ∀ path ∈ paths, before.Moved lstat path →
    after.watchPoints.lookup path = (before.watchPoints.lookup path).map WatchPoint.stopped
  kept : ∀ path, (path ∈ paths → ¬ before.Moved lstat path) →
    after.watchPoints.lookup path = before.watchPoints.lookup path
  removed : ∀ path ∈ paths, ∀ wd, before.Drops lstat path wd → wd ∉ after.inotify.active
  watches : ∀ wd, (∀ path ∈ paths, ¬ before.Drops lstat path wd) →
    after.inotify.active.lookup wd = before.inotify.active.lookup wd
  watchRoots : after.watchRoots = before.watchRoots
  recentlyUnregisteredWatchRoots :
    after.recentlyUnregisteredWatchRoots = before.recentlyUnregisteredWatchRoots
  buffer : after.buffer = before.buffer
  shouldTerminate : after.shouldTerminate = before.shouldTerminate

section Stops

variable {server before middle after : Server} {lstat : U16String → Except Errno ℕ}
variable {path : U16String} {paths paths' : List U16String} {watchPoint : WatchPoint}
variable {wd : WatchDescriptor}

@[simp] theorem WatchPoint.status_stopped : watchPoint.stopped.status = .cancelled := rfl

@[simp] theorem WatchPoint.stopped_stopped : watchPoint.stopped.stopped = watchPoint.stopped := rfl

theorem WatchPoint.stopped_of_not_listening (stopped : watchPoint.status ≠ .listening) :
    watchPoint.stopped = watchPoint := by
  cases status : watchPoint.status with
  | listening => exact absurd status stopped
  | cancelled => rw [WatchPoint.stopped, ← status]

/-- A path whose listening watch point is dropped is dropped. -/
theorem Server.Drops.moved (drops : server.Drops lstat path wd) : server.Moved lstat path := by
  obtain ⟨watchPoint, found, -, gone, -⟩ := drops
  intro other found' _
  exact Option.some_inj.mp (found.symm.trans found') ▸ gone

theorem Stops.nil (server : Server) : Stops lstat [] server server := by
  constructor <;> simp

/-- Whether a path is dropped does not change. -/
theorem Stops.moved_iff (stops : Stops lstat paths before after) :
    after.Moved lstat path ↔ before.Moved lstat path := by
  by_cases hit : path ∈ paths ∧ before.Moved lstat path
  · refine iff_of_true ?_ hit.2
    intro watchPoint found listens
    rw [stops.cancelled path hit.1 hit.2] at found
    obtain ⟨other, -, rfl⟩ := Option.map_eq_some_iff.mp found
    cases listens
  · unfold Server.Moved
    rw [stops.kept path (not_and.mp hit)]

/-- A watch point that is still to be dropped was to be dropped before. -/
theorem Stops.drops_of_drops (stops : Stops lstat paths before after)
    (drops : after.Drops lstat path wd) : path ∉ paths ∧ before.Drops lstat path wd := by
  obtain ⟨watchPoint, found, listens, gone, same⟩ := drops
  by_cases hit : path ∈ paths ∧ before.Moved lstat path
  · rw [stops.cancelled path hit.1 hit.2] at found
    obtain ⟨other, -, rfl⟩ := Option.map_eq_some_iff.mp found
    cases listens
  · rw [stops.kept path (not_and.mp hit)] at found
    have drops : before.Drops lstat path wd := ⟨watchPoint, found, listens, gone, same⟩
    exact ⟨fun mem => hit ⟨mem, drops.moved⟩, drops⟩

/-- The other paths have their watch points still to be dropped. -/
theorem Stops.drops_of_not_mem (stops : Stops lstat paths before after) (absent : path ∉ paths)
    (drops : before.Drops lstat path wd) : after.Drops lstat path wd := by
  unfold Server.Drops
  rwa [stops.kept path fun mem => absurd mem absent]

/-- A watch that is gone stays gone. -/
theorem Stops.not_mem_active (stops : Stops lstat paths before after)
    (gone : wd ∉ before.inotify.active) : wd ∉ after.inotify.active := by
  by_cases dropped : ∃ path ∈ paths, before.Drops lstat path wd
  · obtain ⟨path, mem, drops⟩ := dropped
    exact stops.removed path mem wd drops
  · have same := stops.watches wd fun path mem drops => dropped ⟨path, mem, drops⟩
    rw [AList.lookup_eq_none.mpr gone] at same
    exact AList.lookup_eq_none.mp same

/-- The loop over one list and then over another. -/
theorem Stops.append (first : Stops lstat paths before middle)
    (second : Stops lstat paths' middle after) : Stops lstat (paths ++ paths') before after := by
  constructor
  case cancelled =>
    intro path mem moved
    -- What the first list has not dropped is there as before.
    have there : middle.watchPoints.lookup path = before.watchPoints.lookup path ∨
        middle.watchPoints.lookup path =
          (before.watchPoints.lookup path).map WatchPoint.stopped := by
      by_cases here : path ∈ paths
      · exact .inr (first.cancelled path here moved)
      · exact .inl (first.kept path fun mem => absurd mem here)
    by_cases later : path ∈ paths'
    · rw [second.cancelled path later (first.moved_iff.mpr moved)]
      -- A watch point that is stopped twice is stopped.
      rcases there with same | same <;> rw [same]
      cases before.watchPoints.lookup path <;> rfl
    · rw [second.kept path fun mem => absurd mem later]
      exact first.cancelled path ((List.mem_append.mp mem).resolve_right later) moved
  case kept =>
    intro path stays
    have stays' : path ∈ paths' → ¬ middle.Moved lstat path := fun mem moved =>
      stays (List.mem_append_right _ mem) (first.moved_iff.mp moved)
    rw [second.kept path stays', first.kept path fun mem => stays (List.mem_append_left _ mem)]
  case removed =>
    intro path mem wd drops
    by_cases here : path ∈ paths
    · exact second.not_mem_active (first.removed path here wd drops)
    · exact second.removed path ((List.mem_append.mp mem).resolve_left here) wd
        (first.drops_of_not_mem here drops)
  case watches =>
    intro wd stays
    -- A descriptor that neither list drops goes through both.
    rw [second.watches wd, first.watches wd]
    · exact fun path mem => stays path (List.mem_append_left _ mem)
    · exact fun path mem drops =>
        stays path (List.mem_append_right _ mem) (first.drops_of_drops drops).2
  case watchRoots => exact second.watchRoots.trans first.watchRoots
  case recentlyUnregisteredWatchRoots =>
    exact second.recentlyUnregisteredWatchRoots.trans first.recentlyUnregisteredWatchRoots
  case buffer => exact second.buffer.trans first.buffer
  case shouldTerminate => exact second.shouldTerminate.trans first.shouldTerminate

/-- The watch points afterwards were there before, under the same paths. -/
theorem Stops.named (stops : Stops lstat paths before after) (named : before.Named) :
    after.Named := by
  intro path watchPoint found
  by_cases hit : path ∈ paths ∧ before.Moved lstat path
  · rw [stops.cancelled path hit.1 hit.2] at found
    obtain ⟨other, found', rfl⟩ := Option.map_eq_some_iff.mp found
    exact named path other found'
  · rw [stops.kept path (not_and.mp hit)] at found
    exact named path watchPoint found

end Stops

/-! ## The loop -/

section Loop

variable {server after : Server} {lstat : U16String → Except Errno ℕ} {path : U16String}
variable {paths : List U16String} {watchPoint : WatchPoint}

/-- A round on a path without a listening watch point, or with one that is not moved. -/
theorem Server.stopWatchingMovedPath_of_settled (named : server.Named)
    (settled : ∀ watchPoint, server.watchPoints.lookup path = some watchPoint →
      watchPoint.status = .listening → lstat path = .ok watchPoint.inode) :
    server.stopWatchingMovedPath path (lstat path) =
      (.ok (decide (server.Moved lstat path)), server) := by
  unfold Server.stopWatchingMovedPath
  split
  next absent =>
    have moved : server.Moved lstat path := by simp [Server.Moved, absent]
    simp [moved]
  next watchPoint found =>
    obtain ⟨same, converts⟩ := named path watchPoint found
    obtain ⟨pathNarrow, converted⟩ := Option.isSome_iff_exists.mp converts
    by_cases listens : watchPoint.status = .listening
    · have inode := settled watchPoint found listens
      have unmoved : ¬ server.Moved lstat path := fun moved =>
        moved watchPoint found listens inode
      simp [listens, same, converted, inode, unmoved]
    · have moved : server.Moved lstat path := by
        intro other found'
        obtain rfl := Option.some_inj.mp (found.symm.trans found')
        exact fun listens' => absurd listens' listens
      simp [listens, moved]

/-- A round on a path whose listening watch point is dropped. -/
theorem Server.stopWatchingMovedPath_of_moved (named : server.Named)
    (found : server.watchPoints.lookup path = some watchPoint)
    (listens : watchPoint.status = .listening) (gone : lstat path ≠ .ok watchPoint.inode) :
    ∃ after, server.stopWatchingMovedPath path (lstat path) = (.ok true, after) ∧
      Stops lstat [path] server after := by
  have drops : server.Drops lstat path watchPoint.watchDescriptor :=
    ⟨watchPoint, found, listens, gone, rfl⟩
  -- Whatever `inotify_rm_watch` answers, the watch is gone afterwards, and no other one is.
  obtain ⟨result, inotify, cancelled, active⟩ : ∃ result inotify,
      watchPoint.cancel server.inotify = (.ok result, watchPoint.stopped, inotify) ∧
        inotify.active = server.inotify.active.erase watchPoint.watchDescriptor := by
    rcases watchPoint.cancel_cases server.inotify with
      ⟨status, -⟩ | ⟨-, -, cancelled⟩ | ⟨-, absent, cancelled⟩
    · rw [listens] at status
      cases status
    · exact ⟨_, _, cancelled, rfl⟩
    · refine ⟨_, _, cancelled, ?_⟩
      exact (AList.ext (List.kerase_of_notMem_keys absent)).symm
  obtain ⟨same, converts⟩ := named path watchPoint found
  obtain ⟨pathNarrow, converted⟩ := Option.isSome_iff_exists.mp converts
  let stopped : Server :=
    { server with watchPoints := server.watchPoints.insert path watchPoint.stopped, inotify }
  refine ⟨stopped, ?_, ?_⟩
  · unfold Server.stopWatchingMovedPath
    simp only [found, listens, same, converted, gone, Server.cancelWatchPoint, cancelled, ne_eq,
      not_true_eq_false, if_false]
    rfl
  · constructor
    case cancelled =>
      intro other mem moved
      obtain rfl := List.mem_singleton.mp mem
      rw [found]
      exact AList.lookup_insert _
    case kept =>
      intro other stays
      refine AList.lookup_insert_ne ?_
      rintro rfl
      exact stays (List.mem_singleton_self other) drops.moved
    case removed =>
      intro other mem wd dropped
      obtain rfl := List.mem_singleton.mp mem
      obtain ⟨watchPoint', found', -, -, rfl⟩ := dropped
      obtain rfl := Option.some_inj.mp (found.symm.trans found')
      change _ ∉ inotify.active
      simp [active]
    case watches =>
      intro wd stays
      change inotify.active.lookup wd = _
      rw [active]
      refine AList.lookup_erase_ne ?_
      rintro rfl
      exact stays path (List.mem_singleton_self path) drops
    all_goals rfl

variable (lstat) in
/-- One round. -/
theorem Server.stopWatchingMovedPath_spec (named : server.Named) (path : U16String) :
    ∃ after, server.stopWatchingMovedPath path (lstat path) =
        (.ok (decide (server.Moved lstat path)), after) ∧
      Stops lstat [path] server after := by
  by_cases dropped : ∃ wd, server.Drops lstat path wd
  · obtain ⟨wd, drops⟩ := dropped
    obtain ⟨watchPoint, found, listens, gone, -⟩ := id drops
    obtain ⟨after, result, stops⟩ := server.stopWatchingMovedPath_of_moved named found listens gone
    exact ⟨after, by simpa [drops.moved] using result, stops⟩
  · have settled : ∀ watchPoint, server.watchPoints.lookup path = some watchPoint →
        watchPoint.status = .listening → lstat path = .ok watchPoint.inode := by
      intro watchPoint found listens
      by_contra gone
      exact dropped ⟨_, watchPoint, found, listens, gone, rfl⟩
    refine ⟨server, server.stopWatchingMovedPath_of_settled named settled, ?_⟩
    have nothing : ∀ other ∈ [path], ∀ wd, ¬ server.Drops lstat other wd := by
      intro other mem wd drops
      exact dropped ⟨wd, List.mem_singleton.mp mem ▸ drops⟩
    constructor
    case cancelled =>
      intro other mem moved
      obtain rfl := List.mem_singleton.mp mem
      cases found : server.watchPoints.lookup other with
      | none => rfl
      | some watchPoint =>
        have stopped : watchPoint.status ≠ .listening := fun listens =>
          moved watchPoint found listens (settled watchPoint found listens)
        rw [Option.map_some, WatchPoint.stopped_of_not_listening stopped]
    case removed => exact fun other mem wd drops => absurd drops (nothing other mem wd)
    all_goals simp

variable (lstat) in
/-- The loop drops the moved paths, in order. -/
theorem Server.stopWatchingMovedPaths_loop (named : server.Named) (paths : List U16String) :
    ∃ after, server.stopWatchingMovedPaths (paths.map fun path => (path, lstat path)) =
        (.ok (paths.filter fun path => server.Moved lstat path), after) ∧
      Stops lstat paths server after := by
  induction paths generalizing server with
  | nil => exact ⟨server, rfl, .nil server⟩
  | cons path paths ih =>
    obtain ⟨middle, checked, first⟩ := Server.stopWatchingMovedPath_spec lstat named path
    obtain ⟨after, rest, second⟩ := ih (first.named named)
    refine ⟨after, ?_, first.append second⟩
    have same : (paths.filter fun path => middle.Moved lstat path) =
        paths.filter fun path => server.Moved lstat path :=
      List.filter_congr fun path _ => by rw [decide_eq_decide, first.moved_iff]
    rw [same] at rest
    simp only [List.map_cons, Server.stopWatchingMovedPaths, checked, rest, List.filter_cons]

/-- Over paths that are settled the loop changes nothing. -/
theorem Server.stopWatchingMovedPaths_of_settled (named : server.Named)
    (settled : ∀ path ∈ paths, ∀ watchPoint, server.watchPoints.lookup path = some watchPoint →
      watchPoint.status = .listening → lstat path = .ok watchPoint.inode) :
    server.stopWatchingMovedPaths (paths.map fun path => (path, lstat path)) =
      (.ok (paths.filter fun path => server.Moved lstat path), server) := by
  induction paths with
  | nil => rfl
  | cons path paths ih =>
    have first := server.stopWatchingMovedPath_of_settled named (settled path List.mem_cons_self)
    have rest := ih fun path mem => settled path (List.mem_cons_of_mem _ mem)
    simp only [List.map_cons, Server.stopWatchingMovedPaths, first, rest, List.filter_cons]

/-- The loop leaves its paths settled. -/
theorem Stops.settled (stops : Stops lstat paths server after) :
    ∀ path ∈ paths, ∀ watchPoint, after.watchPoints.lookup path = some watchPoint →
      watchPoint.status = .listening → lstat path = .ok watchPoint.inode := by
  intro path mem watchPoint found listens
  by_contra gone
  exact (stops.drops_of_drops ⟨watchPoint, found, listens, gone, rfl⟩).1 mem

end Loop

/-! ## Descriptors that nothing is reported for -/

/-- The watch point that is found under the descriptor does not listen. -/
def Server.Muted (server : Server) (wd : WatchDescriptor) : Prop :=
  ∀ path, server.watchRoots.lookup wd = some path →
    ∀ watchPoint, server.watchPoints.lookup path = some watchPoint →
      watchPoint.status = .cancelled

/-- Some events are handled, one after the other. -/
def Handles : Server → Server → Prop :=
  Relation.ReflTransGen fun before after =>
    ∃ event order reports, before.handleEvent event order = .ok (after, reports)

section Muted

variable {server after : Server} {wd : WatchDescriptor} {event : InotifyEvent}
variable {order : List U16String} {reports : List Report}

/-- The tables only shrink at the end of a watch. -/
theorem Server.Muted.finish (muted : server.Muted wd) (other : WatchDescriptor) :
    (server.finish other).Muted wd := by
  intro path root watchPoint found
  cases watched : server.watchRoots.lookup other with
  | none =>
    simp only [Server.finish, watched] at root found
    exact muted path root watchPoint found
  | some otherPath =>
    simp only [Server.finish, watched, lookup_erase_eq] at root found
    split_ifs at root found
    exact muted path root watchPoint found

theorem Server.Muted.next (muted : server.Muted wd)
    (handled : server.handleEvent event order = .ok (after, reports)) : after.Muted wd := by
  by_cases ends : event.Concerns event.wd ∧ event.IsIgnored
  · obtain ⟨rfl, -⟩ := Server.handleEvent_ignored ends.1 ends.2 handled
    exact muted.finish event.wd
  · exact Server.handleEvent_other ends handled ▸ muted

theorem Server.Muted.handles (muted : server.Muted wd) (handles : Handles server after) :
    after.Muted wd := by
  induction handles with
  | refl => exact muted
  | tail _ last ih =>
    obtain ⟨event, order, reports, handled⟩ := last
    exact ih.next handled

/-- Nothing is reported for the events of the descriptor. -/
theorem Server.Muted.reports_eq_nil (muted : server.Muted wd) (concerns : event.Concerns wd)
    (handled : server.handleEvent event order = .ok (after, reports)) : reports = [] := by
  have none : ∀ {server' : Server}, Except.ok (server', []) =
      (Except.ok (after, reports) : Except CppException (Server × List Report)) →
      reports = [] := fun h => (Prod.mk.inj (Except.ok.inj h)).2.symm
  obtain ⟨rfl, delivered⟩ := concerns
  unfold Server.handleEvent at handled
  simp only [delivered, Bool.false_eq_true, if_false] at handled
  split at handled
  next => exact none handled
  next =>
    split at handled
    next =>
      split at handled
      next => exact none handled
      next => split at handled <;> exact none handled
    next path root =>
      split at handled
      next => cases handled
      next watchPoint found =>
        have stopped : watchPoint.status ≠ .listening := by
          simp [muted path root watchPoint found]
        rw [if_pos stopped] at handled
        split at handled <;> exact none handled

end Muted

/-! ## The whole call -/

/-- What a call of `stopWatchingMovedPaths` does in a file system that does not change
meanwhile. -/
structure StopsMoved (lstat : U16String → Except Errno ℕ) (absolutePathsToCheck : List U16String)
    (before : Server) (droppedPaths : List U16String) (after : Server) : Prop where
  /-- The dropped paths are those without a listening watch point and those for which `lstat`
  fails or shows another inode, in order. -/
  dropped : droppedPaths = absolutePathsToCheck.filter fun path => before.Moved lstat path
  /-- A dropped watch point that listened is cancelled, and its watch is removed. -/
  cancelled : ∀ path ∈ droppedPaths, ∀ watchPoint,
    before.watchPoints.lookup path = some watchPoint → watchPoint.status = .listening →
      after.watchPoints.lookup path = some { watchPoint with status := .cancelled } ∧
        watchPoint.watchDescriptor ∉ after.inotify.active
  /-- Nothing is reported for its events from then on. -/
  silent : ∀ path ∈ droppedPaths, ∀ watchPoint,
    before.watchPoints.lookup path = some watchPoint → watchPoint.status = .listening →
      ∀ later, Handles after later → ∀ event, event.Concerns watchPoint.watchDescriptor →
        ∀ order last reports, later.handleEvent event order = .ok (last, reports) → reports = []
  /-- The other watch points and their watches stay as they are. -/
  others : ∀ path, (path ∈ droppedPaths → ∀ watchPoint,
      before.watchPoints.lookup path = some watchPoint → watchPoint.status ≠ .listening) →
    after.watchPoints.lookup path = before.watchPoints.lookup path ∧
      ∀ watchPoint, before.watchPoints.lookup path = some watchPoint →
        after.inotify.active.lookup watchPoint.watchDescriptor =
          before.inotify.active.lookup watchPoint.watchDescriptor
  /-- So do watches that belong to no watch point. -/
  watches : ∀ wd ∉ before.watchRoots,
    after.inotify.active.lookup wd = before.inotify.active.lookup wd
  watchRoots : after.watchRoots = before.watchRoots
  recentlyUnregisteredWatchRoots :
    after.recentlyUnregisteredWatchRoots = before.recentlyUnregisteredWatchRoots
  /-- A second call finds the same and changes nothing. -/
  again : after.stopWatchingMovedPaths (absolutePathsToCheck.map fun path => (path, lstat path)) =
    (.ok droppedPaths, after)

section Call

variable {server after : Server} {lstat : U16String → Except Errno ℕ} {path : U16String}
variable {paths : List U16String} {watchPoint : WatchPoint} {wd : WatchDescriptor}

/-- A watch that a watch point to be dropped has belongs to that watch point. -/
theorem TableInvariant.root_of_drops (invariant : TableInvariant server none)
    (drops : server.Drops lstat path wd) : server.watchRoots.lookup wd = some path := by
  obtain ⟨watchPoint, found, -, -, same⟩ := drops
  exact (invariant.inverse wd path).mpr ⟨watchPoint, found, same⟩

/-- Of a consistent server, the loop mutes the watches it removes. -/
theorem Stops.muted (stops : Stops lstat paths server after)
    (invariant : TableInvariant server none) (mem : path ∈ paths)
    (drops : server.Drops lstat path wd) : after.Muted wd := by
  intro other root watchPoint found
  rw [stops.watchRoots, invariant.root_of_drops drops] at root
  obtain rfl := Option.some_inj.mp root
  rw [stops.cancelled path mem drops.moved] at found
  obtain ⟨before, -, rfl⟩ := Option.map_eq_some_iff.mp found
  rfl

/-- On tables that satisfy the invariant, `stopWatchingMovedPaths` drops the moved paths,
cancels those of them that listened and changes nothing else, and a second call does nothing
more. -/
theorem Server.stopsMoved (server : Server) (lstat : U16String → Except Errno ℕ)
    (absolutePathsToCheck : List U16String) (invariant : TableInvariant server none)
    (named : server.Named) :
    ∃ droppedPaths after,
      server.stopWatchingMovedPaths (absolutePathsToCheck.map fun path => (path, lstat path)) =
        (.ok droppedPaths, after) ∧
      StopsMoved lstat absolutePathsToCheck server droppedPaths after := by
  -- What the loop does, over the whole list.
  obtain ⟨after, result, stops⟩ :=
    Server.stopWatchingMovedPaths_loop lstat named absolutePathsToCheck
  refine ⟨_, after, result, ?_⟩
  have listed {path : U16String} :
      path ∈ absolutePathsToCheck.filter (fun path => server.Moved lstat path) ↔
        path ∈ absolutePathsToCheck ∧ server.Moved lstat path := by simp
  have drops {path : U16String} {watchPoint : WatchPoint} (moved : server.Moved lstat path)
      (found : server.watchPoints.lookup path = some watchPoint)
      (listens : watchPoint.status = .listening) :
      server.Drops lstat path watchPoint.watchDescriptor :=
    ⟨watchPoint, found, listens, moved watchPoint found listens, rfl⟩
  constructor
  case dropped => rfl
  case cancelled =>
    intro path mem watchPoint found listens
    obtain ⟨mem, moved⟩ := listed.mp mem
    refine ⟨?_, stops.removed path mem _ (drops moved found listens)⟩
    rw [stops.cancelled path mem moved, found]
    rfl
  case silent =>
    intro path mem watchPoint found listens later handles event concerns order last reports handled
    obtain ⟨mem, moved⟩ := listed.mp mem
    have muted := stops.muted invariant mem (drops moved found listens)
    exact (muted.handles handles).reports_eq_nil concerns handled
  case others =>
    intro path stays
    have same : after.watchPoints.lookup path = server.watchPoints.lookup path := by
      by_cases hit : path ∈ absolutePathsToCheck ∧ server.Moved lstat path
      · -- It is dropped, but it did not listen.
        rw [stops.cancelled path hit.1 hit.2]
        cases found : server.watchPoints.lookup path with
        | none => rfl
        | some watchPoint =>
          have stopped := stays (listed.mpr hit) watchPoint found
          rw [Option.map_some, WatchPoint.stopped_of_not_listening stopped]
      · exact stops.kept path (not_and.mp hit)
    refine ⟨same, fun watchPoint found => stops.watches _ ?_⟩
    intro other mem dropped
    -- A descriptor that is dropped leads to the path it is dropped for.
    have root := invariant.root_of_drops dropped
    rw [(invariant.inverse _ path).mpr ⟨watchPoint, found, rfl⟩] at root
    obtain rfl := Option.some_inj.mp root
    obtain ⟨watchPoint', found', listens, -⟩ := id dropped
    exact stays (listed.mpr ⟨mem, dropped.moved⟩) watchPoint' found' listens
  case watches =>
    intro wd unrooted
    refine stops.watches wd fun path mem dropped => unrooted ?_
    exact mem_iff_lookup.mpr ⟨path, invariant.root_of_drops dropped⟩
  case watchRoots => exact stops.watchRoots
  case recentlyUnregisteredWatchRoots => exact stops.recentlyUnregisteredWatchRoots
  case again =>
    -- The second call finds the same paths moved, none of them listening.
    have same : (absolutePathsToCheck.filter fun path => after.Moved lstat path) =
        absolutePathsToCheck.filter fun path => server.Moved lstat path :=
      List.filter_congr fun path _ => by rw [decide_eq_decide, stops.moved_iff]
    rw [← same]
    exact Server.stopWatchingMovedPaths_of_settled (stops.named named) stops.settled

end Call

/-! ## Reachable servers -/

section Named

variable {server : Server} {path : U16String} {watchPoint : WatchPoint} {P : WatchPoint → Prop}

/-- The path of the watch point converts to UTF-8. -/
def WatchPoint.Converts (watchPoint : WatchPoint) : Prop :=
  (utf16ToUtf8String watchPoint.path).isSome = true

/-- The paths of the watch points convert, and so does that of the one to be entered. -/
def Converts (s : System) : Prop :=
  Every s.server.watchPoints WatchPoint.Converts ∧
    ∀ watchPoint, s.registering = some watchPoint → watchPoint.Converts

theorem Server.converts_of_begin {answers : RegisterAnswers} {inotify : Inotify}
    (begun : server.beginRegisterPath path answers = .ok (watchPoint, inotify)) :
    watchPoint.Converts := by
  obtain ⟨-, -, -, rfl, -⟩ := Server.beginRegisterPath_spec begun
  unfold Server.beginRegisterPath at begun
  split_ifs at begun
  split at begun
  next => cases begun
  next pathNarrow converted => simp [WatchPoint.Converts, converted]

/-- What holds of all watch points, whether they listen or not, is kept by the functions that
only stop them. -/
theorem Server.every_cancelWatchPoint (stops : ∀ watchPoint, P watchPoint → P watchPoint.stopped)
    (all : Every server.watchPoints P) (found : server.watchPoints.lookup path = some watchPoint) :
    Every (server.cancelWatchPoint path watchPoint).2.watchPoints P := by
  have holds := all path watchPoint found
  unfold Server.cancelWatchPoint
  rcases watchPoint.cancel_cases server.inotify with
    ⟨-, cancelled⟩ | ⟨-, -, cancelled⟩ | ⟨-, -, cancelled⟩ <;> rw [cancelled]
  · exact all.insert holds
  · exact all.insert (stops watchPoint holds)
  · exact all.insert (stops watchPoint holds)

theorem Server.every_unregisterPath (stops : ∀ watchPoint, P watchPoint → P watchPoint.stopped)
    (all : Every server.watchPoints P) (path : U16String) :
    Every (server.unregisterPath path).2.watchPoints P := by
  unfold Server.unregisterPath
  split
  next => split <;> exact all
  next watchPoint found =>
    have cancelled := Server.every_cancelWatchPoint stops all found
    split
    next result =>
      rw [result] at cancelled
      exact cancelled
    next result =>
      rw [result] at cancelled
      exact cancelled
    next result =>
      rw [result] at cancelled
      exact cancelled.erase

theorem Server.every_stopWatchingMovedPath
    (stops : ∀ watchPoint, P watchPoint → P watchPoint.stopped)
    (all : Every server.watchPoints P) (path : U16String) (lstat : Except Errno ℕ) :
    Every (server.stopWatchingMovedPath path lstat).2.watchPoints P := by
  unfold Server.stopWatchingMovedPath
  split
  next => exact all
  next watchPoint found =>
    have cancelled := Server.every_cancelWatchPoint stops all found
    split_ifs
    · exact all
    · split <;> exact all
    · split
      next => exact all
      next =>
        split
        next result =>
          rw [result] at cancelled
          exact cancelled
        next result =>
          rw [result] at cancelled
          exact cancelled

theorem Server.every_stopWatchingMovedPaths
    (stops : ∀ watchPoint, P watchPoint → P watchPoint.stopped)
    (all : Every server.watchPoints P)
    (absolutePathsToCheck : List (U16String × Except Errno ℕ)) :
    Every (server.stopWatchingMovedPaths absolutePathsToCheck).2.watchPoints P := by
  induction absolutePathsToCheck generalizing server with
  | nil => exact all
  | cons check rest ih =>
    obtain ⟨path, lstat⟩ := check
    have first := Server.every_stopWatchingMovedPath stops all path lstat
    have others := ih first
    unfold Server.stopWatchingMovedPaths
    split
    next result =>
      rw [result] at first
      exact first
    next result =>
      rw [result] at others
      split
      next last =>
        rw [last] at others
        exact others
      next last =>
        rw [last] at others
        exact others

theorem Server.every_handleEvent {server' : Server} {event : InotifyEvent}
    {order : List U16String} {reports : List Report} (all : Every server.watchPoints P)
    (handled : server.handleEvent event order = .ok (server', reports)) :
    Every server'.watchPoints P := by
  by_cases ends : event.Concerns event.wd ∧ event.IsIgnored
  · obtain ⟨rfl, -⟩ := Server.handleEvent_ignored ends.1 ends.2 handled
    unfold Server.finish
    split
    · exact all
    · exact all.erase
  · obtain rfl := Server.handleEvent_other ends handled
    exact all

/-- What holds of all watch points and of the one to be entered, whether they listen or not, holds
of all watch points after the next step. -/
theorem System.every_next {s t : System} {label : Label}
    (stops : ∀ watchPoint, P watchPoint → P watchPoint.stopped)
    (all : Every s.server.watchPoints P) (entering : ∀ watchPoint ∈ s.registering, P watchPoint)
    (step : s.next label = some t) : Every t.server.watchPoints P := by
  cases label with
  | registerPath path answers =>
    obtain ⟨-, -, rfl | ⟨watchPoint, inotify, begun, rfl⟩⟩ := System.registerPath_spec step
    · exact all
    · exact all
  | enterWatchPoint =>
    obtain ⟨watchPoint, registering, ⟨-, rfl⟩ | ⟨server, entered, rfl⟩⟩ :=
      System.enterWatchPoint_spec step
    · exact all
    · obtain ⟨-, rfl⟩ := Server.enterWatchPoint_spec entered
      -- The one to be entered is among the others now.
      exact all.emplace (entering watchPoint registering)
  | unregisterPath path =>
    obtain ⟨-, stopped, -, rfl⟩ := System.unregisterPath_spec step
    exact Server.every_unregisterPath stops all path
  | stopWatchingMovedPaths absolutePathsToCheck =>
    obtain ⟨stopped, -, rfl⟩ := System.stopWatchingMovedPaths_spec step
    exact Server.every_stopWatchingMovedPaths stops all absolutePathsToCheck
  | kernel kernelStep =>
    obtain ⟨inotify, -, rfl⟩ := Option.map_eq_some_iff.mp step
    exact all
  | read count =>
    obtain ⟨-, -, -, rfl⟩ := System.read_spec step
    exact all
  | handle order =>
    obtain ⟨event, buffer, -, -, ⟨ex, -, rfl⟩ | ⟨server, reports, handled, rfl⟩⟩ :=
      System.handled_cases step
    · exact all
    · -- An event takes watch points out at most.
      have before : Every { s.server with buffer }.watchPoints P := all
      have left := Server.every_handleEvent before handled
      dsimp only
      split_ifs <;> exact left
  | shutdown =>
    obtain ⟨-, rfl⟩ := System.shutdown_spec step
    exact all

/-- A watch point is to be entered because it was before, or because `inotify_add_watch` has just
returned for it. -/
theorem System.registering_of_next {s t : System} {label : Label}
    (step : s.next label = some t) (registering : t.registering = some watchPoint) :
    s.registering = some watchPoint ∨ ∃ path answers inotify,
      label = .registerPath path answers ∧
        s.server.beginRegisterPath path answers = .ok (watchPoint, inotify) := by
  cases label with
  | registerPath path answers =>
    obtain ⟨-, -, rfl | ⟨other, inotify, begun, rfl⟩⟩ := System.registerPath_spec step
    · exact .inl registering
    · obtain rfl := Option.some_inj.mp registering
      exact .inr ⟨path, answers, inotify, rfl, begun⟩
  | enterWatchPoint =>
    obtain ⟨other, -, ⟨-, rfl⟩ | ⟨server, -, rfl⟩⟩ := System.enterWatchPoint_spec step
    · cases registering
    · cases registering
  | unregisterPath path =>
    obtain ⟨-, stopped, -, rfl⟩ := System.unregisterPath_spec step
    exact .inl registering
  | stopWatchingMovedPaths absolutePathsToCheck =>
    obtain ⟨stopped, -, rfl⟩ := System.stopWatchingMovedPaths_spec step
    exact .inl registering
  | kernel kernelStep =>
    obtain ⟨inotify, -, rfl⟩ := Option.map_eq_some_iff.mp step
    exact .inl registering
  | read count =>
    obtain ⟨-, -, -, rfl⟩ := System.read_spec step
    exact .inl registering
  | handle order =>
    obtain ⟨event, buffer, -, -, ⟨ex, -, rfl⟩ | ⟨server, reports, -, rfl⟩⟩ :=
      System.handled_cases step
    · exact .inl registering
    · exact .inl registering
  | shutdown =>
    obtain ⟨-, rfl⟩ := System.shutdown_spec step
    exact .inl registering

theorem Converts.next {s t : System} {label : Label} (converts : Converts s)
    (step : s.next label = some t) : Converts t := by
  obtain ⟨all, entering⟩ := converts
  refine ⟨System.every_next (fun _ => id) all entering step, ?_⟩
  intro watchPoint registering
  rcases System.registering_of_next step registering with
    before | ⟨path, answers, inotify, -, begun⟩
  · exact entering watchPoint before
  · exact Server.converts_of_begin begun

/-- Every reachable server is named. -/
theorem named {s : System} (reach : machine.Reachable s) : s.server.Named := by
  have converts : Converts s := by
    refine reach.invariant ⟨?_, ?_⟩ fun _ _ _ converts step => converts.next step
    · intro path watchPoint found
      cases found
    · simp [machine]
  intro path watchPoint found
  have same := (sound reach).consistent.paths path watchPoint found
  exact ⟨same, same ▸ converts.1 path watchPoint found⟩

end Named

/-- Two directories are registered. -/
def twoDirectories : List Label :=
  [.registerPath (u16 "/a") { lstat := .ok 7, addWatch := .ok ⟨1, 7⟩, fresh := 1 },
    .enterWatchPoint,
    .registerPath (u16 "/b") { lstat := .ok 8, addWatch := .ok ⟨1, 8⟩, fresh := 2 },
    .enterWatchPoint]

/-- Another directory is found under the first path now. -/
def replaced (path : U16String) : Except Errno ℕ :=
  if path = u16 "/b" then .ok 8 else .ok 9

theorem Server.stopsMoved_replaced :
    ∃ server after, server.stopWatchingMovedPaths
        ([u16 "/a", u16 "/b", u16 "/c", u16 "/a"].map fun path => (path, replaced path)) =
          (.ok [u16 "/a", u16 "/c", u16 "/a"], after) ∧
      StopsMoved replaced [u16 "/a", u16 "/b", u16 "/c", u16 "/a"] server
        [u16 "/a", u16 "/c", u16 "/a"] after := by
  have computed : (machine.execWhere Lossless machine.start twoDirectories).map (fun s =>
      (s.registering, (s.server.stopWatchingMovedPaths
        ([u16 "/a", u16 "/b", u16 "/c", u16 "/a"].map fun path => (path, replaced path))).1)) =
    some (none, .ok [u16 "/a", u16 "/c", u16 "/a"]) := by decide
  obtain ⟨s, reach, observed⟩ := Machine.observe_of_execWhere computed
  obtain ⟨idle, dropped⟩ := Prod.mk.inj observed
  obtain ⟨droppedPaths, after, result, stops⟩ := Server.stopsMoved s.server replaced
    [u16 "/a", u16 "/b", u16 "/c", u16 "/a"] (idle ▸ tables_invariant s reach)
    (named reach.reachable)
  rw [result] at dropped
  obtain rfl := Except.ok.inj dropped
  exact ⟨s.server, after, result, stops⟩

end Linux

end FileEvents
