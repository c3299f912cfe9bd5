import FileEvents.Linux.Invariant

/-!
# Watching a path again

When the client was told that a path is not watched any more, by `unregisterPath` or in
the `droppedPaths` of `stopWatchingMovedPaths`, the path has no listening watch point. It
may still have a cancelled one, which stays in the tables until the `IN_IGNORED` of its
descriptor is handled, and for good if that event is lost. Until then the path cannot be
registered again.

## Main definitions

* `NotListening` — a path without a listening watch point
* `Grants` — the directory exists, no other path stands for it and its watch is granted

## Main results

* `registerPath_ok_iff` — a stopped path can be registered again if and only if no
  cancelled watch point is left for it
* `not_forall_registerPath_ok` — a path that `stopWatchingMovedPaths` dropped cannot be
  registered at once
-/

namespace FileEvents

namespace Linux

open Transition

/-- The path has no watch point, or a cancelled one. -/
def NotListening (server : Server) (path : U16String) : Prop :=
  ∀ watchPoint, server.watchPoints.lookup path = some watchPoint →
    watchPoint.status = .cancelled

section

variable {server after : Server} {registering : Option WatchPoint} {watchPoint : WatchPoint}
variable {path other : U16String} {result : CancelResult}

theorem CancelSpec.notListening
    (spec : CancelSpec server registering path watchPoint result after) :
    NotListening after path := by
  intro watchPoint' found
  rw [spec.found] at found
  obtain rfl := Option.some_inj.mp found
  rfl

/-- Stopping to watch makes no watch point listen. -/
theorem NotListening.of_onlyStops (h : NotListening server path) (only : OnlyStops server after) :
    NotListening after path := by
  intro watchPoint found
  cases status : watchPoint.status with
  | cancelled => rfl
  | listening => exact status.symm.trans (h _ (only.listening _ _ found status))

/-- `unregisterPath` leaves its path without a listening watch point. -/
theorem Consistent.notListening_unregisterPath (h : Consistent server none) :
    NotListening (server.unregisterPath path).2 path := by
  unfold Server.unregisterPath
  split
  next missing =>
    have absent : NotListening server path := fun watchPoint found => by
      rw [missing] at found
      cases found
    split <;> exact absent
  next watchPoint found =>
    obtain ⟨result, after, cancelled, spec⟩ := h.cancelWatchPoint found
    rw [cancelled]
    cases result with
    | alreadyCancelled => exact spec.notListening
    | cancelled | notCancelled => exact spec.notListening.of_onlyStops (.forget _ _ _)

/-- A path that is added to `droppedPaths` has no listening watch point. -/
theorem Consistent.notListening_stopWatchingMovedPath (h : Consistent server registering)
    {lstat : Except Errno ℕ}
    (dropped : (server.stopWatchingMovedPath path lstat).1 = .ok true) :
    NotListening (server.stopWatchingMovedPath path lstat).2 path := by
  unfold Server.stopWatchingMovedPath at dropped ⊢
  split at dropped
  next missing =>
    intro watchPoint found
    rw [missing] at found
    cases found
  next watchPoint found =>
    obtain ⟨result, after, cancelled, spec⟩ := h.cancelWatchPoint found
    rw [cancelled] at dropped ⊢
    split at dropped
    next stopped =>
      rw [if_pos stopped]
      intro watchPoint' found'
      rw [found] at found'
      obtain rfl := Option.some_inj.mp found'
      cases status : watchPoint.status with
      | cancelled => rfl
      | listening => exact absurd status stopped
    next listens =>
      rw [if_neg listens]
      split at dropped
      · cases dropped
      · split_ifs at dropped ⊢
        · simp at dropped
        · exact spec.notListening

/-- `stopWatchingMovedPaths` leaves its `droppedPaths` without a listening watch point. -/
theorem Consistent.notListening_stopWatchingMovedPaths (h : Consistent server registering)
    {absolutePathsToCheck : List (U16String × Except Errno ℕ)} {droppedPaths : List U16String}
    (returned : (server.stopWatchingMovedPaths absolutePathsToCheck).1 = .ok droppedPaths) :
    ∀ path ∈ droppedPaths,
      NotListening (server.stopWatchingMovedPaths absolutePathsToCheck).2 path := by
  induction absolutePathsToCheck generalizing server droppedPaths with
  | nil =>
    obtain rfl := Except.ok.inj returned
    simp
  | cons check rest ih =>
    obtain ⟨path, lstat⟩ := check
    obtain ⟨first, -⟩ := h.stopWatchingMovedPath path lstat
    obtain ⟨-, stops, -⟩ := first.stopWatchingMovedPaths rest
    have now : (server.stopWatchingMovedPath path lstat).1 = .ok true →
        NotListening (server.stopWatchingMovedPath path lstat).2 path :=
      h.notListening_stopWatchingMovedPath
    have others : ∀ droppedOthers,
        ((server.stopWatchingMovedPath path lstat).2.stopWatchingMovedPaths rest).1 =
          .ok droppedOthers →
        ∀ path' ∈ droppedOthers, NotListening
          ((server.stopWatchingMovedPath path lstat).2.stopWatchingMovedPaths rest).2 path' :=
      fun _ => ih first
    unfold Server.stopWatchingMovedPaths at returned ⊢
    cases checked : server.stopWatchingMovedPath path lstat with
    | mk outcome next =>
      rw [checked] at now others stops
      rw [checked] at returned
      cases outcome with
      | error ex => cases returned
      | ok dropped =>
        cases checkedOthers : next.stopWatchingMovedPaths rest with
        | mk outcomeOthers last =>
          simp only [checkedOthers] at returned stops others ⊢
          cases outcomeOthers with
          | error ex => cases returned
          | ok droppedOthers =>
            obtain rfl := Except.ok.inj returned
            intro other mem
            -- The rounds behind do not make the first path listen again.
            cases dropped with
            | false => exact others _ rfl other mem
            | true =>
              rcases List.mem_cons.mp mem with rfl | mem
              · exact (now rfl).of_onlyStops stops
              · exact others _ rfl other mem

end

/-! ## Stopped paths -/

/-- No path that the client knows to be stopped has a listening watch point. -/
def StoppedPaths (s : System) : Prop := ∀ path ∈ s.stopped, NotListening s.server path

/-- Handling an event makes no watch point listen. -/
theorem NotListening.handleEvent {server server' : Server} {path : U16String}
    {event : InotifyEvent} {order : List U16String} {reports : List Report}
    (stopped : NotListening server path)
    (handled : server.handleEvent event order = .ok (server', reports)) :
    NotListening server' path := by
  by_cases ends : event.Concerns event.wd ∧ event.IsIgnored
  · obtain ⟨rfl, -⟩ := Server.handleEvent_ignored ends.1 ends.2 handled
    intro watchPoint found
    unfold Server.finish at found
    split at found
    · exact stopped watchPoint found
    · simp only [lookup_erase_eq] at found
      split_ifs at found
      exact stopped watchPoint found
  · obtain rfl := Server.handleEvent_other ends handled
    exact stopped

theorem StoppedPaths.next {s t : System} {label : Label} (sound : Sound s.server s.registering)
    (h : StoppedPaths s) (step : s.next label = some t) : StoppedPaths t := by
  cases label with
  | registerPath path answers =>
    obtain ⟨-, -, rfl | ⟨watchPoint, inotify, -, rfl⟩⟩ := System.registerPath_spec step <;> exact h
  | enterWatchPoint =>
    obtain ⟨watchPoint, entering, ⟨-, rfl⟩ | ⟨server, entered, rfl⟩⟩ :=
      System.enterWatchPoint_spec step
    · exact h
    · -- The path that is entered is not stopped any more, the other entries are as before.
      obtain ⟨absent, -⟩ := sound.consistent.entering watchPoint entering
      obtain ⟨-, rfl⟩ := Server.enterWatchPoint_spec entered
      intro path mem watchPoint' found
      obtain ⟨mem, different⟩ := List.mem_filter.mp mem
      simp only [emplace_of_not_mem absent, lookup_insert_eq] at found
      rw [if_neg (by simpa using different)] at found
      exact h path mem watchPoint' found
  | unregisterPath path =>
    obtain ⟨idle, stopped, paths, rfl⟩ := System.unregisterPath_spec step
    have consistent : Consistent s.server none := idle ▸ sound.consistent
    obtain ⟨-, only⟩ := consistent.unregisterPath path
    -- Paths that were stopped stay so, and this one is new among them.
    have kept : ∀ other ∈ s.stopped, NotListening (s.server.unregisterPath path).2 other :=
      fun other mem => (h other mem).of_onlyStops only
    rcases paths with rfl | rfl
    · exact kept
    · exact List.forall_mem_cons.mpr ⟨consistent.notListening_unregisterPath, kept⟩
  | stopWatchingMovedPaths absolutePathsToCheck =>
    obtain ⟨stopped, paths, rfl⟩ := System.stopWatchingMovedPaths_spec step
    obtain ⟨-, only, -⟩ := sound.consistent.stopWatchingMovedPaths absolutePathsToCheck
    have kept : ∀ other ∈ s.stopped,
        NotListening (s.server.stopWatchingMovedPaths absolutePathsToCheck).2 other :=
      fun other mem => (h other mem).of_onlyStops only
    rcases paths with rfl | ⟨droppedPaths, rfl, returned⟩
    · exact kept
    · exact List.forall_mem_append.mpr
        ⟨sound.consistent.notListening_stopWatchingMovedPaths returned, kept⟩
  | kernel kernelStep =>
    obtain ⟨inotify, -, rfl⟩ := Option.map_eq_some_iff.mp step
    exact h
  | read count =>
    obtain ⟨-, -, -, rfl⟩ := System.read_spec step
    exact h
  | handle order =>
    obtain ⟨event, buffer, -, -, ⟨ex, -, rfl⟩ | ⟨server, reports, handled, rfl⟩⟩ :=
      System.handled_cases step
    · exact h
    · -- Handling an event makes no watch point listen.
      intro path mem
      have before : NotListening { s.server with buffer } path := h path mem
      intro watchPoint found
      apply before.handleEvent handled watchPoint
      dsimp only at found
      split_ifs at found <;> exact found
  | shutdown =>
    obtain ⟨-, rfl⟩ := System.shutdown_spec step
    exact h

theorem stoppedPaths {s : System} (reach : machine.Reachable s) : StoppedPaths s :=
  Machine.ReachableWhere.invariant_of reach (fun _ reach => sound reach)
    (by simp [StoppedPaths, machine]) fun _ _ _ sound h _ step => h.next sound step

/-- The path is an existing directory, no other registered path stands for the same
directory, and the kernel grants a watch on it. -/
structure Grants (server : Server) (path : U16String) (answers : RegisterAnswers)
    (object : FileObject) : Prop where
  converts : (utf16ToUtf8String path).isSome = true
  exists_path : answers.lstat = .ok object.ino
  granted : answers.addWatch = .ok object
  fresh : server.inotify.CanGrant answers.fresh
  unaliased : ∀ other watchPoint, server.watchPoints.lookup other = some watchPoint →
    other ≠ path → server.inotify.active.lookup watchPoint.watchDescriptor ≠ some object

/-- `registerPath` on a path without a watch point succeeds if the kernel grants the watch
and no other registered path stands for the directory. -/
theorem Consistent.registerPath_ok {server : Server} {path : U16String}
    {answers : RegisterAnswers} {object : FileObject} (h : Consistent server none)
    (grants : Grants server path answers object) (absent : path ∉ server.watchPoints) :
    (server.registerPath path answers).1 = .ok () := by
  obtain ⟨converts, exists_path, granted, ⟨-, unused, unretired⟩, unaliased⟩ := grants
  obtain ⟨pathNarrow, converted⟩ := Option.isSome_iff_exists.mp converts
  -- An active descriptor of the directory would belong to a listening watch point, of
  -- another path or of this one.
  have unwatched : server.inotify.watchOf object = none := by
    refine Inotify.watchOf_eq_none fun wd watched => ?_
    obtain ⟨other, watchPoint, found, -, rfl⟩ | ⟨watchPoint, entering, -⟩ :=
      h.listening wd (mem_iff_lookup.mpr ⟨object, watched⟩)
    · refine unaliased other watchPoint found ?_ watched
      rintro rfl
      exact absent (mem_iff_lookup.mpr ⟨watchPoint, found⟩)
    · cases entering
  have free : answers.fresh ∉ server.watchRoots := fun watched =>
    (h.known _ watched).elim unused unretired
  simp [Server.registerPath, Server.beginRegisterPath, absent, converted, exists_path, granted,
    Inotify.addWatch, unwatched, Server.enterWatchPoint, free]

/-- Once the client was told that a path is not watched any more, whatever the kernel has
lost since, the path can be registered again if and only if no cancelled watch point is
left for it. A cancelled watch point is left only as long as the `IN_IGNORED` of its
descriptor is not handled, and then `registerPath` throws "Already watching path". -/
theorem registerPath_ok_iff (s : System) (reach : machine.Reachable s)
    (idle : s.registering = none) (path : U16String) (stopped : path ∈ s.stopped)
    (answers : RegisterAnswers) (object : FileObject)
    (grants : Grants s.server path answers object) :
    ((s.server.registerPath path answers).1 = .ok () ↔
      ∀ watchPoint, s.server.watchPoints.lookup path = some watchPoint →
        watchPoint.status ≠ .cancelled) ∧
    ∀ watchPoint, s.server.watchPoints.lookup path = some watchPoint →
      watchPoint.watchDescriptor ∈ s.server.inotify.retired ∧
      (s.server.registerPath path answers).1 = .error (alreadyWatchingPath path) := by
  have consistent : Consistent s.server none := idle ▸ (sound reach).consistent
  have notListening := stoppedPaths reach path stopped
  have refused : path ∈ s.server.watchPoints →
      (s.server.registerPath path answers).1 = .error (alreadyWatchingPath path) := by
    intro present
    simp [Server.registerPath, Server.beginRegisterPath, present]
  refine ⟨⟨fun succeeded watchPoint found _ => ?_, fun cleared => ?_⟩, fun watchPoint found => ?_⟩
  -- Any entry left makes `registerPath` throw.
  · rw [refused (mem_iff_lookup.mpr ⟨watchPoint, found⟩)] at succeeded
    cases succeeded
  -- An entry that is left is cancelled, so by assumption there is none.
  · refine consistent.registerPath_ok grants fun present => ?_
    obtain ⟨watchPoint, found⟩ := mem_iff_lookup.mp present
    exact cleared watchPoint found (notListening watchPoint found)
  · have gone := consistent.cancelled path watchPoint found (notListening watchPoint found)
    exact ⟨(consistent.granted_of_watchPoint found).resolve_left gone,
      refused (mem_iff_lookup.mpr ⟨watchPoint, found⟩)⟩

/-- What the operating system answers for an existing directory. -/
def directoryAnswers (fresh : WatchDescriptor) : RegisterAnswers :=
  { lstat := .ok 7, addWatch := .ok ⟨1, 7⟩, fresh }

/-- A directory is registered, found to be moved and dropped. -/
def droppedRun : List Label :=
  [.registerPath (u16 "/a") (directoryAnswers 1), .enterWatchPoint,
    .stopWatchingMovedPaths [(u16 "/a", .error 2)]]

/-- As before, and the `IN_IGNORED` of the dropped watch is handled. -/
def forgottenRun : List Label := droppedRun ++ [.read 1, .handle [u16 "/a"]]

theorem registerPath_ok_iff_forgotten :
    ∃ s, machine.Reachable s ∧ u16 "/a" ∈ s.stopped ∧
      (s.server.registerPath (u16 "/a") (directoryAnswers 2)).1 = .ok () := by
  have computed : (machine.exec machine.start forgottenRun).map (fun s =>
      (s.server.watchPoints.keys, s.stopped, s.registering, decide (s.server.inotify.CanGrant 2)))
        = some ([], [u16 "/a"], none, true) := by decide
  obtain ⟨s, reach, last⟩ := Machine.observe_of_exec computed
  simp only [Prod.mk.injEq, decide_eq_true_eq] at last
  obtain ⟨empty, stopped, idle, fresh⟩ := last
  have absent : ∀ path, s.server.watchPoints.lookup path = none := fun path =>
    AList.lookup_eq_none.mpr (by simp [AList.mem_keys, empty])
  have grants : Grants s.server (u16 "/a") (directoryAnswers 2) ⟨1, 7⟩ :=
    ⟨by decide, rfl, rfl, fresh, fun other watchPoint found => by simp [absent] at found⟩
  have mem : u16 "/a" ∈ s.stopped := by simp [stopped]
  exact ⟨s, reach, mem, (registerPath_ok_iff s reach idle _ mem _ _ grants).1.mpr
    fun watchPoint found => by simp [absent] at found⟩

/-- Not every path that the client was told to be stopped can be registered again: the
`IN_IGNORED` of a dropped path may still be on its way. -/
theorem not_forall_registerPath_ok :
    ¬ ∀ s, machine.Reachable s → s.registering = none → ∀ path ∈ s.stopped,
      ∀ answers object, Grants s.server path answers object →
        (s.server.registerPath path answers).1 = .ok () := by
  intro always
  have computed : (machine.exec machine.start droppedRun).map (fun s =>
      (s.server.watchPoints.keys, s.stopped, s.registering, decide (s.server.inotify.CanGrant 2)))
        = some ([u16 "/a"], [u16 "/a"], none, true) := by decide
  obtain ⟨s, reach, last⟩ := Machine.observe_of_exec computed
  simp only [Prod.mk.injEq, decide_eq_true_eq] at last
  obtain ⟨single, stopped, idle, fresh⟩ := last
  have grants : Grants s.server (u16 "/a") (directoryAnswers 2) ⟨1, 7⟩ := by
    refine ⟨by decide, rfl, rfl, fresh, fun other watchPoint found different => ?_⟩
    have present := AList.mem_keys.mp (mem_iff_lookup.mpr ⟨watchPoint, found⟩)
    rw [single, List.mem_singleton] at present
    exact absurd present different
  have succeeded := always s reach idle _ (by simp [stopped]) _ _ grants
  simp [Server.registerPath, Server.beginRegisterPath, AList.mem_keys, single] at succeeded

end Linux

end FileEvents
