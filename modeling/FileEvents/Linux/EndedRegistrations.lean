import FileEvents.Linux.Reregistration
import Mathlib.Data.List.InsertIdx

/-!
# Events of ended registrations

When `unregisterPath` returns for a path, the registrations of the path up to then have
ended. Their events may still be queued or in the buffer, and the kernel may grant their
descriptors to other registrations once the last of these events is handled.

A record beside the server at work numbers the grants of descriptors. It keeps for every
unhandled event the grant of its descriptor the event was queued for, for every path the
grants it was registered with, and for every grant when its registration ended.

## Main definitions

* `Tracked`, `Tracked.machine` — the server at work with the record

## Main results

* `no_event_of_ended` — an event of an ended registration is not reported as a change or as
  unknown, and does not touch a watch point that was registered later
-/

namespace FileEvents

open Transition

namespace Linux

/-- A server at work with a record of its registrations. Nothing reads the record. -/
structure Tracked where
  system : System
  /-- How many descriptors were granted. -/
  grants : ℕ
  /-- The number of the last grant of each descriptor. -/
  grantOf : WatchDescriptor → ℕ
  /-- The unhandled events, each with the last grant of its descriptor when it was queued. -/
  pending : List (ℕ × InotifyEvent)
  /-- The grants that paths were registered with. -/
  registrations : List (ℕ × U16String)
  /-- Counts the calls of `registerPath` and `unregisterPath`. -/
  time : ℕ
  /-- When a path was registered last. -/
  registeredAt : U16String → ℕ
  /-- When `unregisterPath` first returned for the path that was registered with a grant. -/
  endedAt : ℕ → Option ℕ

namespace Tracked

/-- The server goes on, and events are queued. -/
def queue (s : Tracked) (system : System) : Tracked :=
  { s with
    system
    pending := s.pending ++ (system.unhandled.drop s.system.unhandled.length).map fun event =>
      (s.grantOf event.wd, event) }

/-- `inotify_add_watch` returns a descriptor. -/
def grant (s : Tracked) (system : System) : Tracked :=
  match system.registering with
  | none => { s with system }
  | some watchPoint =>
    if watchPoint.watchDescriptor ∈ s.system.server.inotify.active then { s with system }
    else
      { s with
        system
        grants := s.grants + 1
        grantOf := Function.update s.grantOf watchPoint.watchDescriptor (s.grants + 1) }

/-- `registerPath` returns or throws. -/
def enter (s : Tracked) (system : System) : Tracked :=
  match s.system.registering with
  | none => { s with system }
  | some watchPoint =>
    if watchPoint.watchDescriptor ∈ s.system.server.watchRoots then { s with system }
    else
      { s with
        system
        registrations :=
          (s.grantOf watchPoint.watchDescriptor, watchPoint.path) :: s.registrations
        time := s.time + 1
        registeredAt := Function.update s.registeredAt watchPoint.path (s.time + 1) }

/-- The registrations of a path end. -/
def endRegistrations (s : Tracked) (path : U16String) : Tracked :=
  { s with
    time := s.time + 1
    endedAt := fun grant =>
      if (grant, path) ∈ s.registrations ∧ s.endedAt grant = none then some (s.time + 1)
      else s.endedAt grant }

/-- The record after a step of the server. -/
def track (s : Tracked) : Label → System → Tracked
  | .registerPath .., system => s.grant system
  | .enterWatchPoint, system => s.enter system
  | .unregisterPath path, system =>
    if (s.system.server.unregisterPath path).1.isOk then
      (s.queue system).endRegistrations path
    else s.queue system
  | .kernel (.lose index), system =>
    { s with system, pending := s.pending.eraseIdx (s.system.server.buffer.length + index) }
  | .stopWatchingMovedPaths _, system | .kernel _, system => s.queue system
  | .handle _, system =>
    { s with
      system
      pending := s.pending.drop (s.system.server.buffer.length - system.server.buffer.length) }
  | .read _, system | .shutdown, system => { s with system }

/-- The server at work with the record. -/
def machine : Machine Tracked Label where
  start :=
    { system := Linux.machine.start
      grants := 0
      grantOf := fun _ => 0
      pending := []
      registrations := []
      time := 0
      registeredAt := fun _ => 0
      endedAt := fun _ => none }
  next s label := (s.system.next label).map (s.track label)

@[simp] theorem system_track {s : Tracked} {label : Label} {system : System} :
    (s.track label system).system = system := by
  unfold track queue grant enter endRegistrations
  split
  next => split <;> (try split) <;> rfl
  next => split <;> (try split) <;> rfl
  next => split <;> rfl
  all_goals rfl

end Tracked

/-! ## The unhandled events -/

/-- The recorded events are the unhandled ones, and each belongs to the last grant of its
descriptor. -/
structure Tracked.Pending (s : Tracked) : Prop where
  aligned : s.pending.map Prod.snd = s.system.unhandled
  current : ∀ tagged ∈ s.pending, tagged.2.Concerns tagged.2.wd →
    tagged.1 = s.grantOf tagged.2.wd

section Unhandled

variable {s t : System} {before after : Server}

/-- Stopping to watch only queues events. -/
theorem OnlyStops.grows (only : OnlyStops before after) :
    before.buffer ++ before.inotify.queue <+: after.buffer ++ after.inotify.queue := by
  have queues : before.inotify.queue <+: after.inotify.queue :=
    only.retires.invariant (I := fun inotify => before.inotify.queue <+: inotify.queue)
      List.prefix_rfl fun inotify wd _ grown => grown.trans (List.prefix_append _ _)
  rw [only.buffer]
  exact (List.prefix_append_right_inj _).mpr queues

/-- What the kernel does on its own without losing an event only queues events. -/
theorem Inotify.grows_of_step {inotify inotify' : Inotify} {step : Inotify.Step}
    (keeps : ∀ index, step ≠ .lose index) (taken : inotify.step step = some inotify') :
    inotify.queue <+: inotify'.queue := by
  obtain ⟨wd, mask, name, -, -, -, -, rfl⟩ | ⟨wd, mask, -, -, -, -, rfl⟩ | ⟨-, rfl⟩ |
    ⟨index, loses, -⟩ := Inotify.step_cases taken
  · exact List.prefix_append _ _
  · exact (List.prefix_append _ _).trans (List.prefix_append _ _)
  · exact List.prefix_append _ _
  · exact absurd loses (keeps index)

/-- Handling an event takes it off the buffer, together with the rest of the buffer if the
handler throws. -/
theorem System.unhandled_of_handle {order : List U16String}
    (step : s.next (.handle order) = some t) :
    t.unhandled = s.unhandled.drop (s.server.buffer.length - t.server.buffer.length) := by
  obtain ⟨event, buffer, -, next, ⟨ex, -, rfl⟩ | ⟨server, reports, handled, rfl⟩⟩ :=
    System.handled_cases step
  · simp [System.unhandled]
  · have kept : ∀ {server'}, server' = { s.server with buffer } ∨
        server' = { s.server with buffer }.finish event.wd →
        server'.buffer = buffer ∧ server'.inotify.queue = s.server.inotify.queue := by
      rintro server' (rfl | rfl)
      · exact ⟨rfl, rfl⟩
      · unfold Server.finish
        split <;> exact ⟨rfl, rfl⟩
    have after : server = { s.server with buffer } ∨
        server = { s.server with buffer }.finish event.wd := by
      by_cases ends : event.Concerns event.wd ∧ event.IsIgnored
      · exact .inr (Server.handleEvent_ignored ends.1 ends.2 handled).1
      · exact .inl (Server.handleEvent_other ends handled)
    obtain ⟨sameBuffer, sameQueue⟩ := kept after
    unfold System.unhandled
    dsimp only
    split_ifs <;> simp [sameBuffer, sameQueue, next]

end Unhandled

section Pending

variable {s : Tracked} {system : System}

namespace Tracked.Pending

/-- Events may be handled, or get lost. -/
theorem sublist (h : s.Pending) {pending : List (ℕ × InotifyEvent)}
    (sub : List.Sublist pending s.pending) (aligned : pending.map Prod.snd = system.unhandled) :
    ({ s with system, pending } : Tracked).Pending :=
  ⟨aligned, fun tagged mem => h.current tagged (sub.subset mem)⟩

/-- Events may be queued. -/
theorem queue (h : s.Pending) (grows : s.system.unhandled <+: system.unhandled) :
    (s.queue system).Pending := by
  constructor
  · simp only [Tracked.queue, List.map_append, h.aligned, List.map_map, Function.comp_def,
      List.map_id']
    exact (List.prefix_iff_eq_append.mp grows)
  · intro tagged mem concerns
    rcases List.mem_append.mp mem with old | new
    · exact h.current tagged old concerns
    · obtain ⟨event, -, rfl⟩ := List.mem_map.mp new
      rfl

/-- A descriptor without unhandled events may be granted. -/
theorem grant (h : s.Pending) (same : system.unhandled = s.system.unhandled)
    (unused : ∀ watchPoint, system.registering = some watchPoint →
      watchPoint.watchDescriptor ∉ s.system.server.inotify.active →
      s.system.server.concerning watchPoint.watchDescriptor = []) :
    (s.grant system).Pending := by
  have kept : ({ s with system } : Tracked).Pending := ⟨h.aligned.trans same.symm, h.current⟩
  unfold Tracked.grant
  split
  next => exact kept
  next watchPoint registering =>
    split_ifs with active
    · exact kept
    · refine ⟨kept.aligned, fun tagged mem concerns => ?_⟩
      have different : tagged.2.wd ≠ watchPoint.watchDescriptor := by
        intro here
        have unhandled : tagged.2 ∈ s.system.unhandled :=
          h.aligned ▸ List.mem_map_of_mem mem
        have found : tagged.2 ∈ s.system.server.concerning watchPoint.watchDescriptor :=
          List.mem_filter.mpr ⟨unhandled, by simpa using here ▸ concerns⟩
        rw [unused watchPoint registering active] at found
        cases found
      simpa [Function.update_of_ne different] using h.current tagged mem concerns

end Tracked.Pending

/-- The record of the unhandled events is kept by every step. -/
theorem Tracked.Pending.next {s t : Tracked} {label : Label} (sound : Sound s.system.server
    s.system.registering) (h : s.Pending) (step : Tracked.machine.next s label = some t) :
    t.Pending := by
  obtain ⟨system, inner, rfl⟩ := Option.map_eq_some_iff.mp step
  have same (same : system.unhandled = s.system.unhandled) :
      ({ s with system } : Tracked).Pending := ⟨h.aligned.trans same.symm, h.current⟩
  cases label with
  | registerPath path answers =>
    obtain ⟨idle, fresh, rfl | ⟨watchPoint, inotify, begun, rfl⟩⟩ :=
      System.registerPath_spec inner
    · exact h.grant rfl fun watchPoint registering => by simp [idle] at registering
    · obtain ⟨object, -, added, -⟩ := Server.beginRegisterPath_spec begun
      have kept : inotify.queue = s.system.server.inotify.queue := by
        rcases Inotify.addWatch_spec added with ⟨-, rfl⟩ | ⟨-, -, rfl⟩ <;> rfl
      dsimp only [Tracked.track]
      refine h.grant (congrArg (s.system.server.buffer ++ ·) kept)
        fun watchPoint' registering inactive => ?_
      obtain rfl := Option.some_inj.mp registering
      -- The descriptor was active, or it is the fresh one.
      rcases Inotify.addWatch_spec added with ⟨active, -⟩ | ⟨-, granted, -⟩
      · exact absurd active inactive
      · rw [granted]
        exact sound.streams.gone _ fresh.2.1 fresh.2.2
  | enterWatchPoint =>
    obtain ⟨watchPoint, entering, ⟨refused, rfl⟩ | ⟨server, entered, rfl⟩⟩ :=
      System.enterWatchPoint_spec inner
    · simp only [Tracked.track, Tracked.enter, entering, refused, if_true]
      exact same rfl
    · obtain ⟨free, rfl⟩ := Server.enterWatchPoint_spec entered
      simp only [Tracked.track, Tracked.enter, entering, free, if_false]
      exact ⟨h.aligned, h.current⟩
  | unregisterPath path =>
    obtain ⟨idle, stopped, -, rfl⟩ := System.unregisterPath_spec inner
    obtain ⟨-, only⟩ := (idle ▸ sound.consistent : Consistent s.system.server none).unregisterPath
      path
    have queued : (s.queue
        { s.system with server := (s.system.server.unregisterPath path).2, stopped }).Pending :=
      h.queue only.grows
    dsimp only [Tracked.track]
    split_ifs
    · exact ⟨queued.aligned, queued.current⟩
    · exact queued
  | stopWatchingMovedPaths absolutePathsToCheck =>
    obtain ⟨stopped, -, rfl⟩ := System.stopWatchingMovedPaths_spec inner
    obtain ⟨-, only, -⟩ := sound.consistent.stopWatchingMovedPaths absolutePathsToCheck
    exact h.queue only.grows
  | kernel kernelStep =>
    obtain ⟨inotify, taken, rfl⟩ := Option.map_eq_some_iff.mp inner
    have grows (keeps : ∀ index, kernelStep ≠ .lose index) :
        (s.queue { s.system with server := { s.system.server with inotify } }).Pending :=
      h.queue ((List.prefix_append_right_inj _).mpr (Inotify.grows_of_step keeps taken))
    cases kernelStep with
    | lose index =>
      obtain rfl := Option.some_inj.mp taken
      refine h.sublist (List.eraseIdx_sublist _ _) ?_
      rw [← List.eraseIdx_map, h.aligned]
      simp [System.unhandled, List.eraseIdx_append_of_length_le]
    | event | remove | overflow => exact grows (by simp)
  | read count =>
    obtain ⟨empty, -, -, rfl⟩ := System.read_spec inner
    exact same (by simp [System.unhandled, System.fill, empty])
  | handle order =>
    refine h.sublist (List.drop_sublist _ _) ?_
    rw [List.map_drop, h.aligned, System.unhandled_of_handle inner]
  | shutdown =>
    obtain ⟨-, rfl⟩ := System.shutdown_spec inner
    exact same rfl

end Pending

/-! ## The registrations -/

/-- What is recorded of the registrations. -/
structure Tracked.Recorded (s : Tracked) : Prop where
  numbered : ∀ wd, s.grantOf wd ≤ s.grants
  granted : ∀ registration ∈ s.registrations, registration.1 ≤ s.grants
  unique : ∀ grant path other, (grant, path) ∈ s.registrations →
    (grant, other) ∈ s.registrations → path = other
  registered : ∀ wd path, s.system.server.watchRoots.lookup wd = some path →
    (s.grantOf wd, path) ∈ s.registrations
  /-- A descriptor that is about to be entered was granted for that. -/
  entering : ∀ watchPoint, s.system.registering = some watchPoint →
    watchPoint.watchDescriptor ∉ s.system.server.watchRoots →
    ∀ path, (s.grantOf watchPoint.watchDescriptor, path) ∉ s.registrations
  clock : ∀ path, s.registeredAt path ≤ s.time
  ended : ∀ grant time, s.endedAt grant = some time → ∃ path, (grant, path) ∈ s.registrations
  /-- No registration of a listening watch point has ended. -/
  listening : ∀ path watchPoint, s.system.server.watchPoints.lookup path = some watchPoint →
    watchPoint.status = .listening → s.endedAt (s.grantOf watchPoint.watchDescriptor) = none
  /-- Where the registration of a watched path has ended, it was not registered since. -/
  earlier : ∀ wd path time, s.system.server.watchRoots.lookup wd = some path →
    s.endedAt (s.grantOf wd) = some time → s.registeredAt path ≤ time

section Tables

variable {server server' : Server} {path other : U16String} {wd : WatchDescriptor}

/-- `unregisterPath` enters no descriptor into the tables. -/
theorem Consistent.roots_unregisterPath (h : Consistent server none)
    (root : (server.unregisterPath path).2.watchRoots.lookup wd = some other) :
    server.watchRoots.lookup wd = some other := by
  unfold Server.unregisterPath at root
  split at root
  next => split at root <;> exact root
  next watchPoint found =>
    obtain ⟨result, after, cancelled, spec⟩ := h.cancelWatchPoint found
    rw [cancelled] at root
    cases result with
    | alreadyCancelled => exact spec.roots ▸ root
    | cancelled | notCancelled =>
      simp only [Server.forgetWatchPoint, lookup_erase_eq, spec.roots] at root
      split_ifs at root
      exact root

/-- `handleEvent` enters nothing into the tables. -/
theorem Server.handleEvent_tables {event : InotifyEvent} {order : List U16String}
    {reports : List Report} (handled : server.handleEvent event order = .ok (server', reports)) :
    (∀ wd path, server'.watchRoots.lookup wd = some path →
      server.watchRoots.lookup wd = some path) ∧
    ∀ path watchPoint, server'.watchPoints.lookup path = some watchPoint →
      server.watchPoints.lookup path = some watchPoint := by
  by_cases ends : event.Concerns event.wd ∧ event.IsIgnored
  · obtain ⟨rfl, -⟩ := Server.handleEvent_ignored ends.1 ends.2 handled
    unfold Server.finish
    split
    · exact ⟨fun _ _ => id, fun _ _ => id⟩
    · refine ⟨fun wd path root => ?_, fun path watchPoint found => ?_⟩
      · rw [lookup_erase_eq] at root
        split_ifs at root
        exact root
      · rw [lookup_erase_eq] at found
        split_ifs at found
        exact found
  · obtain rfl := Server.handleEvent_other ends handled
    exact ⟨fun _ _ => id, fun _ _ => id⟩

end Tables

section Recorded

variable {s : Tracked} {system : System}

namespace Tracked.Recorded

/-- Watch points may be stopped or leave the tables. -/
theorem stop (h : s.Recorded) {pending : List (ℕ × InotifyEvent)}
    (roots : ∀ wd path, system.server.watchRoots.lookup wd = some path →
      s.system.server.watchRoots.lookup wd = some path)
    (listening : ∀ path watchPoint, system.server.watchPoints.lookup path = some watchPoint →
      watchPoint.status = .listening →
      s.system.server.watchPoints.lookup path = some watchPoint)
    (entering : ∀ watchPoint, system.registering = some watchPoint →
      watchPoint.watchDescriptor ∉ system.server.watchRoots →
      s.system.registering = some watchPoint ∧
        watchPoint.watchDescriptor ∉ s.system.server.watchRoots) :
    ({ s with system, pending } : Tracked).Recorded where
  numbered := h.numbered
  granted := h.granted
  unique := h.unique
  registered := fun wd path root => h.registered wd path (roots wd path root)
  entering := by
    intro watchPoint registering absent
    obtain ⟨before, absent⟩ := entering watchPoint registering absent
    exact h.entering watchPoint before absent
  clock := h.clock
  ended := h.ended
  listening := fun path watchPoint found listens =>
    h.listening path watchPoint (listening path watchPoint found listens) listens
  earlier := fun wd path time root => h.earlier wd path time (roots wd path root)

/-- Nothing changes in the tables. -/
theorem same (h : s.Recorded) {pending : List (ℕ × InotifyEvent)}
    (roots : system.server.watchRoots = s.system.server.watchRoots)
    (watchPoints : system.server.watchPoints = s.system.server.watchPoints)
    (entering : system.registering = none ∨ system.registering = s.system.registering) :
    ({ s with system, pending } : Tracked).Recorded := by
  refine h.stop (fun wd path => roots ▸ id) (fun path watchPoint found _ => watchPoints ▸ found) ?_
  intro watchPoint registering absent
  rcases entering with none | same
  · rw [none] at registering
    cases registering
  · exact ⟨same ▸ registering, roots ▸ absent⟩

/-- A fresh descriptor may be granted. -/
theorem grant (h : s.Recorded) {fresh : WatchDescriptor} {watchPoint : WatchPoint}
    (sound : Consistent s.system.server none) (canGrant : s.system.server.inotify.CanGrant fresh)
    (roots : system.server.watchRoots = s.system.server.watchRoots)
    (watchPoints : system.server.watchPoints = s.system.server.watchPoints)
    (registering : system.registering = some watchPoint)
    (granted : watchPoint.watchDescriptor ∈ s.system.server.inotify.active ∨
      watchPoint.watchDescriptor = fresh) : (s.grant system).Recorded := by
  obtain ⟨-, unused, unretired⟩ := canGrant
  simp only [Tracked.grant, registering]
  split_ifs with active
  · -- The descriptor is in the tables.
    have root := sound.root_of_active active
    refine h.stop (fun wd path => roots ▸ id) (fun path watchPoint found _ => watchPoints ▸ found)
      fun watchPoint' registering' absent => absurd ?_ absent
    obtain rfl := Option.some_inj.mp (registering.symm.trans registering')
    exact roots ▸ root
  · obtain rfl := granted.resolve_left active
    -- No table mentions the descriptor, and no registration its new grant.
    have different : ∀ wd, wd ∈ s.system.server.watchRoots → wd ≠ watchPoint.watchDescriptor := by
      rintro wd root rfl
      exact (sound.known _ root).elim unused unretired
    have kept : ∀ wd ∈ s.system.server.watchRoots,
        Function.update s.grantOf watchPoint.watchDescriptor (s.grants + 1) wd = s.grantOf wd :=
      fun wd root => Function.update_of_ne (different wd root) _ _
    have unregistered : ∀ path, (s.grants + 1, path) ∉ s.registrations := fun path mem =>
      absurd (h.granted _ mem) (Nat.not_succ_le_self _)
    constructor <;> dsimp only
    case numbered =>
      intro wd
      by_cases here : wd = watchPoint.watchDescriptor
      · simp [here]
      · simpa [Function.update_of_ne here] using Nat.le_succ_of_le (h.numbered wd)
    case granted => exact fun registration mem => Nat.le_succ_of_le (h.granted registration mem)
    case unique => exact h.unique
    case registered =>
      intro wd path root
      rw [roots] at root
      rw [kept wd (mem_iff_lookup.mpr ⟨path, root⟩)]
      exact h.registered wd path root
    case entering =>
      intro watchPoint' registering' _
      obtain rfl := Option.some_inj.mp (registering.symm.trans registering')
      rw [Function.update_self]
      exact unregistered
    case clock => exact h.clock
    case ended => exact h.ended
    case listening =>
      intro path listener found listens
      rw [watchPoints] at found
      rw [kept _ (mem_iff_lookup.mpr ⟨path, sound.root_of_watchPoint found⟩)]
      exact h.listening path listener found listens
    case earlier =>
      intro wd path time root
      rw [roots] at root
      rw [kept wd (mem_iff_lookup.mpr ⟨path, root⟩)]
      exact h.earlier wd path time root

/-- The watch point of a granted descriptor may be entered. -/
theorem enter (h : s.Recorded) {watchPoint : WatchPoint} {server : Server}
    (sound : Consistent s.system.server (some watchPoint))
    (entering : s.system.registering = some watchPoint)
    (entered : s.system.server.enterWatchPoint watchPoint = .ok server)
    (after : system.server = server) (idle : system.registering = none) :
    (s.enter system).Recorded := by
  obtain ⟨free, rfl⟩ := Server.enterWatchPoint_spec entered
  obtain ⟨absent, -⟩ := sound.entering watchPoint rfl
  -- No path was registered with the new grant, so it has not ended.
  have unregistered := h.entering watchPoint entering free
  have unended : s.endedAt (s.grantOf watchPoint.watchDescriptor) = none := by
    cases ended : s.endedAt (s.grantOf watchPoint.watchDescriptor) with
    | none => rfl
    | some time =>
      obtain ⟨path, registered⟩ := h.ended _ time ended
      exact absurd registered (unregistered path)
  simp only [Tracked.enter, entering, free, if_false]
  constructor <;> simp only [after, emplace_of_not_mem absent, lookup_insert_eq]
  case numbered => exact h.numbered
  case granted => exact List.forall_mem_cons.mpr ⟨h.numbered _, h.granted⟩
  case unique =>
    intro grant path other mem mem'
    rcases List.mem_cons.mp mem with new | old <;> rcases List.mem_cons.mp mem' with new' | old'
    · exact (Prod.mk.inj new).2.trans (Prod.mk.inj new').2.symm
    · exact absurd ((Prod.mk.inj new).1 ▸ old') (unregistered other)
    · exact absurd ((Prod.mk.inj new').1 ▸ old) (unregistered path)
    · exact h.unique grant path other old old'
  case registered =>
    intro wd path root
    split_ifs at root with here
    · obtain rfl := Option.some_inj.mp root
      exact here ▸ List.mem_cons_self
    · exact List.mem_cons_of_mem _ (h.registered wd path root)
  case entering => simp [idle]
  case clock =>
    intro path
    by_cases here : path = watchPoint.path
    · simp [here]
    · simpa [Function.update_of_ne here] using Nat.le_succ_of_le (h.clock path)
  case ended =>
    intro grant time ended
    obtain ⟨path, mem⟩ := h.ended grant time ended
    exact ⟨path, List.mem_cons_of_mem _ mem⟩
  case listening =>
    intro path listener found listens
    split_ifs at found with here
    · obtain rfl := Option.some_inj.mp found
      exact unended
    · exact h.listening path listener found listens
  case earlier =>
    intro wd path time root ended
    split_ifs at root with here
    · rw [here, unended] at ended
      cases ended
    · -- The path that is entered had no descriptor.
      have different : path ≠ watchPoint.path := by
        rintro rfl
        obtain ⟨other, found, -⟩ := (sound.roots wd _).mp root
        exact absent (mem_iff_lookup.mpr ⟨other, found⟩)
      rw [Function.update_of_ne different]
      exact h.earlier wd path time root ended

/-- The registrations of a path that is not listening may end. -/
theorem endRegistrations (h : s.Recorded) {path : U16String}
    (sound : Consistent s.system.server none)
    (stopped : NotListening s.system.server path) : (s.endRegistrations path).Recorded := by
  constructor <;> simp only [Tracked.endRegistrations]
  case numbered => exact h.numbered
  case granted => exact h.granted
  case unique => exact h.unique
  case registered => exact h.registered
  case entering => exact h.entering
  case clock => exact fun path => Nat.le_succ_of_le (h.clock path)
  case ended =>
    intro grant time ended
    split_ifs at ended with now
    · exact ⟨path, now.1⟩
    · exact h.ended grant time ended
  case listening =>
    intro other listener found listens
    have unended := h.listening other listener found listens
    rw [if_neg, unended]
    rintro ⟨registered, -⟩
    -- The grant was for one path only, and that path does not listen.
    have here := h.registered _ other (sound.root_of_watchPoint found)
    obtain rfl := h.unique _ _ _ registered here
    exact absurd (listens.symm.trans (stopped listener found)) (by decide)
  case earlier =>
    intro wd other time root ended
    split_ifs at ended with now
    · obtain rfl := Option.some_inj.mp ended
      exact Nat.le_succ_of_le (h.clock other)
    · exact h.earlier wd other time root ended

end Tracked.Recorded

end Recorded

/-- The record of the registrations is kept by every step. -/
theorem Tracked.Recorded.next {s t : Tracked} {label : Label} (sound : Sound s.system.server
    s.system.registering) (h : s.Recorded) (step : Tracked.machine.next s label = some t) :
    t.Recorded := by
  obtain ⟨system, inner, rfl⟩ := Option.map_eq_some_iff.mp step
  have consistent := sound.consistent
  cases label with
  | registerPath path answers =>
    obtain ⟨idle, fresh, rfl | ⟨watchPoint, inotify, begun, rfl⟩⟩ :=
      System.registerPath_spec inner
    · simp only [Tracked.track, Tracked.grant, idle]
      exact h.same rfl rfl (.inr rfl)
    · -- The descriptor was active, or it is a new grant.
      obtain ⟨object, -, added, -⟩ := Server.beginRegisterPath_spec begun
      dsimp only [Tracked.track]
      refine h.grant (idle ▸ consistent) fresh rfl rfl rfl ?_
      exact (Inotify.addWatch_spec added).imp And.left fun granted => granted.2.1
  | enterWatchPoint =>
    obtain ⟨watchPoint, entering, ⟨refused, rfl⟩ | ⟨server, entered, rfl⟩⟩ :=
      System.enterWatchPoint_spec inner
    · simp only [Tracked.track, Tracked.enter, entering, refused, if_true]
      exact h.same rfl rfl (.inl rfl)
    · exact h.enter (entering ▸ consistent) entering entered rfl rfl
  | unregisterPath path =>
    obtain ⟨idle, stopped, -, rfl⟩ := System.unregisterPath_spec inner
    have before : Consistent s.system.server none := idle ▸ consistent
    obtain ⟨after, only⟩ := before.unregisterPath path
    have queued : (s.queue { s.system with
        server := (s.system.server.unregisterPath path).2, stopped }).Recorded := by
      refine h.stop (fun wd other => before.roots_unregisterPath) only.listening ?_
      simp [idle]
    dsimp only [Tracked.track]
    split_ifs
    · exact queued.endRegistrations after before.notListening_unregisterPath
    · exact queued
  | stopWatchingMovedPaths absolutePathsToCheck =>
    -- The moved paths stop, but their registrations have not ended.
    obtain ⟨stopped, -, rfl⟩ := System.stopWatchingMovedPaths_spec inner
    obtain ⟨-, only, roots⟩ := consistent.stopWatchingMovedPaths absolutePathsToCheck
    refine h.stop (fun wd path => roots ▸ id) only.listening fun watchPoint entering absent => ?_
    exact ⟨entering, roots ▸ absent⟩
  | kernel kernelStep =>
    -- The kernel touches none of the tables.
    obtain ⟨inotify, taken, rfl⟩ := Option.map_eq_some_iff.mp inner
    cases kernelStep <;> exact h.same rfl rfl (.inr rfl)
  | read count =>
    obtain ⟨-, -, -, rfl⟩ := System.read_spec inner
    exact h.same rfl rfl (.inr rfl)
  | handle order =>
    obtain ⟨event, buffer, idle, -, ⟨ex, -, rfl⟩ | ⟨server, reports, handled, rfl⟩⟩ :=
      System.handled_cases inner
    · exact h.same rfl rfl (.inr rfl)
    · -- An event takes entries out of the tables at most.
      obtain ⟨roots, watchPoints⟩ := Server.handleEvent_tables handled
      dsimp only [Tracked.track]
      refine h.stop (fun wd path => ?_) (fun path watchPoint => ?_) (by simp [idle])
      · split_ifs <;> exact roots wd path
      · split_ifs <;> exact fun found _ => watchPoints path watchPoint found
  | shutdown =>
    obtain ⟨-, rfl⟩ := System.shutdown_spec inner
    exact h.same rfl rfl (.inr rfl)

/-! ## The events of ended registrations -/

/-- The report of a change or of an unknown event. -/
def ReportsChange : Report → Prop
  | .reportChangeEvent .. | .reportUnknownEvent _ => True
  | .reportOverflow _ | .reportFailure _ | .reportTermination => False

/-- Only the event of a listening watch point is reported as a change or as unknown. -/
theorem Server.handleEvent_change {server server' : Server} {event : InotifyEvent}
    {order : List U16String} {reports : List Report} {report : Report}
    (handled : server.handleEvent event order = .ok (server', reports)) (mem : report ∈ reports)
    (change : ReportsChange report) :
    event.Concerns event.wd ∧ ∃ path watchPoint,
      server.watchRoots.lookup event.wd = some path ∧
      server.watchPoints.lookup path = some watchPoint ∧ watchPoint.status = .listening := by
  have silent : ∀ {server''}, Except.ok (server'', []) =
      (Except.ok (server', reports) : Except CppException (Server × List Report)) → False := by
    intro server'' same
    obtain ⟨-, rfl⟩ := Prod.mk.inj (Except.ok.inj same)
    cases mem
  unfold Server.handleEvent at handled
  split at handled
  next => exact (silent handled).elim
  next =>
    split at handled
    next =>
      -- An overflow is reported for every watch point.
      obtain ⟨-, rfl⟩ := Prod.mk.inj (Except.ok.inj handled)
      obtain ⟨path, -, rfl⟩ := List.mem_map.mp mem
      exact change.elim
    next delivered =>
      split at handled
      next =>
        split at handled
        next => exact (silent handled).elim
        next => split at handled <;> exact (silent handled).elim
      next path root =>
        split at handled
        next => cases handled
        next watchPoint found =>
          split_ifs at handled with ends stopped
          · exact (silent handled).elim
          · exact (silent handled).elim
          · exact (silent handled).elim
          · have concerns : event.Concerns event.wd := ⟨rfl, by simpa using delivered⟩
            exact ⟨concerns, path, watchPoint, root, found, not_not.mp stopped⟩

section Ended

variable {s : Tracked} {server : Server} {event : InotifyEvent} {order : List U16String}
variable {reports : List Report} {time : ℕ}

/-- An event is reported as a change or as unknown only if the registration of the last grant
of its descriptor has not ended. -/
theorem Tracked.Recorded.unended_of_change (h : s.Recorded)
    (sound : Consistent s.system.server none) {buffer : List InotifyEvent}
    (handled : { s.system.server with buffer }.handleEvent event order = .ok (server, reports))
    {report : Report} (mem : report ∈ reports) (change : ReportsChange report) :
    event.Concerns event.wd ∧ s.endedAt (s.grantOf event.wd) = none := by
  obtain ⟨concerns, path, watchPoint, root, found, listens⟩ :=
    Server.handleEvent_change handled mem change
  obtain ⟨other, found', here⟩ := (sound.roots event.wd path).mp root
  obtain rfl := Option.some_inj.mp (found.symm.trans found')
  exact ⟨concerns, here ▸ h.listening path watchPoint found listens⟩

/-- An event of an ended registration leaves a watch point alone that was registered later. -/
theorem Tracked.Recorded.lookup_of_ended (h : s.Recorded) {buffer : List InotifyEvent}
    (handled : { s.system.server with buffer }.handleEvent event order = .ok (server, reports))
    (ended : event.Concerns event.wd → s.endedAt (s.grantOf event.wd) = some time)
    {path : U16String} {watchPoint : WatchPoint}
    (found : s.system.server.watchPoints.lookup path = some watchPoint)
    (later : time < s.registeredAt path) : server.watchPoints.lookup path = some watchPoint := by
  by_cases ends : event.Concerns event.wd ∧ event.IsIgnored
  · obtain ⟨rfl, -⟩ := Server.handleEvent_ignored ends.1 ends.2 handled
    unfold Server.finish
    split
    next => exact found
    next other root =>
      -- The watch point that leaves the tables was registered before.
      have different : path ≠ other := by
        rintro rfl
        exact absurd (h.earlier event.wd path time root (ended ends.1)) (not_le.mpr later)
      exact (AList.lookup_erase_ne different).trans found
  · obtain rfl := Server.handleEvent_other ends handled
    exact found

/-- The record is right in every state that is reached. -/
theorem Tracked.recorded (reach : Tracked.machine.Reachable s) :
    Sound s.system.server s.system.registering ∧ s.Pending ∧ s.Recorded := by
  refine reach.invariant (I := fun s => Sound s.system.server s.system.registering ∧
    s.Pending ∧ s.Recorded) ⟨sound_start, ?_, ?_⟩ ?_
  · constructor <;> simp [Tracked.machine, Linux.machine, System.unhandled, Inotify.init]
  · constructor <;> simp [Tracked.machine, Linux.machine]
  · rintro s label t ⟨sound, pending, recorded⟩ step
    refine ⟨?_, pending.next sound step, recorded.next sound step⟩
    obtain ⟨system, inner, rfl⟩ := Option.map_eq_some_iff.mp step
    rw [Tracked.system_track]
    exact sound.next inner

/-- An event that is handled is the first one of the record. If the registration it was
queued for has ended, it is not reported as a change or as unknown, and no watch point
leaves the tables or changes that was registered since. -/
theorem no_event_of_ended (s : Tracked) (reach : Tracked.machine.Reachable s)
    (order : List U16String) (system : System) (reports : List Report)
    (handled : s.system.handle order = some (system, reports)) :
    ∃ grant event rest, s.pending = (grant, event) :: rest ∧
      s.system.server.buffer.head? = some event ∧
      ∀ time, s.endedAt grant = some time →
        (∀ report ∈ reports, ¬ ReportsChange report) ∧
        ∀ path watchPoint, s.system.server.watchPoints.lookup path = some watchPoint →
          time < s.registeredAt path →
          system.server.watchPoints.lookup path = some watchPoint := by
  obtain ⟨sound, pending, recorded⟩ := Tracked.recorded reach
  obtain ⟨event, buffer, idle, next, -, dispatched⟩ := System.handle_spec handled
  have consistent : Consistent s.system.server none := idle ▸ sound.consistent
  obtain ⟨⟨grant, event'⟩, rest, first, same, -⟩ : ∃ tagged rest, s.pending = tagged :: rest ∧
      tagged.2 = event ∧ rest.map Prod.snd = buffer ++ s.system.server.inotify.queue := by
    refine List.map_eq_cons_iff.mp (pending.aligned.trans ?_)
    rw [System.unhandled, next]
    rfl
  obtain rfl : event' = event := same
  have current : event'.Concerns event'.wd → grant = s.grantOf event'.wd :=
    pending.current (grant, event') (first ▸ List.mem_cons_self)
  refine ⟨grant, event', rest, first, by rw [next]; rfl, fun time ended => ?_⟩
  unfold System.dispatch at dispatched
  split at dispatched
  next ex thrown =>
    -- The tables are as before, and a failure is reported.
    obtain ⟨rfl, rfl⟩ := Prod.mk.inj dispatched
    exact ⟨by simp [ReportsChange], fun path watchPoint found _ => found⟩
  next server reports' succeeded =>
    obtain ⟨rfl, rfl⟩ := Prod.mk.inj dispatched
    refine ⟨fun report mem change => ?_, fun path watchPoint found later => ?_⟩
    · obtain ⟨concerns, unended⟩ := recorded.unended_of_change consistent succeeded mem change
      rw [← current concerns, ended] at unended
      cases unended
    · have kept := recorded.lookup_of_ended succeeded (fun concerns => current concerns ▸ ended)
        found later
      dsimp only
      split_ifs
      · exact kept
      · exact kept

/-- A directory is registered and unregistered, with an event in the buffer, and registered
again. The event and then the end of the first watch are handled. -/
def restartedRun : List Label :=
  [.registerPath (u16 "/a") (directoryAnswers 1), .enterWatchPoint,
    .kernel (.event 1 IN_CREATE [0x66]), .read 1, .unregisterPath (u16 "/a"),
    .registerPath (u16 "/a") (directoryAnswers 2), .enterWatchPoint, .handle [u16 "/a"],
    .read 1]

theorem no_event_of_ended_restarted :
    ∃ s : Tracked, Tracked.machine.Reachable s ∧ s.endedAt 1 = some 2 ∧
      s.registeredAt (u16 "/a") = 3 ∧
      ∃ system reports, s.system.handle [u16 "/a"] = some (system, reports) ∧
        (∀ report ∈ reports, ¬ ReportsChange report) ∧ u16 "/a" ∈ system.server.watchPoints := by
  have computed : (Tracked.machine.exec Tracked.machine.start restartedRun).map (fun s =>
      (s.endedAt 1, s.registeredAt (u16 "/a"), s.pending.map Prod.fst,
        (s.system.server.watchPoints.lookup (u16 "/a")).isSome,
        (s.system.handle [u16 "/a"]).isSome)) = some (some 2, 3, [1], true, true) := by decide
  obtain ⟨s, reach, last⟩ := Machine.observe_of_exec computed
  simp only [Prod.mk.injEq] at last
  obtain ⟨ended, later, tags, watched, enabled⟩ := last
  obtain ⟨⟨system, reports⟩, handled⟩ := Option.isSome_iff_exists.mp enabled
  obtain ⟨watchPoint, found⟩ := Option.isSome_iff_exists.mp watched
  obtain ⟨grant, event, rest, first, -, quiet⟩ :=
    no_event_of_ended s reach [u16 "/a"] system reports handled
  obtain rfl : grant = 1 := by
    rw [first] at tags
    exact (List.cons_eq_cons.mp tags).1
  obtain ⟨silent, kept⟩ := quiet 2 ended
  have stays := kept (u16 "/a") watchPoint found (by omega)
  exact ⟨s, reach, ended, later, system, reports, handled, silent,
    mem_iff_lookup.mpr ⟨watchPoint, stays⟩⟩

end Ended

end Linux

end FileEvents
