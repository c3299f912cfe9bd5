import FileEvents.Linux.Consistency
import Mathlib.Logic.Relation

/-!
# The table invariant of the Linux server

Every step of the server at work keeps its tables consistent with the kernel and the
streams of events well formed. As long as no event is lost and no handler throws, every
retired descriptor moreover has its `IN_IGNORED` among the unhandled events.

## Main definitions

* `Sound` — the invariant of all runs
* `Lossless` — the steps that lose no event

## Main results

* `sound` — every reachable state is sound
* `tables_invariant` — the tables of watched paths are inverse to each other, and each
  watched or recently unregistered descriptor is active or has exactly one unhandled
  `IN_IGNORED`
-/

namespace FileEvents

namespace Linux

open Delivery Transition

/-! ## What the functions do to the kernel -/

/-- Some active watches are removed, one after the other. -/
def Retires : Inotify → Inotify → Prop :=
  Relation.ReflTransGen fun before after =>
    ∃ wd ∈ before.active, after = before.retire wd

/-- What a removal of active watches keeps, the removal of several keeps. -/
theorem Retires.invariant {I : Inotify → Prop} {before after : Inotify}
    (retires : Retires before after) (holds : I before)
    (keeps : ∀ inotify, ∀ wd ∈ inotify.active, I inotify → I (inotify.retire wd)) :
    I after := by
  induction retires with
  | refl => exact holds
  | tail _ last ih =>
    obtain ⟨wd, mem, rfl⟩ := last
    exact keeps _ wd mem ih

/-- The function only stops watching: it removes watches from the kernel, makes no watch
point listen and leaves the buffer alone. -/
structure OnlyStops (before after : Server) : Prop where
  retires : Retires before.inotify after.inotify
  buffer : after.buffer = before.buffer
  shouldTerminate : after.shouldTerminate = before.shouldTerminate
  listening : ∀ path watchPoint, after.watchPoints.lookup path = some watchPoint →
    watchPoint.status = .listening → before.watchPoints.lookup path = some watchPoint

theorem OnlyStops.refl (server : Server) : OnlyStops server server :=
  ⟨.refl, rfl, rfl, fun _ _ found _ => found⟩

theorem OnlyStops.trans {first second third : Server} (h : OnlyStops first second)
    (h' : OnlyStops second third) : OnlyStops first third :=
  ⟨h.retires.trans h'.retires, h'.buffer.trans h.buffer,
    h'.shouldTerminate.trans h.shouldTerminate, fun path watchPoint found listens =>
      h.listening path watchPoint (h'.listening path watchPoint found listens) listens⟩

/-- A watch point may be forgotten. -/
theorem OnlyStops.forget (server : Server) (path : U16String) (wd : WatchDescriptor) :
    OnlyStops server (server.forgetWatchPoint path wd) := by
  refine ⟨.refl, rfl, rfl, fun other watchPoint found _ => ?_⟩
  simp only [Server.forgetWatchPoint, lookup_erase_eq] at found
  split_ifs at found
  exact found

/-- The three outcomes of `cancel`. It does not throw. -/
theorem WatchPoint.cancel_cases (watchPoint : WatchPoint) (inotify : Inotify) :
    (watchPoint.status = .cancelled ∧
      watchPoint.cancel inotify = (.ok .alreadyCancelled, watchPoint, inotify)) ∨
    (watchPoint.status = .listening ∧ watchPoint.watchDescriptor ∈ inotify.active ∧
      watchPoint.cancel inotify = (.ok .cancelled, { watchPoint with status := .cancelled },
        inotify.retire watchPoint.watchDescriptor)) ∨
    (watchPoint.status = .listening ∧ watchPoint.watchDescriptor ∉ inotify.active ∧
      watchPoint.cancel inotify =
        (.ok .notCancelled, { watchPoint with status := .cancelled }, inotify)) := by
  cases status : watchPoint.status with
  | cancelled => exact .inl ⟨rfl, by simp [WatchPoint.cancel, status]⟩
  | listening =>
    by_cases mem : watchPoint.watchDescriptor ∈ inotify.active
    · exact .inr (.inl ⟨rfl, mem, by simp [WatchPoint.cancel, status, Inotify.rmWatch, mem]⟩)
    · exact .inr (.inr ⟨rfl, mem, by
        simp [WatchPoint.cancel, status, Inotify.rmWatch, mem, EINVAL]⟩)

section Functions

variable {server : Server} {registering : Option WatchPoint} {watchPoint : WatchPoint}
variable {path : U16String}

/-- A cancelled watch point stays in the tables with its watch gone. -/
structure CancelSpec (server : Server) (registering : Option WatchPoint) (path : U16String)
    (watchPoint : WatchPoint) (result : CancelResult) (after : Server) : Prop where
  already : result = .alreadyCancelled ↔ watchPoint.status = .cancelled
  consistent : Consistent after registering
  found : after.watchPoints.lookup path = some { watchPoint with status := .cancelled }
  gone : watchPoint.watchDescriptor ∉ after.inotify.active
  roots : after.watchRoots = server.watchRoots
  stops : OnlyStops server after

/-- Cancelling a watch point of consistent tables. -/
theorem Consistent.cancelWatchPoint (h : Consistent server registering)
    (found : server.watchPoints.lookup path = some watchPoint) :
    ∃ result after, server.cancelWatchPoint path watchPoint = (.ok result, after) ∧
      CancelSpec server registering path watchPoint result after := by
  -- The entry that is written back does not listen.
  have listening : ∀ written : WatchPoint, written.status = .cancelled →
      ∀ other watchPoint', (server.watchPoints.insert path written).lookup other =
        some watchPoint' → watchPoint'.status = .listening →
        server.watchPoints.lookup other = some watchPoint' := by
    intro written stopped other watchPoint' found' listens
    rw [lookup_insert_eq] at found'
    split_ifs at found'
    · obtain rfl := Option.some_inj.mp found'
      rw [stopped] at listens
      cases listens
    · exact found'
  rcases watchPoint.cancel_cases server.inotify with
    ⟨status, result⟩ | ⟨status, active, result⟩ | ⟨status, gone, result⟩
  -- It was cancelled before: nothing changes.
  · have gone := h.cancelled path watchPoint found status
    have same : { watchPoint with status := WatchPointStatus.cancelled } = watchPoint := by
      rw [← status]
    refine ⟨_, _, by rw [Server.cancelWatchPoint, result], ?_⟩
    refine ⟨by simp [status], ?_, ?_, gone, rfl, .refl, rfl, rfl, listening _ status⟩
    · exact same ▸ h.cancel found gone
    · exact same ▸ AList.lookup_insert _
  -- The kernel still watches it, and `inotify_rm_watch` removes the watch.
  · have gone : watchPoint.watchDescriptor ∉
        (server.inotify.retire watchPoint.watchDescriptor).active := by simp
    refine ⟨_, _, by rw [Server.cancelWatchPoint, result], ?_⟩
    exact ⟨by simp [status], (h.retire _).cancel found gone, AList.lookup_insert _, gone, rfl,
      .single ⟨_, active, rfl⟩, rfl, rfl, listening _ rfl⟩
  -- The kernel has removed the watch before: `EINVAL`.
  · refine ⟨_, _, by rw [Server.cancelWatchPoint, result], ?_⟩
    exact ⟨by simp [status], h.cancel found gone, AList.lookup_insert _, gone, rfl, .refl, rfl,
      rfl, listening _ rfl⟩

/-- `unregisterPath` on consistent tables. -/
theorem Consistent.unregisterPath (h : Consistent server none) (path : U16String) :
    Consistent (server.unregisterPath path).2 none ∧
      OnlyStops server (server.unregisterPath path).2 := by
  unfold Server.unregisterPath
  split
  case h_1 => split <;> exact ⟨h, .refl server⟩
  case h_2 watchPoint found =>
    obtain ⟨result, after, cancelled, spec⟩ := h.cancelWatchPoint found
    rw [cancelled]
    have forgotten := spec.consistent.forget spec.found spec.gone
    cases result with
    | alreadyCancelled => exact ⟨spec.consistent, spec.stops⟩
    | cancelled | notCancelled =>
      exact ⟨forgotten, spec.stops.trans (.forget _ _ _)⟩

/-- One iteration of `stopWatchingMovedPaths` on consistent tables. -/
theorem Consistent.stopWatchingMovedPath (h : Consistent server registering)
    (path : U16String) (lstat : Except Errno ℕ) :
    Consistent (server.stopWatchingMovedPath path lstat).2 registering ∧
      OnlyStops server (server.stopWatchingMovedPath path lstat).2 ∧
      (server.stopWatchingMovedPath path lstat).2.watchRoots = server.watchRoots := by
  unfold Server.stopWatchingMovedPath
  split
  case h_1 => exact ⟨h, .refl server, rfl⟩
  case h_2 watchPoint found =>
    obtain ⟨result, after, cancelled, spec⟩ := h.cancelWatchPoint found
    rw [cancelled]
    split_ifs with stopped unmoved
    · exact ⟨h, .refl server, rfl⟩
    · split <;> exact ⟨h, .refl server, rfl⟩
    · split
      · exact ⟨h, .refl server, rfl⟩
      · exact ⟨spec.consistent, spec.stops, spec.roots⟩

/-- `stopWatchingMovedPaths` on consistent tables. -/
theorem Consistent.stopWatchingMovedPaths (h : Consistent server registering)
    (absolutePathsToCheck : List (U16String × Except Errno ℕ)) :
    Consistent (server.stopWatchingMovedPaths absolutePathsToCheck).2 registering ∧
      OnlyStops server (server.stopWatchingMovedPaths absolutePathsToCheck).2 ∧
      (server.stopWatchingMovedPaths absolutePathsToCheck).2.watchRoots = server.watchRoots := by
  -- Each round starts from the tables the round before has left.
  induction absolutePathsToCheck generalizing server with
  | nil => exact ⟨h, .refl server, rfl⟩
  | cons check rest ih =>
    obtain ⟨path, lstat⟩ := check
    obtain ⟨first, stops, roots⟩ := h.stopWatchingMovedPath path lstat
    obtain ⟨others, stopsOthers, rootsOthers⟩ := ih first
    unfold Server.stopWatchingMovedPaths
    split
    next ex after thrown => simpa [thrown] using And.intro first (And.intro stops roots)
    next dropped after checked =>
      rw [checked] at first stops roots others stopsOthers rootsOthers
      have both := And.intro others
        (And.intro (stops.trans stopsOthers) (rootsOthers.trans roots))
      split
      next ex last thrown => simpa [thrown] using both
      next droppedPaths last checkedOthers => simpa [checkedOthers] using both

end Functions

/-! ## The invariant of all runs -/

/-- Removing watches keeps the streams well formed. -/
theorem Streams.of_onlyStops {before after : Server} (h : Streams before)
    (only : OnlyStops before after) : Streams after := by
  obtain ⟨retires, buffer, -⟩ := only
  have kept : Streams { before with inotify := after.inotify } :=
    retires.invariant (I := fun inotify => Streams { before with inotify }) h
      fun inotify wd mem h => h.retire mem
  have same : ∀ wd, after.concerning wd = { before with inotify := after.inotify }.concerning wd :=
    fun wd => by simp [Server.concerning, buffer]
  constructor
  · exact fun wd mem => same wd ▸ kept.active wd mem
  · exact fun wd mem => same wd ▸ kept.retired wd mem
  · exact fun wd inactive unretired => (same wd).trans (kept.gone wd inactive unretired)

/-- The server agrees with the kernel and the streams of events are well formed. -/
structure Sound (server : Server) (registering : Option WatchPoint) : Prop where
  consistent : Consistent server registering
  streams : Streams server

namespace Sound

variable {server server' : Server} {registering : Option WatchPoint} {watchPoint : WatchPoint}
variable {path : U16String} {event : InotifyEvent} {buffer : List InotifyEvent}

/-- What the kernel does on its own keeps the invariant, lost events included. -/
theorem step (h : Sound server registering) {step : Inotify.Step} {inotify : Inotify}
    (taken : server.inotify.step step = some inotify) :
    Sound { server with inotify } registering := by
  obtain ⟨consistent, streams⟩ := h
  obtain ⟨wd, mask, name, -, active, ordinary, -, rfl⟩ | ⟨wd, mask, -, active, ordinary, -, rfl⟩ |
    ⟨-, rfl⟩ | ⟨index, -, rfl⟩ := Inotify.step_cases taken
  · exact ⟨consistent.congr rfl rfl,
      streams.push ordinary.not_isIgnored fun _ concerns => concerns.1 ▸ active⟩
  · -- The last event comes before the `IN_IGNORED`.
    have last : Streams
        { server with inotify := server.inotify.push { wd, mask, name := [] } } :=
      streams.push ordinary.not_isIgnored fun _ concerns => concerns.1 ▸ active
    have same : Consistent
        { server with inotify := server.inotify.push { wd, mask, name := [] } } registering :=
      consistent.congr rfl rfl
    exact ⟨same.retire wd, last.retire active⟩
  · exact ⟨consistent.congr rfl rfl, streams.push (by decide) fun wd concerns =>
      absurd concerns (InotifyEvent.not_concerns_overflow wd)⟩
  · refine ⟨consistent.congr rfl rfl, streams.sublist rfl rfl ?_⟩
    exact (List.eraseIdx_sublist _ _).append_left _

/-- `inotify_add_watch` and the beginning of `registerPath`. -/
theorem register (h : Sound server none) {answers : RegisterAnswers} {inotify : Inotify}
    (fresh : server.inotify.CanGrant answers.fresh)
    (begun : server.beginRegisterPath path answers = .ok (watchPoint, inotify)) :
    Sound { server with inotify } (some watchPoint) := by
  refine ⟨h.consistent.grant fresh begun, ?_⟩
  obtain ⟨object, -, added, -⟩ := Server.beginRegisterPath_spec begun
  exact h.streams.grant fresh added

/-- The rest of `registerPath`. -/
theorem enter (h : Sound server (some watchPoint))
    (entered : server.enterWatchPoint watchPoint = .ok server') : Sound server' none := by
  refine ⟨h.consistent.enter entered, ?_⟩
  obtain ⟨-, rfl⟩ := Server.enterWatchPoint_spec entered
  exact ⟨h.streams.active, h.streams.retired, h.streams.gone⟩

/-- The handling of the next event. -/
theorem handleEvent (h : Sound server none) (next : server.buffer = event :: buffer)
    {order : List U16String} {reports : List Report}
    (handled : { server with buffer }.handleEvent event order = .ok (server', reports)) :
    Sound
      (if event.Concerns event.wd ∧ event.IsIgnored then
        { server' with inotify := server'.inotify.release event.wd }
      else server') none := by
  have rest : Streams { server with buffer } := by
    apply h.streams.sublist rfl rfl
    rw [next]
    exact (List.sublist_cons_self _ _).append_right _
  have consistent : Consistent { server with buffer } none := h.consistent.congr rfl rfl
  split_ifs with ends
  -- This is the last event of a retired descriptor, which may be granted again now.
  · obtain ⟨retired, gone, done⟩ := h.streams.of_ignored ends.2 ends.1 next
    obtain ⟨rfl, -⟩ := Server.handleEvent_ignored ends.1 ends.2 handled
    have finished := consistent.finish gone
    have released := rest.release done
    unfold Server.finish at finished ⊢
    split at finished <;> exact ⟨finished, released.active, released.retired, released.gone⟩
  · obtain rfl := Server.handleEvent_other ends handled
    exact ⟨consistent, rest⟩

end Sound

/-- Every step keeps the invariant, whether or not events get lost or a handler throws. -/
theorem Sound.next {s t : System} {label : Label} (h : Sound s.server s.registering)
    (step : s.next label = some t) : Sound t.server t.registering := by
  cases label with
  | registerPath path answers =>
    obtain ⟨idle, fresh, rfl | ⟨watchPoint, inotify, begun, rfl⟩⟩ := System.registerPath_spec step
    · exact h
    · exact (idle ▸ h).register fresh begun
  | enterWatchPoint =>
    obtain ⟨watchPoint, entering, ⟨refused, rfl⟩ | ⟨server, entered, rfl⟩⟩ :=
      System.enterWatchPoint_spec step
    · -- If the path was refused, the tables have not changed.
      exact ⟨(entering ▸ h.consistent).enter_refused refused, h.streams⟩
    · exact (entering ▸ h).enter entered
  | unregisterPath path =>
    obtain ⟨idle, stopped, -, rfl⟩ := System.unregisterPath_spec step
    have consistent : Consistent s.server none := idle ▸ h.consistent
    obtain ⟨after, only⟩ := consistent.unregisterPath path
    exact ⟨idle ▸ after, h.streams.of_onlyStops only⟩
  | stopWatchingMovedPaths absolutePathsToCheck =>
    obtain ⟨stopped, -, rfl⟩ := System.stopWatchingMovedPaths_spec step
    obtain ⟨after, only, -⟩ := h.consistent.stopWatchingMovedPaths absolutePathsToCheck
    exact ⟨after, h.streams.of_onlyStops only⟩
  | kernel kernelStep =>
    obtain ⟨inotify, taken, rfl⟩ := Option.map_eq_some_iff.mp step
    exact h.step taken
  | read count =>
    obtain ⟨empty, -, -, rfl⟩ := System.read_spec step
    -- The events change place only.
    refine ⟨h.consistent.congr rfl rfl, h.streams.sublist rfl rfl ?_⟩
    simp
  | handle order =>
    obtain ⟨event, buffer, idle, next, ⟨ex, thrown, rfl⟩ | ⟨server, reports, handled, rfl⟩⟩ :=
      System.handled_cases step
    · refine ⟨h.consistent.congr rfl rfl, h.streams.sublist rfl rfl ?_⟩
      exact List.sublist_append_right _ _
    · rw [idle] at h
      exact idle ▸ h.handleEvent next handled
  | shutdown =>
    obtain ⟨-, rfl⟩ := System.shutdown_spec step
    exact ⟨h.consistent.congr rfl rfl, h.streams.active, h.streams.retired, h.streams.gone⟩

theorem sound_start : Sound machine.start.server machine.start.registering := by
  refine ⟨?_, ?_⟩ <;> constructor <;> simp [machine, Inotify.init, Server.concerning]

/-- The invariant of all runs. -/
theorem sound {s : System} (reach : machine.Reachable s) : Sound s.server s.registering :=
  reach.invariant (I := fun s => Sound s.server s.registering) sound_start
    fun _ _ _ h step => h.next step

/-! ## Runs that lose no event -/

/-- The kernel loses no event and no handler throws. -/
def Lossless (s : System) : Label → Prop
  | .kernel (.lose _) => False
  | .handle order => ∀ event buffer, s.server.buffer = event :: buffer →
    ({ s.server with buffer }.handleEvent event order).isOk = true
  | _ => True

instance (s : System) : (label : Label) → Decidable (Lossless s label)
  | .kernel (.lose _) => instDecidableFalse
  | .handle order =>
    match next : s.server.buffer with
    | [] => .isTrue fun event buffer other => by rw [next] at other; cases other
    | event :: buffer =>
      decidable_of_iff (({ s.server with buffer }.handleEvent event order).isOk = true)
        ⟨fun ok event' buffer' other => by
          rw [next] at other
          obtain ⟨rfl, rfl⟩ := List.cons_eq_cons.mp other
          exact ok, fun ok => ok event buffer next⟩
  | .kernel (.event ..) | .kernel (.remove ..) | .kernel .overflow | .registerPath ..
  | .enterWatchPoint | .unregisterPath _ | .stopWatchingMovedPaths _ | .read _ | .shutdown =>
    instDecidableTrue

/-- Every retired descriptor still has its `IN_IGNORED` among the unhandled events. -/
def Announced (server : Server) : Prop :=
  ∀ wd ∈ server.inotify.retired, ∃ event ∈ server.concerning wd, event.IsIgnored

namespace Announced

variable {server server' : Server} {event : InotifyEvent} {buffer : List InotifyEvent}

/-- Queuing an event withdraws none. -/
theorem push (h : Announced server) (event : InotifyEvent) :
    Announced { server with inotify := server.inotify.push event } := by
  intro wd mem
  obtain ⟨last, concerns, ends⟩ := h wd mem
  exact ⟨last, concerning_push ▸ List.mem_append_left _ concerns, ends⟩

/-- The removal of a watch is announced. -/
theorem retire (h : Announced server) (wd : WatchDescriptor) :
    Announced { server with inotify := server.inotify.retire wd } := by
  intro other mem
  rw [concerning_retire]
  rcases List.mem_cons.mp mem with rfl | mem
  · exact ⟨.ignored other, by simp, by simp⟩
  · obtain ⟨last, concerns, ends⟩ := h other mem
    exact ⟨last, List.mem_append_left _ concerns, ends⟩

theorem of_onlyStops {before after : Server} (h : Announced before)
    (only : OnlyStops before after) : Announced after := by
  have kept : Announced { before with inotify := after.inotify } :=
    only.retires.invariant (I := fun inotify => Announced { before with inotify }) h
      fun inotify wd _ h => h.retire wd
  intro wd mem
  obtain ⟨last, concerns, ends⟩ := kept wd mem
  exact ⟨last, by simpa [Server.concerning, only.buffer] using concerns, ends⟩

/-- Handling an event without an exception withdraws an announcement only together with
the retirement. -/
theorem handleEvent (h : Announced server) (next : server.buffer = event :: buffer)
    {order : List U16String} {reports : List Report}
    (handled : { server with buffer }.handleEvent event order = .ok (server', reports)) :
    Announced
      (if event.Concerns event.wd ∧ event.IsIgnored then
        { server' with inotify := server'.inotify.release event.wd }
      else server') := by
  have rest : ∀ wd, ¬ (event.Concerns wd ∧ event.IsIgnored) → wd ∈ server.inotify.retired →
      ∃ last ∈ { server with buffer }.concerning wd, last.IsIgnored := by
    intro wd other mem
    obtain ⟨last, concerns, ends⟩ := h wd mem
    simp only [Server.concerning, next, List.cons_append, List.filter_cons] at concerns
    -- The announcement is the event being handled, or it is behind it.
    split_ifs at concerns with here
    · rcases List.mem_cons.mp concerns with rfl | concerns
      · exact absurd ⟨by simpa using here, ends⟩ other
      · exact ⟨last, concerns, ends⟩
    · exact ⟨last, concerns, ends⟩
  split_ifs with ends
  · obtain ⟨rfl, -⟩ := Server.handleEvent_ignored ends.1 ends.2 handled
    intro wd mem
    unfold Server.finish at mem ⊢
    split at mem <;>
    · obtain ⟨different, mem⟩ := Inotify.mem_retired_release.mp mem
      exact rest wd (fun same => different same.1.1.symm) mem
  · obtain rfl := Server.handleEvent_other ends handled
    exact fun wd => rest wd fun same => ends ⟨⟨rfl, same.1.2⟩, same.2⟩

/-- A step that loses no event keeps the announcements. -/
theorem next {s t : System} {label : Label} (sound : Sound s.server s.registering)
    (h : Announced s.server) (meets : Lossless s label) (step : s.next label = some t) :
    Announced t.server := by
  cases label with
  | registerPath path answers =>
    obtain ⟨-, -, rfl | ⟨watchPoint, inotify, begun, rfl⟩⟩ := System.registerPath_spec step
    · exact h
    · obtain ⟨object, -, added, -⟩ := Server.beginRegisterPath_spec begun
      rcases Inotify.addWatch_spec added with ⟨-, rfl⟩ | ⟨-, -, rfl⟩ <;> exact h
  | enterWatchPoint =>
    obtain ⟨watchPoint, -, ⟨-, rfl⟩ | ⟨server, entered, rfl⟩⟩ := System.enterWatchPoint_spec step
    · exact h
    · obtain ⟨-, rfl⟩ := Server.enterWatchPoint_spec entered
      exact h
  | unregisterPath path =>
    obtain ⟨idle, stopped, -, rfl⟩ := System.unregisterPath_spec step
    -- Stopping a watch point removes no announcement.
    obtain ⟨-, only⟩ := (idle ▸ sound.consistent).unregisterPath path
    exact h.of_onlyStops only
  | stopWatchingMovedPaths absolutePathsToCheck =>
    obtain ⟨stopped, -, rfl⟩ := System.stopWatchingMovedPaths_spec step
    obtain ⟨-, only, -⟩ := sound.consistent.stopWatchingMovedPaths absolutePathsToCheck
    exact h.of_onlyStops only
  | kernel kernelStep =>
    obtain ⟨inotify, taken, rfl⟩ := Option.map_eq_some_iff.mp step
    -- The kernel announces what it retires, and a lossless step drops no event.
    obtain ⟨wd, mask, name, -, -, -, -, rfl⟩ | ⟨wd, mask, -, -, -, -, rfl⟩ | ⟨-, rfl⟩ |
      ⟨index, rfl, -⟩ := Inotify.step_cases taken
    · exact h.push _
    · exact (h.push _).retire wd
    · exact h.push _
    · exact meets.elim
  | read count =>
    obtain ⟨empty, -, -, rfl⟩ := System.read_spec step
    intro wd mem
    obtain ⟨last, concerns, ends⟩ := h wd mem
    exact ⟨last, by simpa [Server.concerning, System.fill, empty] using concerns, ends⟩
  | handle order =>
    obtain ⟨event, buffer, -, next, ⟨ex, thrown, rfl⟩ | ⟨server, reports, handled, rfl⟩⟩ :=
      System.handled_cases step
    · -- An exception would lose the events behind.
      have returned := meets event buffer next
      simp [thrown, Except.isOk, Except.toBool] at returned
    · exact h.handleEvent next handled
  | shutdown =>
    obtain ⟨-, rfl⟩ := System.shutdown_spec step
    exact h

end Announced

theorem announced {s : System} (reach : machine.ReachableWhere Lossless s) :
    Announced s.server :=
  reach.invariant_of (I := fun s => Announced s.server) (fun _ reach => sound reach.reachable)
    (by simp [Announced, machine, Inotify.init])
    fun _ _ _ sound h meets step => h.next sound meets step

/-- The tables of a server and the kernel's active descriptors are in step, where
`registering` has a watch that the tables do not know yet. -/
structure TableInvariant (server : Server) (registering : Option WatchPoint) : Prop where
  /-- The two tables of watched paths are inverse to each other. -/
  inverse : ∀ wd path, server.watchRoots.lookup wd = some path ↔
    ∃ watchPoint, server.watchPoints.lookup path = some watchPoint ∧
      watchPoint.watchDescriptor = wd
  /-- `watchPoints.at(path)` does not fail in `handleEvent`. -/
  at_succeeds : ∀ event order, server.handleEvent event order ≠ .error .outOfRange
  /-- No descriptor is both watched and recently unregistered. -/
  disjoint : ∀ wd ∈ server.watchRoots, wd ∉ server.recentlyUnregisteredWatchRoots
  /-- The `IN_IGNORED` of a watched descriptor is unhandled once, and only once the watch was
  removed. -/
  watched : ∀ wd ∈ server.watchRoots,
    (server.concerning wd).countP (fun event => event.IsIgnored) =
      if wd ∈ server.inotify.active then 0 else 1
  /-- The watch of a recently unregistered descriptor was removed, and its `IN_IGNORED` is
  unhandled once. -/
  recent : ∀ wd ∈ server.recentlyUnregisteredWatchRoots, wd ∉ server.inotify.active ∧
    (server.concerning wd).countP (fun event => event.IsIgnored) = 1
  /-- The watch of a cancelled watch point was removed. -/
  cancelled : ∀ path watchPoint, server.watchPoints.lookup path = some watchPoint →
    watchPoint.status = .cancelled → watchPoint.watchDescriptor ∉ server.inotify.active
  /-- Every active descriptor has a listening watch point or is being registered. -/
  listening : ∀ wd ∈ server.inotify.active,
    (∃ path watchPoint, server.watchPoints.lookup path = some watchPoint ∧
      watchPoint.status = .listening ∧ watchPoint.watchDescriptor = wd) ∨
    ∃ watchPoint, registering = some watchPoint ∧ watchPoint.watchDescriptor = wd

theorem Streams.countP_of_active {server : Server} {wd : WatchDescriptor} (h : Streams server)
    (mem : wd ∈ server.inotify.active) :
    (server.concerning wd).countP (fun event => event.IsIgnored) = 0 := by
  simpa [List.countP_eq_zero, Open] using h.active wd mem

theorem Streams.countP_of_retired {server : Server} {wd : WatchDescriptor} (h : Streams server)
    (announced : Announced server) (mem : wd ∈ server.inotify.retired) :
    (server.concerning wd).countP (fun event => event.IsIgnored) = 1 := by
  have most := (h.retired wd mem).countP_le_one
  obtain ⟨last, concerns, ends⟩ := announced wd mem
  have least : 0 < (server.concerning wd).countP fun event => event.IsIgnored :=
    List.countP_pos_iff.mpr ⟨last, concerns, by simpa using ends⟩
  omega

/-- In every run that loses no event the tables and the kernel are in step, whatever the
order of the client calls, the kernel's steps and the handling of events. -/
theorem tables_invariant (s : System) (reach : machine.ReachableWhere Lossless s) :
    TableInvariant s.server s.registering := by
  obtain ⟨consistent, streams⟩ := sound reach.reachable
  have announced := announced reach
  constructor
  case inverse => exact consistent.roots
  case at_succeeds => exact Server.Inverse.at_succeeds consistent.roots
  case disjoint => exact fun wd watched recent => (consistent.recent wd recent).2 watched
  case watched =>
    intro wd watched
    split_ifs with active
    · exact streams.countP_of_active active
    · exact streams.countP_of_retired announced ((consistent.known wd watched).resolve_left active)
  case recent =>
    intro wd recent
    have retired := (consistent.recent wd recent).1
    exact ⟨fun active => consistent.active wd active retired,
      streams.countP_of_retired announced retired⟩
  case cancelled => exact consistent.cancelled
  case listening => exact consistent.listening

/-- A directory is registered, unregistered and registered again while an event and the
`IN_IGNORED` of its first registration are on their way. -/
def reregistration : List Label :=
  let answers : WatchDescriptor → RegisterAnswers := fun fresh =>
    { lstat := .ok 7, addWatch := .ok ⟨1, 7⟩, fresh }
  [.registerPath (u16 "/a") (answers 1), .enterWatchPoint,
    .kernel (.event 1 IN_CREATE [0x66]), .read 1, .unregisterPath (u16 "/a"),
    .registerPath (u16 "/a") (answers 2), .enterWatchPoint, .handle [u16 "/a"]]

theorem tables_invariant_reregistration :
    ∃ s, machine.ReachableWhere Lossless s ∧ s.server.watchRoots.keys = [2] ∧
      s.server.recentlyUnregisteredWatchRoots.keys = [1] ∧
      TableInvariant s.server s.registering := by
  have computed : (machine.execWhere Lossless machine.start reregistration).map (fun s =>
      (s.server.watchRoots.keys, s.server.recentlyUnregisteredWatchRoots.keys)) =
        some ([2], [1]) := by decide
  obtain ⟨s, reach, last⟩ := Machine.observe_of_execWhere computed
  simp only [Prod.mk.injEq] at last
  exact ⟨s, reach, last.1, last.2, tables_invariant s reach⟩

end Linux

end FileEvents
