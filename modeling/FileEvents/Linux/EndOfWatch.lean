import FileEvents.Linux.EventDelivery
import FileEvents.Linux.Reregistration

/-!
# The end of a watch

The kernel removes a watch on its own when the watched directory is deleted or unmounted.
It queues an event that says so, and the `IN_IGNORED` on which `handleEvent` removes the
watch point from the tables. The first of the two is the only word the client may get of
the end of the watch, and there are two ways to lose it although nothing overflows:
`handleEvent` returns early on an unmount, and an exception in `handleEvent` discards it
with the rest of the buffer when the `IN_IGNORED` comes with a later `read`.

## Main definitions

* `Heeds` — the step loses the word of no removal
* `Forewarned` — a listening watch point has its watch, or an unhandled event that tells of
  the removal, or a report about its path

## Main results

* `about_of_removed` — in every run whose steps heed the removals, a watch point that
  listens leaves the tables only after a report about its path
* `not_forall_about` — a directory that is unmounted leaves the tables silently
-/

namespace FileEvents

namespace Linux

open Delivery Transition

/-- A change, unknown or overflow event with this path. -/
def IsAbout (path : U16String) : Report → Prop
  | .reportChangeEvent _ about | .reportUnknownEvent about => about = path
  | .reportOverflow about => about = some path
  | .reportFailure _ | .reportTermination => False

/-- The event the kernel queues before it removes a watch on its own. -/
def InotifyEvent.IsRemoval (event : InotifyEvent) : Prop :=
  event.name = [] ∧ Inotify.IsOrdinary event.mask ∧
    (isSet event.mask IN_DELETE_SELF = true ∨ isSet event.mask IN_UNMOUNT = true)

instance : DecidablePred InotifyEvent.IsRemoval := fun event => inferInstanceAs (Decidable
  (event.name = [] ∧ Inotify.IsOrdinary event.mask ∧
    (isSet event.mask IN_DELETE_SELF = true ∨ isSet event.mask IN_UNMOUNT = true)))

/-- The queue does not overflow and no event is lost. -/
def NothingOverflows : Label → Prop
  | .kernel .overflow | .kernel (.lose _) => False
  | _ => True

instance : DecidablePred NothingOverflows
  | .kernel .overflow | .kernel (.lose _) => instDecidableFalse
  | .kernel (.event ..) | .kernel (.remove ..) | .registerPath .. | .enterWatchPoint
  | .unregisterPath _ | .stopWatchingMovedPaths _ | .read _ | .handle _ | .shutdown =>
    instDecidableTrue

/-- The event is not the unmount of a directory that is listened on. If it makes
`handleEvent` throw, every removal of such a directory that is discarded with the buffer
is discarded together with its `IN_IGNORED`. -/
def Server.Heeds (server : Server) (event : InotifyEvent) (buffer : List InotifyEvent) : Prop :=
  server.listensOn event.wd = true →
    isSet event.mask IN_UNMOUNT = false ∧
    (utf8ToUtf16String event.name = none →
      ∀ removal ∈ buffer, removal.IsRemoval → server.listensOn removal.wd = true →
        ∃ last ∈ buffer, last.Concerns removal.wd ∧ last.IsIgnored)

instance (server : Server) (event : InotifyEvent) (buffer : List InotifyEvent) :
    Decidable (server.Heeds event buffer) :=
  inferInstanceAs (Decidable (server.listensOn event.wd = true →
    isSet event.mask IN_UNMOUNT = false ∧
    (utf8ToUtf16String event.name = none →
      ∀ removal ∈ buffer, removal.IsRemoval → server.listensOn removal.wd = true →
        ∃ last ∈ buffer, last.Concerns removal.wd ∧ last.IsIgnored)))

/-- The step loses the word of no removal. -/
def Heeds (s : System) : Label → Prop
  | .handle _ => match s.server.buffer with
    | [] => True
    | event :: buffer => s.server.Heeds event buffer
  | _ => True

instance (s : System) : DecidablePred (Heeds s)
  | .handle _ => match next : s.server.buffer with
    | [] => .isTrue (by simp [Heeds, next])
    | event :: buffer => decidable_of_iff (s.server.Heeds event buffer) (by simp [Heeds, next])
  | .kernel _ | .registerPath .. | .enterWatchPoint | .unregisterPath _
  | .stopWatchingMovedPaths _ | .read _ | .shutdown => instDecidableTrue

/-! ## Stopping to watch -/

/-- Only the watches of watch points that stop listening are removed. -/
structure Spares (before after : Server) : Prop where
  listening : ∀ path watchPoint, after.watchPoints.lookup path = some watchPoint →
    watchPoint.status = .listening → watchPoint.watchDescriptor ∈ before.inotify.active →
    watchPoint.watchDescriptor ∈ after.inotify.active
  unentered : ∀ wd ∈ before.inotify.active, wd ∉ before.watchRoots → wd ∈ after.inotify.active

section Stops

variable {server after : Server} {registering : Option WatchPoint} {watchPoint : WatchPoint}
variable {path : U16String} {wd : WatchDescriptor} {result : CancelResult}

theorem Spares.refl (server : Server) : Spares server server :=
  ⟨fun _ _ _ _ active => active, fun _ active _ => active⟩

theorem Spares.trans {first second third : Server} (h : Spares first second)
    (h' : Spares second third) (only : OnlyStops second third)
    (roots : second.watchRoots = first.watchRoots) : Spares first third := by
  constructor
  · intro path watchPoint found listens active
    have before := only.listening path watchPoint found listens
    exact h'.listening path watchPoint found listens
      (h.listening path watchPoint before listens active)
  · intro wd active absent
    exact h'.unentered wd (h.unentered wd active absent) (roots ▸ absent)

/-- The watches of the other watch points stay. -/
theorem Server.active_cancelWatchPoint (mem : wd ∈ server.inotify.active)
    (other : wd ≠ watchPoint.watchDescriptor) :
    wd ∈ (server.cancelWatchPoint path watchPoint).2.inotify.active := by
  unfold Server.cancelWatchPoint
  rcases watchPoint.cancel_cases server.inotify with
    ⟨-, cancelled⟩ | ⟨-, -, cancelled⟩ | ⟨-, -, cancelled⟩ <;> rw [cancelled]
  · exact mem
  · exact AList.mem_erase.mpr ⟨other, mem⟩
  · exact mem

theorem Spares.cancelWatchPoint (h : Consistent server registering)
    (found : server.watchPoints.lookup path = some watchPoint)
    (cancelled : server.cancelWatchPoint path watchPoint = (.ok result, after))
    (spec : CancelSpec server registering path watchPoint result after) :
    Spares server after := by
  have kept : ∀ wd ∈ server.inotify.active, wd ≠ watchPoint.watchDescriptor →
      wd ∈ after.inotify.active := by
    intro wd mem other
    have stays : wd ∈ (server.cancelWatchPoint path watchPoint).2.inotify.active :=
      server.active_cancelWatchPoint mem other
    rwa [cancelled] at stays
  constructor
  · intro other listener found' listens active
    refine kept _ active fun same => ?_
    -- It would be the watch point that was cancelled.
    have before := spec.stops.listening other listener found' listens
    obtain rfl := h.path_unique before found same
    rw [spec.found] at found'
    obtain rfl := Option.some_inj.mp found'
    cases listens
  · intro wd active absent
    apply kept wd active
    rintro rfl
    exact absent (mem_iff_lookup.mpr ⟨path, h.root_of_watchPoint found⟩)

theorem Spares.forget (server : Server) (path : U16String) (wd : WatchDescriptor) :
    Spares server (server.forgetWatchPoint path wd) :=
  ⟨fun _ _ _ _ active => active, fun _ active _ => active⟩

/-- `unregisterPath` removes the watch of its path only. -/
theorem Consistent.spares_unregisterPath (h : Consistent server none) (path : U16String) :
    Spares server (server.unregisterPath path).2 := by
  unfold Server.unregisterPath
  split
  next => split <;> exact .refl server
  next watchPoint found =>
    obtain ⟨result, after, cancelled, spec⟩ := h.cancelWatchPoint found
    have spares := Spares.cancelWatchPoint h found cancelled spec
    rw [cancelled]
    cases result with
    | alreadyCancelled => exact spares
    | cancelled | notCancelled => exact spares.trans (.forget _ _ _) (.forget _ _ _) spec.roots

theorem Consistent.spares_stopWatchingMovedPath (h : Consistent server registering)
    (path : U16String) (lstat : Except Errno ℕ) :
    Spares server (server.stopWatchingMovedPath path lstat).2 := by
  unfold Server.stopWatchingMovedPath
  split
  next => exact .refl server
  next watchPoint found =>
    obtain ⟨result, after, cancelled, spec⟩ := h.cancelWatchPoint found
    rw [cancelled]
    split_ifs with stopped unmoved
    · exact .refl server
    · split <;> exact .refl server
    · split
      · exact .refl server
      · exact .cancelWatchPoint h found cancelled spec

/-- `stopWatchingMovedPaths` removes the watches of the dropped paths only. -/
theorem Consistent.spares_stopWatchingMovedPaths (h : Consistent server registering)
    (absolutePathsToCheck : List (U16String × Except Errno ℕ)) :
    Spares server (server.stopWatchingMovedPaths absolutePathsToCheck).2 := by
  induction absolutePathsToCheck generalizing server with
  | nil => exact .refl server
  | cons check rest ih =>
    obtain ⟨path, lstat⟩ := check
    obtain ⟨first, -, roots⟩ := h.stopWatchingMovedPath path lstat
    obtain ⟨-, only, -⟩ := first.stopWatchingMovedPaths rest
    have spares := h.spares_stopWatchingMovedPath path lstat
    have both := spares.trans (ih first) only roots
    unfold Server.stopWatchingMovedPaths
    split
    next ex after thrown => simpa [thrown] using spares
    next dropped after checked =>
      rw [checked] at both
      split
      next ex last thrown => simpa [thrown] using both
      next droppedPaths last checkedOthers => simpa [checkedOthers] using both

/-- Nothing is queued for a descriptor without a watch. -/
theorem OnlyStops.concerning (only : OnlyStops server after)
    (inactive : wd ∉ server.inotify.active) : after.concerning wd = server.concerning wd := by
  have kept : wd ∉ after.inotify.active ∧
      { server with inotify := after.inotify }.concerning wd = server.concerning wd := by
    refine only.retires.invariant (I := fun inotify => wd ∉ inotify.active ∧
      { server with inotify }.concerning wd = server.concerning wd) ⟨inactive, rfl⟩ ?_
    rintro inotify other active ⟨gone, same⟩
    have different : wd ≠ other := fun here => gone (here ▸ active)
    refine ⟨fun mem => gone (AList.mem_erase.mp mem).2, ?_⟩
    have queued : { server with inotify := inotify.retire other }.concerning wd = _ :=
      @concerning_retire { server with inotify } other wd
    rw [queued, if_neg different, List.append_nil, same]
  rw [← kept.2]
  simp [Server.concerning, only.buffer]

end Stops

/-! ## What is known of the end of a watch -/

/-- The descriptor has its watch. If it does not, there was a report about the path, or the
event that tells of the removal is unhandled, or the end of the watch will not be heard of. -/
def Foretold (server : Server) (reported : List (WatchDescriptor × Report)) (path : U16String)
    (wd : WatchDescriptor) : Prop :=
  wd ∈ server.inotify.active ∨ (∃ report, (wd, report) ∈ reported ∧ IsAbout path report) ∨
    (∃ event ∈ server.concerning wd, event.IsRemoval) ∨
    Open InotifyEvent.IsIgnored (server.concerning wd)

/-- The invariant: no watch of a listening watch point ends unheard. -/
structure Forewarned (server : Server) (registering : Option WatchPoint)
    (reported : List (WatchDescriptor × Report)) : Prop where
  /-- The flag is set between two rounds, when the buffer is empty. -/
  running : server.buffer ≠ [] → server.shouldTerminate = false
  listening : ∀ path watchPoint, server.watchPoints.lookup path = some watchPoint →
    watchPoint.status = .listening →
    Foretold server reported path watchPoint.watchDescriptor
  entering : ∀ watchPoint, registering = some watchPoint →
    watchPoint.watchDescriptor ∉ server.watchRoots →
    Foretold server reported watchPoint.path watchPoint.watchDescriptor

section Foretold

variable {server after : Server} {registering : Option WatchPoint} {watchPoint : WatchPoint}
variable {reported : List (WatchDescriptor × Report)} {path : U16String} {wd : WatchDescriptor}

/-- What is known of a removed watch stays known as long as its events do. -/
theorem Foretold.congr (h : Foretold server reported path wd)
    (active : wd ∈ server.inotify.active → Foretold after reported path wd)
    (same : wd ∉ server.inotify.active → after.concerning wd = server.concerning wd) :
    Foretold after reported path wd := by
  by_cases watched : wd ∈ server.inotify.active
  · exact active watched
  · right
    rw [same watched]
    exact h.resolve_left watched

/-- What the kernel does on its own. -/
theorem Foretold.step (h : Foretold server reported path wd) {step : Inotify.Step}
    {inotify : Inotify} (keeps : NothingOverflows (.kernel step))
    (taken : server.inotify.step step = some inotify) :
    Foretold { server with inotify } reported path wd := by
  obtain ⟨other, mask, name, -, active, -, -, rfl⟩ |
    ⟨other, mask, -, active, ordinary, gone, rfl⟩ | ⟨rfl, -⟩ | ⟨index, rfl, -⟩ :=
    Inotify.step_cases taken
  · refine h.congr .inl fun inactive => ?_
    have other : ¬ InotifyEvent.Concerns wd { wd := other, mask, name } := fun concerns =>
      inactive (concerns.1 ▸ active)
    rw [concerning_push, if_neg other, List.append_nil]
  · have queued (wd : WatchDescriptor) :
        { server with
          inotify := (server.inotify.push { wd := other, mask, name := [] }).retire other
          }.concerning wd =
        (server.concerning wd ++
          if InotifyEvent.Concerns wd { wd := other, mask, name := [] } then
            [{ wd := other, mask, name := [] }] else []) ++
          if wd = other then [.ignored other] else [] := by
      rw [← concerning_push]
      exact @concerning_retire
        { server with inotify := server.inotify.push { wd := other, mask, name := [] } } other wd
    refine h.congr (fun watched => ?_) fun inactive => ?_
    · by_cases here : wd = other
      · -- The event that tells of the removal is the last but one.
        subst here
        refine .inr (.inr (.inl ⟨{ wd, mask, name := [] }, ?_, rfl, ordinary, gone⟩))
        have concerns : InotifyEvent.Concerns wd { wd, mask, name := [] } := ⟨rfl, ordinary.2⟩
        rw [queued, if_pos concerns]
        simp
      · exact .inl (AList.mem_erase.mpr ⟨here, watched⟩)
    · have different : wd ≠ other := fun here => inactive (here ▸ active)
      rw [queued, if_neg fun concerns => different concerns.1.symm, if_neg different]
      simp
  · exact keeps.elim
  · exact keeps.elim

/-- Stopping to watch. -/
theorem Forewarned.stop (h : Forewarned server registering reported)
    (only : OnlyStops server after) (spares : Spares server after)
    (roots : registering = none ∨ after.watchRoots = server.watchRoots) :
    Forewarned after registering reported := by
  constructor
  · intro nonempty
    rw [only.shouldTerminate]
    exact h.running (only.buffer ▸ nonempty)
  · intro path watchPoint found listens
    have before := only.listening path watchPoint found listens
    exact (h.listening path watchPoint before listens).congr
      (fun active => .inl (spares.listening path watchPoint found listens active))
      only.concerning
  · intro watchPoint entering absent
    have same := roots.resolve_left (by simp [entering])
    rw [same] at absent
    exact (h.entering watchPoint entering absent).congr
      (fun active => .inl (spares.unentered _ active absent)) only.concerning

/-- `inotify_add_watch` grants a watch. -/
theorem Forewarned.register (consistent : Consistent server none)
    (h : Forewarned server none reported) {answers : RegisterAnswers} {inotify : Inotify}
    (fresh : server.inotify.CanGrant answers.fresh)
    (begun : server.beginRegisterPath path answers = .ok (watchPoint, inotify)) :
    Forewarned { server with inotify } (some watchPoint)
      (if watchPoint.watchDescriptor ∈ server.inotify.active then reported
      else reported.filter fun report => report.1 ≠ watchPoint.watchDescriptor) := by
  obtain ⟨object, -, added, -⟩ := Server.beginRegisterPath_spec begun
  rcases Inotify.addWatch_spec added with ⟨active, rfl⟩ | ⟨-, granted, rfl⟩
  · rw [if_pos active]
    refine ⟨h.running, h.listening, fun watchPoint' entering absent => absurd ?_ absent⟩
    obtain rfl := Option.some_inj.mp entering
    exact consistent.root_of_active active
  · rw [granted, if_neg fresh.2.1]
    refine ⟨h.running, fun path listener found listens => ?_, fun watchPoint' entering _ => ?_⟩
    · have different := consistent.ne_of_canGrant found fresh
      -- The reports for the other descriptors are kept.
      rcases h.listening path listener found listens with active | ⟨report, made, about⟩ | rest
      · exact .inl ((AList.mem_insert _).mpr (.inr active))
      · exact .inr (.inl ⟨report, List.mem_filter.mpr ⟨made, by simpa using different⟩, about⟩)
      · exact .inr (.inr rest)
    · obtain rfl := Option.some_inj.mp entering
      exact .inl ((AList.mem_insert _).mpr (.inl granted))

/-- The watch point of a granted watch is entered. -/
theorem Forewarned.enter (consistent : Consistent server (some watchPoint))
    (h : Forewarned server (some watchPoint) reported)
    (entered : server.enterWatchPoint watchPoint = .ok after) :
    Forewarned after none reported := by
  obtain ⟨absent, -⟩ := consistent.entering watchPoint rfl
  obtain ⟨free, rfl⟩ := Server.enterWatchPoint_spec entered
  refine ⟨h.running, fun path listener found listens => ?_, by simp⟩
  simp only [emplace_of_not_mem absent, lookup_insert_eq] at found
  split_ifs at found with here
  · obtain rfl := Option.some_inj.mp found
    exact here ▸ h.entering watchPoint rfl free
  · exact h.listening path listener found listens

end Foretold

/-! ## Handling an event -/

section Handling

variable {server server' : Server} {registering : Option WatchPoint} {watchPoint : WatchPoint}
variable {reported : List (WatchDescriptor × Report)} {path : U16String} {wd : WatchDescriptor}
variable {event : InotifyEvent} {buffer : List InotifyEvent} {order : List U16String}
variable {reports : List Report}

/-- The report for a removal that is not an unmount is about the path of the watch. -/
theorem InotifyEvent.IsRemoval.eventReport (removal : event.IsRemoval)
    (mounted : isSet event.mask IN_UNMOUNT = false) (path : U16String) :
    ∃ report ∈ eventReport path event, IsAbout path report := by
  obtain ⟨unnamed, ordinary, -⟩ := removal
  refine ⟨reportOf event.mask path, ?_, ?_⟩
  · simp [Linux.eventReport, mounted, ordinary.1, unnamed, utf8ToUtf16String, Text.decodeUtf8,
      joinName]
  · unfold reportOf
    split <;> rfl

/-- The buffer is discarded, but no removal without its `IN_IGNORED`. -/
theorem Foretold.discard (streams : Streams server) (h : Foretold server reported path wd)
    (together : ∀ removal ∈ server.buffer, removal.IsRemoval → removal.Concerns wd →
      ∃ last ∈ server.buffer, last.Concerns wd ∧ last.IsIgnored) :
    Foretold { server with buffer := [] } reported path wd := by
  by_cases active : wd ∈ server.inotify.active
  · exact .inl active
  have parts : server.concerning wd =
      (server.buffer.filter fun event => event.Concerns wd) ++
        { server with buffer := [] }.concerning wd := by
    simp [Server.concerning]
  have closes : ClosesAtEnd InotifyEvent.IsIgnored (server.concerning wd) := by
    by_cases retired : wd ∈ server.inotify.retired
    · exact streams.retired wd retired
    · rw [streams.gone wd active retired]
      exact .nil
  rcases h with active' | made | ⟨removal, mem, tells⟩ | unheard
  · exact absurd active' active
  · exact .inr (.inl made)
  · rw [parts] at mem closes
    rcases List.mem_append.mp mem with discarded | kept
    · -- Its `IN_IGNORED` was the last event of the watch, and it is gone.
      obtain ⟨read, concerns⟩ := List.mem_filter.mp discarded
      obtain ⟨last, lastRead, lastConcerns, ends⟩ :=
        together removal read tells (by simpa using concerns)
      have lastMem : last ∈ server.buffer.filter fun event => event.Concerns wd :=
        List.mem_filter.mpr ⟨lastRead, by simpa using lastConcerns⟩
      refine .inr (.inr (.inr ?_))
      rw [closes.eq_nil_of_append lastMem ends]
      exact .nil
    · exact .inr (.inr (.inl ⟨removal, kept, tells⟩))
  · refine .inr (.inr (.inr (unheard.sublist ?_)))
    rw [parts]
    exact List.sublist_append_right _ _

/-- An event is handled that does not end the watch. -/
theorem Foretold.handle (h : Foretold server reported path wd)
    (next : server.buffer = event :: buffer)
    (told : event.Concerns wd → event.IsRemoval → ∃ report ∈ reports, IsAbout path report) :
    Foretold { server with buffer }
      (if event.Concerns event.wd then
        reported ++ reports.map fun report => (event.wd, report)
      else reported) path wd := by
  have part : server.concerning wd = _ := concerning_cons next
  rcases h with active | ⟨report, made, about⟩ | ⟨removal, mem, tells⟩ | unheard
  · exact .inl active
  · refine .inr (.inl ⟨report, ?_, about⟩)
    split_ifs
    · exact List.mem_append_left _ made
    · exact made
  · rw [part] at mem
    rcases List.mem_append.mp mem with here | later
    · -- It is the event that is handled.
      split_ifs at here with concerns
      · obtain rfl := List.mem_singleton.mp here
        obtain ⟨report, mem, about⟩ := told concerns tells
        refine .inr (.inl ⟨report, ?_, about⟩)
        rw [if_pos ⟨rfl, concerns.2⟩]
        exact List.mem_append_right _ (List.mem_map.mpr ⟨report, mem, by rw [concerns.1]⟩)
      · cases here
    · exact .inr (.inr (.inl ⟨removal, later, tells⟩))
  · refine .inr (.inr (.inr (unheard.sublist ?_)))
    rw [part]
    exact List.sublist_append_right _ _

/-- The handling of the next event. -/
theorem Forewarned.handleEvent (consistent : Consistent server none)
    (h : Forewarned server none reported) (next : server.buffer = event :: buffer)
    (mounted : server.listensOn event.wd = true → isSet event.mask IN_UNMOUNT = false)
    (handled : { server with buffer }.handleEvent event order = .ok (server', reports)) :
    Forewarned
      (if event.Concerns event.wd ∧ event.IsIgnored then
        { server' with inotify := server'.inotify.release event.wd }
      else server') none
      (if event.Concerns event.wd then
        reported ++ reports.map fun report => (event.wd, report)
      else reported) := by
  have running : server.shouldTerminate = false := h.running (by simp [next])
  have rest : ∀ path watchPoint, server.watchPoints.lookup path = some watchPoint →
      watchPoint.status = .listening →
      Foretold { server with buffer }
        (if event.Concerns event.wd then
          reported ++ reports.map fun report => (event.wd, report)
        else reported) path watchPoint.watchDescriptor := by
    intro path watchPoint found listens
    refine (h.listening path watchPoint found listens).handle next fun concerns removal => ?_
    have root := consistent.root_of_watchPoint found
    have listensOn := consistent.listensOn found listens
    rw [← concerns.1] at root listensOn
    -- The event that tells of the removal is reported as soon as it is handled.
    have made := Server.handleEvent_reports handled root found listens running
      ⟨rfl, concerns.2⟩
    obtain ⟨report, mem, about⟩ := removal.eventReport (mounted listensOn) path
    exact ⟨report, made ▸ Option.mem_toList.mpr mem, about⟩
  have same : Consistent { server with buffer } none := consistent.congr rfl rfl
  by_cases ends : event.Concerns event.wd ∧ event.IsIgnored
  · obtain ⟨rfl, -⟩ := Server.handleEvent_ignored ends.1 ends.2 handled
    rw [if_pos ends]
    refine ⟨fun _ => ?_, fun path watchPoint found listens => ?_, by simp⟩
    · unfold Server.finish
      split <;> exact running
    · have survives := same.survives_finish found
      have foretold := rest path watchPoint survives.1 listens
      unfold Server.finish
      split <;> exact foretold
  · obtain rfl := Server.handleEvent_other ends handled
    rw [if_neg ends]
    exact ⟨fun _ => running, rest, by simp⟩

end Handling

/-! ## Whole runs -/

/-- The steps of a run without overflow that lose the word of no removal. -/
def Announces (s : System) (label : Label) : Prop := NothingOverflows label ∧ Heeds s label

instance (s : System) : DecidablePred (Announces s) := fun label =>
  inferInstanceAs (Decidable (NothingOverflows label ∧ Heeds s label))

theorem Forewarned.next {s t : System} {label : Label} (sound : Sound s.server s.registering)
    (h : Forewarned s.server s.registering s.reported) (meets : Announces s label)
    (step : s.next label = some t) : Forewarned t.server t.registering t.reported := by
  obtain ⟨nothingLost, heeds⟩ := meets
  cases label with
  | registerPath path answers =>
    obtain ⟨idle, fresh, rfl | ⟨watchPoint, inotify, begun, rfl⟩⟩ := System.registerPath_spec step
    · exact h
    · exact (idle ▸ h).register (idle ▸ sound.consistent) fresh begun
  | enterWatchPoint =>
    obtain ⟨watchPoint, entering, ⟨-, rfl⟩ | ⟨server, entered, rfl⟩⟩ :=
      System.enterWatchPoint_spec step
    · exact ⟨h.running, h.listening, by simp⟩
    · exact (entering ▸ h).enter (entering ▸ sound.consistent) entered
  | unregisterPath path =>
    obtain ⟨idle, stopped, -, rfl⟩ := System.unregisterPath_spec step
    have consistent : Consistent s.server none := idle ▸ sound.consistent
    obtain ⟨-, only⟩ := consistent.unregisterPath path
    exact h.stop only (consistent.spares_unregisterPath path) (.inl idle)
  | stopWatchingMovedPaths absolutePathsToCheck =>
    obtain ⟨stopped, -, rfl⟩ := System.stopWatchingMovedPaths_spec step
    obtain ⟨-, only, roots⟩ := sound.consistent.stopWatchingMovedPaths absolutePathsToCheck
    exact h.stop only (sound.consistent.spares_stopWatchingMovedPaths _) (.inr roots)
  | kernel kernelStep =>
    obtain ⟨inotify, taken, rfl⟩ := Option.map_eq_some_iff.mp step
    refine ⟨h.running, fun path watchPoint found listens => ?_,
      fun watchPoint entering absent => ?_⟩
    · exact (h.listening path watchPoint found listens).step nothingLost taken
    · exact (h.entering watchPoint entering absent).step nothingLost taken
  | read count =>
    -- The events move from the queue to the buffer and stay unhandled.
    obtain ⟨empty, running, -, rfl⟩ := System.read_spec step
    have same (wd : WatchDescriptor) :
        (s.fill count).server.concerning wd = s.server.concerning wd := by
      simp [Server.concerning, System.fill, empty]
    refine ⟨fun _ => running, fun path watchPoint found listens => ?_,
      fun watchPoint entering absent => ?_⟩
    · exact (h.listening path watchPoint found listens).congr .inl fun _ => same _
    · exact (h.entering watchPoint entering absent).congr .inl fun _ => same _
  | handle order =>
    obtain ⟨event, buffer, idle, next, ⟨ex, thrown, rfl⟩ | ⟨server, reports, succeeded, rfl⟩⟩ :=
      System.handled_cases step
    all_goals
      rw [idle] at h sound
      simp only [Heeds, next] at heeds
    · have same : Consistent { s.server with buffer } none := sound.consistent.congr rfl rfl
      obtain ⟨-, listensOn, bad⟩ := same.handleEvent_error thrown
      refine ⟨by simp, fun path watchPoint found listens => ?_, by simp [idle]⟩
      apply (h.listening path watchPoint found listens).discard sound.streams
      rw [next]
      intro removal mem tells concerns
      rcases List.mem_cons.mp mem with rfl | mem
      · -- The name of a removal is no bad name.
        rw [tells.1] at bad
        cases bad
      · have listensOn' := sound.consistent.listensOn found listens
        obtain ⟨last, lastMem, lastConcerns, ends⟩ :=
          (heeds listensOn).2 bad removal mem tells (concerns.1 ▸ listensOn')
        exact ⟨last, List.mem_cons_of_mem _ lastMem, concerns.1 ▸ lastConcerns, ends⟩
    · exact idle ▸ h.handleEvent sound.consistent next (fun on => (heeds on).1) succeeded
  | shutdown =>
    obtain ⟨empty, rfl⟩ := System.shutdown_spec step
    exact ⟨fun nonempty => absurd empty nonempty, h.listening, h.entering⟩

theorem forewarned {s : System} (reach : machine.ReachableWhere Announces s) :
    Forewarned s.server s.registering s.reported :=
  reach.invariant_of (fun _ reach => sound reach.reachable)
    (I := fun s => Forewarned s.server s.registering s.reported)
    ⟨by simp [machine], by simp [machine], by simp [machine]⟩
    fun _ _ _ sound h meets step => h.next sound meets step

/-- Where nothing overflows and no step loses the word of a removal, a listening watch point
that `handleEvent` removes from the tables has been reported: since its descriptor was
granted, for this registration of its path, a change, unknown or overflow event was made
whose path is the watched path itself. -/
theorem about_of_removed (s t : System) (reach : machine.ReachableWhere Announces s)
    (order : List U16String) (step : s.next (.handle order) = some t) (path : U16String)
    (watchPoint : WatchPoint) (found : s.server.watchPoints.lookup path = some watchPoint)
    (listens : watchPoint.status = .listening) (removed : path ∉ t.server.watchPoints) :
    ∃ report, (watchPoint.watchDescriptor, report) ∈ s.reported ∧ IsAbout path report := by
  obtain ⟨consistent, streams⟩ := sound reach.reachable
  have present : path ∈ s.server.watchPoints := mem_iff_lookup.mpr ⟨watchPoint, found⟩
  obtain ⟨event, buffer, -, next, ⟨ex, -, rfl⟩ | ⟨server, reports, handled, rfl⟩⟩ :=
    System.handled_cases step
  · exact absurd present removed
  by_cases ends : event.Concerns event.wd ∧ event.IsIgnored
  · obtain ⟨rfl, -⟩ := Server.handleEvent_ignored ends.1 ends.2 handled
    rw [if_pos ends] at removed
    have before : Consistent { s.server with buffer } s.registering := consistent.congr rfl rfl
    have same := before.eq_of_not_mem_finish found removed
    obtain ⟨-, inactive, done⟩ := streams.of_ignored ends.2 ends.1 next
    have only : s.server.concerning event.wd = [event] := by
      rw [concerning_cons next, if_pos ends.1, done, List.append_nil]
    have foretold := (forewarned reach).listening path watchPoint found listens
    rw [same] at foretold ⊢
    rcases foretold with active | made | ⟨removal, mem, tells⟩ | unheard
    · exact absurd active inactive
    · exact made
    · rw [only, List.mem_singleton] at mem
      exact absurd ends.2 (mem ▸ tells.2.1.not_isIgnored)
    · exact absurd ends.2 (unheard event (by simp [only]))
  · obtain rfl := Server.handleEvent_other ends handled
    rw [if_neg ends] at removed
    exact absurd present removed

/-- A directory is watched. -/
def watchedRun : List Label :=
  [.registerPath (u16 "/a") (directoryAnswers 1), .enterWatchPoint]

/-- The directory is deleted. -/
def deletedRun : List Label :=
  watchedRun ++ [.kernel (.remove 1 IN_DELETE_SELF), .read 2, .handle [u16 "/a"]]

theorem about_of_removed_deleted :
    ∃ s t, machine.ReachableWhere Announces s ∧ s.next (.handle [u16 "/a"]) = some t ∧
      u16 "/a" ∉ t.server.watchPoints ∧
      ∃ report, (1, report) ∈ s.reported ∧ IsAbout (u16 "/a") report := by
  have last : ((machine.execWhere Announces machine.start deletedRun).bind fun s =>
      (machine.next s (.handle [u16 "/a"])).map fun t =>
        (s.server.watchPoints.lookup (u16 "/a"), t.server.watchPoints.keys)) =
      some (some { status := .listening, watchDescriptor := 1, path := u16 "/a", inode := 7 },
        []) := by decide
  obtain ⟨s, t, reach, step, states⟩ := Machine.step_of_execWhere last
  obtain ⟨found, empty⟩ := Prod.mk.inj states
  have removed : u16 "/a" ∉ t.server.watchPoints := by simp [AList.mem_keys, empty]
  exact ⟨s, t, reach, step, removed, about_of_removed s t reach _ step _ _ found rfl removed⟩

/-- The directory is unmounted. -/
def unmountedRun : List Label :=
  watchedRun ++ [.kernel (.remove 1 IN_UNMOUNT), .read 2, .handle [u16 "/a"]]

/-- Not every listening watch point that `handleEvent` removes has been reported, although
nothing overflows: the handler returns early on an unmount. -/
theorem not_forall_about :
    ¬ ∀ s t, machine.ReachableWhere (fun _ label => NothingOverflows label) s →
      ∀ order, s.next (.handle order) = some t → ∀ path watchPoint,
        s.server.watchPoints.lookup path = some watchPoint → watchPoint.status = .listening →
        path ∉ t.server.watchPoints →
        ∃ report, (watchPoint.watchDescriptor, report) ∈ s.reported ∧ IsAbout path report := by
  intro always
  have last : ((machine.execWhere (fun _ label => NothingOverflows label) machine.start
      unmountedRun).bind fun s => (machine.next s (.handle [u16 "/a"])).map fun t =>
        (s.server.watchPoints.lookup (u16 "/a"), s.reported, t.server.watchPoints.keys)) =
      some (some { status := .listening, watchDescriptor := 1, path := u16 "/a", inode := 7 },
        [], []) := by decide
  obtain ⟨s, t, reach, step, states⟩ := Machine.step_of_execWhere last
  simp only [Prod.mk.injEq] at states
  obtain ⟨found, unreported, empty⟩ := states
  have removed : u16 "/a" ∉ t.server.watchPoints := by simp [AList.mem_keys, empty]
  obtain ⟨report, made, -⟩ := always s t reach _ step _ _ found rfl removed
  simp [unreported] at made

/-- A file whose name is not valid UTF-8 is deleted before the directory, and the
`IN_IGNORED` comes with a later `read`. -/
def discardedRun : List Label :=
  watchedRun ++ [.kernel (.event 1 IN_DELETE [0xFF]), .kernel (.remove 1 IN_DELETE_SELF),
    .read 2, .handle [u16 "/a"], .read 1]

/-- The exception for the name discards the deletion of the directory. -/
example : (machine.execWhere (fun _ label => NothingOverflows label) machine.start
    (discardedRun ++ [.handle [u16 "/a"]])).map (fun s =>
      (s.reported, s.server.watchPoints.keys)) = some ([], []) := by decide

end Linux

end FileEvents
