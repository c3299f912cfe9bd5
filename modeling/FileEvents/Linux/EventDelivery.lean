import FileEvents.Linux.Invariant

/-!
# The delivery of events on Linux

Every event the kernel queues for a registered path, from `inotify_add_watch` on, is
reported once and in order, whatever the chunks in which the queue is read and whatever
is registered, unregistered or dropped meanwhile. Events that are queued before
`registerPath` has entered the watch point into the tables are among them: the mutex
keeps `handleEvent` waiting until the entry is there.

## Main definitions

* `eventReport` — the report an event of a watched path stands for
* `Undisturbed` — the steps of a run without overflow, bad names and shutdown
* `Settled` — the reports made and the unhandled events make up the queued events

## Main results

* `settled_of_listening` — the delivery law for every listening watch point
-/

namespace FileEvents

namespace Linux

open Delivery Transition

/-- The report an event of the path's descriptor stands for. The end of a watch and an
unmount stand for none. -/
def eventReport (path : U16String) (event : InotifyEvent) : Option Report :=
  if isSet event.mask IN_UNMOUNT = true ∨ isSet event.mask IN_IGNORED = true then none
  else (utf8ToUtf16String event.name).map fun name => reportOf event.mask (joinName path name)

/-- The events queued for a descriptor since it was granted. -/
def Server.queuedFor (server : Server) (wd : WatchDescriptor) : List InotifyEvent :=
  server.inotify.queued.filter fun event => event.Concerns wd

/-- The reports made for a descriptor. -/
def reportsFor (reported : List (WatchDescriptor × Report)) (wd : WatchDescriptor) :
    List Report :=
  (reported.filter fun report => report.1 = wd).map Prod.snd

/-- The reports made for the path's descriptor, followed by those the unhandled events
stand for, are those of the queued events. -/
def Settled (server : Server) (reported : List (WatchDescriptor × Report)) (path : U16String)
    (wd : WatchDescriptor) : Prop :=
  reportsFor reported wd ++ (server.concerning wd).filterMap (eventReport path) =
    (server.queuedFor wd).filterMap (eventReport path)

/-- Nothing was handled for the descriptor since it was granted. -/
def Untouched (server : Server) (reported : List (WatchDescriptor × Report))
    (wd : WatchDescriptor) : Prop :=
  reportsFor reported wd = [] ∧ server.queuedFor wd = server.concerning wd

/-- The delivery invariant. -/
structure Balanced (server : Server) (registering : Option WatchPoint)
    (reported : List (WatchDescriptor × Report)) : Prop where
  listening : ∀ path watchPoint, server.watchPoints.lookup path = some watchPoint →
    watchPoint.status = .listening → Settled server reported path watchPoint.watchDescriptor
  entering : ∀ watchPoint, registering = some watchPoint →
    watchPoint.watchDescriptor ∉ server.watchRoots →
    Untouched server reported watchPoint.watchDescriptor

/-! ## Steps that handle no event -/

/-- The same events are added to the queued and to the unhandled ones. -/
def Queues (before after : Server) : Prop :=
  ∀ wd, ∃ tail, after.concerning wd = before.concerning wd ++ tail ∧
    after.queuedFor wd = before.queuedFor wd ++ tail

section Queues

variable {server after : Server} {registering : Option WatchPoint} {wd : WatchDescriptor}
variable {reported : List (WatchDescriptor × Report)} {path : U16String} {event : InotifyEvent}

theorem Queues.push (server : Server) (event : InotifyEvent) :
    Queues server { server with inotify := server.inotify.push event } := by
  refine fun wd => ⟨_, concerning_push, ?_⟩
  unfold Server.queuedFor Inotify.push
  split_ifs with concerns <;> simp [concerns]

theorem Queues.retire (server : Server) (wd : WatchDescriptor) :
    Queues server { server with inotify := server.inotify.retire wd } := by
  intro other
  obtain ⟨tail, unhandled, queued⟩ := Queues.push server (.ignored wd) other
  exact ⟨tail, unhandled, queued⟩

theorem Queues.trans {first second third : Server} (h : Queues first second)
    (h' : Queues second third) : Queues first third := by
  intro wd
  obtain ⟨tail, unhandled, queued⟩ := h wd
  obtain ⟨tail', unhandled', queued'⟩ := h' wd
  exact ⟨tail ++ tail', by rw [unhandled', unhandled, List.append_assoc],
    by rw [queued', queued, List.append_assoc]⟩

/-- Stopping to watch queues the ends of the watches. -/
theorem Queues.of_onlyStops (only : OnlyStops server after) : Queues server after := by
  have kept : Queues server { server with inotify := after.inotify } :=
    only.retires.invariant (I := fun inotify => Queues server { server with inotify })
      (fun wd => ⟨[], by simp, by simp⟩)
      fun inotify wd _ h => h.trans (.retire { server with inotify } wd)
  intro wd
  obtain ⟨tail, unhandled, queued⟩ := kept wd
  exact ⟨tail, by simpa [Server.concerning, only.buffer] using unhandled, queued⟩

/-- What the kernel does on its own without losing an event. -/
theorem Queues.of_step {step : Inotify.Step} {inotify : Inotify}
    (keeps : ∀ index, step ≠ .lose index) (taken : server.inotify.step step = some inotify) :
    Queues server { server with inotify } := by
  obtain ⟨wd, mask, name, -, -, -, -, rfl⟩ | ⟨wd, mask, -, -, -, -, rfl⟩ | ⟨-, rfl⟩ |
    ⟨index, loses, -⟩ := Inotify.step_cases taken
  · exact .push server _
  · exact (Queues.push server _).trans (.retire _ wd)
  · exact .push server _
  · exact absurd loses (keeps index)

/-- A step that handles no event and makes no watch point listen keeps the balance. -/
theorem Balanced.queues (h : Balanced server registering reported) (queues : Queues server after)
    (listening : ∀ path watchPoint, after.watchPoints.lookup path = some watchPoint →
      watchPoint.status = .listening → server.watchPoints.lookup path = some watchPoint)
    (roots : registering = none ∨ after.watchRoots = server.watchRoots) :
    Balanced after registering reported := by
  constructor
  · intro path watchPoint found listens
    have settled := h.listening path watchPoint (listening path watchPoint found listens) listens
    obtain ⟨tail, unhandled, queued⟩ := queues watchPoint.watchDescriptor
    rw [Settled, unhandled, queued, List.filterMap_append, List.filterMap_append,
      ← List.append_assoc, settled]
  · intro watchPoint registered absent
    have same := roots.resolve_left (by simp [registered])
    obtain ⟨unreported, untouched⟩ := h.entering watchPoint registered (same ▸ absent)
    obtain ⟨tail, unhandled, queued⟩ := queues watchPoint.watchDescriptor
    exact ⟨unreported, by rw [queued, unhandled, untouched]⟩

theorem Balanced.of_onlyStops (h : Balanced server registering reported)
    (only : OnlyStops server after)
    (roots : registering = none ∨ after.watchRoots = server.watchRoots) :
    Balanced after registering reported :=
  h.queues (.of_onlyStops only) only.listening roots

end Queues

/-! ## Registration -/

section Registration

variable {server server' : Server} {watchPoint : WatchPoint}
variable {reported : List (WatchDescriptor × Report)}

/-- Granting a descriptor begins its record. -/
theorem Balanced.register (sound : Sound server none) (h : Balanced server none reported)
    {path : U16String} {answers : RegisterAnswers} {inotify : Inotify}
    (fresh : server.inotify.CanGrant answers.fresh)
    (begun : server.beginRegisterPath path answers = .ok (watchPoint, inotify)) :
    Balanced { server with inotify } (some watchPoint)
      (if watchPoint.watchDescriptor ∈ server.inotify.active then reported
      else reported.filter fun report => report.1 ≠ watchPoint.watchDescriptor) := by
  obtain ⟨object, -, added, -, -, -⟩ := Server.beginRegisterPath_spec begun
  have ⟨_, unused, unretired⟩ := fresh
  rcases Inotify.addWatch_spec added with ⟨active, rfl⟩ | ⟨-, granted, rfl⟩
  · -- The directory is watched already, so its descriptor is in the tables.
    rw [if_pos active]
    refine ⟨h.listening, fun watchPoint' entering absent => absurd ?_ absent⟩
    obtain rfl := Option.some_inj.mp entering
    exact sound.consistent.root_of_active active
  · rw [granted, if_neg unused]
    constructor
    · intro other listener found listens
      have different := sound.consistent.ne_of_canGrant found fresh
      have settled := h.listening other listener found listens
      have reports : reportsFor (reported.filter fun report => report.1 ≠ answers.fresh)
          listener.watchDescriptor = reportsFor reported listener.watchDescriptor := by
        simp only [reportsFor, List.filter_filter]
        congr 2
        funext report
        by_cases here : report.1 = listener.watchDescriptor <;> simp [here, different]
      have queued : (server.inotify.queued.filter fun event =>
            ¬ event.Concerns answers.fresh).filter
          (fun event => event.Concerns listener.watchDescriptor) =
          server.queuedFor listener.watchDescriptor := by
        simp only [Server.queuedFor, List.filter_filter]
        congr 1
        funext event
        by_cases here : event.Concerns listener.watchDescriptor
        · have away : ¬ event.Concerns answers.fresh := fun there =>
            different (here.1.symm.trans there.1)
          simp [here, away]
        · simp [here]
      exact (congrArg (· ++ _) reports).trans (settled.trans (congrArg _ queued.symm))
    · intro watchPoint' entering _
      obtain rfl := Option.some_inj.mp entering
      -- A descriptor that may be granted has no unhandled events left over.
      have nothing : server.concerning answers.fresh = [] :=
        sound.streams.gone _ unused unretired
      rw [granted]
      constructor
      · simp [reportsFor, List.filter_filter]
      · refine Eq.trans ?_ nothing.symm
        simp [Server.queuedFor, List.filter_filter]

/-- The entry of a watch point finds everything queued for it unhandled. -/
theorem Balanced.enter (consistent : Consistent server (some watchPoint))
    (h : Balanced server (some watchPoint) reported)
    (entered : server.enterWatchPoint watchPoint = .ok server') :
    Balanced server' none reported := by
  obtain ⟨absent, -⟩ := consistent.entering watchPoint rfl
  obtain ⟨free, rfl⟩ := Server.enterWatchPoint_spec entered
  refine ⟨fun path listener found listens => ?_, by simp⟩
  simp only [emplace_of_not_mem absent, lookup_insert_eq] at found
  split_ifs at found with here
  · obtain rfl := Option.some_inj.mp found
    obtain ⟨unreported, untouched⟩ := h.entering watchPoint rfl free
    change _ ++ (server.concerning _).filterMap _ = (server.queuedFor _).filterMap _
    rw [unreported, untouched, List.nil_append]
  · exact h.listening path listener found listens

end Registration

/-! ## Handling an event -/

section Handling

variable {server server' : Server} {watchPoint : WatchPoint} {path : U16String}
variable {reported : List (WatchDescriptor × Report)} {event : InotifyEvent}
variable {buffer : List InotifyEvent} {order : List U16String} {reports : List Report}
variable {wd : WatchDescriptor}

/-- For a listening watch point `handleEvent` makes the report the event stands for. -/
theorem Server.handleEvent_reports
    (handled : server.handleEvent event order = .ok (server', reports))
    (root : server.watchRoots.lookup event.wd = some path)
    (found : server.watchPoints.lookup path = some watchPoint)
    (listens : watchPoint.status = .listening) (running : server.shouldTerminate = false)
    (concerns : event.Concerns event.wd) : reports = (eventReport path event).toList := by
  unfold Server.handleEvent at handled
  simp only [concerns.2, root, found, listens, running, ne_eq, not_true_eq_false,
    Bool.false_eq_true, if_false] at handled
  unfold eventReport
  split at handled
  next unmount =>
    obtain ⟨-, rfl⟩ := Prod.mk.inj (Except.ok.inj handled)
    simp [unmount]
  next mounted =>
    split at handled
    next ends =>
      obtain ⟨-, rfl⟩ := Prod.mk.inj (Except.ok.inj handled)
      simp [ends]
    next stays =>
      rw [if_neg (by simp [mounted, stays])]
      split at handled
      next => cases handled
      next name converted =>
        obtain ⟨-, rfl⟩ := Prod.mk.inj (Except.ok.inj handled)
        rw [converted]
        rfl

theorem concerning_cons (next : server.buffer = event :: buffer) :
    server.concerning wd =
      (if event.Concerns wd then [event] else []) ++ { server with buffer }.concerning wd := by
  unfold Server.concerning
  rw [next]
  split_ifs with concerns <;> simp [concerns]

/-- The reports made for an event count for its descriptor only. -/
theorem reportsFor_append :
    reportsFor (reported ++ reports.map fun report => (event.wd, report)) wd =
      reportsFor reported wd ++ if event.wd = wd then reports else [] := by
  unfold reportsFor
  split_ifs with same <;> simp [List.filter_append, List.filter_map, Function.comp_def, same]

/-- Handling an event moves its report from the unhandled events to the reports made. -/
theorem Balanced.handleEvent (consistent : Consistent server none)
    (h : Balanced server none reported) (running : server.shouldTerminate = false)
    (next : server.buffer = event :: buffer)
    (handled : { server with buffer }.handleEvent event order = .ok (server', reports)) :
    Balanced
      (if event.Concerns event.wd ∧ event.IsIgnored then
        { server' with inotify := server'.inotify.release event.wd }
      else server') none
      (if event.Concerns event.wd then
        reported ++ reports.map fun report => (event.wd, report)
      else reported) := by
  have rest : ∀ path watchPoint, server.watchPoints.lookup path = some watchPoint →
      watchPoint.status = .listening → ¬ (event.Concerns event.wd ∧ event.IsIgnored ∧
        event.wd = watchPoint.watchDescriptor) →
      Settled { server with buffer }
        (if event.Concerns event.wd then
          reported ++ reports.map fun report => (event.wd, report)
        else reported) path watchPoint.watchDescriptor := by
    intro path watchPoint found listens other
    have settled := h.listening path watchPoint found listens
    rw [Settled, concerning_cons next, List.filterMap_append, ← List.append_assoc] at settled
    refine Eq.trans ?_ settled
    apply congrArg (· ++ _)
    -- Its report moves over if the event concerns this watch point; the reports of the
    -- others are counted apart.
    by_cases here : event.Concerns watchPoint.watchDescriptor
    · have root : server.watchRoots.lookup event.wd = some path :=
        here.1 ▸ consistent.root_of_watchPoint found
      have concerns : event.Concerns event.wd := ⟨rfl, here.2⟩
      have made := Server.handleEvent_reports handled root found listens running concerns
      rw [if_pos here, if_pos concerns, reportsFor_append, if_pos here.1, made]
      cases report : eventReport path event <;> simp [report]
    · rw [if_neg here]
      split_ifs with concerns
      · rw [reportsFor_append, if_neg fun same => here ⟨same, concerns.2⟩]
        rfl
      · simp
  by_cases ends : event.Concerns event.wd ∧ event.IsIgnored
  · obtain ⟨rfl, -⟩ := Server.handleEvent_ignored ends.1 ends.2 handled
    rw [if_pos ends]
    refine ⟨fun path watchPoint found listens => ?_, by simp⟩
    -- The watch point that has ended is no longer in the tables.
    have same : Consistent { server with buffer } none := consistent.congr rfl rfl
    have survives := same.survives_finish found
    have settled := rest path watchPoint survives.1 listens fun same => survives.2 same.2.2
    unfold Server.finish
    split <;> exact settled
  · obtain rfl := Server.handleEvent_other ends handled
    rw [if_neg ends]
    exact ⟨fun path watchPoint found listens =>
      rest path watchPoint found listens fun same => ends ⟨same.1, same.2.1⟩, by simp⟩

end Handling

/-! ## Whole runs -/

/-- No event is lost, the names of the events are valid UTF-8 and the run loop is not shut
down. -/
def Undisturbed (s : System) : Label → Prop
  | .kernel (.lose _) => False
  | .handle _ => ∀ event ∈ s.server.buffer.head?,
    (utf8ToUtf16String event.name).isSome = true
  | .shutdown => False
  | _ => True

instance (s : System) : (label : Label) → Decidable (Undisturbed s label)
  | .kernel (.lose _) | .shutdown => instDecidableFalse
  | .handle _ => inferInstanceAs (Decidable
      (∀ event ∈ s.server.buffer.head?, (utf8ToUtf16String event.name).isSome = true))
  | .kernel (.event ..) | .kernel (.remove ..) | .kernel .overflow | .registerPath ..
  | .enterWatchPoint | .unregisterPath _ | .stopWatchingMovedPaths _ | .read _ =>
    instDecidableTrue

/-- A step without disturbance keeps the balance and the run loop running. -/
theorem Balanced.next {s t : System} {label : Label} (sound : Sound s.server s.registering)
    (h : Balanced s.server s.registering s.reported) (running : s.server.shouldTerminate = false)
    (meets : Undisturbed s label) (step : s.next label = some t) :
    Balanced t.server t.registering t.reported ∧ t.server.shouldTerminate = false := by
  cases label with
  | registerPath path answers =>
    obtain ⟨idle, fresh, rfl | ⟨watchPoint, inotify, begun, rfl⟩⟩ := System.registerPath_spec step
    · exact ⟨h, running⟩
    · exact ⟨(idle ▸ h).register (idle ▸ sound) fresh begun, running⟩
  | enterWatchPoint =>
    obtain ⟨watchPoint, entering, ⟨-, rfl⟩ | ⟨server, entered, rfl⟩⟩ :=
      System.enterWatchPoint_spec step
    · exact ⟨⟨h.listening, by simp⟩, running⟩
    · have balanced := (entering ▸ h).enter (entering ▸ sound.consistent) entered
      obtain ⟨-, rfl⟩ := Server.enterWatchPoint_spec entered
      exact ⟨balanced, running⟩
  | unregisterPath path =>
    obtain ⟨idle, stopped, -, rfl⟩ := System.unregisterPath_spec step
    obtain ⟨-, only⟩ := (idle ▸ sound.consistent).unregisterPath path
    exact ⟨h.of_onlyStops only (.inl idle), only.shouldTerminate.trans running⟩
  | stopWatchingMovedPaths absolutePathsToCheck =>
    obtain ⟨stopped, -, rfl⟩ := System.stopWatchingMovedPaths_spec step
    obtain ⟨-, only, roots⟩ := sound.consistent.stopWatchingMovedPaths absolutePathsToCheck
    exact ⟨h.of_onlyStops only (.inr roots), only.shouldTerminate.trans running⟩
  | kernel kernelStep =>
    obtain ⟨inotify, taken, rfl⟩ := Option.map_eq_some_iff.mp step
    have keeps : ∀ index, kernelStep ≠ .lose index := by
      rintro index rfl
      exact meets
    exact ⟨h.queues (.of_step keeps taken) (fun _ _ found _ => found) (.inr rfl), running⟩
  | read count =>
    -- The events move from the queue to the buffer and stay unhandled.
    obtain ⟨empty, -, -, rfl⟩ := System.read_spec step
    refine ⟨h.queues (fun wd => ⟨[], ?_, ?_⟩) (fun _ _ found _ => found) (.inr rfl), running⟩
    · simp [Server.concerning, System.fill, empty]
    · simp [Server.queuedFor, System.fill]
  | handle order =>
    obtain ⟨event, buffer, idle, next, ⟨ex, thrown, rfl⟩ | ⟨server, reports, succeeded, rfl⟩⟩ :=
      System.handled_cases step
    all_goals rw [idle] at h sound
    · have consistent : Consistent { s.server with buffer } none :=
        sound.consistent.congr rfl rfl
      obtain ⟨-, -, bad⟩ := consistent.handleEvent_error thrown
      have valid := meets event (by simp [next])
      rw [bad] at valid
      cases valid
    refine ⟨idle ▸ h.handleEvent sound.consistent running next succeeded, ?_⟩
    by_cases ends : event.Concerns event.wd ∧ event.IsIgnored
    · obtain ⟨rfl, -⟩ := Server.handleEvent_ignored ends.1 ends.2 succeeded
      simp only [if_pos ends]
      unfold Server.finish
      split <;> exact running
    · obtain rfl := Server.handleEvent_other ends succeeded
      simp only [if_neg ends]
      exact running
  | shutdown => exact meets.elim

theorem balanced {s : System} (reach : machine.ReachableWhere Undisturbed s) :
    Balanced s.server s.registering s.reported ∧ s.server.shouldTerminate = false :=
  reach.invariant_of (fun _ reach => sound reach.reachable)
    (I := fun s => Balanced s.server s.registering s.reported ∧ s.server.shouldTerminate = false)
    ⟨⟨by simp [machine], by simp [machine]⟩, rfl⟩
    fun _ _ _ sound h meets step => h.1.next sound h.2 meets step

/-- For every watch point that listens, the reports made for its descriptor, followed by
those its unhandled events stand for, are exactly the reports of the events the kernel has
queued for it since `inotify_add_watch`, in the same order and each with the path of the
watch point. Once no event is unhandled, every queued event has been reported. -/
theorem settled_of_listening (s : System) (reach : machine.ReachableWhere Undisturbed s)
    (path : U16String) (watchPoint : WatchPoint)
    (found : s.server.watchPoints.lookup path = some watchPoint)
    (listens : watchPoint.status = .listening) :
    reportsFor s.reported watchPoint.watchDescriptor ++
        (s.server.concerning watchPoint.watchDescriptor).filterMap (eventReport path) =
      (s.server.queuedFor watchPoint.watchDescriptor).filterMap (eventReport path) :=
  (balanced reach).1.listening path watchPoint found listens

/-- An event is queued and read before `registerPath` has entered the watch point, another
one is queued later; the first is handled once the watch point is there. -/
def earlyEventRun : List Label :=
  [.registerPath (u16 "/a")
      { lstat := .ok 7, addWatch := .ok ⟨1, 7⟩, fresh := 1 },
    .kernel (.event 1 IN_CREATE [0x66]), .read 1, .enterWatchPoint,
    .kernel (.event 1 IN_DELETE [0x66]), .handle [u16 "/a"]]

theorem settled_of_listening_early_event :
    ∃ s, machine.ReachableWhere Undisturbed s ∧ s.server.concerning 1 ≠ [] ∧
      reportsFor s.reported 1 = [.reportChangeEvent ChangeType.created.index (u16 "/a/f")] ∧
      reportsFor s.reported 1 ++ (s.server.concerning 1).filterMap (eventReport (u16 "/a")) =
        (s.server.queuedFor 1).filterMap (eventReport (u16 "/a")) := by
  have computed : (machine.execWhere Undisturbed machine.start earlyEventRun).map (fun s =>
      (s.server.watchPoints.lookup (u16 "/a"), s.server.concerning 1, reportsFor s.reported 1)) =
      some (some { status := .listening, watchDescriptor := 1, path := u16 "/a", inode := 7 },
        [{ wd := 1, mask := IN_DELETE, name := [0x66] }],
        [.reportChangeEvent ChangeType.created.index (u16 "/a/f")]) := by decide
  obtain ⟨s, reach, last⟩ := Machine.observe_of_execWhere computed
  simp only [Prod.mk.injEq] at last
  obtain ⟨found, unhandled, reports⟩ := last
  exact ⟨s, reach, by simp [unhandled], reports,
    settled_of_listening s reach _ _ found rfl⟩

end Linux

end FileEvents
