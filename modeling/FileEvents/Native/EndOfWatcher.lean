import FileEvents.Native.Watcher

/-!
# The end of a watcher

`awaitTermination` returns `true` only if `processorThread` is not alive. The native wait before
that may be over too early, but the thread was started when the client got the watcher, and so it
has run to its end: it has reported the termination, and will not report anything more.

A wait that is over too early deletes the native server, whose run loop may still be at work. What
it does without its server is not defined; here it goes on as if it had one.

## Main definitions

* `Closing` — the termination is being reported, or was
* `Coupled` — what the parts of a watcher know of one another
* `Threw` — an exception of `executeRunLoop` was reported, or is next
* `Ended`, `Told` — what the client can rely on after the end

## Main results

* `ended_of_awaitTermination` — it can rely on it once `awaitTermination` has returned `true`
-/

namespace FileEvents

open Transition

namespace Watcher

/-! ## The last event -/

/-- The events that calls of the callback make. -/
def eventsOf (calls : List ProcessorThread.Call) : List FileWatchEvent :=
  calls.filterMap fun call => (NativeFileWatcherCallback.enter call.report).map Prod.fst

theorem enter_eq_terminationEvent_iff (report : Report) :
    (NativeFileWatcherCallback.enter report).map Prod.fst = some .terminationEvent ↔
      report = .reportTermination := by
  cases report with
  | reportChangeEvent typeIndex path =>
    cases values : ChangeType.values[typeIndex]? <;>
      simp [NativeFileWatcherCallback.enter, NativeFileWatcherCallback.reportChangeEvent, values]
  | reportUnknownEvent | reportOverflow | reportFailure | reportTermination =>
    simp [NativeFileWatcherCallback.enter, NativeFileWatcherCallback.reportUnknownEvent,
      NativeFileWatcherCallback.reportOverflow, NativeFileWatcherCallback.reportFailure,
      NativeFileWatcherCallback.reportTermination]

theorem eventsOf_concat (calls : List ProcessorThread.Call) (call : ProcessorThread.Call) :
    eventsOf (calls ++ [call]) = eventsOf calls ++
      ((NativeFileWatcherCallback.enter call.report).map Prod.fst).toList := by
  rw [eventsOf, List.filterMap_append, List.filterMap_cons]
  cases (NativeFileWatcherCallback.enter call.report).map Prod.fst <;> rfl

theorem count_eventsOf (calls : List ProcessorThread.Call) :
    (eventsOf calls).count .terminationEvent =
      (calls.map ProcessorThread.Call.report).count .reportTermination := by
  rw [eventsOf, List.count, List.countP_filterMap, List.count, List.countP_map]
  refine List.countP_congr fun call _ => ?_
  have made := enter_eq_terminationEvent_iff call.report
  rw [Function.comp_apply, beq_iff_eq, ← made]
  cases (NativeFileWatcherCallback.enter call.report).map Prod.fst <;> simp

section Closing

open NativeFileWatcherCallback

variable {capacity : ℕ} {s t : NativeFileWatcherCallback.State capacity}

/-- `reportTermination` is under way, or its event is the last one there is. -/
inductive Closing (s : NativeFileWatcherCallback.State capacity) : Prop
  | offering (pending : s.pending = queueEvent .terminationEvent true)
  | clearing (pending : s.pending = queueEventFull .terminationEvent true)
  | marking (pending : s.pending =
      forceQueueEvent (.overflowEvent .eventQueue none) ++ forceQueueEvent .terminationEvent)
  | forcing (pending : s.pending = forceQueueEvent .terminationEvent)
  | closed (pending : s.pending = [])
      (last : s.delivered.getLast? = some (.terminationEvent, s.current))

theorem Closing.proceed (hcapacity : 2 ≤ capacity) (phase : Phase s) (closing : Closing s)
    (step : NativeFileWatcherCallback.next s .proceed = some t) : Closing t := by
  obtain ⟨op, rest, pending, rfl⟩ := proceed_spec step
  cases closing with
  | offering offering =>
    obtain ⟨rfl, rfl⟩ := List.cons.inj (pending.symm.trans offering)
    rcases perform_queueEvent s [] .terminationEvent true with
      ⟨eventQueue, queued, performed⟩ | ⟨-, performed⟩
    · refine performed ▸ .closed rfl ?_
      simp [State.delivered, State.current, queued, ← List.append_assoc]
    · exact performed ▸ .clearing (List.append_nil _)
  | clearing clearing =>
    obtain ⟨rfl, rfl⟩ := List.cons.inj (pending.symm.trans clearing)
    exact .marking rfl
  | marking marking =>
    obtain ⟨rfl, rfl⟩ := List.cons.inj (pending.symm.trans marking)
    obtain ⟨eventQueue, -, performed⟩ := perform_forceQueueEvent
      (forceQueueEvent .terminationEvent) (.overflowEvent .eventQueue none)
      (phase.room hcapacity pending)
    exact performed ▸ .forcing rfl
  | forcing forcing =>
    obtain ⟨rfl, rfl⟩ := List.cons.inj (pending.symm.trans forcing)
    obtain ⟨eventQueue, queued, performed⟩ := perform_forceQueueEvent [] .terminationEvent
      (phase.room hcapacity pending)
    refine performed ▸ .closed rfl ?_
    simp [State.delivered, State.current, queued, ← List.append_assoc]
  | closed idle => exact absurd (pending.symm.trans idle) (List.cons_ne_nil _ _)

theorem Closing.take (closing : Closing s)
    (step : NativeFileWatcherCallback.next s .take = some t) : Closing t := by
  have delivered := delivered_of_take step
  obtain ⟨-, -, -, same, reported, -⟩ := take_spec step
  cases closing with
  | offering pending => exact .offering (same.trans pending)
  | clearing pending => exact .clearing (same.trans pending)
  | marking pending => exact .marking (same.trans pending)
  | forcing pending => exact .forcing (same.trans pending)
  | closed pending last =>
    refine .closed (same.trans pending) ?_
    rw [delivered, last, State.current, State.current, reported]

theorem reported_of_report {report : Report}
    (step : NativeFileWatcherCallback.next s (.report report) = some t) :
    t.reported = s.reported ++ ((enter report).map Prod.fst).toList := by
  obtain ⟨-, ⟨none, rfl⟩ | ⟨event, pending, entered, rfl⟩⟩ := report_spec step
  · simp [none]
  · simp [entered]

theorem reported_of_proceed (step : NativeFileWatcherCallback.next s .proceed = some t) :
    t.reported = s.reported := by
  obtain ⟨op, rest, -, rfl⟩ := proceed_spec step
  cases op with
  | clear => rfl
  | queueEvent event | forceQueueEvent event =>
    cases offered : s.eventQueue.offer (event, s.current) <;> simp [perform, offered]

/-- What is no overflow event is delivered as often as it was reported at most. -/
theorem count_delivered_le (phase : Phase s) :
    (s.delivered.map Prod.fst).count .terminationEvent ≤ s.reported.count .terminationEvent := by
  have kept : (s.delivered.map Prod.fst).count .terminationEvent =
      ((s.delivered.filter fun x => ¬ FileWatchEvent.IsOverflow x.1).map Prod.fst).count
        .terminationEvent := by
    simp only [List.count, List.countP_map, List.countP_filter]
    refine List.countP_congr fun x _ => ?_
    by_cases final : x.1 = .terminationEvent <;> simp [final, FileWatchEvent.IsOverflow]
  rw [kept]
  have sublist := (phase.sublist.map Prod.fst).count_le .terminationEvent
  rwa [List.zipIdx_map_fst] at sublist

end Closing

/-! ## What the parts know of one another -/

/-- The invariant of the parts taken together. -/
structure Coupled {capacity : ℕ} (s : State capacity) : Prop where
  place : At s.lifecycle.processor s.thread.pc
  quiet : s.lifecycle.processor = .dead → s.callback.pending = []
  closing : s.thread.pc = .ended → s.thread.exit ≠ some .initializeThrew → Closing s.callback
  reported : s.callback.reported = eventsOf s.thread.calls
  /-- The run loop is initialized before the builder is told so. -/
  unlatched : s.lifecycle.processor = .created ∨ s.lifecycle.processor = .started ∨
    s.thread.exit = some .initializeThrew → s.runLoopInitialized = false
  started : s.start = .started → s.runLoopInitialized = true
  answered : s.lifecycle.answer = some true →
    s.lifecycle.processor = .dead ∧ s.runLoopInitialized = true

section Coupled

variable {capacity : ℕ} {s t : State capacity} {label : Label}

/-- Once the thread is through with its reports the callback is only left to finish. -/
theorem callback_of_ended (advances : Advances s label t)
    (place : At s.lifecycle.processor s.thread.pc) (ended : s.thread.pc = .ended) :
    t.callback = s.callback ∨
      NativeFileWatcherCallback.next s.callback .proceed = some t.callback ∨
      NativeFileWatcherCallback.next s.callback .take = some t.callback := by
  obtain ⟨enabled, -, thread, callback, -, -⟩ := advances
  cases label with
  | report =>
    rw [ended] at place
    rcases enabled with processor | ⟨processor, -⟩
    all_goals
      rw [processor] at place
      cases place
  | reportFailure ex => cases ended.symm.trans enabled
  | reportTermination =>
    simp [Label.thread, ProcessorThread.machine, ProcessorThread.State.next, ended] at thread
  | proceed => exact .inr (.inl callback)
  | take => exact .inr (.inr callback)
  | _ => exact .inl (Machine.advance_none.mp callback).symm

/-- A thread that is through with its reports makes no more of them. -/
theorem thread_of_ended (advances : Advances s label t) (ended : s.thread.pc = .ended) :
    t.thread.pc = .ended ∧ t.thread.exit = s.thread.exit ∧ t.thread.calls = s.thread.calls := by
  have thread := advances.thread
  cases own : label.thread with
  | none =>
    rw [own, Machine.advance_none] at thread
    exact ⟨thread ▸ ended, thread ▸ rfl, thread ▸ rfl⟩
  | some label =>
    rw [own, Machine.advance_some] at thread
    generalize t.thread = thread' at thread
    cases ProcessorThread.steps_of_next thread with
    | setShutdown | doShutdown => exact ⟨ended, rfl, rfl⟩
    | report running => simp [ended] at running
    | initializeReturns pc | initializeThrows pc | executeReturns pc | executeThrows pc | seen pc
    | unseen pc | reportFailure pc | reportTermination pc => cases ended.symm.trans pc

theorem exit_of_advances (advances : Advances s label t)
    (threw : t.thread.exit = some .initializeThrew) :
    s.thread.exit = some .initializeThrew ∨ label = .initializeThrows := by
  have thread := advances.thread
  cases own : label.thread with
  | none =>
    rw [own, Machine.advance_none] at thread
    exact .inl (thread ▸ threw)
  | some inner =>
    rw [own, Machine.advance_some] at thread
    generalize t.thread = thread' at thread threw
    cases ProcessorThread.steps_of_next thread with
    | initializeThrows => exact .inr (Label.eq_initializeThrows own)
    | executeReturns | executeThrows => simp at threw
    | _ => exact .inl threw

theorem quiet_of_advances (advances : Advances s label t) (coupled : Coupled s)
    (dead : t.lifecycle.processor = .dead) : t.callback.pending = [] := by
  have moves := moves_of_advances advances
  rw [dead] at moves
  rcases moves.dead_cases with before | rfl | rfl
  · have pending := coupled.quiet before
    have ended : s.thread.pc = .ended := (before ▸ coupled.place).ended_of_dead
    rcases callback_of_ended advances coupled.place ended with same | step | step
    · rw [same, pending]
    · obtain ⟨op, rest, more, -⟩ := NativeFileWatcherCallback.proceed_spec step
      cases pending.symm.trans more
    · obtain ⟨-, -, -, same, -⟩ := NativeFileWatcherCallback.take_spec step
      rw [same, pending]
  · exact Machine.advance_none.mp advances.callback ▸ advances.enabled.1
  · exact Machine.advance_none.mp advances.callback ▸ advances.enabled.1

theorem closing_of_advances (hcapacity : 2 ≤ capacity)
    (phase : NativeFileWatcherCallback.Phase s.callback) (advances : Advances s label t)
    (coupled : Coupled s) (ended : t.thread.pc = .ended)
    (initialized : t.thread.exit ≠ some .initializeThrew) : Closing t.callback := by
  have moves := moves_of_advances advances
  rw [ended] at moves
  rcases moves.ended_cases with before | rfl | rfl
  · rw [(thread_of_ended advances before).2.1] at initialized
    have closing := coupled.closing before initialized
    rcases callback_of_ended advances coupled.place before with same | step | step
    · rw [same]
      exact closing
    · exact closing.proceed hcapacity phase step
    · exact closing.take step
  · have thread := advances.thread
    rw [Label.thread, Machine.advance_some] at thread
    generalize t.thread = thread' at thread initialized
    cases ProcessorThread.steps_of_next thread
    exact absurd rfl initialized
  · obtain ⟨-, ⟨none, -⟩ | ⟨event, pending, entered, same⟩⟩ :=
      NativeFileWatcherCallback.report_spec advances.callback
    · cases none
    · obtain ⟨rfl, rfl⟩ := Prod.mk.inj (Option.some_inj.mp entered)
      exact .offering (same ▸ rfl)

theorem reported_of_advances (advances : Advances s label t)
    (reported : s.callback.reported = eventsOf s.thread.calls) :
    t.callback.reported = eventsOf t.thread.calls := by
  obtain ⟨enabled, -, thread, callback, -, -⟩ := advances
  generalize t.thread = thread' at thread ⊢
  -- Only three steps enter the callback.
  cases label with
  | report report =>
    cases ProcessorThread.steps_of_next thread
    rw [reported_of_report callback, reported, eventsOf_concat]
    rfl
  | reportFailure ex =>
    have failed : s.thread.pc = .failed ex := enabled
    cases ProcessorThread.steps_of_next thread with
    | reportFailure pc =>
      obtain rfl := ProcessorThread.Pc.failed.inj (failed.symm.trans pc)
      rw [reported_of_report callback, reported, eventsOf_concat]
      rfl
  | reportTermination =>
    cases ProcessorThread.steps_of_next thread
    rw [reported_of_report callback, reported, eventsOf_concat]
    rfl
  | proceed =>
    rw [reported_of_proceed callback, ← Machine.advance_none.mp thread, reported]
  | take =>
    obtain ⟨-, -, -, -, same, -⟩ := NativeFileWatcherCallback.take_spec callback
    rw [same, ← Machine.advance_none.mp thread, reported]
  | initializeReturns | initializeThrows | executeReturns | executeThrows | lookAtShutdown
  | doShutdown =>
    rw [← Machine.advance_none.mp callback, reported]
    cases ProcessorThread.steps_of_next thread <;> rfl
  | call call =>
    rw [← Machine.advance_none.mp callback, reported]
    cases call with
    | startWatching | stopWatching | stopWatchingMovedPaths =>
      rw [← Machine.advance_none.mp thread]
    | shutdown => cases ProcessorThread.steps_of_next thread; rfl
  | launch | awaitReturns | countDown | enterRunLoop | runLoop | abort | ends
  | awaitTermination | await | wake | join =>
    rw [← Machine.advance_none.mp callback, ← Machine.advance_none.mp thread, reported]

theorem unlatched_of_advances (inv : ProcessorThread.Invariant s.thread)
    (advances : Advances s label t) (coupled : Coupled s)
    (early : t.lifecycle.processor = .created ∨ t.lifecycle.processor = .started ∨
      t.thread.exit = some .initializeThrew) : t.runLoopInitialized = false := by
  have kept : s.runLoopInitialized = false := by
    have moves := moves_of_advances advances
    rw [← or_assoc] at early
    rcases early with early | threw
    · exact coupled.unlatched ((or_assoc).mp (.inl (moves.early_of_early early)))
    · rcases exit_of_advances advances threw with before | rfl
      · exact coupled.unlatched (.inr (.inr before))
      · exact coupled.unlatched (.inr (.inl advances.enabled.2))
  rw [advances.runLoopInitialized]
  cases label with
  | countDown =>
    -- The run loop was initialized, and nothing has changed.
    have initialized : s.lifecycle.processor = .initialized := advances.enabled
    have executing := (initialized ▸ coupled.place).executing_of_initialized
    have stage := inv.stage
    simp only [ProcessorThread.Stage, executing] at stage
    rw [← Machine.advance_none.mp advances.lifecycle,
      ← Machine.advance_none.mp advances.thread, initialized, stage.1] at early
    simp at early
  | _ => exact kept

/-- What was counted down stays so. -/
theorem latched_of_advances (advances : Advances s label t)
    (latched : s.runLoopInitialized = true) : t.runLoopInitialized = true := by
  rw [advances.runLoopInitialized]
  cases label with
  | countDown => rfl
  | _ => exact latched

theorem started_of_advances (advances : Advances s label t) (coupled : Coupled s)
    (started : t.start = .started) : t.runLoopInitialized = true := by
  refine latched_of_advances advances ?_
  rw [advances.start] at started
  cases label with
  | launch => cases started
  | awaitReturns inTime =>
    cases inTime with
    | false => cases started
    | true => exact advances.enabled.2 rfl
  | _ => exact coupled.started started

theorem answered_of_advances (advances : Advances s label t) (coupled : Coupled s)
    (answered : t.lifecycle.answer = some true) :
    t.lifecycle.processor = .dead ∧ t.runLoopInitialized = true := by
  have lifecycle := advances.lifecycle
  refine And.imp (moves_of_advances advances).dead_of_dead (latched_of_advances advances) ?_
  cases own : label.lifecycle with
  | none =>
    rw [own, Machine.advance_none] at lifecycle
    exact coupled.answered (lifecycle ▸ answered)
  | some inner =>
    rw [own, Machine.advance_some] at lifecycle
    rcases answer_of_next lifecycle answered with before | ⟨rfl, created | dead⟩
    · exact coupled.answered before
    · -- The client has the watcher only once the thread was started.
      obtain rfl := Label.eq_join own
      have latched := coupled.started advances.enabled
      rw [coupled.unlatched (.inl created)] at latched
      cases latched
    · obtain rfl := Label.eq_join own
      exact ⟨dead, coupled.started advances.enabled⟩

theorem Coupled.next (hcapacity : 2 ≤ capacity)
    (phase : NativeFileWatcherCallback.Phase s.callback)
    (inv : ProcessorThread.Invariant s.thread) (coupled : Coupled s)
    (step : (machine capacity).next s label = some t) : Coupled t := by
  have advances := advances_of_next step
  exact
    { place := coupled.place.next (moves_of_advances advances)
      quiet := quiet_of_advances advances coupled
      closing := closing_of_advances hcapacity phase advances coupled
      reported := reported_of_advances advances coupled.reported
      unlatched := unlatched_of_advances inv advances coupled
      started := started_of_advances advances coupled
      answered := answered_of_advances advances coupled }

theorem coupled_start : Coupled (machine capacity).start where
  place := .created
  quiet := by simp [machine, Lifecycle.machine]
  closing := by simp [machine, ProcessorThread.machine]
  reported := rfl
  unlatched _ := rfl
  started := by simp [machine]
  answered := by simp [machine, Lifecycle.machine]

theorem coupled (hcapacity : 2 ≤ capacity) (reach : (machine capacity).Reachable s) :
    Coupled s :=
  Machine.ReachableWhere.invariant_of reach
    (fun _ reach => And.intro (phase_callback hcapacity reach) (invariant_thread reach))
    coupled_start fun _ _ _ known coupled _ step => coupled.next hcapacity known.1 known.2 step

end Coupled

/-! ## The exception of the run loop -/

/-- `executeRunLoop` has thrown the exception, and the thread has reported it or is about to. -/
structure Threw (ex : String) (thread : ProcessorThread.State) : Prop where
  exit : thread.exit = some .executeThrew
  reported : thread.pc = .failed ex ∨
    (thread.pc = .terminating ∨ thread.pc = .ended) ∧
      .processor (.reportFailure ex) ∈ thread.calls

section Threw

variable {ex : String} {thread thread' : ProcessorThread.State}

theorem Threw.next (threw : Threw ex thread) {label : ProcessorThread.Label}
    (step : ProcessorThread.machine.next thread label = some thread') : Threw ex thread' := by
  obtain ⟨exit, reported⟩ := threw
  cases ProcessorThread.steps_of_next step with
  | report running => rcases running with pc | pc <;> simp [pc] at reported
  | initializeReturns pc | initializeThrows pc | executeReturns pc | executeThrows pc | seen pc
  | unseen pc => simp [pc] at reported
  | @reportFailure ex' pc =>
    rcases reported with failed | ⟨through, -⟩
    · obtain rfl := ProcessorThread.Pc.failed.inj (failed.symm.trans pc)
      exact ⟨exit, .inr ⟨.inl rfl, by simp⟩⟩
    · simp [pc] at through
  | reportTermination pc =>
    rcases reported with failed | ⟨-, mem⟩
    · cases failed.symm.trans pc
    · exact ⟨exit, .inr ⟨.inr rfl, List.mem_append_left _ mem⟩⟩
  | setShutdown | doShutdown => exact ⟨exit, reported⟩

/-- The thread reports the exception and the termination in the end. -/
theorem Threw.calls (threw : Threw ex thread) (inv : ProcessorThread.Invariant thread)
    (ended : thread.pc = .ended) : ∃ reports : List Report, thread.calls =
      reports.map .backend ++ [.processor (.reportFailure ex), .processor .reportTermination] := by
  have mem : .processor (.reportFailure ex) ∈ thread.calls := by
    simpa [ended] using threw.reported
  have stage := inv.stage
  simp only [ProcessorThread.Stage, ended] at stage
  rcases stage with ⟨exit, -⟩ | ⟨ex', -, -, -, made⟩ | ⟨requested, onShutdown, exit, -⟩
  · cases threw.exit.symm.trans exit
  · obtain rfl : ex = ex' := by simpa using made.mem_iff.mp mem
    obtain ⟨reports, -, calls⟩ := made
    exact ⟨reports, calls⟩
  · cases threw.exit.symm.trans exit

end Threw

/-! ## The end -/

/-- What the client can rely on after the end of the watcher. -/
structure Ended {capacity : ℕ} (s : State capacity) : Prop where
  dead : s.lifecycle.processor = .dead
  through : s.callback.pending = []
  last : (s.callback.delivered.map Prod.fst).getLast? = some .terminationEvent
  once : (s.callback.delivered.map Prod.fst).count .terminationEvent = 1

/-- The exception was reported right before the termination. Its failure event is delivered, or
an overflow event that was queued later is. -/
def Told {capacity : ℕ} (ex : String) (s : State capacity) : Prop :=
  ∃ earlier, s.callback.reported = earlier ++ [.failureEvent ex, .terminationEvent] ∧
    ((.failureEvent ex, earlier.length) ∈ s.callback.delivered ∨
      ∃ m ∈ s.callback.delivered, FileWatchEvent.IsOverflow m.1 ∧ earlier.length < m.2)

section Ended

variable {capacity : ℕ} {s t : State capacity} {label : Label}

/-- Whoever was told that the run loop is initialized can rely on it. -/
theorem Coupled.initialized (coupled : Coupled s) (latched : s.runLoopInitialized = true) :
    s.thread.pc ≠ .initializing ∧ s.thread.exit ≠ some .initializeThrew := by
  have unlatched := mt coupled.unlatched (by simp [latched])
  rw [not_or, not_or] at unlatched
  refine ⟨fun pc => ?_, unlatched.2.2⟩
  have place := coupled.place
  rw [pc] at place
  generalize s.lifecycle.processor = processor at place unlatched
  cases place with
  | created => exact unlatched.1 rfl
  | started => exact unlatched.2.1 rfl

theorem Closing.last {s : NativeFileWatcherCallback.State capacity} (closing : Closing s)
    (through : s.pending = []) : s.delivered.getLast? = some (.terminationEvent, s.current) := by
  cases closing with
  | offering pending | clearing pending | marking pending | forcing pending =>
    cases through.symm.trans pending
  | closed _ last => exact last

/-- A failure is delivered, or an overflow event that was queued later is. -/
theorem delivered_or_overflow {s : NativeFileWatcherCallback.State capacity} {ex : String}
    {earlier later : List FileWatchEvent} (phase : NativeFileWatcherCallback.Phase s)
    (through : s.pending = []) (reported : s.reported = earlier ++ .failureEvent ex :: later) :
    (.failureEvent ex, earlier.length) ∈ s.delivered ∨
      ∃ m ∈ s.delivered, FileWatchEvent.IsOverflow m.1 ∧ earlier.length < m.2 := by
  by_cases delivered : (.failureEvent ex, earlier.length) ∈ s.delivered
  · exact .inl delivered
  · refine .inr ((phase.ledger through).accounted (.failureEvent ex, earlier.length) ?_ trivial
      delivered)
    rw [reported, List.zipIdx_append]
    simp

/-- The exception of a run loop that has ended was reported to the client. -/
theorem Coupled.told {ex : String} (coupled : Coupled s)
    (phase : NativeFileWatcherCallback.Phase s.callback)
    (inv : ProcessorThread.Invariant s.thread) (dead : s.lifecycle.processor = .dead)
    (threw : Threw ex s.thread) : Told ex s := by
  obtain ⟨reports, calls⟩ := threw.calls inv (dead ▸ coupled.place).ended_of_dead
  have reported : s.callback.reported =
      eventsOf (reports.map .backend) ++ [.failureEvent ex, .terminationEvent] := by
    rw [coupled.reported, calls]
    exact List.filterMap_append
  exact ⟨_, reported, delivered_or_overflow phase (coupled.quiet dead) reported⟩

/-- What `executeRunLoop` has thrown the thread reports. -/
theorem threw_of_run {ex : String} {labels : List Label}
    (run : (machine capacity).Run (fun _ _ => True) (machine capacity).start labels s)
    (throws : .executeThrows ex ∈ labels) : Threw ex s.thread := by
  refine run.of_mem (I := fun s => Threw ex s.thread) throws ?_ ?_
  · intro s t step
    have thread := (advances_of_next step).thread
    rw [Label.thread, Machine.advance_some] at thread
    generalize t.thread = thread' at thread ⊢
    cases ProcessorThread.steps_of_next thread
    exact ⟨rfl, .inl rfl⟩
  · intro s label t threw step
    have thread := (advances_of_next step).thread
    cases own : label.thread with
    | none =>
      rw [own, Machine.advance_none] at thread
      exact thread ▸ threw
    | some label =>
      rw [own, Machine.advance_some] at thread
      exact threw.next thread

theorem Coupled.ended (coupled : Coupled s)
    (phase : NativeFileWatcherCallback.Phase s.callback)
    (inv : ProcessorThread.Invariant s.thread) (dead : s.lifecycle.processor = .dead)
    (initialized : s.thread.exit ≠ some .initializeThrew) : Ended s := by
  have ended : s.thread.pc = .ended := (dead ▸ coupled.place).ended_of_dead
  have through := coupled.quiet dead
  have last : (s.callback.delivered.map Prod.fst).getLast? = some .terminationEvent := by
    rw [List.getLast?_map, (coupled.closing ended initialized).last through]
    rfl
  have stage := inv.stage
  simp only [ProcessorThread.Stage, ended, initialized, false_and, false_or] at stage
  have count : (s.thread.calls.map ProcessorThread.Call.report).count .reportTermination = 1 := by
    obtain ⟨ex, -, -, -, made⟩ | ⟨-, -, -, -, made⟩ := stage
    · exact made.count
    · exact made.count
  refine ⟨dead, through, last, le_antisymm ?_ ?_⟩
  · refine (count_delivered_le phase).trans ?_
    rw [coupled.reported, count_eventsOf, count]
  · exact List.one_le_count_iff.mpr (List.mem_of_getLast? last)

/-- A watcher that has ended reports and delivers nothing any more. -/
theorem silent_of_run (hcapacity : 2 ≤ capacity) (reach : (machine capacity).Reachable s)
    (dead : s.lifecycle.processor = .dead) {labels : List Label}
    (run : (machine capacity).Run (fun _ _ => True) s labels t) :
    t.callback.reported = s.callback.reported ∧
      t.callback.delivered = s.callback.delivered := by
  have kept : (machine capacity).Reachable t ∧ t.lifecycle.processor = .dead ∧
      t.callback.reported = s.callback.reported ∧
      t.callback.delivered = s.callback.delivered := by
    refine run.invariant (I := fun t => (machine capacity).Reachable t ∧
      t.lifecycle.processor = .dead ∧ t.callback.reported = s.callback.reported ∧
      t.callback.delivered = s.callback.delivered) ?_ ⟨reach, dead, rfl, rfl⟩
    rintro u label v ⟨reach, dead, reported, delivered⟩ - step
    have advances := advances_of_next step
    have coupled := coupled hcapacity reach
    have ended : u.thread.pc = .ended := (dead ▸ coupled.place).ended_of_dead
    refine ⟨reach.snoc step, (moves_of_advances advances).dead_of_dead dead, ?_⟩
    rcases callback_of_ended advances coupled.place ended with same | step | step
    · rw [same]
      exact ⟨reported, delivered⟩
    · obtain ⟨op, rest, pending, -⟩ := NativeFileWatcherCallback.proceed_spec step
      cases (coupled.quiet dead).symm.trans pending
    · obtain ⟨-, -, -, -, same, -⟩ := NativeFileWatcherCallback.take_spec step
      exact ⟨same.trans reported,
        (NativeFileWatcherCallback.delivered_of_take step).trans delivered⟩
  exact kept.2.2

/-- Whatever the waits wake up for, a builder that has returned a watcher has an initialized run
loop, and once `awaitTermination` has returned `true` the watcher has ended: its thread is dead,
the one termination event is the last event in the queue or was the last one taken, the exception
that `executeRunLoop` has thrown, if any, was delivered or a later overflow was marked, and nothing
is reported or delivered any more. -/
theorem ended_of_awaitTermination (hcapacity : 2 ≤ capacity) {labels : List Label}
    (run : (machine capacity).Run (fun _ _ => True) (machine capacity).start labels s) :
    (s.start = .started → s.thread.pc ≠ .initializing ∧
      s.thread.exit ≠ some .initializeThrew) ∧
    (s.lifecycle.answer = some true → Ended s ∧
      (∀ ex, .executeThrows ex ∈ labels → Told ex s) ∧
      ∀ later t, (machine capacity).Run (fun _ _ => True) s later t →
        t.callback.reported = s.callback.reported ∧
          t.callback.delivered = s.callback.delivered) := by
  have reach : (machine capacity).Reachable s := ⟨labels, run⟩
  have coupled := coupled hcapacity reach
  have phase := phase_callback hcapacity reach
  have inv := invariant_thread reach
  refine ⟨fun started => coupled.initialized (coupled.started started), fun answered => ?_⟩
  obtain ⟨dead, latched⟩ := coupled.answered answered
  refine ⟨coupled.ended phase inv dead (coupled.initialized latched).2, fun ex throws => ?_,
    fun later t => silent_of_run hcapacity reach dead⟩
  exact coupled.told phase inv dead (threw_of_run run throws)

/-- Two files change, and the run loop fails while the queue is full and the watcher is being shut
down. -/
def failingRun : List Label :=
  [.launch, .initializeReturns, .countDown, .awaitReturns true, .enterRunLoop,
    .call .startWatching, .report (.reportChangeEvent 0 []), .proceed,
    .report (.reportChangeEvent 2 []), .proceed, .call .shutdown, .doShutdown, .runLoop, .runLoop,
    .runLoop, .runLoop, .runLoop, .awaitTermination true, .await, .await, .await,
    .executeThrows "Couldn't poll for events", .reportFailure "Couldn't poll for events", .proceed,
    .proceed, .proceed, .proceed, .take, .reportTermination, .proceed, .ends, .join]

theorem ended_of_awaitTermination_failing :
    ∃ s : State 2, s.callback.consumed.length = 1 ∧ Ended s ∧
      Told "Couldn't poll for events" s := by
  have computed : ((machine 2).exec (machine 2).start failingRun).map
      (fun s => (s.lifecycle.answer, s.callback.consumed.length)) = some (some true, 1) := by
    decide
  obtain ⟨s, executed, last⟩ := Option.map_eq_some_iff.mp computed
  simp only [Prod.mk.injEq] at last
  obtain ⟨ended, told, -⟩ :=
    (ended_of_awaitTermination le_rfl (Machine.run_of_exec executed)).2 last.1
  exact ⟨s, last.2, ended, told _ (by simp [failingRun])⟩

end Ended

end Watcher

end FileEvents
