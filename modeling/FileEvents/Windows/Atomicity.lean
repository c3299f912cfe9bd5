import FileEvents.Windows.NestedCallbacks
import FileEvents.Windows.StatusInvariant

/-!
# Commands that run inside one another

Whether the commands of `win_fsnotifier.cpp` are atomic. `~WatchPoint` waits alertably, so the
callback of a command may run between two parts of another command, or between the `erase` and
the `emplace` of its `registerPath`. The runs here consist of `registerPaths` and
`unregisterPaths` commands and of completion routines, in every order the queue admits.

Two commands that deal with the same two paths in opposite orders are not atomic: the results
and the watch points may be ones that no serial run has. As long as the commands deal with
every path in one order, and no command deals with a path while another one replaces its watch
point, the same events make up a serial run in that order.

## Main definitions

* `Commands.machine` — the queue of commands with the history of the watch points
* `Commands.State.Serializable` — some serial run has the same results and watch points
* `Commands.Ordered` — the parts that are done in the order of their commands

## Main results

* `serializable_of_ordered` — where ordered steps lead, what was done is serializable
* `not_forall_serializable` — it is not in every run
-/

namespace FileEvents

open Transition Concurrency

namespace Windows

/-- The path that the next part of a work deals with. -/
def Work.path? : Work → Option U16String
  | .registerPaths (path :: _) | .unregisterPaths (path :: _) _ => some path
  | .registerPaths [] | .unregisterPaths [] _ | .shutdownRunLoop => none

/-- The next part of a work destroys a finished watch point, and the `emplace` follows. -/
def Work.Replaces (server : Server) : Work → Prop
  | .registerPaths (path :: _) =>
    ∃ watchPoint ∈ server.watchPoints.lookup path, watchPoint.status = .finished
  | .registerPaths [] | .unregisterPaths _ _ | .shutdownRunLoop => False

instance (server : Server) : DecidablePred (Work.Replaces server) := fun work =>
  match work with
  | .registerPaths (path :: _) => inferInstanceAs (Decidable
      (∃ watchPoint ∈ server.watchPoints.lookup path, watchPoint.status = .finished))
  | .registerPaths [] | .unregisterPaths _ _ | .shutdownRunLoop => instDecidableFalse

namespace Commands

/-- The queue of commands, with what it was told and what has come of it. -/
structure State where
  queue : CommandQueue.State
  /-- The works as they were passed to `executeOnRunLoop`. -/
  works : List Work
  /-- What was done to the watch points so far. -/
  history : List Event

/-- What a step does to the watch points. -/
def events (s : CommandQueue.State) : CommandQueue.Label → List Event
  | .work answers _ =>
    match s.stack with
    | [] => []
    | frame :: _ =>
      match s.commands[frame.command]? with
      | none => []
      | some entry =>
        if entry.work.Replaces s.system.server then []
        else (entry.work.event frame.command answers).toList
  | .destroyed answers _ =>
    match s.stack, s.system.destroying with
    | frame :: _, ⟨_, some path⟩ :: _ => [.registerPath frame.command path answers]
    | _, _ => []
  | .completion path completion => [.completion path completion]
  | .executeOnRunLoop _ | .execute _ | .refuse _ _ | .wake _ _ | .executeOnRunLoopCallback _
  | .executeInsideRunLoop | .lateCompletion _ _ | .stopWatchingMovedPaths _ | .leave => []

/-- The work that a step passes to `executeOnRunLoop`. -/
def newWorks : CommandQueue.Label → List Work
  | .executeOnRunLoop work => [work]
  | .execute _ | .refuse _ _ | .wake _ _ | .executeOnRunLoopCallback _ | .work _ _
  | .destroyed _ _ | .executeInsideRunLoop | .completion _ _ | .lateCompletion _ _
  | .stopWatchingMovedPaths _ | .leave => []

/-- The step function. The server is not shut down, and moved paths are not looked for. -/
def State.next (s : State) (label : CommandQueue.Label) : Option State :=
  match label with
  | .executeOnRunLoop .shutdownRunLoop | .stopWatchingMovedPaths _ => none
  | label => (s.queue.next label).map fun queue =>
      { queue
        works := s.works ++ newWorks label
        history := s.history ++ events s.queue label }

/-- A server whose run loop was just started. -/
def machine : Machine State CommandQueue.Label where
  start := { queue := CommandQueue.machine.start, works := [], history := [] }
  next := State.next

/-- What the work of a command returned or threw. -/
def State.result (s : State) (command : ℕ) : Option (Except CppException Bool) :=
  s.queue.commands[command]?.bind fun entry => entry.state.runs.head?

/-- The commands whose work is through, run whole in some order with the same events, have the
same results and leave the same watch points. -/
def State.Serializable (s : State) : Prop :=
  ∃ (order : List ℕ) (events : List Event) (server : Server),
    order.Nodup ∧ (∀ i, i ∈ order ↔ (s.result i).isSome) ∧ events.Perm s.history ∧
      Serially s.works s.result Windows.machine.start.server order events server ∧
      ∀ path, server.watchPoints.lookup path = s.queue.system.server.watchPoints.lookup path

/-- A command deals with a path after the commands that come earlier in the order, and not
while another one replaces its watch point. -/
def Ordered (rank : ℕ → ℕ) (s : State) : CommandQueue.Label → Prop
  | .work _ _ =>
    ∀ frame ∈ s.queue.stack.head?, ∀ entry ∈ s.queue.commands[frame.command]?,
      ∀ path ∈ entry.work.path?, ¬ Replacing s.queue.system path ∧
        ∀ event ∈ s.history, event.path = path →
          ∀ i ∈ event.command?, rank i ≤ rank frame.command
  | _ => True

instance (rank : ℕ → ℕ) (s : State) : DecidablePred (Ordered rank s) := fun label =>
  match label with
  | .work _ _ => inferInstanceAs (Decidable
      (∀ frame ∈ s.queue.stack.head?, ∀ entry ∈ s.queue.commands[frame.command]?,
        ∀ path ∈ entry.work.path?, ¬ Replacing s.queue.system path ∧
          ∀ event ∈ s.history, event.path = path →
            ∀ i ∈ event.command?, rank i ≤ rank frame.command))
  | .executeOnRunLoop .. | .execute .. | .refuse .. | .wake .. | .executeOnRunLoopCallback ..
  | .destroyed .. | .executeInsideRunLoop | .completion .. | .lateCompletion ..
  | .stopWatchingMovedPaths .. | .leave => instDecidableTrue

/-! ## Runs whose steps are ordered -/

/-- The steps that were done, and what is left of the works. -/
structure Follows (rank : ℕ → ℕ) (s : State) (done : List Step)
    (found : U16String → Option WatchPoint) : Prop where
  admitted : .shutdownRunLoop ∉ s.works
  history : done.map Step.event = s.history
  recorded : Recorded rank done found
  mirrors : Mirrors s.queue.system found
  tracks : Tracks rank s.queue.commands s.queue.stack (continuations s.queue.system) s.works done

section Follows

variable {rank : ℕ → ℕ} {s t : State} {label : CommandQueue.Label} {done : List Step}
  {found : U16String → Option WatchPoint} {frame : CommandQueue.Frame}
  {stack : List CommandQueue.Frame} {entry : CommandQueue.Entry} {path : U16String}

theorem next_spec (step : machine.next s label = some t) :
    label ≠ .executeOnRunLoop .shutdownRunLoop ∧
      (∀ visits, label ≠ .stopWatchingMovedPaths visits) ∧
      ∃ queue, s.queue.next label = some queue ∧
        t = { queue
              works := s.works ++ newWorks label
              history := s.history ++ events s.queue label } := by
  simp only [machine, State.next] at step
  split at step
  next => cases step
  next => cases step
  next shutdown visits =>
    obtain ⟨queue, next, same⟩ := Option.map_eq_some_iff.mp step
    exact ⟨shutdown, visits, queue, next, same.symm⟩

theorem reachable_queue (reach : machine.Reachable s) :
    CommandQueue.machine.Reachable s.queue := by
  refine reach.map State.queue rfl fun s label t _ step => ?_
  obtain ⟨-, -, queue, next, rfl⟩ := next_spec step
  exact .inr ⟨label, trivial, next⟩

/-- A work that goes on has not returned yet. -/
theorem runs_of_working (reach : CommandQueue.machine.Reachable s.queue) {i : ℕ}
    (known : s.queue.commands[i]? = some entry) (working : entry.state.callback = .working) :
    entry.state.runs = [] := by
  have recorded := Command.recorded (CommandQueue.reachable_command reach i entry known)
  have unstored : ¬ entry.state.callback.Stored := by
    simp [working, Command.CallbackPc.Stored, Command.CallbackPc.Notified]
  rw [recorded.stored_iff] at unstored
  rw [recorded.runs]
  simpa using unstored

/-- A command comes last to a path when its parts are done in order. -/
theorem Follows.last (follows : Follows rank s done found) {i : ℕ}
    (ordered : ∀ event ∈ s.history, event.path = path → ∀ j ∈ event.command?, rank j ≤ rank i) :
    ∀ other ∈ done, other.path = path → rank other.command ≤ rank i := by
  intro other mem same
  obtain ⟨part, mem, path, command, own⟩ := follows.recorded.owned other mem
  rw [← command]
  refine ordered part.event ?_ ?_ _ own
  · rw [← follows.history]
    exact List.mem_map_of_mem mem
  · rw [path_event, path, same]

theorem Part.snoc {step : Step} {conts : List (Option U16String)} {works : List Work}
    {commands : List CommandQueue.Entry} (known : commands[frame.command]? = some entry)
    (working : entry.state.callback = .working) (own : step.command = frame.command)
    (settled : some step.path ∉ conts) :
    Part commands entry frame conts works done (done ++ [step]) where
  known := known
  working := working
  others i other := progressOf_snoc_of_ne (own ▸ other.symm)
  steps other mem := by
    rcases List.mem_append.mp mem with old | new
    · exact .inl old
    · rw [List.mem_singleton.mp new]
      exact .inr ⟨own, settled⟩

theorem Part.refl {conts : List (Option U16String)} {works : List Work}
    {commands : List CommandQueue.Entry} (known : commands[frame.command]? = some entry)
    (working : entry.state.callback = .working) :
    Part commands entry frame conts works done done where
  known := known
  working := working
  others _ _ := rfl
  steps _ mem := .inl mem

/-- The innermost callback does not wait and has the parts of a work left. -/
structure Active (rank : ℕ → ℕ) (s : State) (done : List Step) (frame : CommandQueue.Frame)
    (stack : List CommandQueue.Frame) (entry : CommandQueue.Entry)
    (conts : List (Option U16String)) (left : Work) : Prop where
  stacked : s.queue.stack = frame :: stack
  known : s.queue.commands[frame.command]? = some entry
  working : entry.state.callback = .working
  runs : entry.state.runs = []
  head : Head rank s.queue.commands frame stack conts s.works done
  leaves : progressOf s.works done frame.command = some (.goesOn left)

section Active

variable {conts : List (Option U16String)} {left : Work} {queue : CommandQueue.State}
  {step : Step} {after : Option WatchPoint}

/-- The steps after the innermost callback has done a part. -/
theorem Active.part (active : Active rank s done frame stack entry conts left)
    (own : step.command = frame.command) (settled : some step.path ∉ conts) :
    Part s.queue.commands entry frame conts s.works done (done ++ [step]) :=
  .snoc active.known active.working own settled

theorem Active.leaves_snoc (active : Active rank s done frame stack entry conts left)
    (own : step.command = frame.command) :
    progressOf s.works (done ++ [step]) frame.command = (Progress.goesOn left).take step := by
  rw [progressOf_snoc own, active.leaves, Option.bind_some]

/-- The work is through, and nothing else happens. -/
theorem Active.through {outcome : Except CppException Bool}
    (active : Active rank s done frame stack entry conts left)
    (follows : Follows rank s done found) (ends : (Progress.goesOn left).outcome = some outcome)
    (same : queue.stack = s.queue.stack)
    (commands : queue.commands =
      s.queue.commands.set frame.command (Commands.after entry (.ends outcome)))
    (system : queue.system = s.queue.system) (continues : continuations queue.system = conts) :
    Follows rank { queue, works := s.works ++ [], history := s.history ++ [] } done found where
  admitted := by simpa using follows.admitted
  history := by simpa using follows.history
  recorded := follows.recorded
  mirrors := system ▸ follows.mirrors
  tracks := by
    have tracks := active.stacked ▸ follows.tracks
    rw [List.append_nil, same, commands, active.stacked, continues]
    exact tracks.goOn active.head (.refl active.known active.working) active.runs active.leaves
      (.inr ⟨outcome, rfl, ends⟩)

/-- The work does a part on a path without waiting. -/
theorem Active.proceed {progress last : Progress}
    (active : Active rank s done frame stack entry conts left)
    (follows : Follows rank s done found) (own : step.command = frame.command)
    (settled : some step.path ∉ conts) (takes : (Progress.goesOn left).take step = some last)
    (agrees : last = progress) (same : queue.stack = s.queue.stack)
    (commands : queue.commands =
      s.queue.commands.set frame.command (Commands.after entry progress))
    (continues : continuations queue.system = conts)
    (recorded : Recorded rank (done ++ [step]) (Function.update found step.path after))
    (mirrors : Mirrors queue.system (Function.update found step.path after)) :
    Follows rank { queue, works := s.works ++ [], history := s.history ++ [step.event] }
      (done ++ [step]) (Function.update found step.path after) where
  admitted := by simpa using follows.admitted
  history := by simp [follows.history]
  recorded := recorded
  mirrors := mirrors
  tracks := by
    have tracks := active.stacked ▸ follows.tracks
    rw [List.append_nil, same, commands, active.stacked, continues]
    exact tracks.goOn active.head (active.part own settled) active.runs
      ((active.leaves_snoc own).trans takes) (.inl agrees)

end Active

/-- What is left after an `emplace`. -/
def entered (path : U16String) (answers : ConstructAnswers) (paths : List U16String) : Progress :=
  match (constructed path answers).1 with
  | .ok () => .goesOn (.registerPaths paths)
  | .error ex => .ends (.error ex)

theorem entered_eq {server : Server} {answers : ConstructAnswers} {paths : List U16String}
    (absent : server.found path = none) :
    Work.entered server path answers (.registerPaths paths) = entered path answers paths := by
  obtain ⟨_, enters, -⟩ := server.enterWatchPoint_of_absent path answers absent
  rw [Work.entered, enters]
  rfl

theorem take_entered {command : ℕ} {answers : ConstructAnswers} {paths : List U16String} :
    (Progress.goesOn (.registerPaths (path :: paths))).take
        ⟨command, path, .registerPath answers (constructed path answers).1⟩ =
      some (entered path answers paths) := by
  simp only [Progress.take, entered, if_true]
  cases (constructed path answers).1 <;> rfl

/-- A callback that does not wait. -/
theorem Follows.active (reach : CommandQueue.machine.Reachable s.queue)
    (follows : Follows rank s done found) (stacked : s.queue.stack = frame :: stack)
    (awake : ¬ frame.base < s.queue.system.destroying.length)
    (known : s.queue.commands[frame.command]? = some entry)
    (working : entry.state.callback = .working) :
    Active rank s done frame stack entry (continuations s.queue.system) entry.work := by
  have tracks := stacked ▸ follows.tracks
  obtain ⟨head, settled⟩ := tracks.head (by simpa [continuations] using awake)
  have runs := runs_of_working reach known working
  obtain ⟨progress, leaves, same, -⟩ := settled entry known
  exact ⟨stacked, known, working, runs, head, same runs ▸ leaves⟩

section Parts

variable {conts : List (Option U16String)} {queue : CommandQueue.State}
  {answers : ConstructAnswers} {cancelIo : Except ErrorCode Unit} {paths : List U16String}

/-- The `emplace` of a `registerPath` that does not wait any more. -/
theorem Active.enter
    (active : Active rank s done frame stack entry conts (.registerPaths (path :: paths)))
    (follows : Follows rank s done found) (settled : some path ∉ conts)
    (last : ∀ other ∈ done, other.path = path → rank other.command ≤ rank frame.command)
    (free : registered path answers (found path) = constructed path answers)
    (same : queue.stack = s.queue.stack)
    (commands : queue.commands =
      s.queue.commands.set frame.command (after entry (entered path answers paths)))
    (continues : continuations queue.system = conts)
    (mirrors : Mirrors queue.system (Function.update found path (constructed path answers).2)) :
    ∃ done' found', Follows rank
      { queue, works := s.works ++ []
        history := s.history ++ [.registerPath frame.command path answers] } done' found' := by
  let step : Step := ⟨frame.command, path, .registerPath answers (constructed path answers).1⟩
  have acts : steps.act (found step.path) step = some (constructed path answers).2 := by
    simp [steps, step, free]
  exact ⟨_, _, active.proceed follows (rfl : step.command = frame.command) settled take_entered
    rfl same commands continues (follows.recorded.snoc acts last (.inl rfl)) mirrors⟩

/-- A `registerPath` up to the destructor it runs. -/
theorem Active.registerPath
    (active : Active rank s done frame stack entry (continuations s.queue.system)
      (.registerPaths (path :: paths)))
    (follows : Follows rank s done found) (settled : ¬ Replacing s.queue.system path)
    (last : ∀ other ∈ done, other.path = path → rank other.command ≤ rank frame.command)
    (same : queue.stack = s.queue.stack)
    (commands : queue.commands = s.queue.commands.set frame.command (after entry
      (Work.goOn s.queue.system.server answers cancelIo (.registerPaths (path :: paths))).2))
    (served : s.queue.system.register path answers = queue.system) :
    ∃ done' found', Follows rank
      { queue, works := s.works ++ []
        history := s.history ++
          if Work.Replaces s.queue.system.server (.registerPaths (path :: paths)) then []
          else [.registerPath frame.command path answers] } done' found' := by
  have mirrored := follows.mirrors.same path settled
  cases register_spec s.queue.system path answers with
  -- The path is watched: the work ends with an exception.
  | @refused watchPoint ex listed unfinished refuses result unchanged =>
    have stays : ¬ Work.Replaces s.queue.system.server (.registerPaths (path :: paths)) := by
      rintro ⟨other, mem, finished⟩
      obtain rfl := Option.some_inj.mp (listed.symm.trans mem)
      exact unfinished finished
    simp only [Work.goOn, refuses] at commands
    rw [if_neg stays]
    let step : Step := ⟨frame.command, path, .registerPath answers (.error ex)⟩
    have acts : steps.act (found step.path) step = some (found path) := by
      simp [steps, step, ← mirrored, listed, result]
    have takes : (Progress.goesOn (.registerPaths (path :: paths))).take step =
        some (.ends (.error ex)) := by simp [Progress.take, step]
    have system : queue.system = s.queue.system := served.symm.trans unchanged
    refine ⟨_, _, active.proceed follows (rfl : step.command = frame.command) settled takes rfl same
      commands (by rw [system]) (follows.recorded.snoc acts last (.inl rfl)) ?_⟩
    rw [Function.update_eq_self, system]
    exact follows.mirrors
  -- Nothing is replaced, so there is no destructor to wait in.
  | enters absent begins atOnce =>
    have stays : ¬ Work.Replaces s.queue.system.server (.registerPaths (path :: paths)) := by
      rintro ⟨other, mem, -⟩
      cases absent.symm.trans mem
    rw [if_neg stays]
    simp only [Work.goOn, begins, entered_eq absent] at commands
    obtain ⟨changes, running, continues⟩ :=
      enter_of_absent s.queue.system answers (.ok ()) absent
    rw [← atOnce, served] at changes running continues
    refine active.enter follows settled last ?_ same commands continues
      (follows.mirrors.update settled changes (fun other => ?_) running)
    · rw [← mirrored, absent]
      rfl
    · rw [Replacing, continues, Replacing]
  -- A finished watch point is erased. The step is done once its destructor has ended.
  | @replaces watchPoint server listed finished begins changes running continues =>
    have replaces : Work.Replaces s.queue.system.server (.registerPaths (path :: paths)) :=
      ⟨watchPoint, listed, finished⟩
    simp only [Work.goOn, begins] at commands
    rw [served] at changes running continues
    rw [if_pos replaces]
    have tracks := active.stacked ▸ follows.tracks
    refine ⟨done, found, by simpa using follows.admitted, by simpa using follows.history,
      follows.recorded, follows.mirrors.begin settled listed finished changes continues running, ?_⟩
    rw [List.append_nil, same, commands, active.stacked, continues]
    refine tracks.wait active.head (.refl active.known active.working) active.leaves .some ?_ ?_
    · intro other mem
      obtain rfl := Option.some_inj.mp mem
      exact settled
    · intro other mem
      obtain rfl := Option.some_inj.mp mem
      exact last

/-- An `unregisterPath` up to the destructor it runs. -/
theorem Active.unregisterPath {success : Bool}
    (active : Active rank s done frame stack entry (continuations s.queue.system)
      (.unregisterPaths (path :: paths) success))
    (follows : Follows rank s done found) (settled : ¬ Replacing s.queue.system path)
    (last : ∀ other ∈ done, other.path = path → rank other.command ≤ rank frame.command)
    (same : queue.stack = s.queue.stack)
    (commands : queue.commands = s.queue.commands.set frame.command (after entry
      (Work.goOn s.queue.system.server answers cancelIo
        (.unregisterPaths (path :: paths) success)).2))
    (served : s.queue.system.unregister path cancelIo = queue.system) :
    ∃ done' found', Follows rank
      { queue, works := s.works ++ []
        history := s.history ++ [.unregisterPath frame.command path] } done' found' := by
  have mirrored := follows.mirrors.same path settled
  obtain ⟨server, unregisters, -⟩ := s.queue.system.server.unregisterPath_spec path
  simp only [Work.goOn, unregisters, mirrored] at commands
  let step : Step := ⟨frame.command, path, .unregisterPath (found path).isSome⟩
  have acts : steps.act (found step.path) step = some none := by simp [steps, step]
  have takes : (Progress.goesOn (.unregisterPaths (path :: paths) success)).take step =
      some (.goesOn (.unregisterPaths paths (success && (found path).isSome))) := by
    simp [Progress.take, step]
  obtain ⟨changes, running, continues⟩ := unregister_spec s.queue.system path cancelIo
  rw [served] at changes running continues
  have recorded := follows.recorded.snoc acts last (.inl rfl)
  have mirrors := follows.mirrors.update settled changes (fun other => by
    rcases continues with same | pushed
    · rw [Replacing, same, Replacing]
    · simp [Replacing, pushed]) running
  -- The watch point that was erased may have to be waited for.
  rcases continues with continues | continues
  · exact ⟨_, _, active.proceed follows (rfl : step.command = frame.command) settled takes rfl same
      commands continues recorded mirrors⟩
  · have tracks := active.stacked ▸ follows.tracks
    have history : (done ++ [step]).map Step.event =
        s.history ++ [.unregisterPath frame.command path] := by
      rw [List.map_append, follows.history]
      rfl
    refine ⟨_, _, by simpa using follows.admitted, history, recorded, mirrors, ?_⟩
    rw [List.append_nil, same, commands, active.stacked, continues]
    exact tracks.wait active.head (active.part rfl settled) ((active.leaves_snoc rfl).trans takes)
      .none (by simp) (by simp)

/-- The innermost callback does the next part of its work. -/
theorem Follows.work (reach : CommandQueue.machine.Reachable s.queue)
    (follows : Follows rank s done found) (ordered : Ordered rank s (.work answers cancelIo))
    (step : s.queue.next (.work answers cancelIo) = some queue) :
    ∃ done' found', Follows rank
      { queue, works := s.works ++ []
        history := s.history ++ events s.queue (.work answers cancelIo) } done' found' := by
  obtain ⟨frame, top, step⟩ := Option.bind_eq_some_iff.mp step
  split_ifs at step with awake
  obtain ⟨stack, stacked⟩ := List.head?_eq_some_iff.mp top
  obtain ⟨entry, known, working, same, commands, serves, idle⟩ := workOn_result step
  have active := follows.active reach stacked awake known working
  have happens : events s.queue (.work answers cancelIo) =
      if entry.work.Replaces s.queue.system.server then []
      else (entry.work.event frame.command answers).toList := by
    simp only [events, stacked, known]
  rw [happens]
  -- The next part comes last to its path, and nobody is replacing the watch point.
  have turn : ∀ path, entry.work.path? = some path → ¬ Replacing s.queue.system path ∧
      ∀ other ∈ done, other.path = path → rank other.command ≤ rank frame.command := by
    intro path next
    obtain ⟨settled, first⟩ := ordered frame top entry known path next
    exact ⟨settled, follows.last first⟩
  generalize entry.work = work at *
  cases work with
  | shutdownRunLoop => exact absurd active.leaves (progressOf_ne follows.admitted)
  | registerPaths paths =>
    cases paths with
    | nil =>
      have system := idle rfl
      exact ⟨done, found, active.through follows rfl same commands system (by rw [system])⟩
    | cons path paths =>
      obtain ⟨settled, last⟩ := turn path rfl
      exact active.registerPath follows settled last same commands
        (Option.some_inj.mp (serves _ rfl))
  | unregisterPaths paths success =>
    cases paths with
    | nil =>
      have system := idle rfl
      exact ⟨done, found, active.through follows rfl same commands system (by rw [system])⟩
    | cons path paths =>
      obtain ⟨settled, last⟩ := turn path rfl
      exact active.unregisterPath follows settled last same commands
        (Option.some_inj.mp (serves _ rfl))

/-- The destructor that the innermost callback waits in returns. -/
theorem Follows.destroyed (reach : CommandQueue.machine.Reachable s.queue)
    (follows : Follows rank s done found)
    (step : s.queue.next (.destroyed answers cancelIo) = some queue) :
    ∃ done' found', Follows rank
      { queue, works := s.works ++ []
        history := s.history ++ events s.queue (.destroyed answers cancelIo) } done' found' := by
  obtain ⟨frame, top, step⟩ := Option.bind_eq_some_iff.mp step
  split_ifs at step with waits
  obtain ⟨stack, stacked⟩ := List.head?_eq_some_iff.mp top
  obtain ⟨entry, known, working, same, commands, serves, -⟩ := workOn_result step
  obtain ⟨⟨watchPoint, continuation⟩, destroying, waiting, returns⟩ :=
    System.destroyed_spec (serves _ rfl)
  have continues : continuations s.queue.system =
      continuation :: destroying.map Destruction.thenRegister := by
    rw [continuations, waiting, List.map_cons]
  have tracks := continues ▸ stacked ▸ follows.tracks
  obtain ⟨head, ⟨entry', work, known', -, resumes, leaves, last⟩, once⟩ :=
    tracks.resume (by simpa [waiting] using waits)
  obtain rfl := Option.some_inj.mp (known.symm.trans known')
  have runs := runs_of_working reach known working
  have active : Active rank s done frame stack entry
      (destroying.map Destruction.thenRegister) work :=
    ⟨stacked, known, working, runs, head, leaves⟩
  rcases returns with ⟨none, system⟩ | ⟨path, some, system⟩
  -- It was run by an `unregisterPath`, whose step is done.
  · obtain rfl : continuation = Option.none := none
    cases resumes
    simp only [Work.destroyed, waiting] at commands
    have happens : events s.queue (.destroyed answers cancelIo) = [] := by
      simp [events, stacked, waiting]
    refine ⟨done, found, by simpa using follows.admitted, by simpa [happens] using follows.history,
      follows.recorded, follows.mirrors.congr (by rw [system]) fun other => ?_, ?_⟩
    · rw [system, Replacing, Replacing, continues]
      simp [continuations]
    · rw [List.append_nil, same, commands, stacked, system]
      exact tracks.goOn head (.refl known working) runs leaves (.inl rfl)
  -- It was run by a `registerPath`, whose step is done now.
  · obtain rfl : continuation = Option.some path := some
    generalize rest : entry.work = part at *
    cases resumes with
    | @some _ paths =>
      have replacing : Replacing s.queue.system path := by
        rw [Replacing, continues]
        exact List.mem_cons_self
      obtain ⟨absent, watchPoint', listed, finished⟩ := follows.mirrors.replaced path replacing
      have settled := once path rfl
      simp only [Work.destroyed, waiting, List.head?_cons, Option.bind_some, entered_eq absent]
        at commands
      obtain ⟨changes, running, continues'⟩ :=
        enter_of_absent { s.queue.system with destroying } answers cancelIo absent
      rw [← system] at changes running continues'
      have happens : events s.queue (.destroyed answers cancelIo) =
          [.registerPath frame.command path answers] := by
        simp [events, stacked, waiting]
      rw [happens]
      refine active.enter follows settled (last path rfl) ?_ same commands continues'
        (follows.mirrors.enter continues settled continues' changes running)
      rw [Option.mem_def.mp listed, registered, if_pos finished]

/-- The completion routine of a watch point of the server. -/
theorem Follows.completion {completion : Completion} {system : System}
    (follows : Follows rank s done found)
    (step : s.queue.system.next (.completion path completion) = some system) :
    ∃ done' found', Follows rank
      { queue := { s.queue with system }, works := s.works ++ []
        history := s.history ++ [.completion path completion] } done' found' := by
  obtain ⟨watchPoint, listed, outstanding, completes⟩ := System.completion_spec step
  -- While the watch point of a path is replaced, the server has none for it.
  have settled : ¬ Replacing s.queue.system path := fun replacing => by
    have absent := (follows.mirrors.replaced path replacing).1
    cases absent.symm.trans listed
  have mirrored : found path = some watchPoint := (follows.mirrors.same path settled) ▸ listed
  have watched : found path ≠ none := by simp [mirrored]
  -- The routine counts for the command that has dealt with the path last.
  obtain ⟨part, mem, rfl, last⟩ := follows.recorded.exists_last watched
  obtain ⟨left, completed_eq⟩ : ∃ left, completed watchPoint completion = some left :=
    ⟨_, if_pos outstanding⟩
  obtain ⟨-, changes⟩ := s.queue.system.server.found_complete part.path follows.mirrors.running
    completed_eq
  let new : Step := ⟨part.command, part.path, .completion completion⟩
  have acts : steps.act (found new.path) new = some (some left) := by
    simp [steps, new, mirrored, completed_eq]
  have progress (i : ℕ) : progressOf s.works (done ++ [new]) i = progressOf s.works done i :=
    progressOf_snoc_completion rfl
  refine ⟨_, _, by simpa using follows.admitted, ?_,
    follows.recorded.snoc acts last (.inr (follows.recorded.owned part mem)),
    follows.mirrors.update settled ?_ (fun _ => ?_) ?_, ?_⟩
  · rw [List.map_append, follows.history]
    rfl
  · rw [completes]
    exact changes
  · rw [completes]
    rfl
  · rw [completes]
    rfl
  · rw [List.append_nil, completes]
    exact follows.tracks.snoc progress ⟨part, mem, rfl⟩ settled

end Parts

/-- What the server does not see. -/
theorem Follows.quiet {queue : CommandQueue.State} (follows : Follows rank s done found)
    (system : queue.system = s.queue.system)
    (tracks : Tracks rank queue.commands queue.stack (continuations s.queue.system) s.works done) :
    Follows rank { queue, works := s.works ++ [], history := s.history ++ [] } done found where
  admitted := by simpa using follows.admitted
  history := by simpa using follows.history
  recorded := follows.recorded
  mirrors := by rw [system]; exact follows.mirrors
  tracks := by rw [List.append_nil, system]; exact tracks

/-- The caller of a command takes a step. -/
theorem Follows.caller {command : ℕ} {caller : Command.Label} {queue : CommandQueue.State}
    (reach : CommandQueue.machine.Reachable s.queue) (follows : Follows rank s done found)
    (calls : caller = .execute ∨ (∃ errorCode, caller = .refuse errorCode) ∨
      ∃ wake, caller = .wake wake) (step : s.queue.advance command caller = some queue) :
    Follows rank { queue, works := s.works ++ [], history := s.history ++ [] } done found := by
  obtain ⟨entry, state, known, next, rfl⟩ := CommandQueue.advance_spec step
  have reached := CommandQueue.reachable_command reach command entry known
  obtain ⟨runs, same | ⟨unscheduled, queued⟩⟩ := caller_spec reached calls next
  · exact follows.quiet rfl (follows.tracks.advance known runs (by rw [same]; exact id)
      (by rw [same]; exact id) (by rw [same]))
  · refine follows.quiet rfl (follows.tracks.advance known runs ?_ ?_ ?_)
    · simp [unscheduled]
    · simp [CommandQueue.Begun, unscheduled]
    · simp [CommandQueue.InProgress, unscheduled, queued]

/-- A queued callback begins. -/
theorem Follows.callback {command : ℕ} {queue : CommandQueue.State}
    (follows : Follows rank s done found)
    (step : s.queue.next (.executeOnRunLoopCallback command) = some queue) :
    Follows rank { queue, works := s.works ++ [], history := s.history ++ [] } done found := by
  simp only [CommandQueue.State.next] at step
  split_ifs at step with enabled
  obtain ⟨-, alertable, entry, known, queued⟩ := enabled
  obtain ⟨advanced, advances, rfl⟩ := Option.map_eq_some_iff.mp step
  obtain ⟨entry', state, known', next, rfl⟩ := CommandQueue.advance_spec advances
  obtain rfl := Option.some_inj.mp ((Option.mem_def.mp known).symm.trans known')
  obtain ⟨runs, pcs⟩ := callback_spec next
  have working : state.callback = .working := by simpa [queued] using pcs
  refine follows.quiet rfl ?_
  have length : (continuations s.queue.system).length = s.queue.system.destroying.length := by
    rw [continuations, List.length_map]
  rw [← length]
  exact follows.tracks.push (by rwa [length]) known queued runs working

/-- The innermost callback goes on after its work. -/
theorem Follows.executeInsideRunLoop {queue : CommandQueue.State}
    (follows : Follows rank s done found)
    (step : s.queue.next .executeInsideRunLoop = some queue) :
    Follows rank { queue, works := s.works ++ [], history := s.history ++ [] } done found := by
  obtain ⟨frame, top, step⟩ := Option.bind_eq_some_iff.mp step
  obtain ⟨stack, stacked⟩ := List.head?_eq_some_iff.mp top
  split_ifs at step with queued notified
  -- The callback returns, or it goes on.
  · obtain ⟨entry, known, pc⟩ := notified
    obtain ⟨advanced, advances, rfl⟩ := Option.map_eq_some_iff.mp step
    obtain ⟨entry', state, known', next, rfl⟩ := CommandQueue.advance_spec advances
    obtain rfl := Option.some_inj.mp ((Option.mem_def.mp known).symm.trans known')
    obtain ⟨runs, pcs⟩ := callback_spec next
    have finished : state.callback = .finished := by simpa [pc] using pcs
    refine follows.quiet rfl ?_
    have tracks := stacked ▸ follows.tracks
    rw [stacked]
    exact tracks.pop known pc runs finished
  · obtain ⟨entry, state, known, next, rfl⟩ := CommandQueue.advance_spec step
    obtain ⟨runs, pcs⟩ := callback_spec next
    refine follows.quiet rfl ?_
    rcases pcs with ⟨pc, -⟩ | ⟨pc, pc'⟩ | ⟨pc, pc'⟩ | ⟨pc, -⟩
    · exact absurd ⟨entry, known, pc⟩ queued
    · exact follows.tracks.advance known runs (by simp [pc])
        (by simp [CommandQueue.Begun, pc']) (by simp [CommandQueue.InProgress, pc, pc'])
    · exact follows.tracks.advance known runs (by simp [pc])
        (by simp [CommandQueue.Begun, pc']) (by simp [CommandQueue.InProgress, pc, pc'])
    · exact absurd ⟨entry, known, pc⟩ notified

/-- The completion routine of a watch point that is being destroyed changes no watch point of
the server. -/
theorem Follows.lateCompletion {index : ℕ} {completion : Completion} {system : System}
    (follows : Follows rank s done found)
    (step : s.queue.system.next (.lateCompletion index completion) = some system) :
    Follows rank
      { queue := { s.queue with system }, works := s.works ++ []
        history := s.history ++ [] } done found := by
  have server := System.server_of_lateCompletion step
  have continues : continuations system = continuations s.queue.system := by
    dsimp only [System.next] at step
    split at step
    next => cases step
    next destruction known =>
      split_ifs at step
      rw [← Option.some_inj.mp step]
      refine List.ext_getElem? fun i => ?_
      simp only [continuations, List.getElem?_map]
      rcases eq_or_ne index i with rfl | other
      · rw [List.getElem?_set_self (List.getElem?_eq_some_iff.mp known).1, known]
        rfl
      · rw [List.getElem?_set_ne other]
  constructor
  case admitted => simpa using follows.admitted
  case history => simpa using follows.history
  case recorded => exact follows.recorded
  case mirrors =>
    exact follows.mirrors.congr server fun other => by rw [Replacing, continues, Replacing]
  case tracks =>
    rw [List.append_nil, continues]
    exact follows.tracks

/-- A run whose steps are ordered goes on. -/
theorem Follows.next (reach : machine.Reachable s) (follows : Follows rank s done found)
    (ordered : Ordered rank s label) (step : machine.next s label = some t) :
    ∃ done' found', Follows rank t done' found' := by
  have reached := reachable_queue reach
  obtain ⟨running, unmoved, queue, next, rfl⟩ := next_spec step
  cases label with
  | executeOnRunLoop work =>
    obtain rfl := Option.some_inj.mp next
    refine ⟨done, found, ?_, by simpa [events] using follows.history, follows.recorded,
      follows.mirrors, follows.tracks.append work⟩
    have other : work ≠ .shutdownRunLoop := fun same => running (same ▸ rfl)
    simpa [newWorks, other.symm] using follows.admitted
  | execute command => exact ⟨done, found, follows.caller reached (.inl rfl) next⟩
  | refuse command errorCode =>
    exact ⟨done, found, follows.caller reached (.inr (.inl ⟨errorCode, rfl⟩)) next⟩
  | wake command wake =>
    exact ⟨done, found, follows.caller reached (.inr (.inr ⟨wake, rfl⟩)) next⟩
  | executeOnRunLoopCallback command => exact ⟨done, found, follows.callback next⟩
  | work answers cancelIo => exact follows.work reached ordered next
  | destroyed answers cancelIo => exact follows.destroyed reached next
  | executeInsideRunLoop => exact ⟨done, found, follows.executeInsideRunLoop next⟩
  | completion path completion =>
    obtain ⟨system, serves, rfl⟩ := CommandQueue.serve_spec next
    exact follows.completion serves
  | lateCompletion index completion =>
    obtain ⟨system, serves, rfl⟩ := CommandQueue.serve_spec next
    exact ⟨done, found, follows.lateCompletion serves⟩
  | stopWatchingMovedPaths visits => exact absurd rfl (unmoved visits)
  | leave => simp [CommandQueue.State.next, follows.mirrors.running] at next

end Follows

section Serializable

variable {rank : ℕ → ℕ} {s : State} {done : List Step} {found : U16String → Option WatchPoint}

theorem follows_start : Follows rank machine.start [] fun _ => none where
  admitted := by simp [machine]
  history := rfl
  recorded := ⟨rfl, by simp, by simp⟩
  mirrors := ⟨rfl, fun _ _ => rfl, by simp [Replacing, continuations, machine,
    CommandQueue.machine, Windows.machine]⟩
  tracks := ⟨rfl, by simp, by simp [machine, CommandQueue.machine],
    ⟨[], .nil, fun i _ entry known => by simp [machine, CommandQueue.machine] at known, .inl rfl⟩⟩

theorem mem_of_isSome_result {i : ℕ} (through : (s.result i).isSome) :
    i ∈ List.range s.queue.commands.length := by
  obtain ⟨outcome, through⟩ := Option.isSome_iff_exists.mp through
  obtain ⟨entry, known, -⟩ := Option.bind_eq_some_iff.mp through
  exact List.mem_range.mpr (List.getElem?_eq_some_iff.mp known).1

/-- A callback that has returned has a result. -/
theorem isSome_result_of_begun (reach : CommandQueue.machine.Reachable s.queue) {i : ℕ}
    {entry : CommandQueue.Entry} (known : s.queue.commands[i]? = some entry)
    (begun : CommandQueue.Begun entry.state.callback)
    (idle : ¬ CommandQueue.InProgress entry.state.callback) : (s.result i).isSome := by
  have recorded := Command.recorded (CommandQueue.reachable_command reach i entry known)
  have stored : entry.state.callback.Stored := by
    cases pc : entry.state.callback with
    | unscheduled => exact absurd pc begun.1
    | queued => exact absurd pc begun.2
    | finished => exact .inr (.inr (.inr rfl))
    | working | stored | locked | notified => simp [CommandQueue.InProgress, pc] at idle
  obtain ⟨outcome, through⟩ := Option.isSome_iff_exists.mp (recorded.stored_iff.mp stored)
  simp [State.result, known, recorded.runs, through]

/-- Where ordered steps lead, and no callback is in progress, some serial run has the same
events, the same results and the same watch points. -/
theorem serializable_of_ordered (rank : ℕ → ℕ) (injective : Function.Injective rank) (s : State)
    (reach : machine.ReachableWhere (Ordered rank) s) (returned : s.queue.stack = []) :
    s.Serializable := by
  obtain ⟨done, found, follows⟩ : ∃ done found, Follows rank s done found := by
    refine reach.invariant_of (J := machine.Reachable)
      (I := fun s => ∃ done found, Follows rank s done found) (fun _ reach => reach.reachable)
      ⟨[], _, follows_start⟩ ?_
    rintro s label t reach ⟨done, found, follows⟩ ordered step
    exact follows.next reach ordered step
  have reached := reachable_queue reach.reachable
  have tracks := returned ▸ follows.tracks
  -- No callback waits, so no watch point is being replaced.
  obtain ⟨settled, continues⟩ : (∀ i, Settled s.queue.commands s.works done i) ∧
      continuations s.queue.system = [] := by
    obtain ⟨waiting, nested, settled, rfl | ⟨_, same, -⟩⟩ := tracks.stacked
    · exact ⟨fun i => settled i (by simp), nested.eq_nil⟩
    · cases same
  obtain ⟨order, ranked, listed⟩ := exists_ranked injective
    ((List.nodup_range (n := s.queue.commands.length)).filter fun i => (s.result i).isSome)
  have mem_order (i : ℕ) : i ∈ order ↔ (s.result i).isSome := by
    rw [listed, List.mem_filter]
    exact ⟨And.right, fun through => ⟨mem_of_isSome_result through, through⟩⟩
  have all : ∀ step ∈ done, step.command ∈ order := by
    intro step mem
    obtain ⟨entry, known, begun⟩ := tracks.begun step mem
    refine (mem_order _).mpr (isSome_result_of_begun reached known begun fun busy => ?_)
    cases tracks.inside _ entry known busy
  have through : ∀ i ∈ order, ∃ work last, s.works[i]? = some work ∧
      (done.filter fun step => step.command = i).foldlM Progress.take (.goesOn work) =
        some last ∧ last.outcome = s.result i := by
    intro i mem
    obtain ⟨outcome, through⟩ := Option.isSome_iff_exists.mp ((mem_order i).mp mem)
    obtain ⟨entry, known, runs⟩ := Option.bind_eq_some_iff.mp through
    obtain ⟨last, progress, -, agrees⟩ := settled i entry known
    obtain ⟨work, passed, takes⟩ := Option.bind_eq_some_iff.mp progress
    exact ⟨work, last, passed, takes,
      (agrees outcome (List.mem_of_mem_head? runs)).trans through.symm⟩
  have once : order.Nodup := ranked.imp fun before => ne_of_apply_ne rank before.ne
  have replayed : steps.replay Windows.machine.start.server.found
      (grouped Step.command order done) = some found :=
    Sites.replay_grouped ranked all follows.recorded.sorted follows.recorded.replayed
  obtain ⟨server, serially, found_eq⟩ :=
    serially_of_replay rfl replayed through fun i mem => (mem_order i).mp mem
  refine ⟨order, _, server, once, mem_order, ?_, serially, fun path => ?_⟩
  · rw [← follows.history]
    exact (perm_grouped once all).map Step.event
  · have same := follows.mirrors.same path (by simp [Replacing, continues])
    exact (congrFun found_eq path).trans same.symm

end Serializable

/-! ## Commands on the same paths -/

/-- A thread calls `executeOnRunLoop` and waits. -/
def call (command : ℕ) (work : Work) : List CommandQueue.Label :=
  [.executeOnRunLoop work, .execute command, .execute command, .execute command]

/-- The innermost callback does its next part, and so does the system. -/
def goesOn (path : U16String) : CommandQueue.Label :=
  .work { directoryAnswers with finalPath := .ok (some path) } (.ok ())

/-- The destructor that the innermost callback waits in returns. -/
def destructorReturns : CommandQueue.Label := .destroyed directoryAnswers (.ok ())

/-- The innermost callback returns after its work. -/
def callbackReturns : List CommandQueue.Label :=
  [.executeInsideRunLoop, .executeInsideRunLoop, .executeInsideRunLoop]

def pathA : U16String := u16 "C:\\a"

def pathB : U16String := u16 "C:\\b"

/-- Two paths are registered, and two threads unregister paths. The command of the second one
runs in the destructor of the first watch point that the other one removes. -/
def nestedRun (paths : List U16String) (nested : List CommandQueue.Label) :
    List CommandQueue.Label :=
  call 0 (.registerPaths [pathA, pathB]) ++
    [.executeOnRunLoopCallback 0, goesOn pathA, goesOn pathB, goesOn pathB] ++ callbackReturns ++
    call 1 (.unregisterPaths [pathA, pathB] true) ++ call 2 (.unregisterPaths paths true) ++
    [.executeOnRunLoopCallback 1, goesOn pathA, .executeOnRunLoopCallback 2] ++ nested ++
    callbackReturns ++ [destructorReturns, goesOn pathB]

/-- The nested command finds its path unwatched, and the other command goes on. -/
def orderedRun : List CommandQueue.Label :=
  nestedRun [pathA] [goesOn pathA, goesOn pathA] ++ [destructorReturns, goesOn pathB] ++
    callbackReturns

theorem serializable_of_ordered_nested :
    ∃ s, machine.ReachableWhere (Ordered id) s ∧ s.result 1 = some (.ok true) ∧
      s.result 2 = some (.ok false) ∧ s.Serializable := by
  have computed : (machine.execWhere (Ordered id) machine.start orderedRun).map
      (fun s => (s.queue.stack.length, s.result 1, s.result 2)) =
        some (0, some (.ok true), some (.ok false)) := by decide
  obtain ⟨s, reach, last⟩ := Machine.observe_of_execWhere computed
  obtain ⟨length, results⟩ := Prod.mk.inj last
  obtain ⟨first, second⟩ := Prod.mk.inj results
  have returned : s.queue.stack = [] := List.eq_nil_of_length_eq_zero length
  exact ⟨s, reach, first, second,
    serializable_of_ordered id Function.injective_id s reach returned⟩

/-- The nested command removes the second path before the other one comes to it. -/
def overtakenRun : List CommandQueue.Label :=
  nestedRun [pathA, pathB] [goesOn pathA, goesOn pathB, destructorReturns, goesOn pathB] ++
    [goesOn pathB] ++ callbackReturns

/-- In a serial run of a `registerPaths` that returns and some `unregisterPaths` that return
false, all with the same paths, these are watched once the first has been run. -/
theorem watched_of_serially {works : List Work}
    {result : ℕ → Option (Except CppException Bool)} {paths : List U16String} (once : paths.Nodup)
    (known : ∀ i work outcome, works[i]? = some work → result i = some outcome →
      i = 0 ∧ work = .registerPaths paths ∧ outcome = .ok true ∨
        i ≠ 0 ∧ work = .unregisterPaths paths true ∧ outcome = .ok false)
    {server after : Server} {order : List ℕ} {events : List Event}
    (serially : Serially works result server order events after)
    (watched : 0 ∈ order ∨ ∀ path ∈ paths, path ∈ server.watchPoints) :
    ∀ path ∈ paths, path ∈ after.watchPoints := by
  induction serially with
  | nil => exact watched.resolve_left (by simp)
  | @cons server middle after i order work events later outcome passed same run _ ih =>
    rcases known i work outcome passed same with ⟨-, rfl, rfl⟩ | ⟨other, rfl, rfl⟩
    · exact ih (.inr fun path mem => run.registers rfl (by simp) (.inr ⟨paths, rfl, mem⟩))
    · -- It would have returned true if the paths had been watched.
      refine ih (.inl ?_)
      rcases watched with mem | watched
      · exact (List.mem_cons.mp mem).resolve_left other.symm
      · cases run.unregisters rfl once watched

/-- Commands are not atomic: two commands that unregister the same two watched paths both
return false. -/
theorem not_forall_serializable :
    ¬ ∀ s, machine.Reachable s → s.queue.stack = [] → s.Serializable := by
  intro always
  have computed : (machine.exec machine.start overtakenRun).map (fun s =>
      (s.queue.stack, s.works, s.result 0, s.result 1, s.result 2,
        s.queue.system.server.watchPoints.lookup pathA)) =
      some ([], [.registerPaths [pathA, pathB], .unregisterPaths [pathA, pathB] true,
        .unregisterPaths [pathA, pathB] true], some (.ok true), some (.ok false),
        some (.ok false), none) := rfl
  obtain ⟨s, reach, last⟩ := Machine.observe_of_exec computed
  simp only [Prod.mk.injEq] at last
  obtain ⟨returned, works, first, second, third, gone⟩ := last
  obtain ⟨order, events, server, -, mem_order, -, serially, same⟩ := always s reach returned
  have known : ∀ i work outcome, s.works[i]? = some work → s.result i = some outcome →
      i = 0 ∧ work = .registerPaths [pathA, pathB] ∧ outcome = .ok true ∨
        i ≠ 0 ∧ work = .unregisterPaths [pathA, pathB] true ∧ outcome = .ok false := by
    intro i work outcome passed through
    rw [works] at passed
    match i with
    | 0 => exact .inl ⟨rfl, (Option.some_inj.mp passed).symm, by simpa [first] using through.symm⟩
    | 1 =>
      exact .inr ⟨by simp, (Option.some_inj.mp passed).symm, by simpa [second] using through.symm⟩
    | 2 =>
      exact .inr ⟨by simp, (Option.some_inj.mp passed).symm, by simpa [third] using through.symm⟩
    | i + 3 => cases passed
  have watched := watched_of_serially (by decide) known serially
    (.inl ((mem_order 0).mpr (by simp [first]))) pathA List.mem_cons_self
  rw [mem_iff_lookup, same, gone] at watched
  obtain ⟨_, impossible⟩ := watched
  cases impossible

end Commands

end Windows

end FileEvents
