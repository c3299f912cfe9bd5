import FileEvents.Concurrency.Sites
import FileEvents.Windows.CommandQueue

/-!
# Commands one after another

What the commands of `win_fsnotifier.cpp` do to the watch points when they are run one after
another, whole. Completion routines run before and after every part of a command, as they do
in the destructors it runs.

Every part of a command, and every completion routine, concerns the watch point of one path,
so it can be told from what was done at the single paths whether a serial run does the same.

## Main definitions

* `Event` — what the run-loop thread does to the watch points
* `Progress.Runs` — a command run whole, with its events
* `Serially` — commands run one after another, with all their events
* `Step`, `steps` — an event with its result, as an act on its path

## Main results

* `Progress.runs_of_replay` — the steps of one command are a run of it
* `serially_of_replay` — the steps of commands, one command after another, are a serial run
-/

namespace FileEvents

open Concurrency

namespace Windows

/-- What the run-loop thread does to the watch points. -/
inductive Event
  | registerPath (command : ℕ) (path : U16String) (answers : ConstructAnswers)
  | unregisterPath (command : ℕ) (path : U16String)
  | completion (path : U16String) (completion : Completion)

/-- `Server::registerPath` from its beginning to its end. -/
def Server.registerPath (server : Server) (path : U16String) (answers : ConstructAnswers) :
    Except CppException Unit × Server :=
  match server.beginRegisterPath path with
  | .error ex => (.error ex, server)
  | .ok (_, server) =>
    match server.enterWatchPoint path answers with
    | (result, server, _) => (result, server)

/-- The completion routine of a watch point of the server. -/
def Server.complete (server : Server) (path : U16String) (watchPoint : WatchPoint)
    (completion : Completion) : Server :=
  { server with
    watchPoints := server.watchPoints.insert path
      (server.handleEventsInBuffer watchPoint completion).1 }

/-- The next part of a work, from its beginning to its end. -/
def Work.goOnWhole (server : Server) (answers : ConstructAnswers) : Work → Progress × Server
  | .registerPaths [] => (.ends (.ok true), server)
  | .registerPaths (path :: paths) =>
    match server.registerPath path answers with
    | (.ok (), server) => (.goesOn (.registerPaths paths), server)
    | (.error ex, server) => (.ends (.error ex), server)
  | .unregisterPaths [] success => (.ends (.ok success), server)
  | .unregisterPaths (path :: paths) success =>
    match server.unregisterPath path with
    | (found, server) => (.goesOn (.unregisterPaths paths (success && found.isSome)), server)
  | .shutdownRunLoop => (.ends (.ok true), { server with shouldTerminate := true })

/-- The next part of a work as an event. -/
def Work.event (command : ℕ) (answers : ConstructAnswers) : Work → Option Event
  | .registerPaths (path :: _) => some (.registerPath command path answers)
  | .unregisterPaths (path :: _) _ => some (.unregisterPath command path)
  | .registerPaths [] | .unregisterPaths [] _ | .shutdownRunLoop => none

/-- A command is run whole, with the events of its run, what its work returns or throws and
the server afterwards. -/
inductive Progress.Runs (command : ℕ) :
    Server → Progress → List Event → Except CppException Bool → Server → Prop
  | through {server : Server} {outcome : Except CppException Bool} :
      Runs command server (.ends outcome) [] outcome server
  | part {server after : Server} {work : Work} {events : List Event}
      {outcome : Except CppException Bool} (answers : ConstructAnswers)
      (rest : Runs command (work.goOnWhole server answers).2 (work.goOnWhole server answers).1
        events outcome after) :
      Runs command server (.goesOn work) ((work.event command answers).toList ++ events) outcome
        after
  | completion {server after : Server} {progress : Progress} {events : List Event}
      {outcome : Except CppException Bool} {path : U16String} {watchPoint : WatchPoint}
      {completion : Completion} (known : server.watchPoints.lookup path = some watchPoint)
      (outstanding : 0 < watchPoint.outstandingReads)
      (rest : Runs command (server.complete path watchPoint completion) progress events outcome
        after) :
      Runs command server progress (.completion path completion :: events) outcome after

/-- Commands are run one after another, whole, with the results they have. -/
inductive Serially (works : List Work) (result : ℕ → Option (Except CppException Bool)) :
    Server → List ℕ → List Event → Server → Prop
  | nil {server : Server} : Serially works result server [] [] server
  | cons {server middle after : Server} {command : ℕ} {order : List ℕ} {work : Work}
      {events later : List Event} {outcome : Except CppException Bool}
      (known : works[command]? = some work) (same : result command = some outcome)
      (run : Progress.Runs command server (.goesOn work) events outcome middle)
      (rest : Serially works result middle order later after) :
      Serially works result server (command :: order) (events ++ later) after

/-! ## One path at a time -/

/-- The watch points by their paths. -/
def Server.found (server : Server) (path : U16String) : Option WatchPoint :=
  server.watchPoints.lookup path

/-- The `emplace` of `registerPath` where the path has no watch point. -/
def constructed (path : U16String) (answers : ConstructAnswers) :
    Except CppException Unit × Option WatchPoint :=
  match WatchPoint.construct path answers with
  | (.ok (), some watchPoint) => (.ok (), some watchPoint)
  | (result, _) => (result, none)

/-- What `registerPath` makes of the watch point of its path. -/
def registered (path : U16String) (answers : ConstructAnswers) :
    Option WatchPoint → Except CppException Unit × Option WatchPoint
  | none => constructed path answers
  | some watchPoint =>
    if watchPoint.status = .finished then constructed path answers
    else (.error (fileWatcherException "Already watching path" path none), some watchPoint)

/-- What the completion routine of a read makes of its watch point, as long as the server is
not shut down. -/
def completed (watchPoint : WatchPoint) (completion : Completion) : Option WatchPoint :=
  if 0 < watchPoint.outstandingReads then
    some (Server.handleEventsInBuffer { watchPoints := ∅, shouldTerminate := false } watchPoint
      completion).1
  else none

section Server

variable (server : Server) (path : U16String) (answers : ConstructAnswers)

theorem Server.found_insert (watchPoint : WatchPoint) :
    { server with watchPoints := server.watchPoints.insert path watchPoint }.found =
      Function.update server.found path (some watchPoint) := by
  funext other
  simp only [found, lookup_insert_eq, Function.update_apply]

theorem Server.found_erase :
    { server with watchPoints := server.watchPoints.erase path }.found =
      Function.update server.found path none := by
  funext other
  simp only [found, lookup_erase_eq, Function.update_apply]

theorem Server.enterWatchPoint_of_absent (absent : server.found path = none) :
    ∃ after, server.enterWatchPoint path answers = ((constructed path answers).1, after, none) ∧
      after.found = Function.update server.found path (constructed path answers).2 ∧
      after.shouldTerminate = server.shouldTerminate := by
  have unknown : path ∉ server.watchPoints := AList.lookup_eq_none.mp absent
  have unchanged : server.found = Function.update server.found path none := by
    rw [← absent, Function.update_eq_self]
  unfold enterWatchPoint constructed
  rcases WatchPoint.construct path answers with ⟨_ | _, _ | watchPoint⟩
  case ok.some =>
    simp only [if_neg unknown, emplace_of_not_mem unknown]
    exact ⟨_, rfl, server.found_insert path watchPoint, rfl⟩
  all_goals exact ⟨server, rfl, unchanged, rfl⟩

/-- `registerPath` concerns one path. -/
theorem Server.registerPath_spec :
    ∃ after, server.registerPath path answers =
        ((registered path answers (server.found path)).1, after) ∧
      after.found = Function.update server.found path
        (registered path answers (server.found path)).2 ∧
      after.shouldTerminate = server.shouldTerminate := by
  unfold registerPath beginRegisterPath
  cases known : server.found path with
  | none =>
    obtain ⟨after, entered, found, terminates⟩ :=
      server.enterWatchPoint_of_absent path answers known
    have unknown : server.watchPoints.lookup path = none := known
    simp only [unknown, entered]
    exact ⟨after, rfl, found, terminates⟩
  | some watchPoint =>
    have listed : server.watchPoints.lookup path = some watchPoint := known
    by_cases finished : watchPoint.status = .finished
    · obtain ⟨after, entered, found, terminates⟩ := enterWatchPoint_of_absent
        { server with watchPoints := server.watchPoints.erase path } path answers
        (AList.lookup_erase _ _)
      rw [found_erase, Function.update_idem] at found
      simp only [listed, finished, if_true, registered, entered]
      exact ⟨after, rfl, found, terminates⟩
    · simp only [listed, finished, if_false, registered]
      refine ⟨server, rfl, ?_, rfl⟩
      rw [← known, Function.update_eq_self]

/-- `unregisterPath` concerns one path. -/
theorem Server.unregisterPath_spec :
    ∃ after, server.unregisterPath path = (server.found path, after) ∧
      after.found = Function.update server.found path none ∧
      after.shouldTerminate = server.shouldTerminate := by
  unfold unregisterPath
  cases known : server.found path with
  | none =>
    have unknown : server.watchPoints.lookup path = none := known
    refine ⟨server, by rw [unknown], ?_, rfl⟩
    rw [← known, Function.update_eq_self]
  | some watchPoint =>
    have listed : server.watchPoints.lookup path = some watchPoint := known
    exact ⟨_, by rw [listed], server.found_erase path, rfl⟩

/-- A completion routine concerns one path. -/
theorem Server.found_complete {watchPoint after : WatchPoint} {completion : Completion}
    (running : server.shouldTerminate = false)
    (completes : completed watchPoint completion = some after) :
    0 < watchPoint.outstandingReads ∧
      (server.complete path watchPoint completion).found =
        Function.update server.found path (some after) := by
  unfold completed at completes
  split_ifs at completes with outstanding
  refine ⟨outstanding, ?_⟩
  obtain ⟨watchPoints, shouldTerminate⟩ := server
  obtain rfl : shouldTerminate = false := running
  rw [← Option.some_inj.mp completes]
  exact found_insert _ path _

end Server

/-! ## Runs from steps -/

/-- What a part of a command does to the watch point of its path, with what it returns or
throws, or what a completion routine does. -/
inductive Act
  | registerPath (answers : ConstructAnswers) (result : Except CppException Unit)
  | unregisterPath (wasWatched : Bool)
  | completion (completion : Completion)

/-- An event with its result. -/
structure Step where
  /-- The command it is a part of; for a completion routine, the command that dealt with the
  path last. -/
  command : ℕ
  path : U16String
  act : Act

def Step.event (step : Step) : Event :=
  match step.act with
  | .registerPath answers _ => .registerPath step.command step.path answers
  | .unregisterPath _ => .unregisterPath step.command step.path
  | .completion completion => .completion step.path completion

/-- Steps are acts on the watch points of their paths, as long as the server is not shut
down. -/
def steps : Sites Step U16String (Option WatchPoint) where
  site := Step.path
  act found step :=
    match step.act with
    | .registerPath answers result =>
      if (registered step.path answers found).1 = result then
        some (registered step.path answers found).2
      else none
    | .unregisterPath wasWatched => if found.isSome = wasWatched then some none else none
    | .completion completion =>
      found.bind fun watchPoint => (completed watchPoint completion).map some

/-- What becomes of a work when the step is its next part. -/
def Progress.take (progress : Progress) (step : Step) : Option Progress :=
  match step.act, progress with
  | .completion _, progress => some progress
  | .registerPath _ result, .goesOn (.registerPaths (path :: paths)) =>
    if step.path = path then
      match result with
      | .ok () => some (.goesOn (.registerPaths paths))
      | .error ex => some (.ends (.error ex))
    else none
  | .unregisterPath wasWatched, .goesOn (.unregisterPaths (path :: paths) success) =>
    if step.path = path then some (.goesOn (.unregisterPaths paths (success && wasWatched)))
    else none
  | _, _ => none

/-- What a work returns or throws, if nothing is left of it. -/
def Progress.outcome : Progress → Option (Except CppException Bool)
  | .ends outcome => some outcome
  | .goesOn (.registerPaths []) => some (.ok true)
  | .goesOn (.unregisterPaths [] success) => some (.ok success)
  | .goesOn (.registerPaths (_ :: _)) | .goesOn (.unregisterPaths (_ :: _) _)
  | .goesOn .shutdownRunLoop => none

section Runs

variable {command : ℕ} {server : Server} {progress progress' last : Progress}
  {outcome : Except CppException Bool} {step : Step} {block : List Step}

theorem Progress.runs_of_outcome (through : progress.outcome = some outcome) :
    Progress.Runs command server progress [] outcome server := by
  unfold Progress.outcome at through
  split at through
  next => exact Option.some_inj.mp through ▸ .through
  next => exact Option.some_inj.mp through ▸ .part CommandQueue.unusedAnswers .through
  next => exact Option.some_inj.mp through ▸ .part CommandQueue.unusedAnswers .through
  all_goals cases through

/-- A run may begin with a part that is an event. -/
theorem Progress.Runs.cons {server middle after : Server} {work : Work} {event : Event}
    {events : List Event} (answers : ConstructAnswers)
    (goesOn : work.goOnWhole server answers = (progress, middle))
    (same : work.event command answers = some event)
    (rest : Progress.Runs command middle progress events outcome after) :
    Progress.Runs command server (.goesOn work) (event :: events) outcome after := by
  have run : Progress.Runs command server (.goesOn work)
      ((work.event command answers).toList ++ events) outcome after :=
    .part answers (by rwa [goesOn])
  rwa [same] at run

/-- A step does the next part of a work, or is a completion routine. -/
theorem Progress.runs_cons {found : Option WatchPoint} (running : server.shouldTerminate = false)
    (acts : steps.act (server.found step.path) step = some found)
    (takes : progress.take step = some progress') :
    ∃ middle, middle.found = Function.update server.found step.path found ∧
      middle.shouldTerminate = false ∧
      ∀ events outcome after, Progress.Runs step.command middle progress' events outcome after →
        Progress.Runs step.command server progress (step.event :: events) outcome after := by
  unfold Progress.take at takes
  split at takes
  -- A completion routine is no part of the work.
  next completion act =>
    simp only [steps, act, Option.bind_eq_some_iff, Option.map_eq_some_iff] at acts
    obtain ⟨watchPoint, known, watchPoint', completes, rfl⟩ := acts
    obtain ⟨outstanding, left⟩ := server.found_complete step.path running completes
    refine ⟨server.complete step.path watchPoint completion, left, running, ?_⟩
    intro events outcome after rest
    rw [Step.event, act]
    exact .completion known outstanding (Option.some_inj.mp takes ▸ rest)
  next answers result path paths act =>
    simp only [steps, act] at acts
    split_ifs at acts takes with same own
    obtain ⟨middle, registers, left, terminates⟩ := server.registerPath_spec step.path answers
    rw [same, own] at registers
    refine ⟨middle, by rw [left, Option.some_inj.mp acts], terminates.trans running, ?_⟩
    intro events outcome after rest
    rw [Step.event, act, own]
    cases result with
    | ok | error =>
      exact .cons answers (by simp only [Work.goOnWhole, registers]) rfl
        (Option.some_inj.mp takes ▸ rest)
  next wasWatched path paths success act =>
    simp only [steps, act] at acts
    split_ifs at acts takes with same own
    obtain ⟨middle, unregisters, left, terminates⟩ := server.unregisterPath_spec step.path
    refine ⟨middle, by rw [left, Option.some_inj.mp acts], terminates.trans running, ?_⟩
    intro events outcome after rest
    rw [Step.event, act]
    refine .cons CommandQueue.unusedAnswers ?_ (own ▸ rfl) (Option.some_inj.mp takes ▸ rest)
    simp only [Work.goOnWhole, ← own, unregisters, same]
  next => cases takes

/-- The steps of a command, done on a server that is not shut down, are a run of it. -/
theorem Progress.runs_of_replay {found : U16String → Option WatchPoint}
    (running : server.shouldTerminate = false) (own : ∀ step ∈ block, step.command = command)
    (replayed : steps.replay server.found block = some found)
    (taken : block.foldlM Progress.take progress = some last)
    (through : last.outcome = some outcome) :
    ∃ after, Progress.Runs command server progress (block.map Step.event) outcome after ∧
      after.found = found ∧ after.shouldTerminate = false := by
  induction block generalizing server progress with
  | nil =>
    obtain rfl : progress = last := Option.some_inj.mp taken
    exact ⟨server, Progress.runs_of_outcome through, Option.some_inj.mp replayed, running⟩
  | cons step block ih =>
    obtain ⟨rfl, own⟩ := List.forall_mem_cons.mp own
    obtain ⟨found', acts, replayed⟩ := Option.bind_eq_some_iff.mp replayed
    rw [List.foldlM_cons] at taken
    obtain ⟨progress', takes, taken⟩ := Option.bind_eq_some_iff.mp taken
    obtain ⟨middle, left, running, cons⟩ := Progress.runs_cons running acts takes
    have replayed : steps.replay middle.found block = some found := left ▸ replayed
    obtain ⟨after, runs, same⟩ := ih running own replayed taken
    exact ⟨after, cons _ _ _ runs, same⟩

/-- The steps of commands, one command after another, are a serial run. -/
theorem serially_of_replay {works : List Work}
    {result : ℕ → Option (Except CppException Bool)} {found : U16String → Option WatchPoint}
    {order : List ℕ} (running : server.shouldTerminate = false)
    (replayed : steps.replay server.found (grouped Step.command order block) = some found)
    (through : ∀ i ∈ order, ∃ work last, works[i]? = some work ∧
      (block.filter fun step => step.command = i).foldlM Progress.take (.goesOn work) =
        some last ∧ last.outcome = result i) (results : ∀ i ∈ order, (result i).isSome) :
    ∃ after, Serially works result server order ((grouped Step.command order block).map Step.event)
      after ∧ after.found = found := by
  induction order generalizing server with
  | nil => exact ⟨server, .nil, Option.some_inj.mp replayed⟩
  | cons i order ih =>
    obtain ⟨⟨work, last, known, taken, through⟩, others⟩ := List.forall_mem_cons.mp through
    obtain ⟨result, results⟩ := List.forall_mem_cons.mp results
    obtain ⟨outcome, same⟩ := Option.isSome_iff_exists.mp result
    rw [grouped, List.flatMap_cons, Sites.replay_append] at replayed
    obtain ⟨between, first, replayed⟩ := Option.bind_eq_some_iff.mp replayed
    obtain ⟨middle, runs, rfl, running⟩ := Progress.runs_of_replay running
      (fun step mem => by simpa using (List.mem_filter.mp mem).2) first taken
      (through.trans same)
    obtain ⟨after, rest, found⟩ := ih running replayed others results
    refine ⟨after, ?_, found⟩
    rw [grouped, List.flatMap_cons, List.map_append]
    exact .cons known same runs rest

end Runs

/-! ## What whole commands ensure -/

section Whole

variable {command : ℕ} {server after : Server} {progress : Progress} {events : List Event}
  {outcome : Except CppException Bool} {path : U16String}

theorem Server.mem_complete {watchPoint : WatchPoint} {completion : Completion}
    {other : U16String} (known : server.watchPoints.lookup other = some watchPoint) :
    path ∈ (server.complete other watchPoint completion).watchPoints ↔
      path ∈ server.watchPoints := by
  refine (AList.mem_insert _).trans ⟨fun mem => mem.elim (fun same => ?_) id, .inr⟩
  exact same ▸ mem_iff_lookup.mpr ⟨watchPoint, known⟩

/-- The constructor returns only with a watch point. -/
theorem isSome_constructed {answers : ConstructAnswers}
    (ok : (constructed path answers).1 = .ok ()) : (constructed path answers).2.isSome := by
  unfold constructed at ok ⊢
  rcases built : WatchPoint.construct path answers with ⟨_ | _, _ | watchPoint⟩
  case ok.some => rfl
  case ok.none =>
    obtain ⟨registeredFinalPath, watchPoint, same, -⟩ := WatchPoint.construct_ok built
    cases same
  all_goals simp [built] at ok

/-- A `registerPath` that succeeds adds its path. -/
theorem Server.mem_of_registerPath {answers : ConstructAnswers} {other : U16String}
    (registers : server.registerPath other answers = (.ok (), after)) :
    path ∈ after.watchPoints ↔ path = other ∨ path ∈ server.watchPoints := by
  obtain ⟨after', registers', found, -⟩ := server.registerPath_spec other answers
  obtain ⟨ok, rfl⟩ := Prod.mk.inj (registers.symm.trans registers')
  have entered : (registered other answers (server.found other)).2.isSome := by
    cases known : server.found other with
    | none => exact isSome_constructed (by rw [ok, known]; rfl)
    | some watchPoint =>
      rw [known, registered] at ok
      rw [registered]
      split_ifs at ok ⊢
      exact isSome_constructed ok.symm
  rw [← AList.lookup_isSome, ← AList.lookup_isSome]
  change (after.found path).isSome ↔ path = other ∨ (server.found path).isSome
  rw [found, Function.update_apply]
  split_ifs with same
  · simp [same, entered]
  · simp [same]

/-- What has ended does not end otherwise. -/
theorem Progress.Runs.outcome_eq {ended : Except CppException Bool}
    (run : Progress.Runs command server progress events outcome after)
    (ends : progress = .ends ended) : outcome = ended := by
  induction run with
  | through => exact Progress.ends.inj ends
  | part => cases ends
  | completion _ _ _ ih => exact ih ends

/-- After a `registerPaths` that returns, all its paths are watched. -/
theorem Progress.Runs.registers (run : Progress.Runs command server progress events outcome after)
    (success : outcome = .ok true)
    (registers : ∀ paths success, progress ≠ .goesOn (.unregisterPaths paths success))
    (watches : path ∈ server.watchPoints ∨
      ∃ paths, progress = .goesOn (.registerPaths paths) ∧ path ∈ paths) :
    path ∈ after.watchPoints := by
  induction run with
  | through => exact watches.resolve_right (by simp)
  | completion known _ _ ih =>
    exact ih success registers (watches.imp_left (Server.mem_complete known).mpr)
  | @part server after work events outcome answers rest ih =>
    cases work with
    | unregisterPaths paths success => exact absurd rfl (registers paths success)
    | shutdownRunLoop =>
      exact ih success (by simp [Work.goOnWhole]) (.inl (watches.resolve_right (by simp)))
    | registerPaths paths =>
      cases paths with
      | nil =>
        exact ih success (by simp [Work.goOnWhole]) (.inl (watches.resolve_right (by simp)))
      | cons first paths =>
        rcases done : server.registerPath first answers with ⟨ex | _, middle⟩
        · -- The command has failed, and no path behind is registered.
          have whole : Work.goOnWhole server answers (.registerPaths (first :: paths)) =
              (.ends (.error ex), middle) := by simp only [Work.goOnWhole, done]
          rw [whole] at rest
          cases (rest.outcome_eq rfl).symm.trans success
        · have whole : Work.goOnWhole server answers (.registerPaths (first :: paths)) =
              (.goesOn (.registerPaths paths), middle) := by simp only [Work.goOnWhole, done]
          rw [whole] at ih
          refine ih success (by simp) ?_
          rcases watches with mem | ⟨_, same, mem⟩
          · exact .inl ((Server.mem_of_registerPath done).mpr (.inr mem))
          · obtain rfl := Work.registerPaths.inj (Progress.goesOn.inj same)
            rcases List.mem_cons.mp mem with first | mem
            · exact .inl ((Server.mem_of_registerPath done).mpr (.inl first))
            · exact .inr ⟨paths, rfl, mem⟩

/-- An `unregisterPaths` on watched paths finds them all. -/
theorem Progress.Runs.unregisters {paths : List U16String} {success : Bool}
    (run : Progress.Runs command server progress events outcome after)
    (unregisters : progress = .goesOn (.unregisterPaths paths success)) (once : paths.Nodup)
    (watched : ∀ path ∈ paths, path ∈ server.watchPoints) : outcome = .ok success := by
  induction run generalizing paths with
  | through => cases unregisters
  | completion known _ _ ih =>
    exact ih unregisters once fun path mem => (Server.mem_complete known).mpr (watched path mem)
  | @part server after work events outcome answers rest ih =>
    obtain rfl := Progress.goesOn.inj unregisters
    cases paths with
    | nil => exact rest.outcome_eq rfl
    | cons path paths =>
      obtain ⟨missing, once⟩ := List.nodup_cons.mp once
      obtain ⟨watched, others⟩ := List.forall_mem_cons.mp watched
      obtain ⟨middle, unregisters, found, -⟩ := server.unregisterPath_spec path
      have present : (server.found path).isSome = true := AList.lookup_isSome.mpr watched
      have whole : Work.goOnWhole server answers (.unregisterPaths (path :: paths) success) =
          (.goesOn (.unregisterPaths paths success), middle) := by
        simp only [Work.goOnWhole, unregisters, present, Bool.and_true]
      rw [whole] at ih
      refine ih rfl once fun other mem => AList.lookup_isSome.mp ?_
      have different : other ≠ path := fun same => missing (same ▸ mem)
      change (middle.found other).isSome
      rw [found, Function.update_of_ne different]
      exact AList.lookup_isSome.mpr (others other mem)

end Whole

end Windows

end FileEvents
