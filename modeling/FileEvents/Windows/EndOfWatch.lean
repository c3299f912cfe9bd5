import FileEvents.Windows.Destructors

/-!
# The end of a Windows watch

A watch point of the server listens with one outstanding read, or the client was told that it
does not: the directory was reported as removed, a failure was reported by the completion
routine that did not listen again, or `stopWatchingMovedPaths` put the path in
`droppedPaths`. The operating system is taken to abort a read only when it was cancelled.

## Main definitions

* `Notice` — what tells the client that a path is not listened on any more
* `machine` — the server at work, with the notices since each registration
* `Documented` — no read is aborted that was not cancelled

## Main results

* `noticed_of_documented` — no watch point ends silently while the server is running
-/

namespace FileEvents

open Transition

namespace Windows

namespace EndOfWatch

open Destructors (Registered registered_of_reachable
  registeredPath_handleEventsInBuffer registeredPath_listen)

/-- What tells the client that a path is not listened on any more. -/
inductive Notice
  /-- The path was reported as removed. -/
  | removed
  /-- The completion routine reported a failure. -/
  | failure (ex : String)
  /-- The path was added to `droppedPaths`. -/
  | dropped
  deriving DecidableEq

/-- The notice in a report of the completion routine of a path. -/
def noticeOf (path : U16String) : Report → Option Notice
  | .reportChangeEvent typeIndex about =>
    if typeIndex = ChangeType.removed.index ∧ about = path then some .removed else none
  | .reportFailure ex => some (.failure ex)
  | .reportUnknownEvent _ | .reportOverflow _ | .reportTermination => none

/-- The paths that `stopWatchingMovedPaths` adds to `droppedPaths`. The one whose `cancel`
throws has been added before. -/
def droppedPaths (server : Server) : List Server.Visit → List U16String
  | [] => []
  | visit :: visits =>
    match server.stopWatchingMovedPath visit with
    | (.error _, _) => [visit.path]
    | (.ok dropped, server) => dropped.toList ++ droppedPaths server visits

/-- The notices of a step. -/
def notices (s : System) : Label → List (U16String × Notice)
  | .completion path completion =>
    match s.server.watchPoints.lookup path with
    | none => []
    | some watchPoint =>
      ((s.server.handleEventsInBuffer watchPoint completion).2.filterMap (noticeOf path)).map
        fun notice => (path, notice)
  | .stopWatchingMovedPaths visits =>
    (droppedPaths s.server visits).map fun path => (path, .dropped)
  | _ => []

/-- A server at work with the notices for its watch points. -/
structure History where
  system : System
  notices : List (U16String × Notice)

/-- What a step adds to the notices. They are forgotten where a path is registered anew. -/
def History.next (h : History) (label : Label) : Option History :=
  (h.system.next label).map fun t =>
    { system := t
      notices := (h.notices.filter fun entry =>
          entry.1 ∈ h.system.server.watchPoints ∨ entry.1 ∉ t.server.watchPoints) ++
        EndOfWatch.notices h.system label }

/-- A server that was just created. -/
def machine : Machine History Label where
  start := { system := Windows.machine.start, notices := [] }
  next := History.next

/-- A read is aborted only if it was cancelled. -/
def Documented (h : History) : Label → Prop
  | .completion path completion => completion.errorCode = ERROR_OPERATION_ABORTED →
      ∀ watchPoint ∈ h.system.server.watchPoints.lookup path, watchPoint.status ≠ .listening
  | _ => True

instance (h : History) : DecidablePred (Documented h) := fun label =>
  match label with
  | .completion path completion => inferInstanceAs (Decidable
      (completion.errorCode = ERROR_OPERATION_ABORTED →
        ∀ watchPoint ∈ h.system.server.watchPoints.lookup path,
          watchPoint.status ≠ .listening))
  | .registerPath .. | .unregisterPath .. | .destroyed .. | .lateCompletion ..
  | .stopWatchingMovedPaths _ | .shutdown => instDecidableTrue

/-- One read is outstanding, and its events will be reported. -/
def Listens (watchPoint : WatchPoint) : Prop :=
  watchPoint.status = .listening ∧ watchPoint.outstandingReads = 1

/-! ## Watch points that are entered -/

section Watching

variable {server : Server} {watchPoint : WatchPoint} {path : U16String}

theorem listens_listen {answers : ListenAnswers} {after : WatchPoint}
    (idle : watchPoint.outstandingReads = 0)
    (listened : watchPoint.listen answers = (.ok .success, after)) : Listens after := by
  unfold WatchPoint.listen at listened
  split at listened
  next => exact (Prod.mk.inj listened).2 ▸ ⟨rfl, by simp [idle]⟩
  next => split_ifs at listened <;> simp at listened

/-- The constructor returns only with a watch point that listens. -/
theorem listens_construct {answers : ConstructAnswers}
    (built : WatchPoint.construct path answers = (.ok (), some watchPoint)) :
    Listens watchPoint := by
  obtain ⟨registeredFinalPath, watchPoint', same, listened⟩ := WatchPoint.construct_ok built
  obtain rfl := Option.some_inj.mp same
  exact listens_listen rfl listened

/-- What `emplace` finds later is what was there, or a new watch point that listens. -/
theorem lookup_enter (s : System) (path : U16String) (answers : ConstructAnswers)
    (cancelIo : Except ErrorCode Unit) {other : U16String}
    (known : (s.enter path answers cancelIo).server.watchPoints.lookup other =
      some watchPoint) :
    s.server.watchPoints.lookup other = some watchPoint ∨ Listens watchPoint :=
  (Destructors.lookup_cases_enter known).imp_right fun new => listens_construct new.2

/-! ## Watch points that end -/

/-- Where the `try` block of `handleEvents` does not throw, it reports the watch point as
removed, it has listened again, or the server is terminating. -/
theorem tryHandleEvents_ok {completion : Completion} {after : WatchPoint}
    {reports : List Report} (running : server.shouldTerminate = false)
    (handled : server.tryHandleEvents watchPoint completion = (.ok (), after, reports)) :
    (∃ result, watchPoint.listen completion.listen = (.ok result, after) ∧ result = .success) ∨
      .reportChangeEvent ChangeType.removed.index watchPoint.registeredPath ∈ reports := by
  unfold Server.tryHandleEvents at handled
  by_cases success : completion.errorCode = ERROR_SUCCESS
  · rw [if_neg (not_not.mpr success)] at handled
    split at handled
    next => cases handled
    next currentFinalPath found =>
      by_cases moved : currentFinalPath = some watchPoint.registeredFinalPath
      · rw [if_neg (not_not.mpr moved), if_neg (by simp [running])] at handled
        split at handled
        next => cases handled
        next reported =>
          split at handled
          next listened =>
            obtain ⟨-, rfl, -⟩ := handled
            exact .inl ⟨.success, listened, rfl⟩
          next listened =>
            obtain ⟨-, rfl, rfl⟩ := handled
            have kept := registeredPath_listen watchPoint completion.listen
            rw [listened] at kept
            exact .inr (List.mem_append_right _ (by simp [← kept]))
          next => cases handled
      · rw [if_pos moved] at handled
        obtain ⟨-, -, rfl⟩ := handled
        exact .inr (List.mem_singleton_self _)
  · rw [if_pos success] at handled
    split_ifs at handled
    · obtain ⟨-, -, rfl⟩ := handled
      exact .inr (List.mem_singleton_self _)
    · cases handled

/-- `handleEvents` listens again, or it tells that it does not. -/
theorem notice_handleEvents {completion : Completion} (running : server.shouldTerminate = false)
    (idle : watchPoint.outstandingReads = 0) :
    Listens (server.handleEvents watchPoint completion).1 ∨
      ∃ report ∈ (server.handleEvents watchPoint completion).2,
        (noticeOf watchPoint.registeredPath report).isSome = true := by
  unfold Server.handleEvents
  split
  next handled =>
    obtain ⟨_, listened, rfl⟩ | removed := tryHandleEvents_ok running handled
    · exact .inl (listens_listen idle listened)
    · exact .inr ⟨_, removed, by simp [noticeOf]⟩
  next => exact .inr ⟨_, List.mem_append_right _ (List.mem_singleton_self _), rfl⟩

/-- The completion routine of a watch point that listens listens again, or it tells that it
does not. -/
theorem notice_handleEventsInBuffer {completion : Completion}
    (running : server.shouldTerminate = false) (listens : Listens watchPoint)
    (unaborted : completion.errorCode ≠ ERROR_OPERATION_ABORTED) :
    Listens (server.handleEventsInBuffer watchPoint completion).1 ∨
      ∃ report ∈ (server.handleEventsInBuffer watchPoint completion).2,
        (noticeOf watchPoint.registeredPath report).isSome = true := by
  obtain ⟨listening, one⟩ := listens
  unfold Server.handleEventsInBuffer
  rw [if_neg unaborted, if_neg (not_not.mpr listening)]
  have idle : { watchPoint with
      status := .notListening
      outstandingReads := watchPoint.outstandingReads - 1 }.outstandingReads = 0 := by
    simp [one]
  exact notice_handleEvents running idle

/-- `stopWatchingMovedPaths` leaves a watch point as it is, or drops its path. -/
theorem dropped_stopWatchingMovedPaths (server : Server) (path : U16String)
    (visits : List Server.Visit) :
    (server.stopWatchingMovedPaths visits).2.watchPoints.lookup path =
        server.watchPoints.lookup path ∨
      (∃ before, server.watchPoints.lookup path = some before) ∧
        path ∈ droppedPaths server visits := by
  induction visits generalizing server with
  | nil => exact .inl rfl
  | cons visit visits ih =>
    -- A round changes the watch point of its own path only, and drops that path.
    have round : (server.stopWatchingMovedPath visit).2.watchPoints.lookup path =
          server.watchPoints.lookup path ∨
        (∃ before, server.watchPoints.lookup path = some before) ∧ path = visit.path ∧
          ∀ dropped, (server.stopWatchingMovedPath visit).1 = .ok dropped →
            dropped = some path := by
      by_cases own : path = visit.path
      · subst own
        unfold Server.stopWatchingMovedPath
        split
        next => exact .inl rfl
        next watchPoint known =>
          split_ifs
          · exact .inl rfl
          · refine .inr ⟨⟨watchPoint, known⟩, rfl, fun dropped returned => ?_⟩
            dsimp only at returned
            cases cancelled : (watchPoint.cancel visit.cancelIo).1 with
            | error => simp [cancelled, Except.map] at returned
            | ok => simpa [cancelled, Except.map, eq_comm] using returned
          · exact .inl rfl
      · exact .inl (lookup_stopWatchingMovedPath server own)
    rcases returned : server.stopWatchingMovedPath visit with ⟨ex | dropped, after⟩
    · rw [returned] at round
      simp only [Server.stopWatchingMovedPaths, droppedPaths, returned]
      refine round.imp_right ?_
      rintro ⟨known, own, -⟩
      exact ⟨known, List.mem_singleton.mpr own⟩
    · rw [returned] at round
      simp only [Server.stopWatchingMovedPaths, droppedPaths, returned]
      obtain same | ⟨known, -, drops⟩ := round
      · rw [← same]
        refine (ih after).imp_right ?_
        rintro ⟨known, mem⟩
        exact ⟨known, List.mem_append_right _ mem⟩
      · exact .inr ⟨known, List.mem_append_left _ (by simp [drops dropped rfl])⟩

end Watching

/-! ## Runs -/

/-- Every watch point listens, or there is a notice for its path. -/
def Noticed (h : History) : Prop :=
  ∀ path watchPoint, h.system.server.watchPoints.lookup path = some watchPoint →
    Listens watchPoint ∨ ∃ notice, (path, notice) ∈ h.notices

section Runs

variable {s t : System} {h : History} {label : Label}

/-- After a step a watch point of the server is as before, or it listens, or the step gives
notice. -/
theorem entry_next (registered : Registered s.server) (running : t.server.shouldTerminate = false)
    (step : s.next label = some t) (documented : Documented { system := s, notices := [] } label)
    {path : U16String} {watchPoint : WatchPoint}
    (known : t.server.watchPoints.lookup path = some watchPoint) :
    (∃ before, s.server.watchPoints.lookup path = some before ∧
        (Listens before → Listens watchPoint ∨ ∃ notice, (path, notice) ∈ notices s label)) ∨
      Listens watchPoint := by
  have before := running_of_step step running
  have unchanged (same : t.server.watchPoints.lookup path = s.server.watchPoints.lookup path) :
      ∃ before, s.server.watchPoints.lookup path = some before ∧
        (Listens before → Listens watchPoint ∨ ∃ notice, (path, notice) ∈ notices s label) :=
    ⟨watchPoint, same ▸ known, .inl⟩
  cases label with
  | registerPath registering answers =>
    obtain rfl := Option.some_inj.mp step
    unfold System.register Server.beginRegisterPath at known
    cases found : s.server.watchPoints.lookup registering with
    | none =>
      simp only [found] at known
      exact (lookup_enter _ _ _ _ known).imp_left fun old => ⟨watchPoint, old, .inl⟩
    | some finished =>
      simp only [found] at known
      split_ifs at known
      · simp only [server_destroy, lookup_erase_eq] at known
        split_ifs at known
        exact .inl ⟨watchPoint, known, .inl⟩
      · exact .inl ⟨watchPoint, known, .inl⟩
  | unregisterPath unregistering cancelIo =>
    obtain rfl := Option.some_inj.mp step
    obtain same | same := unregister_spec s unregistering cancelIo
    · exact .inl (unchanged (by rw [same]))
    · rw [same, lookup_erase_eq] at known
      split_ifs at known
      exact .inl ⟨watchPoint, known, .inl⟩
  | destroyed answers cancelIo =>
    obtain ⟨-, _, -, ⟨-, rfl⟩ | ⟨path, -, rfl⟩⟩ := System.destroyed_spec step
    · exact .inl (unchanged rfl)
    · exact (lookup_enter _ _ _ _ known).imp_left fun old => ⟨watchPoint, old, .inl⟩
  | completion completing completion =>
    obtain ⟨found, old, -, rfl⟩ := System.completion_spec step
    by_cases own : path = completing
    · subst own
      refine .inl ⟨found, old, fun listens => ?_⟩
      have handled : watchPoint = (s.server.handleEventsInBuffer found completion).1 := by
        simpa [System.complete, lookup_insert_eq, eq_comm] using known
      have unaborted : completion.errorCode ≠ ERROR_OPERATION_ABORTED := fun aborted =>
        documented aborted found old listens.1
      obtain again | ⟨report, reported, told⟩ :=
        notice_handleEventsInBuffer before listens unaborted
      · exact .inl (handled ▸ again)
      · obtain ⟨notice, told⟩ := Option.isSome_iff_exists.mp told
        rw [registered path found old] at told
        refine .inr ⟨notice, ?_⟩
        simp only [notices, old, List.mem_map, List.mem_filterMap, Prod.mk.injEq, true_and,
          exists_eq_right]
        exact ⟨report, reported, told⟩
    · refine .inl (unchanged ?_)
      simp [System.complete, own]
  | lateCompletion index completion =>
    exact .inl (unchanged (by rw [System.server_of_lateCompletion step]))
  | stopWatchingMovedPaths visits =>
    obtain ⟨-, rfl⟩ := System.stopWatchingMovedPaths_spec step
    obtain same | ⟨⟨before, old⟩, dropped⟩ := dropped_stopWatchingMovedPaths s.server path visits
    · exact .inl (unchanged same)
    · exact .inl ⟨before, old, fun _ => .inr ⟨.dropped, List.mem_map.mpr ⟨path, dropped, rfl⟩⟩⟩
  | shutdown =>
    obtain rfl := Option.some_inj.mp step
    cases running

/-- A step keeps the notices of a path that is registered all the time. -/
theorem mem_notices_next {h' : History} (step : machine.next h label = some h')
    {path : U16String} {notice : Notice} (known : path ∈ h.system.server.watchPoints) :
    (path, notice) ∈ h'.notices ↔
      (path, notice) ∈ h.notices ∨ (path, notice) ∈ notices h.system label := by
  obtain ⟨t, -, rfl⟩ := Option.map_eq_some_iff.mp step
  simp [known]

theorem Noticed.next {h' : History} (registered : Registered h.system.server)
    (noticed : Noticed h) (running : h'.system.server.shouldTerminate = false)
    (documented : Documented h label) (step : machine.next h label = some h') : Noticed h' := by
  intro path watchPoint known
  have keeps (notice : Notice) (mem : path ∈ h.system.server.watchPoints) :
      (path, notice) ∈ h'.notices ↔
        (path, notice) ∈ h.notices ∨ (path, notice) ∈ notices h.system label :=
    mem_notices_next step mem
  obtain ⟨t, moved, same⟩ := Option.map_eq_some_iff.mp step
  obtain rfl : t = h'.system := congrArg History.system same
  obtain ⟨before, old, gives⟩ | listens := entry_next registered running moved documented known
  · have mem := mem_iff_lookup.mpr ⟨before, old⟩
    obtain listened | ⟨notice, given⟩ := noticed path before old
    · exact (gives listened).imp_right fun ⟨notice, given⟩ =>
        ⟨notice, (keeps notice mem).mpr (.inr given)⟩
    · exact .inr ⟨notice, (keeps notice mem).mpr (.inl given)⟩
  · exact .inl listens

theorem reachable_system (reach : machine.ReachableWhere Documented h) :
    Windows.machine.Reachable h.system := by
  refine reach.map History.system rfl fun h label h' _ step => .inr ⟨label, trivial, ?_⟩
  obtain ⟨t, moved, rfl⟩ := Option.map_eq_some_iff.mp step
  exact moved

/-- In every run in which no read is aborted that was not cancelled, and as long as the server
is running, every watch point of the server listens, with one outstanding read, or since it
was registered its path was reported as removed, its completion routine reported a failure,
or `stopWatchingMovedPaths` dropped it. -/
theorem noticed_of_documented (h : History) (reach : machine.ReachableWhere Documented h)
    (running : h.system.server.shouldTerminate = false) {path : U16String}
    {watchPoint : WatchPoint}
    (known : h.system.server.watchPoints.lookup path = some watchPoint) :
    Listens watchPoint ∨ ∃ notice, (path, notice) ∈ h.notices := by
  have noticed : h.system.server.shouldTerminate = false → Noticed h := by
    refine Machine.ReachableWhere.invariant_of
      (I := fun h => h.system.server.shouldTerminate = false → Noticed h)
      (J := fun h => Registered h.system.server) reach ?_ ?_ ?_
    · exact fun h reached => registered_of_reachable (reachable_system reached)
    · intro _ path watchPoint known
      cases known
    · intro h label h' registered noticed documented step running
      have stepped := step
      obtain ⟨t, moved, rfl⟩ := Option.map_eq_some_iff.mp stepped
      exact (noticed (running_of_step moved running)).next registered running documented step
  exact noticed running path watchPoint known

end Runs

/-- A directory is watched, its read fails, and another directory is watched meanwhile. -/
def failingRun : List Label :=
  [.registerPath (u16 "C:\\a") directoryAnswers, .registerPath (u16 "C:\\b") directoryAnswers,
    .completion (u16 "C:\\a") createdCompletion,
    .completion (u16 "C:\\a") (failedCompletion 64)]

theorem noticed_of_documented_failing :
    ∃ h watchPoint, machine.ReachableWhere Documented h ∧
      h.system.server.watchPoints.lookup (u16 "C:\\a") = some watchPoint ∧
      watchPoint.status = .notListening ∧
      ∃ notice, (u16 "C:\\a", notice) ∈ h.notices := by
  have computed : (machine.execWhere Documented machine.start failingRun).map (fun h =>
      (h.system.server.shouldTerminate,
        (h.system.server.watchPoints.lookup (u16 "C:\\a")).map
          fun watchPoint => watchPoint.status)) = some (false, some .notListening) := by decide
  obtain ⟨h, reach, last⟩ := Machine.observe_of_execWhere computed
  simp only [Prod.mk.injEq] at last
  obtain ⟨running, found⟩ := last
  obtain ⟨watchPoint, known, notListening⟩ := Option.map_eq_some_iff.mp found
  refine ⟨h, watchPoint, reach, known, notListening, ?_⟩
  refine (noticed_of_documented h reach running known).resolve_left fun listens => ?_
  rw [listens.1] at notListening
  cases notListening

end EndOfWatch

end Windows

end FileEvents
