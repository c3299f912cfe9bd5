import FileEvents.Windows.System

/-!
# The statuses of the Windows watch points

A watch point is settled when one read is outstanding and it is listening or cancelled, or
when none is and it is finished and closed. Every command keeps the watch points of the
server settled. A completion does so exactly where it

* carries `ERROR_OPERATION_ABORTED`, or
* meets a listening watch point and carries `ERROR_ACCESS_DENIED` for what is not a
  directory any more, or `ERROR_SUCCESS` with reports that do not throw.

Any other error, an exception before the next `listen` or a success after `CancelIoEx`
leaves a watch point on which nothing is read and which is not finished. And
`stopWatchingMovedPaths` keeps them settled exactly where `CancelIoEx` succeeds: where it
fails the watch point is finished although its read is still outstanding.

## Main definitions

* `WatchPoint.EndsCleanly` — the completion routine listens again or finishes
* `System.Orderly` — the steps with such completions and with successful cancellations

## Main results

* `settled_iff_of_step` — a step keeps the watch points settled exactly if it is orderly
* `settled_of_orderly` — they are settled wherever orderly steps lead
-/

namespace FileEvents

namespace Windows

open Transition

/-- How often the routine reports something for what is in the buffer. -/
def Completion.eventCount (completion : Completion) : ℕ :=
  if completion.bytesTransferred = 0 then 1 else completion.records.length

/-- Nothing that the routine does before it listens again throws. -/
def Completion.ReportsFully (completion : Completion) (watchPoint : WatchPoint) : Prop :=
  match completion.finalPath with
  | .error _ => False
  | .ok currentFinalPath =>
    currentFinalPath = some watchPoint.registeredFinalPath →
      (completion.bytesTransferred = 0 →
        (utf16ToUtf8String watchPoint.registeredPath).isSome = true) ∧
      ∀ stop ∈ completion.throwsAt, completion.eventCount ≤ stop.1

instance (completion : Completion) (watchPoint : WatchPoint) :
    Decidable (completion.ReportsFully watchPoint) := by
  unfold Completion.ReportsFully
  split <;> infer_instance

/-- The completion ends the watch point, or its events are reported in full. -/
def WatchPoint.EndsCleanly (watchPoint : WatchPoint) (completion : Completion) : Prop :=
  completion.errorCode = ERROR_OPERATION_ABORTED ∨
    (watchPoint.status = .listening ∧
      ((completion.errorCode = ERROR_ACCESS_DENIED ∧
          isValidDirectory completion.attrib = false) ∨
        (completion.errorCode = ERROR_SUCCESS ∧ completion.ReportsFully watchPoint)))

instance (watchPoint : WatchPoint) (completion : Completion) :
    Decidable (watchPoint.EndsCleanly completion) := inferInstanceAs (Decidable
  (completion.errorCode = ERROR_OPERATION_ABORTED ∨
    (watchPoint.status = .listening ∧
      ((completion.errorCode = ERROR_ACCESS_DENIED ∧
          isValidDirectory completion.attrib = false) ∨
        (completion.errorCode = ERROR_SUCCESS ∧ completion.ReportsFully watchPoint)))))

namespace Server

/-- Every watch point is settled. -/
def Settled (server : Server) : Prop := Every server.watchPoints WatchPoint.Settled

/-- If the visit finds a listening watch point moved, `CancelIoEx` succeeds. -/
def Cancels (server : Server) (visit : Visit) : Prop :=
  ∀ watchPoint ∈ server.watchPoints.lookup visit.path, watchPoint.status = .listening →
    visit.finalPath ≠ some watchPoint.registeredFinalPath →
      visit.cancelIo.isOk = true

instance (server : Server) (visit : Visit) : Decidable (server.Cancels visit) :=
  inferInstanceAs (Decidable (∀ watchPoint ∈ server.watchPoints.lookup visit.path,
    watchPoint.status = .listening →
      visit.finalPath ≠ some watchPoint.registeredFinalPath →
        visit.cancelIo.isOk = true))

end Server

/-- While the server is not terminating, completions end cleanly and `CancelIoEx` succeeds
for the moved paths. -/
def System.Orderly (s : System) : Label → Prop
  | .completion path completion => s.server.shouldTerminate = false →
      ∀ watchPoint ∈ s.server.watchPoints.lookup path, watchPoint.EndsCleanly completion
  | .stopWatchingMovedPaths visits => s.server.shouldTerminate = false →
      ∀ visit ∈ visits, s.server.Cancels visit
  | _ => True

instance (s : System) : DecidablePred s.Orderly := fun label =>
  match label with
  | .completion path completion => inferInstanceAs (Decidable
      (s.server.shouldTerminate = false →
        ∀ watchPoint ∈ s.server.watchPoints.lookup path, watchPoint.EndsCleanly completion))
  | .stopWatchingMovedPaths visits => inferInstanceAs (Decidable
      (s.server.shouldTerminate = false → ∀ visit ∈ visits, s.server.Cancels visit))
  | .registerPath .. | .unregisterPath .. | .destroyed .. | .lateCompletion .. | .shutdown =>
    instDecidableTrue

/-! ## The completion routine -/

section Completion

variable {server : Server} {watchPoint : WatchPoint} {completion : Completion}

theorem deliver_ok_iff {reports : List (Option Report)} {throwsAt : Option (ℕ × CppException)} :
    (deliver reports throwsAt).2 = .ok () ↔ ∀ stop ∈ throwsAt, reports.length ≤ stop.1 := by
  rcases throwsAt with _ | ⟨count, ex⟩
  · simp [deliver]
  · by_cases stops : count < reports.length
    · simp [deliver, stops]
    · simpa [deliver, stops] using not_lt.mp stops

theorem reportEvents_ok_iff {path : U16String} :
    (completion.reportEvents path).2 = .ok () ↔
      (completion.bytesTransferred = 0 → (utf16ToUtf8String path).isSome = true) ∧
        ∀ stop ∈ completion.throwsAt, completion.eventCount ≤ stop.1 := by
  unfold Completion.reportEvents Completion.eventCount
  split_ifs with empty
  · cases utf16ToUtf8String path with
    | none => simp [empty]
    | some _ =>
      simp only [Option.isSome_some, implies_true, true_and]
      exact deliver_ok_iff
  · simp only [empty, false_imp_iff, true_and]
    rw [deliver_ok_iff, List.length_map]

theorem handleEvents_fst :
    (server.handleEvents watchPoint completion).1 =
      (server.tryHandleEvents watchPoint completion).2.1 := by
  unfold Server.handleEvents
  split
  next h => rw [h]
  next h => rw [h]

/-- A watch point that is not listening is not settled. -/
theorem not_settled_of_notListening (h : watchPoint.status = .notListening) :
    ¬ watchPoint.Settled := by
  rintro (⟨-, status⟩ | ⟨-, status, -⟩)
  · simp [h] at status
  · simp [h] at status

/-- `handleEvents` settles the watch point exactly where it finishes it or listens again. -/
theorem settled_handleEvents_iff (running : server.shouldTerminate = false)
    (status : watchPoint.status = .notListening) (idle : watchPoint.outstandingReads = 0) :
    (server.handleEvents watchPoint completion).1.Settled ↔
      (completion.errorCode = ERROR_ACCESS_DENIED ∧
          isValidDirectory completion.attrib = false) ∨
        (completion.errorCode = ERROR_SUCCESS ∧ completion.ReportsFully watchPoint) := by
  have unfinished : watchPoint.status ≠ .finished := by simp [status]
  have unsettled := not_settled_of_notListening status
  have closed := WatchPoint.settled_close unfinished idle
  rw [handleEvents_fst]
  unfold Server.tryHandleEvents
  by_cases success : completion.errorCode = ERROR_SUCCESS
  · have notDenied : completion.errorCode ≠ ERROR_ACCESS_DENIED := by
      rw [success]
      decide
    simp only [success, ne_eq, not_true_eq_false, if_false, true_and]
    have reduce : ERROR_SUCCESS ≠ ERROR_ACCESS_DENIED := by decide
    simp only [reduce, false_and, false_or]
    -- Without an error it matters whether the reports get as far as listening again.
    cases found : completion.finalPath with
    | error ex => simp [Completion.ReportsFully, found, unsettled]
    | ok currentFinalPath =>
      by_cases moved : currentFinalPath = some watchPoint.registeredFinalPath
      · simp only [Completion.ReportsFully, found, moved, not_true_eq_false, if_false, running,
          Bool.false_eq_true, true_imp_iff, ← reportEvents_ok_iff]
        cases reported : completion.reportEvents watchPoint.registeredPath with
        | mk reports result =>
          cases result with
          | error ex => simp [unsettled]
          | ok =>
            simp only [iff_true]
            -- Whatever listening again leads to, it settles the watch point.
            have settled := WatchPoint.settled_listen completion.listen unfinished idle
            split
            next listening => rwa [listening] at settled
            next listening => rwa [listening] at settled
            next listening => rwa [listening] at settled
      · simp [Completion.ReportsFully, found, moved, reportWatchPointDeleted, closed]
  · simp only [success, ne_eq, not_false_eq_true, if_true, false_and, or_false]
    -- With an error the watch point is closed if the directory is gone, and else left as it is.
    by_cases removed : completion.errorCode = ERROR_ACCESS_DENIED ∧
        isValidDirectory completion.attrib = false
    · simp [removed, reportWatchPointDeleted, closed]
    · simp only [Bool.not_eq_true, removed, if_false, iff_false]
      exact unsettled

/-- The completion routine keeps a settled watch point settled exactly where it ends
cleanly. -/
theorem settled_handleEventsInBuffer_iff (running : server.shouldTerminate = false)
    (settled : watchPoint.Settled) (outstanding : 0 < watchPoint.outstandingReads) :
    (server.handleEventsInBuffer watchPoint completion).1.Settled ↔
      watchPoint.EndsCleanly completion := by
  obtain ⟨reads, active⟩ | ⟨idle, -⟩ := settled
  · have unfinished : watchPoint.status ≠ .finished := by
      rcases active with active | active <;> simp [active]
    unfold Server.handleEventsInBuffer WatchPoint.EndsCleanly
    by_cases aborted : completion.errorCode = ERROR_OPERATION_ABORTED
    · simp only [aborted, if_true, true_or, iff_true]
      exact WatchPoint.settled_close unfinished (by simp [reads])
    · by_cases listening : watchPoint.status = .listening
      · simp only [aborted, if_false, listening, ne_eq, not_true_eq_false, false_or, true_and]
        exact settled_handleEvents_iff running rfl (by simp [reads])
      · simp [aborted, listening, WatchPoint.Settled, reads, unfinished]
  · omega

end Completion

/-! ## `stopWatchingMovedPaths` -/

section StopWatchingMovedPaths

variable {server : Server} {visit : Server.Visit}

/-- A round leaves the other watch points alone. -/
theorem lookup_stopWatchingMovedPath (server : Server) {path : U16String}
    (other : path ≠ visit.path) :
    (server.stopWatchingMovedPath visit).2.watchPoints.lookup path =
      server.watchPoints.lookup path := by
  unfold Server.stopWatchingMovedPath
  split
  next => rfl
  next =>
    split_ifs
    · rfl
    · exact AList.lookup_insert_ne other
    · rfl

theorem settled_stopWatchingMovedPath_iff (visit : Server.Visit) (settled : server.Settled) :
    (server.stopWatchingMovedPath visit).2.Settled ↔ server.Cancels visit := by
  unfold Server.stopWatchingMovedPath Server.Cancels
  cases known : server.watchPoints.lookup visit.path with
  | none => simp [settled]
  | some watchPoint =>
    simp only [Option.mem_def, Option.some.injEq, forall_eq']
    by_cases finished : watchPoint.status = .finished
    · simp [finished, settled]
    · by_cases same : visit.finalPath = some watchPoint.registeredFinalPath
      · simp [finished, same, settled]
      · simp only [finished, if_false, ne_eq, same, not_false_eq_true, if_true, true_imp_iff]
        change Every (server.watchPoints.insert visit.path (watchPoint.cancel visit.cancelIo).2)
          WatchPoint.Settled ↔ _
        rw [settled.insert_iff]
        by_cases listening : watchPoint.status = .listening
        · rw [WatchPoint.settled_cancel_iff (settled _ _ known) listening]
          cases visit.cancelIo <;> simp [listening, Except.isOk, Except.toBool]
        · have untouched : (watchPoint.cancel visit.cancelIo).2 = watchPoint := by
            simp [WatchPoint.cancel, listening]
          simp [untouched, listening, settled _ _ known]

/-- A round throws only where `CancelIoEx` fails. -/
theorem not_cancels_of_throws {ex : CppException} {server' : Server}
    (h : server.stopWatchingMovedPath visit = (.error ex, server')) :
    ¬ server.Cancels visit := by
  intro cancels
  unfold Server.stopWatchingMovedPath at h
  split at h
  next => simp at h
  next watchPoint known =>
    split_ifs at h with finished moved
    · simp at h
    · have throws : (watchPoint.cancel visit.cancelIo).1.map (fun _ => some visit.path) =
          .error ex := (Prod.mk.inj h).1
      unfold WatchPoint.cancel at throws
      split_ifs at throws with listening
      · cases failed : visit.cancelIo with
        | ok => simp [failed, Except.map] at throws
        | error =>
          have success := cancels watchPoint known listening moved
          simp [failed, Except.isOk, Except.toBool] at success
      · simp [Except.map] at throws
    · simp at h

/-- The rounds leave alone what they do not visit. -/
theorem lookup_stopWatchingMovedPaths (server : Server) {visits : List Server.Visit}
    {path : U16String} (unvisited : ∀ visit ∈ visits, path ≠ visit.path) :
    (server.stopWatchingMovedPaths visits).2.watchPoints.lookup path =
      server.watchPoints.lookup path := by
  induction visits generalizing server with
  | nil => rfl
  | cons visit visits ih =>
    have round := lookup_stopWatchingMovedPath server
      (unvisited visit List.mem_cons_self)
    unfold Server.stopWatchingMovedPaths
    split
    next thrown => rwa [thrown] at round
    next thrown =>
      rw [thrown] at round
      rw [← round]
      exact ih _ fun visit mem => unvisited visit (List.mem_cons_of_mem _ mem)

/-- A round that spoils a watch point spoils the one it visits. -/
theorem exists_unsettled_of_not_cancels (settled : server.Settled)
    (spoils : ¬ server.Cancels visit) :
    ∃ watchPoint, (server.stopWatchingMovedPath visit).2.watchPoints.lookup visit.path =
      some watchPoint ∧ ¬ watchPoint.Settled := by
  rw [← settled_stopWatchingMovedPath_iff visit settled] at spoils
  by_contra none
  push Not at none
  refine spoils fun path watchPoint known => ?_
  by_cases visited : path = visit.path
  · exact none watchPoint (visited ▸ known)
  · rw [lookup_stopWatchingMovedPath server visited] at known
    exact settled path watchPoint known

/-- Only the visited watch points change, and each is visited once. -/
theorem settled_stopWatchingMovedPaths_iff {visits : List Server.Visit}
    (once : (visits.map fun visit => visit.path).Nodup) (settled : server.Settled) :
    (server.stopWatchingMovedPaths visits).2.Settled ↔
      ∀ visit ∈ visits, server.Cancels visit := by
  induction visits generalizing server with
  | nil => simpa [Server.stopWatchingMovedPaths] using settled
  | cons visit visits ih =>
    obtain ⟨fresh, once⟩ := List.nodup_cons.mp once
    have later : ∀ other ∈ visits, other.path ≠ visit.path := fun other mem same =>
      fresh (List.mem_map.mpr ⟨other, mem, same⟩)
    have round := settled_stopWatchingMovedPath_iff visit settled
    rw [List.forall_mem_cons]
    unfold Server.stopWatchingMovedPaths
    split
    next ex server' thrown =>
      -- The round that throws leaves its watch point unsettled.
      have spoils := not_cancels_of_throws thrown
      rw [thrown] at round
      exact ⟨fun settled' => absurd (round.mp settled') spoils, fun h => absurd h.1 spoils⟩
    next dropped server' returned =>
      by_cases cancels : server.Cancels visit
      · rw [returned] at round
        -- The later visits find their watch points as they were.
        have same (other : Server.Visit) (mem : other ∈ visits) :
            server'.Cancels other ↔ server.Cancels other := by
          have frame := lookup_stopWatchingMovedPath server (later other mem)
          rw [returned] at frame
          simp only [Server.Cancels, frame]
        simp only [cancels, true_and]
        exact (ih once (round.mpr cancels)).trans (forall₂_congr same)
      · -- Nothing later settles it, as each watch point is visited once.
        obtain ⟨watchPoint, known, unsettled⟩ :=
          exists_unsettled_of_not_cancels settled cancels
        rw [returned] at known
        have kept := lookup_stopWatchingMovedPaths server'
          fun other mem => (later other mem).symm
        refine ⟨fun settled' => absurd (settled' _ _ (kept.trans known)) unsettled, fun h => ?_⟩
        exact absurd h.1 cancels

theorem shouldTerminate_stopWatchingMovedPaths {visits : List Server.Visit} :
    (server.stopWatchingMovedPaths visits).2.shouldTerminate = server.shouldTerminate := by
  have round (server : Server) (visit : Server.Visit) :
      (server.stopWatchingMovedPath visit).2.shouldTerminate = server.shouldTerminate := by
    unfold Server.stopWatchingMovedPath
    split
    next => rfl
    next => split_ifs <;> rfl
  induction visits generalizing server with
  | nil => rfl
  | cons visit visits ih =>
    rw [← round server visit]
    unfold Server.stopWatchingMovedPaths
    split
    next thrown => rw [thrown]
    next returned =>
      rw [returned]
      exact ih

end StopWatchingMovedPaths

/-! ## The commands -/

section Commands

variable {s : System} {watchPoint : WatchPoint} {path : U16String}
variable {answers : ConstructAnswers} {cancelIo : Except ErrorCode Unit}

/-- A destructor concerns no watch point of the server. -/
@[simp] theorem server_destroy {thenRegister : Option U16String} :
    (s.destroy watchPoint cancelIo thenRegister).server = s.server := by
  unfold System.destroy
  split <;> rfl

variable (s path answers cancelIo) in
/-- `emplace` enters a watch point that listens, or nothing. -/
theorem enter_spec :
    (s.enter path answers cancelIo).server = s.server ∨
      ∃ watchPoint, watchPoint.Settled ∧ (s.enter path answers cancelIo).server =
        { s.server with watchPoints := emplace s.server.watchPoints path watchPoint } := by
  unfold System.enter Server.enterWatchPoint
  cases constructed : WatchPoint.construct path answers with
  | mk result built =>
    rcases result with ex | ⟨⟩ <;> rcases built with _ | watchPoint
    · exact .inl rfl
    · exact .inl rfl
    · exact .inl rfl
    · refine .inr ⟨watchPoint, WatchPoint.settled_construct constructed, ?_⟩
      by_cases known : path ∈ s.server.watchPoints
      · simp only [known, if_true, server_destroy]
      · simp only [known, if_false]

theorem settled_enter (settled : s.server.Settled) :
    (s.enter path answers cancelIo).server.Settled := by
  obtain same | ⟨watchPoint, new, same⟩ := enter_spec s path answers cancelIo
  · exact same ▸ settled
  · exact same ▸ settled.emplace new

theorem shouldTerminate_enter :
    (s.enter path answers cancelIo).server.shouldTerminate = s.server.shouldTerminate := by
  obtain same | ⟨watchPoint, -, same⟩ := enter_spec s path answers cancelIo
  · rw [same]
  · rw [same]

theorem settled_register (settled : s.server.Settled) :
    (s.register path answers).server.Settled := by
  unfold System.register Server.beginRegisterPath
  cases known : s.server.watchPoints.lookup path with
  | none => exact settled_enter settled
  | some watchPoint =>
    by_cases finished : watchPoint.status = .finished
    · simp only [finished, if_true, server_destroy]
      exact settled.erase
    · simpa only [finished, if_false] using settled

theorem shouldTerminate_register :
    (s.register path answers).server.shouldTerminate = s.server.shouldTerminate := by
  unfold System.register Server.beginRegisterPath
  cases known : s.server.watchPoints.lookup path with
  | none => exact shouldTerminate_enter
  | some watchPoint =>
    by_cases finished : watchPoint.status = .finished
    · simp only [finished, if_true, server_destroy]
    · simp only [finished, if_false]

variable (s path cancelIo) in
/-- `unregisterPath` removes an entry, or nothing. -/
theorem unregister_spec :
    (s.unregister path cancelIo).server = s.server ∨
      (s.unregister path cancelIo).server =
        { s.server with watchPoints := s.server.watchPoints.erase path } := by
  unfold System.unregister Server.unregisterPath
  cases s.server.watchPoints.lookup path with
  | none => exact .inl rfl
  | some watchPoint => exact .inr server_destroy

end Commands

/-! ## Runs -/

variable {s t : System} {label : Label}

/-- No step takes the shutdown back. -/
theorem running_of_step (step : s.next label = some t)
    (running : t.server.shouldTerminate = false) : s.server.shouldTerminate = false := by
  cases label with
  | registerPath path answers =>
    obtain rfl := Option.some_inj.mp step
    exact shouldTerminate_register.symm.trans running
  | unregisterPath path cancelIo =>
    obtain rfl := Option.some_inj.mp step
    obtain same | same := unregister_spec s path cancelIo
    · exact same ▸ running
    · exact (same ▸ running :)
  | destroyed answers cancelIo =>
    obtain ⟨-, _, -, ⟨-, rfl⟩ | ⟨path, -, rfl⟩⟩ := System.destroyed_spec step
    · exact running
    · rwa [shouldTerminate_enter] at running
  | completion path completion =>
    obtain ⟨watchPoint, -, -, rfl⟩ := System.completion_spec step
    exact running
  | lateCompletion index completion => exact System.server_of_lateCompletion step ▸ running
  | stopWatchingMovedPaths visits =>
    obtain ⟨-, rfl⟩ := System.stopWatchingMovedPaths_spec step
    exact shouldTerminate_stopWatchingMovedPaths.symm.trans running
  | shutdown =>
    obtain rfl := Option.some_inj.mp step
    cases running

/-- A step of a server that is not terminating keeps the watch points settled exactly if
it is orderly. -/
theorem settled_iff_of_step (settled : s.server.Settled) (step : s.next label = some t)
    (running : t.server.shouldTerminate = false) : t.server.Settled ↔ s.Orderly label := by
  have before := running_of_step step running
  cases label with
  | registerPath path answers =>
    obtain rfl := Option.some_inj.mp step
    exact iff_of_true (settled_register settled) trivial
  | unregisterPath path cancelIo =>
    obtain rfl := Option.some_inj.mp step
    refine iff_of_true ?_ trivial
    obtain same | same := unregister_spec s path cancelIo
    · exact same ▸ settled
    · exact same ▸ settled.erase
  | destroyed answers cancelIo =>
    refine iff_of_true ?_ trivial
    obtain ⟨-, _, -, ⟨-, rfl⟩ | ⟨path, -, rfl⟩⟩ := System.destroyed_spec step
    · exact settled
    · exact settled_enter settled
  | completion path completion =>
    obtain ⟨watchPoint, known, outstanding, rfl⟩ := System.completion_spec step
    -- the other entries are as before
    have entry : Server.Settled (s.complete path watchPoint completion).server ↔
        (s.server.handleEventsInBuffer watchPoint completion).1.Settled :=
      Every.insert_iff settled
    rw [entry, settled_handleEventsInBuffer_iff before (settled _ _ known) outstanding]
    simp [System.Orderly, before, known]
  | lateCompletion index completion =>
    exact iff_of_true (System.server_of_lateCompletion step ▸ settled) trivial
  | stopWatchingMovedPaths visits =>
    obtain ⟨once, rfl⟩ := System.stopWatchingMovedPaths_spec step
    rw [settled_stopWatchingMovedPaths_iff once settled]
    simp [System.Orderly, before]
  | shutdown =>
    obtain rfl := Option.some_inj.mp step
    cases running

/-- A path is refused only by a watch point that is not finished. -/
theorem not_finished_of_refused {server : Server} {path : U16String} {watchPoint : WatchPoint}
    {ex : CppException} (known : server.watchPoints.lookup path = some watchPoint)
    (refused : server.beginRegisterPath path = .error ex) : watchPoint.status ≠ .finished := by
  intro finished
  unfold Server.beginRegisterPath at refused
  rw [known] at refused
  simp [finished] at refused

/-- Wherever orderly steps lead, every watch point of a server that is not terminating has
one outstanding read and is listening or cancelled, or it has none and is finished and
closed. So a path that is refused as watched already has an outstanding read. -/
theorem settled_of_orderly (reach : machine.ReachableWhere System.Orderly s)
    (running : s.server.shouldTerminate = false) {path : U16String} {watchPoint : WatchPoint}
    (known : s.server.watchPoints.lookup path = some watchPoint) :
    watchPoint.Settled ∧
      ∀ ex, s.server.beginRegisterPath path = .error ex → watchPoint.outstandingReads = 1 := by
  have settled : s.server.Settled := by
    refine reach.invariant
      (I := fun s => s.server.shouldTerminate = false → s.server.Settled) ?_ ?_ running
    · intro _ path watchPoint known
      cases known
    · intro s label t settled orderly step running
      exact (settled_iff_of_step (settled (running_of_step step running)) step running).mpr
        orderly
  refine ⟨settled path watchPoint known, fun ex refused => ?_⟩
  obtain ⟨reads, -⟩ | ⟨-, finished, -⟩ := settled path watchPoint known
  · exact reads
  · exact absurd finished (not_finished_of_refused known refused)

/-- What the operating system answers when a directory is registered. -/
def directoryAnswers : ConstructAnswers where
  createFile := .ok ()
  finalPath := .ok (some (u16 "C:\\a"))
  finalPathError := ERROR_SUCCESS
  bufferSize := 0x10000
  allocates := true
  listen := { readDirectoryChanges := .ok (), attrib := FILE_ATTRIBUTE_DIRECTORY }

/-- A completion that reports a created file and listens again. -/
def createdCompletion : Completion where
  errorCode := ERROR_SUCCESS
  bytesTransferred := 100
  records := [{ action := FILE_ACTION_ADDED, fileAttributes := 0, fileName := u16 "f" }]
  attrib := FILE_ATTRIBUTE_DIRECTORY
  finalPath := .ok (some (u16 "C:\\a"))
  throwsAt := none
  listen := directoryAnswers.listen

/-- A completion with another error code. -/
def failedCompletion (errorCode : ErrorCode) : Completion :=
  { createdCompletion with errorCode, bytesTransferred := 0, records := [] }

/-- A directory is watched and moved, its watch point is cancelled and aborted, and the
path is registered again. -/
def movedRun : List Label :=
  [.registerPath (u16 "C:\\a") directoryAnswers,
    .completion (u16 "C:\\a") createdCompletion,
    .stopWatchingMovedPaths
      [{ path := u16 "C:\\a", finalPath := some (u16 "C:\\b"), cancelIo := .ok () }],
    .completion (u16 "C:\\a") (failedCompletion ERROR_OPERATION_ABORTED),
    .registerPath (u16 "C:\\a") directoryAnswers, .destroyed directoryAnswers (.ok ())]

theorem settled_of_orderly_moved :
    ∃ s watchPoint, machine.ReachableWhere System.Orderly s ∧
      s.server.watchPoints.lookup (u16 "C:\\a") = some watchPoint ∧ watchPoint.Settled ∧
      ∃ ex, s.server.beginRegisterPath (u16 "C:\\a") = .error ex := by
  have computed : (machine.execWhere System.Orderly machine.start movedRun).map (fun s =>
      (s.server.shouldTerminate, (s.server.watchPoints.lookup (u16 "C:\\a")).map
        fun watchPoint => watchPoint.status)) = some (false, some .listening) := by decide
  obtain ⟨s, reach, last⟩ := Machine.observe_of_execWhere computed
  simp only [Prod.mk.injEq] at last
  obtain ⟨running, found⟩ := last
  obtain ⟨watchPoint, known, listening⟩ := Option.map_eq_some_iff.mp found
  refine ⟨s, watchPoint, reach, known, (settled_of_orderly reach running known).1,
    fileWatcherException "Already watching path" (u16 "C:\\a") none, ?_⟩
  simp [Server.beginRegisterPath, known, listening]

/-- The read of a registered directory completes with `ERROR_NETNAME_DELETED`. -/
def unexpectedErrorRun : List Label :=
  [.registerPath (u16 "C:\\a") directoryAnswers,
    .completion (u16 "C:\\a") (failedCompletion 64)]

/-- Not every watch point is settled: one whose read failed for good is neither watched
nor finished, and its path is refused as watched already. -/
theorem not_forall_settled :
    ¬ ∀ s, machine.Reachable s → s.destroying = [] → s.server.shouldTerminate = false →
      ∀ path watchPoint, s.server.watchPoints.lookup path = some watchPoint →
        watchPoint.Settled ∧
          ∀ ex, s.server.beginRegisterPath path = .error ex →
            watchPoint.outstandingReads = 1 := by
  intro always
  have computed : (machine.exec machine.start unexpectedErrorRun).map (fun s =>
      (s.destroying, s.server.shouldTerminate,
        (s.server.watchPoints.lookup (u16 "C:\\a")).map fun watchPoint => watchPoint.status)) =
      some ([], false, some .notListening) := by decide
  obtain ⟨s, reach, last⟩ := Machine.observe_of_exec computed
  simp only [Prod.mk.injEq] at last
  obtain ⟨idle, running, found⟩ := last
  obtain ⟨watchPoint, known, notListening⟩ := Option.map_eq_some_iff.mp found
  exact not_settled_of_notListening notListening
    (always s reach idle running _ _ known).1

end Windows

end FileEvents
