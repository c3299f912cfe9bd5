import FileEvents.Windows.StatusInvariant

/-!
# Completions of a terminating Windows server

The shutdown command sets `shouldTerminate`. A completion routine that runs afterwards looks
at the flag only when it has found the watched directory in place: what it finds gone it
still reports as removed. In every other case it reports no event, and it starts no read.

## Main definitions

* `Server.StaysQuiet` — the completion routine reports no event and starts no read
* `WatchPoint.FoundGone` — the routine finds the directory of a listening watch point gone

## Main results

* `handleEventsInBuffer_of_foundGone` — what is reported for a directory found gone
* `staysQuiet_iff` — a terminating server stays quiet exactly if none is found gone
-/

namespace FileEvents

namespace Windows

open Transition

/-- The completion routine reports no change, no unknown event and no overflow, and starts
no read. -/
def Server.StaysQuiet (server : Server) (watchPoint : WatchPoint) (completion : Completion) :
    Prop :=
  (∀ report ∈ (server.handleEventsInBuffer watchPoint completion).2,
    ∃ ex, report = .reportFailure ex) ∧
  (server.handleEventsInBuffer watchPoint completion).1.outstandingReads =
    watchPoint.outstandingReads - 1

/-- The completion tells that the directory under its final path is removed, moved or not
accessible any more. -/
def Completion.FindsGone (completion : Completion) (registeredFinalPath : U16String) : Prop :=
  (completion.errorCode = ERROR_ACCESS_DENIED ∧ isValidDirectory completion.attrib = false) ∨
    (completion.errorCode = ERROR_SUCCESS ∧ ∃ currentFinalPath,
      completion.finalPath = .ok currentFinalPath ∧
        currentFinalPath ≠ some registeredFinalPath)

/-- The completion routine finds the directory of a listening watch point gone. -/
def WatchPoint.FoundGone (watchPoint : WatchPoint) (completion : Completion) : Prop :=
  watchPoint.status = .listening ∧ completion.FindsGone watchPoint.registeredFinalPath

section Completion

variable {server : Server} {watchPoint : WatchPoint} {completion : Completion}

/-- What is found gone is closed and reported as removed, terminating or not. -/
theorem tryHandleEvents_of_findsGone (server : Server) (watchPoint : WatchPoint)
    (gone : completion.FindsGone watchPoint.registeredFinalPath) :
    server.tryHandleEvents watchPoint completion =
      (.ok (), reportWatchPointDeleted watchPoint) := by
  unfold Server.tryHandleEvents
  obtain ⟨denied, removed⟩ | ⟨success, currentFinalPath, found, moved⟩ := gone
  · have failed : completion.errorCode ≠ ERROR_SUCCESS := by
      rw [denied]
      decide
    rw [if_pos failed, if_pos ⟨denied, by simp [removed]⟩]
  · rw [if_neg (not_not.mpr success), found]
    exact if_pos moved

/-- Otherwise a terminating server leaves the watch point as it is, and reports nothing but
an exception. -/
theorem tryHandleEvents_of_terminating (terminating : server.shouldTerminate = true)
    (watchPoint : WatchPoint) (stays : ¬ completion.FindsGone watchPoint.registeredFinalPath) :
    (server.tryHandleEvents watchPoint completion).2 = (watchPoint, []) := by
  obtain ⟨notRemoved, notMoved⟩ := not_or.mp stays
  unfold Server.tryHandleEvents
  by_cases success : completion.errorCode = ERROR_SUCCESS
  · rw [if_neg (not_not.mpr success)]
    cases found : completion.finalPath with
    | error ex => rfl
    | ok currentFinalPath =>
      have unmoved : currentFinalPath = some watchPoint.registeredFinalPath := by
        by_contra moved
        exact notMoved ⟨success, currentFinalPath, found, moved⟩
      simp only [unmoved, ne_eq, not_true_eq_false, if_false, terminating, if_true]
  · have present : ¬ (completion.errorCode = ERROR_ACCESS_DENIED ∧
        ¬ isValidDirectory completion.attrib) := by simpa using notRemoved
    rw [if_pos success, if_neg present]

theorem handleEventsInBuffer_of_foundGone (gone : watchPoint.FoundGone completion) :
    (server.handleEventsInBuffer watchPoint completion).2 =
      [.reportChangeEvent ChangeType.removed.index watchPoint.registeredPath] := by
  obtain ⟨listening, gone⟩ := gone
  have notAborted : completion.errorCode ≠ ERROR_OPERATION_ABORTED := by
    obtain ⟨denied, -⟩ | ⟨success, -⟩ := gone
    · rw [denied]
      decide
    · rw [success]
      decide
  unfold Server.handleEventsInBuffer Server.handleEvents
  rw [if_neg notAborted, if_neg (not_not.mpr listening)]
  simp only [tryHandleEvents_of_findsGone server { watchPoint with
    status := .notListening, outstandingReads := watchPoint.outstandingReads - 1 } gone,
    reportWatchPointDeleted]

/-- A terminating server reports no event for a completion and starts no read exactly if the
completion does not find the directory of a listening watch point gone. -/
theorem staysQuiet_iff (terminating : server.shouldTerminate = true) :
    server.StaysQuiet watchPoint completion ↔ ¬ watchPoint.FoundGone completion := by
  constructor
  · rintro ⟨failures, -⟩ gone
    rw [handleEventsInBuffer_of_foundGone gone] at failures
    obtain ⟨ex, other⟩ := failures _ (List.mem_singleton_self _)
    cases other
  · intro stays
    unfold Server.StaysQuiet Server.handleEventsInBuffer
    by_cases aborted : completion.errorCode = ERROR_OPERATION_ABORTED
    · simp [aborted]
    · by_cases listening : watchPoint.status = .listening
      · simp only [aborted, if_false, listening, ne_eq, not_true_eq_false]
        have untouched := tryHandleEvents_of_terminating terminating
          { watchPoint with
            status := .notListening, outstandingReads := watchPoint.outstandingReads - 1 }
          fun gone => stays ⟨listening, gone⟩
        unfold Server.handleEvents
        split
        next handled =>
          obtain ⟨rfl, rfl⟩ := Prod.mk.inj (handled ▸ untouched)
          exact ⟨by simp, rfl⟩
        next ex watchPoint' reports handled =>
          obtain ⟨rfl, rfl⟩ := Prod.mk.inj (handled ▸ untouched)
          exact ⟨by simp, rfl⟩
      · simp [aborted, listening]

end Completion

/-- A change in a directory that is in place is not reported any more. -/
theorem staysQuiet_iff_created :
    Server.StaysQuiet { watchPoints := ∅, shouldTerminate := true }
      { WatchPoint.opened (u16 "C:\\a") with
        registeredFinalPath := u16 "C:\\a", status := .listening, outstandingReads := 1 }
      createdCompletion := by
  refine (staysQuiet_iff rfl).mpr ?_
  rintro ⟨-, ⟨denied, -⟩ | ⟨-, currentFinalPath, found, moved⟩⟩
  · exact absurd denied (by decide)
  · exact moved (Except.ok.inj found).symm

/-- A directory is watched when the shutdown command runs. -/
def terminatingRun : List Label := [.registerPath (u16 "C:\\a") directoryAnswers, .shutdown]

/-- The completion of a read of a directory that has been moved. -/
def movedCompletion : Completion :=
  { createdCompletion with finalPath := .ok (some (u16 "C:\\b")) }

/-- A server that has received the shutdown command does not stay quiet about a directory
that was moved. -/
theorem not_forall_staysQuiet :
    ¬ ∀ s, machine.Reachable s → s.server.shouldTerminate = true →
      ∀ path watchPoint, s.server.watchPoints.lookup path = some watchPoint →
        ∀ completion, s.server.StaysQuiet watchPoint completion := by
  intro always
  have computed : (machine.exec machine.start terminatingRun).map (fun s =>
      (s.server.shouldTerminate, (s.server.watchPoints.lookup (u16 "C:\\a")).map
        fun watchPoint => (watchPoint.status, watchPoint.registeredFinalPath))) =
      some (true, some (.listening, u16 "C:\\a")) := by decide
  obtain ⟨s, reach, last⟩ := Machine.observe_of_exec computed
  simp only [Prod.mk.injEq] at last
  obtain ⟨terminating, found⟩ := last
  obtain ⟨watchPoint, known, same⟩ := Option.map_eq_some_iff.mp found
  obtain ⟨listening, registered⟩ := Prod.mk.inj same
  have different : some (u16 "C:\\b") ≠ some watchPoint.registeredFinalPath := by
    rw [registered]
    decide
  exact (staysQuiet_iff terminating).mp
    (always s reach terminating _ watchPoint known movedCompletion)
    ⟨listening, .inr ⟨rfl, _, rfl, different⟩⟩

end Windows

end FileEvents
