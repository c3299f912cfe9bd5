import FileEvents.Windows.Destructors
import FileEvents.Windows.Handles

/-!
# What `stopWatchingMovedPaths` does on Windows

The loop visits every watch point once. It drops the path of a watch point that is not
finished and whose handle has no final path any more, or another one than at registration,
and cancels it. It does not matter in which order the watch points are visited, as a visit
concerns its own watch point only; an exception of `cancel` leaves the later ones alone.

A path stays registered, so as long as the read of its watch point is not aborted a second
call drops it once more.

## Main definitions

* `Server.Moved` — the path is dropped
* `Server.CancelThrows` — the visit ends the loop
* `Visits` — what the visits leave of the watch points

## Main results

* `Server.dropsMoved` — the dropped paths, the watch points afterwards and a second call
-/

namespace FileEvents

namespace Windows

open Handles (visited)

namespace Server

/-- The watch point of the path is not finished, and its handle has not the final path it was
registered with. -/
def Moved (server : Server) (visit : Visit) : Prop :=
  ∃ watchPoint ∈ server.watchPoints.lookup visit.path, watchPoint.status ≠ .finished ∧
    visit.finalPath ≠ some watchPoint.registeredFinalPath

instance (server : Server) : DecidablePred server.Moved := fun visit =>
  match known : server.watchPoints.lookup visit.path with
  | none => .isFalse fun ⟨_, mem, _⟩ => by
      rw [known] at mem
      cases mem
  | some watchPoint =>
    if moved : watchPoint.status ≠ .finished ∧
        visit.finalPath ≠ some watchPoint.registeredFinalPath then
      .isTrue ⟨watchPoint, known, moved⟩
    else .isFalse fun ⟨other, mem, found⟩ => moved (by
      obtain rfl := Option.some_inj.mp (known.symm.trans mem)
      exact found)

/-- The path is dropped, and cancelling its watch point throws. -/
def CancelThrows (server : Server) (visit : Visit) (ex : CppException) : Prop :=
  ∃ watchPoint ∈ server.watchPoints.lookup visit.path, watchPoint.status = .listening ∧
    visit.finalPath ≠ some watchPoint.registeredFinalPath ∧
    ∃ cancelError, visit.cancelIo = .error cancelError ∧ cancelError ≠ ERROR_NOT_FOUND ∧
      ex = fileWatcherException "Couldn't cancel watch point" watchPoint.registeredPath
        cancelError

/-- The read of the watch point to be dropped had ended when it was to be cancelled. -/
def NotFound (server : Server) (visit : Visit) : Prop :=
  ∃ watchPoint ∈ server.watchPoints.lookup visit.path, watchPoint.status = .listening ∧
    visit.cancelIo = .error ERROR_NOT_FOUND

/-- Every watch point is visited once, in any order. -/
def VisitsAll (server : Server) (visits : List Visit) : Prop :=
  (visits.map fun visit => visit.path).Perm server.watchPoints.keys

instance (server : Server) : DecidablePred server.VisitsAll := fun visits =>
  inferInstanceAs
    (Decidable ((visits.map fun visit => visit.path).Perm server.watchPoints.keys))

end Server

/-- What the visits leave of the watch points. -/
structure Visits (visits : List Server.Visit) (before after : Server) : Prop where
  visited : ∀ visit ∈ visits, after.watchPoints.lookup visit.path =
    (before.watchPoints.lookup visit.path).map fun watchPoint =>
      Handles.visited watchPoint visit
  others : ∀ path, (∀ visit ∈ visits, path ≠ visit.path) →
    after.watchPoints.lookup path = before.watchPoints.lookup path

section Visit

variable {server : Server} {visit : Server.Visit} {watchPoint : WatchPoint}

/-- A visited watch point that is not where it was does not listen any more. -/
theorem status_visited (moved : visit.finalPath ≠ some watchPoint.registeredFinalPath) :
    (visited watchPoint visit).status ≠ .listening := by
  unfold visited
  split_ifs with finished
  · simp [finished]
  · exact Destructors.status_cancel_ne watchPoint visit.cancelIo

@[simp] theorem registeredFinalPath_close :
    watchPoint.close.registeredFinalPath = watchPoint.registeredFinalPath := by
  unfold WatchPoint.close
  split_ifs <;> rfl

@[simp] theorem registeredFinalPath_visited :
    (visited watchPoint visit).registeredFinalPath = watchPoint.registeredFinalPath := by
  unfold visited WatchPoint.cancel
  split_ifs
  · rfl
  · cases visit.cancelIo with
    | ok => rfl
    | error =>
      dsimp only
      split_ifs <;> exact registeredFinalPath_close
  · rfl
  · rfl

theorem unfinished_of_visited (unfinished : (visited watchPoint visit).status ≠ .finished) :
    watchPoint.status ≠ .finished := by
  intro finished
  exact unfinished (by rw [visited, if_pos finished, finished])

variable (server visit) in
theorem lookup_own_stopWatchingMovedPath :
    (server.stopWatchingMovedPath visit).2.watchPoints.lookup visit.path =
      (server.watchPoints.lookup visit.path).map fun watchPoint =>
        visited watchPoint visit := by
  cases known : server.watchPoints.lookup visit.path with
  | none =>
    unfold Server.stopWatchingMovedPath
    rw [known]
    exact known
  | some watchPoint => exact Handles.lookup_stopWatchingMovedPath known

/-- A round throws exactly where `cancel` does. -/
theorem stopWatchingMovedPath_throws {ex : CppException} (throws : server.CancelThrows visit ex) :
    (server.stopWatchingMovedPath visit).1 = .error ex := by
  obtain ⟨watchPoint, known, listening, moved, cancelError, failed, serious, rfl⟩ := throws
  unfold Server.stopWatchingMovedPath
  rw [known]
  simp [WatchPoint.cancel, Except.map, listening, moved, failed, serious]

/-- Otherwise it drops the path if the watch point has moved. -/
theorem stopWatchingMovedPath_ok (tolerant : ∀ ex, ¬ server.CancelThrows visit ex) :
    (server.stopWatchingMovedPath visit).1 =
      .ok (if server.Moved visit then some visit.path else none) := by
  unfold Server.stopWatchingMovedPath
  cases known : server.watchPoints.lookup visit.path with
  | none =>
    have unmoved : ¬ server.Moved visit := by simp [Server.Moved, known]
    rw [if_neg unmoved]
  | some watchPoint =>
    by_cases finished : watchPoint.status = .finished
    · have unmoved : ¬ server.Moved visit := by simp [Server.Moved, known, finished]
      rw [if_neg unmoved]
      simp [finished]
    · by_cases same : visit.finalPath = some watchPoint.registeredFinalPath
      · have unmoved : ¬ server.Moved visit := by simp [Server.Moved, known, same]
        rw [if_neg unmoved]
        simp [finished, same]
      · rw [if_pos ⟨watchPoint, known, finished, same⟩]
        simp only [finished, same, ne_eq, not_false_eq_true, if_true, if_false]
        -- What `cancel` returns is not looked at.
        have returns : ∃ cancelled, (watchPoint.cancel visit.cancelIo).1 = .ok cancelled := by
          unfold WatchPoint.cancel
          split_ifs with listening
          · cases failed : visit.cancelIo with
            | ok => exact ⟨true, rfl⟩
            | error cancelError =>
              by_cases notFound : cancelError = ERROR_NOT_FOUND
              · exact ⟨false, by simp [notFound]⟩
              · exact absurd ⟨watchPoint, known, listening, same, cancelError, failed, notFound,
                  rfl⟩ (tolerant _)
          · exact ⟨false, rfl⟩
        obtain ⟨cancelled, returned⟩ := returns
        rw [returned]
        rfl

end Visit

/-! ## All visits -/

section AllVisits

variable {server : Server} {visits : List Server.Visit}

/-- The first round and the others. -/
theorem stopWatchingMovedPaths_cons (server : Server) (visit : Server.Visit)
    (visits : List Server.Visit) :
    server.stopWatchingMovedPaths (visit :: visits) =
      match server.stopWatchingMovedPath visit with
      | (.error ex, server) => (.error ex, server)
      | (.ok dropped, server) =>
        ((server.stopWatchingMovedPaths visits).1.map (dropped.toList ++ ·),
          (server.stopWatchingMovedPaths visits).2) := by
  rcases returned : server.stopWatchingMovedPath visit with ⟨result, after⟩
  cases result with
  | error | ok => simp only [Server.stopWatchingMovedPaths, returned]

theorem Visits.cons {visit : Server.Visit} {middle after : Server}
    (fresh : ∀ other ∈ visits, other.path ≠ visit.path)
    (own : middle.watchPoints.lookup visit.path =
      (server.watchPoints.lookup visit.path).map fun watchPoint =>
        Handles.visited watchPoint visit)
    (frame : ∀ path, path ≠ visit.path →
      middle.watchPoints.lookup path = server.watchPoints.lookup path)
    (rest : Visits visits middle after) : Visits (visit :: visits) server after where
  visited := fun other mem => by
    rcases List.mem_cons.mp mem with rfl | mem
    · rw [rest.others other.path fun later mem same => fresh later mem same.symm, own]
    · rw [rest.visited other mem, frame other.path (fresh other mem)]
  others := fun path unvisited => by
    obtain ⟨notFirst, notLater⟩ := List.forall_mem_cons.mp unvisited
    rw [rest.others path notLater, frame path notFirst]

/-- Visits that do not throw, whatever comes after them. -/
theorem stopWatchingMovedPaths_append {rest : List Server.Visit}
    (once : ((visits ++ rest).map fun visit => visit.path).Nodup)
    (tolerant : ∀ visit ∈ visits, ∀ ex, ¬ server.CancelThrows visit ex) :
    ∃ after, Visits visits server after ∧
      server.stopWatchingMovedPaths (visits ++ rest) =
        ((after.stopWatchingMovedPaths rest).1.map
            (((visits.filter server.Moved).map fun visit => visit.path) ++ ·),
          (after.stopWatchingMovedPaths rest).2) := by
  induction visits generalizing server with
  | nil =>
    refine ⟨server, ⟨nofun, fun _ _ => rfl⟩, ?_⟩
    rw [List.nil_append]
    cases server.stopWatchingMovedPaths rest with
    | mk result after => cases result <;> rfl
  | cons visit visits ih =>
    obtain ⟨own, once⟩ := List.nodup_cons.mp once
    have fresh : ∀ other ∈ visits, other.path ≠ visit.path := fun other mem same =>
      own (List.mem_map.mpr ⟨other, List.mem_append_left _ mem, same⟩)
    obtain ⟨first, others⟩ := List.forall_mem_cons.mp tolerant
    have returned := stopWatchingMovedPath_ok first
    have frame (path : U16String) (other : path ≠ visit.path) :
        (server.stopWatchingMovedPath visit).2.watchPoints.lookup path =
          server.watchPoints.lookup path := lookup_stopWatchingMovedPath server other
    rw [List.cons_append, stopWatchingMovedPaths_cons]
    cases round : server.stopWatchingMovedPath visit with
    | mk result middle =>
      rw [round] at returned frame
      simp only at returned frame
      subst returned
      -- The later visits find their watch points as they were.
      have same (other : Server.Visit) (mem : other ∈ visits) :
          (middle.Moved other ↔ server.Moved other) ∧
            ∀ ex, middle.CancelThrows other ex ↔ server.CancelThrows other ex := by
        simp only [Server.Moved, Server.CancelThrows, frame _ (fresh other mem), implies_true,
          and_self]
      obtain ⟨after, rest', continued⟩ := ih once fun other mem ex =>
        (((same other mem).2 ex).not.mpr (others other mem ex))
      have filtered : visits.filter middle.Moved = visits.filter server.Moved :=
        List.filter_congr fun other mem => by simp [(same other mem).1]
      refine ⟨after, rest'.cons fresh ?_ frame, ?_⟩
      · have own := lookup_own_stopWatchingMovedPath server visit
        rwa [round] at own
      · simp only [continued, filtered, List.filter_cons]
        cases (after.stopWatchingMovedPaths rest).1 with
        | error => rfl
        | ok => by_cases moved : server.Moved visit <;> simp [moved, Except.map]

theorem stopWatchingMovedPaths_ok (once : (visits.map fun visit => visit.path).Nodup)
    (tolerant : ∀ visit ∈ visits, ∀ ex, ¬ server.CancelThrows visit ex) :
    (server.stopWatchingMovedPaths visits).1 =
        .ok ((visits.filter server.Moved).map fun visit => visit.path) ∧
      Visits visits server (server.stopWatchingMovedPaths visits).2 := by
  rw [← List.append_nil visits] at once
  obtain ⟨after, left, returned⟩ := stopWatchingMovedPaths_append once tolerant
  rw [List.append_nil] at returned
  rw [returned]
  exact ⟨by simp [Server.stopWatchingMovedPaths, Except.map], left⟩

theorem Visits.mem_keys {after : Server} (left : Visits visits server after) (path : U16String) :
    path ∈ after.watchPoints.keys ↔ path ∈ server.watchPoints.keys := by
  rw [← AList.mem_keys, ← AList.mem_keys, ← AList.lookup_isSome, ← AList.lookup_isSome]
  by_cases visited : ∃ visit ∈ visits, path = visit.path
  · obtain ⟨visit, mem, rfl⟩ := visited
    rw [left.visited visit mem, Option.isSome_map]
  · push Not at visited
    rw [left.others path visited]

/-- The loop ends with the first exception, behind the visits up to there. -/
theorem stopWatchingMovedPaths_throws {visit : Server.Visit} {later : List Server.Visit}
    {ex : CppException}
    (once : ((visits ++ visit :: later).map fun visit => visit.path).Nodup)
    (tolerant : ∀ visit ∈ visits, ∀ ex, ¬ server.CancelThrows visit ex)
    (throws : server.CancelThrows visit ex) :
    (server.stopWatchingMovedPaths (visits ++ visit :: later)).1 = .error ex ∧
      Visits (visits ++ [visit]) server
        (server.stopWatchingMovedPaths (visits ++ visit :: later)).2 := by
  have fresh : ∀ other ∈ visits, visit.path ≠ other.path := by
    rw [List.map_append, List.map_cons, List.nodup_append] at once
    intro other mem same
    exact once.2.2 other.path (List.mem_map_of_mem mem) visit.path (by simp) same.symm
  obtain ⟨middle, left, continued⟩ := stopWatchingMovedPaths_append once tolerant
  have known : middle.watchPoints.lookup visit.path = server.watchPoints.lookup visit.path :=
    left.others visit.path fresh
  have threw : (middle.stopWatchingMovedPath visit).1 = .error ex := by
    refine stopWatchingMovedPath_throws ?_
    obtain ⟨watchPoint, mem, rest⟩ := throws
    exact ⟨watchPoint, known.trans mem, rest⟩
  have ended : middle.stopWatchingMovedPaths (visit :: later) =
      (.error ex, (middle.stopWatchingMovedPath visit).2) := by
    rw [stopWatchingMovedPaths_cons]
    cases round : middle.stopWatchingMovedPath visit with
    | mk result after =>
      rw [round] at threw
      subst threw
      rfl
  rw [continued, ended]
  refine ⟨rfl, fun other mem => ?_, fun path unvisited => ?_⟩
  · rcases List.mem_append.mp mem with mem | mem
    · rw [lookup_stopWatchingMovedPath middle (fresh other mem).symm, left.visited other mem]
    · obtain rfl := List.mem_singleton.mp mem
      rw [lookup_own_stopWatchingMovedPath, known]
  · rw [lookup_stopWatchingMovedPath middle (unvisited visit (by simp)),
      left.others path fun other mem => unvisited other (List.mem_append_left _ mem)]

end AllVisits

/-! ## Calls one after the other -/

section Again

variable {server after : Server} {visits again : List Server.Visit}

/-- Another visit with the same final path finds nothing left to cancel. -/
theorem visited_visited {watchPoint : WatchPoint} {visit other : Server.Visit}
    (same : other.finalPath = visit.finalPath) :
    visited (visited watchPoint visit) other = visited watchPoint visit := by
  by_cases finished : (visited watchPoint visit).status = .finished
  · exact if_pos finished
  · rw [visited, if_neg finished, registeredFinalPath_visited, same]
    split_ifs with moved
    · have silent : (visited watchPoint visit).status ≠ .listening := status_visited moved
      unfold WatchPoint.cancel
      rw [if_neg silent]
    · rfl

/-- The watch point of a dropped path is finished exactly if its read had ended. -/
theorem finished_visited_iff {watchPoint : WatchPoint} {visit : Server.Visit}
    (unfinished : watchPoint.status ≠ .finished)
    (moved : visit.finalPath ≠ some watchPoint.registeredFinalPath) :
    (visited watchPoint visit).status = .finished ↔
      watchPoint.status = .listening ∧ ∃ cancelError, visit.cancelIo = .error cancelError := by
  rw [visited, if_neg unfinished, if_pos moved]
  unfold WatchPoint.cancel
  by_cases listening : watchPoint.status = .listening
  · rw [if_pos listening]
    cases visit.cancelIo with
    | ok => simp
    | error cancelError =>
      dsimp only
      split_ifs <;> simp [listening]
  · rw [if_neg listening]
    simp [listening, unfinished]

/-- What a path that was visited is for the next call. -/
theorem Visits.moved_iff (left : Visits visits server after)
    (tolerant : ∀ visit ∈ visits, ∀ ex, ¬ server.CancelThrows visit ex)
    {visit other : Server.Visit} (mem : visit ∈ visits) (samePath : other.path = visit.path)
    (sameFinal : other.finalPath = visit.finalPath) :
    after.Moved other ↔ server.Moved visit ∧ ¬ server.NotFound visit := by
  unfold Server.Moved Server.NotFound
  rw [samePath, sameFinal, left.visited visit mem]
  cases known : server.watchPoints.lookup visit.path with
  | none => simp
  | some watchPoint =>
    simp only [Option.map_some, Option.mem_some_iff, exists_eq_left', registeredFinalPath_visited]
    by_cases moved : visit.finalPath = some watchPoint.registeredFinalPath
    · simp [moved]
    by_cases finished : watchPoint.status = .finished
    · simp [Handles.visited, finished]
    have ended : (∃ cancelError, visit.cancelIo = .error cancelError) →
        watchPoint.status = .listening → visit.cancelIo = .error ERROR_NOT_FOUND := by
      rintro ⟨cancelError, failed⟩ listening
      by_contra serious
      refine tolerant visit mem _
        ⟨watchPoint, known, listening, moved, cancelError, failed, ?_, rfl⟩
      rintro rfl
      exact serious failed
    simp only [moved, finished, finished_visited_iff finished moved, ne_eq, not_false_eq_true,
      and_true, true_and]
    refine not_congr ⟨fun ⟨listening, failed⟩ => ⟨listening, ended failed listening⟩,
      fun ⟨listening, failed⟩ => ⟨listening, _, failed⟩⟩

/-- A path that was visited without an exception is not cancelled once more. -/
theorem Visits.tolerant_again (left : Visits visits server after) {visit other : Server.Visit}
    (mem : visit ∈ visits) (samePath : other.path = visit.path)
    (sameFinal : other.finalPath = visit.finalPath) (ex : CppException) :
    ¬ after.CancelThrows other ex := by
  rintro ⟨watchPoint, known, listening, moved, -⟩
  rw [samePath, left.visited visit mem] at known
  obtain ⟨before, -, rfl⟩ := Option.map_eq_some_iff.mp known
  rw [sameFinal, registeredFinalPath_visited] at moved
  exact status_visited moved listening

end Again

/-- `stopWatchingMovedPaths` drops the unfinished watch points that are not where they were
registered, in the order of the visits, and none of them listens afterwards. The other watch
points are as before. The next call, while the directories are where they are, drops the
same paths but those whose read had ended, and changes nothing. The first `cancel` that
throws ends the loop, and the later watch points are as before. -/
theorem Server.dropsMoved (server : Server) {visits : List Visit} (all : server.VisitsAll visits) :
    ((∀ visit ∈ visits, ∀ ex, ¬ server.CancelThrows visit ex) →
      (server.stopWatchingMovedPaths visits).1 =
          .ok ((visits.filter server.Moved).map fun visit => visit.path) ∧
        Visits visits server (server.stopWatchingMovedPaths visits).2 ∧
        (∀ visit ∈ visits, server.Moved visit →
          ∀ watchPoint ∈ (server.stopWatchingMovedPaths visits).2.watchPoints.lookup visit.path,
            watchPoint.status ≠ .listening) ∧
        ∀ again, (server.stopWatchingMovedPaths visits).2.VisitsAll again →
          (∀ visit ∈ visits, ∀ other ∈ again, other.path = visit.path →
            other.finalPath = visit.finalPath) →
          ∃ dropped,
            ((server.stopWatchingMovedPaths visits).2.stopWatchingMovedPaths again).1 =
                .ok dropped ∧
              (∀ path, path ∈ dropped ↔ ∃ visit ∈ visits, visit.path = path ∧
                server.Moved visit ∧ ¬ server.NotFound visit) ∧
              ∀ path, ((server.stopWatchingMovedPaths visits).2.stopWatchingMovedPaths
                    again).2.watchPoints.lookup path =
                (server.stopWatchingMovedPaths visits).2.watchPoints.lookup path) ∧
    ∀ earlier visit later ex, visits = earlier ++ visit :: later →
      (∀ other ∈ earlier, ∀ ex, ¬ server.CancelThrows other ex) →
      server.CancelThrows visit ex →
      (server.stopWatchingMovedPaths visits).1 = .error ex ∧
        Visits (earlier ++ [visit]) server (server.stopWatchingMovedPaths visits).2 := by
  have once : (visits.map fun visit => visit.path).Nodup :=
    all.nodup_iff.mpr server.watchPoints.keys_nodup
  refine ⟨fun tolerant => ?_, ?_⟩
  · obtain ⟨returned, left⟩ := stopWatchingMovedPaths_ok once tolerant
    refine ⟨returned, left, fun visit mem moved watchPoint known => ?_,
      fun again allAgain agree => ?_⟩
    · obtain ⟨before, found, -, elsewhere⟩ := moved
      rw [left.visited visit mem, Option.mem_def.mp found] at known
      obtain rfl := Option.some_inj.mp known
      exact status_visited elsewhere
    · -- Each visit of the second call is one of the first call once more.
      have known : ∀ other ∈ again, ∃ visit ∈ visits, other.path = visit.path ∧
          other.finalPath = visit.finalPath := by
        intro other mem
        have visited := all.mem_iff.mpr ((left.mem_keys other.path).mp
          (allAgain.mem_iff.mp (List.mem_map_of_mem mem)))
        obtain ⟨visit, found, same⟩ := List.mem_map.mp visited
        exact ⟨visit, found, same.symm, agree visit found other mem same.symm⟩
      have tolerantAgain : ∀ other ∈ again, ∀ ex,
          ¬ (server.stopWatchingMovedPaths visits).2.CancelThrows other ex := by
        intro other mem
        obtain ⟨visit, found, samePath, sameFinal⟩ := known other mem
        exact left.tolerant_again found samePath sameFinal
      have onceAgain : (again.map fun visit => visit.path).Nodup :=
        allAgain.nodup_iff.mpr (AList.keys_nodup _)
      obtain ⟨returnedAgain, leftAgain⟩ := stopWatchingMovedPaths_ok onceAgain tolerantAgain
      refine ⟨_, returnedAgain, fun path => ?_, fun path => ?_⟩
      · simp only [List.mem_map, List.mem_filter, decide_eq_true_eq]
        constructor
        · rintro ⟨other, ⟨mem, movedAgain⟩, rfl⟩
          obtain ⟨visit, found, samePath, sameFinal⟩ := known other mem
          exact ⟨visit, found, samePath.symm,
            (left.moved_iff tolerant found samePath sameFinal).mp movedAgain⟩
        · rintro ⟨visit, found, rfl, moved⟩
          have key : visit.path ∈ again.map fun visit => visit.path :=
            allAgain.mem_iff.mpr ((left.mem_keys visit.path).mpr
              (all.mem_iff.mp (List.mem_map_of_mem found)))
          obtain ⟨other, mem, samePath⟩ := List.mem_map.mp key
          exact ⟨other, ⟨mem, (left.moved_iff tolerant found samePath
            (agree visit found other mem samePath)).mpr moved⟩, samePath⟩
      · by_cases visitedAgain : ∃ other ∈ again, path = other.path
        · obtain ⟨other, mem, rfl⟩ := visitedAgain
          obtain ⟨visit, found, samePath, sameFinal⟩ := known other mem
          rw [leftAgain.visited other mem, samePath, left.visited visit found, Option.map_map]
          congr 1
          funext watchPoint
          exact visited_visited sameFinal
        · push Not at visitedAgain
          exact leftAgain.others path visitedAgain
  · rintro earlier visit later ex rfl tolerant throws
    exact stopWatchingMovedPaths_throws once tolerant throws

/-- A directory is gone and its read has ended, another one was moved: both paths are dropped,
and the moved one once more by the second call. -/
theorem Server.dropsMoved_gone :
    let listening (path : U16String) : WatchPoint :=
      { WatchPoint.opened path with registeredFinalPath := path, status := .listening }
    let server : Server :=
      ⟨(AList.insert (u16 "C:\\b") (listening (u16 "C:\\b"))
        (AList.singleton (u16 "C:\\a") (listening (u16 "C:\\a")))), false⟩
    let visits : List Visit :=
      [⟨u16 "C:\\b", none, .error ERROR_NOT_FOUND⟩,
        ⟨u16 "C:\\a", some (u16 "C:\\c"), .ok ()⟩]
    (server.stopWatchingMovedPaths visits).1 = .ok [u16 "C:\\b", u16 "C:\\a"] ∧
      ∃ dropped,
        ((server.stopWatchingMovedPaths visits).2.stopWatchingMovedPaths visits).1 =
            .ok dropped ∧ u16 "C:\\b" ∉ dropped ∧ u16 "C:\\a" ∈ dropped := by
  intro listening server visits
  have tolerant : ∀ visit ∈ visits, ∀ ex, ¬ server.CancelThrows visit ex := by
    rintro visit mem ex ⟨watchPoint, -, -, -, cancelError, failed, serious, -⟩
    rcases List.mem_cons.mp mem with rfl | mem
    · exact serious (Except.error.inj failed).symm
    · obtain rfl := List.mem_singleton.mp mem
      cases failed
  have all : server.VisitsAll visits := .refl _
  obtain ⟨returned, left, -, nextCall⟩ := (server.dropsMoved all).1 tolerant
  have allAgain : (server.stopWatchingMovedPaths visits).2.VisitsAll visits := by
    decide
  obtain ⟨dropped, again, droppedAgain, -⟩ := nextCall visits allAgain (by decide)
  refine ⟨returned.trans (by decide), dropped, again, fun mem => ?_, ?_⟩
  · obtain ⟨visit, mem, same, -, found⟩ := (droppedAgain _).mp mem
    rcases List.mem_cons.mp mem with rfl | mem
    · exact found ⟨listening (u16 "C:\\b"), by decide, rfl, rfl⟩
    · obtain rfl := List.mem_singleton.mp mem
      exact absurd same (by decide)
  · refine (droppedAgain _).mpr
      ⟨_, List.mem_cons_of_mem _ List.mem_cons_self, rfl, by decide, ?_⟩
    rintro ⟨watchPoint, -, -, failed⟩
    cases failed

end Windows

end FileEvents
