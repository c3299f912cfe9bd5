import FileEvents.Delivery.ListedSet
import FileEvents.Windows.EndOfWatch
import FileEvents.Windows.RunLoopEnd
import FileEvents.Windows.SerialRun
import Mathlib.Data.Finset.Lattice.Lemmas

/-!
# The watched paths of the Windows server

A client that calls `startWatching` and `stopWatching` one after the other, with any lists of
paths, while the system answers what it likes, completion routines run in between and inside
the calls, and `stopWatchingMovedPaths` is called between them. The client waits until each
call is through, and log messages are left out.

What the client can see of the server are two sets of paths: the paths that have a watch point,
and among them the taken ones, whose watch point is not finished. Watch points finish on the way.
For each call it is known for which paths they may have, from the end of the call before to its
own.

## Main definitions

* `WatchedPaths.Performs` — what a call does to the two sets
* `WatchedPaths.Watches` — what calls do to them, one after the other
* `WatchedPaths.Session` — the calls on the server

## Main results

* `watches_of_calls` — the server is the two sets, and its watched paths are told by the calls
-/

namespace FileEvents

open Delivery

namespace Windows

namespace WatchedPaths

/-! ## The two sets -/

/-- The paths that have a watch point. -/
structure Paths where
  watched : Finset U16String
  /-- Those whose watch point is not finished. -/
  taken : Finset U16String
  taken_subset : taken ⊆ watched

/-- No path is watched. -/
def Paths.empty : Paths := ⟨∅, ∅, subset_rfl⟩

/-- `startWatching` and `stopWatching`. -/
inductive Call
  | startWatching (paths : List U16String)
  | stopWatching (paths : List U16String)

/-- The paths of a call. -/
def Call.paths : Call → List U16String
  | .startWatching paths | .stopWatching paths => paths

/-- What a call returns or throws. -/
abbrev Outcome := Except CppException Bool

/-- The exception of `registerPath` for a path that is taken. -/
def alreadyWatchingPath (path : U16String) : CppException :=
  fileWatcherException "Already watching path" path none

/-- The set has lost some of the ended paths at most. -/
structure Loses (ended before after : Finset U16String) : Prop where
  subset : after ⊆ before
  kept : before ⊆ after ∪ ended

/-- The watch points of some paths have finished, and are still there. -/
structure Finishes (ended : Finset U16String) (before after : Paths) : Prop where
  watched : after.watched = before.watched
  taken : Loses ended before.taken after.taken

/-- The paths are not taken and differ from one another, as far as their watch points do not
finish. -/
def Fresh (ended : Finset U16String) (before : Paths) (paths : List U16String) : Prop :=
  ∀ path ∈ paths, path ∈ ended ∨ path ∉ before.taken ∧ paths.count path = 1

/-- What a call does while the watch points of some paths may finish. -/
inductive Performs (ended : Finset U16String) (before : Paths) : Call → Outcome → Paths → Prop
  | started {paths : List U16String} {after : Paths} (fresh : Fresh ended before paths)
      (watched : after.watched = before.watched ∪ paths.toFinset)
      (taken : Loses ended (before.taken ∪ paths.toFinset) after.taken) :
      Performs ended before (.startWatching paths) (.ok true) after
  /-- A path is taken, from before or as it was listed earlier. The later ones are left out. -/
  | refused {earlier later : List U16String} {path : U16String} {after : Paths}
      (fresh : Fresh ended before earlier) (held : path ∈ before.taken ∪ earlier.toFinset)
      (watched : after.watched = before.watched ∪ earlier.toFinset)
      (taken : Loses ended (before.taken ∪ earlier.toFinset) after.taken) :
      Performs ended before (.startWatching (earlier ++ path :: later))
        (.error (alreadyWatchingPath path)) after
  /-- The watch point of a path cannot be made. Its finished one, if it had one, is gone. -/
  | failed {earlier later : List U16String} {path : U16String} {after : Paths}
      {answers : ConstructAnswers} {ex : CppException} (fresh : Fresh ended before earlier)
      (free : path ∈ ended ∨ path ∉ before.taken ∪ earlier.toFinset)
      (threw : (WatchPoint.construct path answers).1 = .error ex)
      (watched : after.watched = (before.watched ∪ earlier.toFinset).erase path)
      (taken : Loses ended (before.taken ∪ earlier.toFinset) after.taken) :
      Performs ended before (.startWatching (earlier ++ path :: later)) (.error ex) after
  | stopped {paths : List U16String} {after : Paths}
      (watched : after.watched = (eraseAll before.watched paths).2)
      (taken : Loses ended (before.taken \ paths.toFinset) after.taken) :
      Performs ended before (.stopWatching paths) (.ok (eraseAll before.watched paths).1) after

/-- A call of a history. -/
structure Entry where
  call : Call
  outcome : Outcome
  /-- The paths whose watch points may finish after the call before, up to the end of this one. -/
  ended : Finset U16String

/-- What calls do, one after the other. Watch points of the last paths may finish after them. -/
inductive Watches (last : Finset U16String) : Paths → List Entry → Paths → Prop
  | nil {before after : Paths} (finishes : Finishes last before after) :
      Watches last before [] after
  | cons {before middle after : Paths} {entry : Entry} {history : List Entry}
      (performs : Performs entry.ended before entry.call entry.outcome middle)
      (rest : Watches last middle history after) :
      Watches last before (entry :: history) after

/-- The watch point of the path does not finish, and no `stopWatching` lists the path. -/
def Lasts (path : U16String) (history : List Entry) : Prop :=
  ∀ entry ∈ history, path ∉ entry.ended ∧ ∀ paths, entry.call = .stopWatching paths → path ∉ paths

/-- No `stopWatching` lists the path. -/
def Unstopped (path : U16String) (history : List Entry) : Prop :=
  ∀ entry ∈ history, ∀ paths, entry.call = .stopWatching paths → path ∉ paths

/-- No `stopWatching` lists the path, and no `startWatching` that throws. -/
def Unbroken (path : U16String) (history : List Entry) : Prop :=
  ∀ entry ∈ history, path ∈ entry.call.paths →
    entry.outcome = .ok true ∧ ∃ paths, entry.call = .startWatching paths

section Sets

variable {ended S T U : Finset U16String}

theorem Loses.refl (ended S : Finset U16String) : Loses ended S S :=
  ⟨subset_rfl, Finset.subset_union_left⟩

theorem Loses.trans (first : Loses ended S T) (second : Loses ended T U) : Loses ended S U where
  subset := second.subset.trans first.subset
  kept := first.kept.trans (Finset.union_subset second.kept Finset.subset_union_right)

theorem Loses.union (loses : Loses ended S T) (U : Finset U16String) :
    Loses ended (S ∪ U) (T ∪ U) where
  subset := Finset.union_subset_union_left loses.subset
  kept := by
    rw [Finset.union_right_comm]
    exact Finset.union_subset_union_left loses.kept

theorem Loses.sdiff (loses : Loses ended S T) (U : Finset U16String) :
    Loses ended (S \ U) (T \ U) where
  subset := Finset.sdiff_subset_sdiff loses.subset subset_rfl
  kept := by
    intro path mem
    obtain ⟨mem, out⟩ := Finset.mem_sdiff.mp mem
    refine Finset.mem_union.mpr ((Finset.mem_union.mp (loses.kept mem)).imp_left fun mem => ?_)
    exact Finset.mem_sdiff.mpr ⟨mem, out⟩

theorem Loses.mem {path : U16String} (loses : Loses ended S T) (lasting : path ∉ ended)
    (mem : path ∈ S) : path ∈ T :=
  (Finset.mem_union.mp (loses.kept mem)).resolve_right lasting

end Sets

section Paths

variable {ended last : Finset U16String} {before middle after : Paths} {call : Call}
  {outcome : Outcome} {history : List Entry} {path : U16String} {paths : List U16String}

theorem Finishes.refl (ended : Finset U16String) (before : Paths) :
    Finishes ended before before := ⟨rfl, .refl _ _⟩

theorem Finishes.trans (first : Finishes ended before middle)
    (second : Finishes ended middle after) : Finishes ended before after :=
  ⟨second.watched.trans first.watched, first.taken.trans second.taken⟩

theorem Fresh.of_finishes (finishes : Finishes ended before middle)
    (fresh : Fresh ended middle paths) : Fresh ended before paths := by
  intro path mem
  by_cases lasting : path ∈ ended
  · exact .inl lasting
  · obtain ⟨free, once⟩ := (fresh path mem).resolve_left lasting
    exact .inr ⟨mt (finishes.taken.mem lasting) free, once⟩

/-- A path was free and is taken now. -/
theorem Fresh.cons (free : path ∉ before.taken) (taken : middle.taken = insert path before.taken)
    (fresh : Fresh ended middle paths) : Fresh ended before (path :: paths) := by
  intro other mem
  by_cases lasting : other ∈ ended
  · exact .inl lasting
  by_cases listed : other ∈ paths
  · obtain ⟨free, once⟩ := (fresh other listed).resolve_left lasting
    rw [taken, Finset.mem_insert, not_or] at free
    exact .inr ⟨free.2, by rw [List.count_cons_of_ne (Ne.symm free.1), once]⟩
  · obtain rfl := (List.mem_cons.mp mem).resolve_right listed
    exact .inr ⟨free, by rw [List.count_cons_self, List.count_eq_zero_of_not_mem listed]⟩

/-- What finishes before a call may as well finish during it. -/
theorem Performs.of_finishes (finishes : Finishes ended before middle)
    (performs : Performs ended middle call outcome after) :
    Performs ended before call outcome after := by
  have same := finishes.watched
  cases performs with
  | started fresh watched taken =>
    exact .started (fresh.of_finishes finishes) (same ▸ watched)
      ((finishes.taken.union _).trans taken)
  | refused fresh held watched taken =>
    exact .refused (fresh.of_finishes finishes)
      (Finset.union_subset_union_left finishes.taken.subset held) (same ▸ watched)
      ((finishes.taken.union _).trans taken)
  | @failed earlier later path _ answers ex fresh free threw watched taken =>
    have loses := finishes.taken.union earlier.toFinset
    refine .failed (fresh.of_finishes finishes) ?_ threw (same ▸ watched) (loses.trans taken)
    by_cases lasting : path ∈ ended
    · exact .inl lasting
    · exact .inr (mt (loses.mem lasting) (free.resolve_left lasting))
  | stopped watched taken =>
    rw [same] at watched ⊢
    exact .stopped watched ((finishes.taken.sdiff _).trans taken)

/-- A path was registered, and the rest is done with the others. -/
theorem Performs.cons (free : path ∉ before.taken)
    (watched : middle.watched = insert path before.watched)
    (taken : middle.taken = insert path before.taken)
    (performs : Performs ended middle (.startWatching paths) outcome after) :
    Performs ended before (.startWatching (path :: paths)) outcome after := by
  have union (S : Finset U16String) (l : List U16String) :
      insert path S ∪ l.toFinset = S ∪ (path :: l).toFinset := by
    rw [List.toFinset_cons, Finset.insert_union, Finset.union_insert]
  cases performs with
  | started fresh watched' taken' =>
    rw [watched, union] at watched'
    rw [taken, union] at taken'
    exact .started (fresh.cons free taken) watched' taken'
  | @refused earlier later other _ fresh held watched' taken' =>
    rw [watched, union] at watched'
    rw [taken, union] at held taken'
    rw [← List.cons_append]
    exact .refused (fresh.cons free taken) held watched' taken'
  | @failed earlier later other _ answers ex fresh free' threw watched' taken' =>
    rw [watched, union] at watched'
    rw [taken, union] at free' taken'
    rw [← List.cons_append]
    exact .failed (fresh.cons free taken) free' threw watched' taken'

/-- A call watches only paths of its own. -/
theorem Performs.mem_or (performs : Performs ended before call outcome after)
    (mem : path ∈ after.watched) :
    (path ∈ before.watched ∧ ∀ paths, call = .stopWatching paths → path ∉ paths) ∨
      ∃ paths, call = .startWatching paths ∧ path ∈ paths := by
  cases performs with
  | started fresh watched taken =>
    rw [watched, Finset.mem_union, List.mem_toFinset] at mem
    exact mem.imp (fun mem => ⟨mem, nofun⟩) fun mem => ⟨_, rfl, mem⟩
  | refused fresh held watched taken =>
    rw [watched, Finset.mem_union, List.mem_toFinset] at mem
    exact mem.imp (fun mem => ⟨mem, nofun⟩) fun mem => ⟨_, rfl, List.mem_append_left _ mem⟩
  | failed fresh free threw watched taken =>
    rw [watched, Finset.mem_erase, Finset.mem_union, List.mem_toFinset] at mem
    exact mem.2.imp (fun mem => ⟨mem, nofun⟩) fun mem => ⟨_, rfl, List.mem_append_left _ mem⟩
  | stopped watched taken =>
    rw [watched, eraseAll_snd, Finset.mem_sdiff, List.mem_toFinset] at mem
    refine .inl ⟨mem.1, fun paths same => ?_⟩
    obtain rfl := Call.stopWatching.inj same
    exact mem.2

/-- A path stays watched during the calls that do not list it, and during the `startWatching`
calls that return. -/
theorem Performs.mem_watched (performs : Performs ended before call outcome after)
    (mem : path ∈ before.watched)
    (harmless : path ∈ call.paths → outcome = .ok true ∧ ∃ paths, call = .startWatching paths) :
    path ∈ after.watched := by
  cases performs with
  | started fresh watched taken => exact watched ▸ Finset.mem_union_left _ mem
  | refused fresh held watched taken => exact watched ▸ Finset.mem_union_left _ mem
  | failed fresh free threw watched taken =>
    rw [watched, Finset.mem_erase]
    refine ⟨?_, Finset.mem_union_left _ mem⟩
    rintro rfl
    cases (harmless (by simp [Call.paths])).1
  | stopped watched taken =>
    rw [watched, eraseAll_snd, Finset.mem_sdiff, List.mem_toFinset]
    refine ⟨mem, fun listed => ?_⟩
    obtain ⟨-, _, other⟩ := harmless listed
    cases other

/-- A path that is taken and does not finish is refused until a `stopWatching` lists it. -/
theorem Performs.mem_taken (performs : Performs ended before call outcome after)
    (lasting : path ∉ ended) (mem : path ∈ before.taken)
    (listed : ∀ paths, call = .stopWatching paths → path ∉ paths) :
    path ∈ after.taken ∧ ∀ paths, call = .startWatching paths → path ∈ paths →
      outcome ≠ .ok true := by
  cases performs with
  | started fresh watched taken =>
    refine ⟨taken.mem lasting (Finset.mem_union_left _ mem), fun paths same listed => ?_⟩
    obtain rfl := Call.startWatching.inj same
    exact absurd mem ((fresh path listed).resolve_left lasting).1
  | refused fresh held watched taken =>
    exact ⟨taken.mem lasting (Finset.mem_union_left _ mem), nofun⟩
  | failed fresh free threw watched taken =>
    exact ⟨taken.mem lasting (Finset.mem_union_left _ mem), nofun⟩
  | stopped watched taken =>
    have out := listed _ rfl
    exact ⟨taken.mem lasting (Finset.mem_sdiff.mpr ⟨mem, by rwa [List.mem_toFinset]⟩), nofun⟩

/-- What some calls do and then some others. -/
theorem Watches.exists_of_append {earlier later : List Entry}
    (watches : Watches last before (earlier ++ later) after) :
    ∃ middle, Watches ∅ before earlier middle ∧ Watches last middle later after := by
  induction earlier generalizing before with
  | nil => exact ⟨before, .nil (.refl _ _), watches⟩
  | cons entry earlier ih =>
    cases watches with
    | cons performs rest =>
      obtain ⟨middle, first, second⟩ := ih rest
      exact ⟨middle, .cons performs first, second⟩

/-- A watched path was watched from the beginning or passed to `startWatching`, and not to
`stopWatching` since. -/
theorem Watches.begun (watches : Watches last before history after)
    (mem : path ∈ after.watched) :
    (path ∈ before.watched ∧ Unstopped path history) ∨
      ∃ earlier started later paths, history = earlier ++ started :: later ∧
        started.call = .startWatching paths ∧ path ∈ paths ∧ Unstopped path later := by
  induction watches with
  | nil finishes => exact .inl ⟨finishes.watched ▸ mem, nofun⟩
  | @cons before middle after entry history performs rest ih =>
    rcases ih mem with ⟨old, kept⟩ | ⟨earlier, started, later, paths, rfl, called, listed, kept⟩
    · rcases performs.mem_or old with ⟨older, unlisted⟩ | ⟨paths, called, listed⟩
      · exact .inl ⟨older, List.forall_mem_cons.mpr ⟨unlisted, kept⟩⟩
      · exact .inr ⟨[], entry, history, paths, rfl, called, listed, kept⟩
    · exact .inr ⟨entry :: earlier, started, later, paths, rfl, called, listed, kept⟩

theorem Watches.mem_watched (watches : Watches last before history after)
    (mem : path ∈ before.watched) (unbroken : Unbroken path history) : path ∈ after.watched := by
  induction watches with
  | nil finishes => exact finishes.watched ▸ mem
  | cons performs rest ih =>
    obtain ⟨now, later⟩ := List.forall_mem_cons.mp unbroken
    exact ih (performs.mem_watched mem now) later

theorem Watches.mem_taken (watches : Watches last before history after) (lasting : path ∉ last)
    (mem : path ∈ before.taken) (lasts : Lasts path history) : path ∈ after.taken := by
  induction watches with
  | nil finishes => exact finishes.taken.mem lasting mem
  | cons performs rest ih =>
    obtain ⟨⟨lasting, unlisted⟩, later⟩ := List.forall_mem_cons.mp lasts
    exact ih (performs.mem_taken lasting mem unlisted).1 later

/-- The paths of a `startWatching` that returned are watched, and taken if they do not
finish. -/
theorem Performs.mem_of_started (performs : Performs ended before call (.ok true) after)
    (called : call = .startWatching paths) (listed : path ∈ paths) :
    path ∈ after.watched ∧ (path ∉ ended → path ∈ after.taken) := by
  subst called
  have mem := List.mem_toFinset.mpr listed
  cases performs with
  | started fresh watched taken =>
    exact ⟨watched ▸ Finset.mem_union_right _ mem,
      fun lasting => taken.mem lasting (Finset.mem_union_right _ mem)⟩

end Paths

/-! ## The server -/

/-- The paths of a server. -/
def paths (server : Server) : Paths where
  watched := server.watchPoints.keys.toFinset
  taken := server.watchPoints.keys.toFinset.filter fun path =>
    ∃ watchPoint ∈ server.watchPoints.lookup path, watchPoint.status ≠ .finished
  taken_subset := Finset.filter_subset _ _

/-- No other paths than the ended ones are taken no longer. -/
def OnlyEnd (ended : Finset U16String) (server after : Server) : Prop :=
  (paths server).taken ⊆ (paths after).taken ∪ ended

/-- A command is run whole. -/
inductive Runs (ended : Finset U16String) : Server → Progress → Outcome → Server → Prop
  | through {server : Server} {outcome : Outcome} :
      Runs ended server (.ends outcome) outcome server
  | part {server after : Server} {work : Work} {outcome : Outcome} (answers : ConstructAnswers)
      (rest : Runs ended (work.goOnWhole server answers).2 (work.goOnWhole server answers).1
        outcome after) :
      Runs ended server (.goesOn work) outcome after
  | completion {server after : Server} {progress : Progress} {outcome : Outcome}
      {path : U16String} {watchPoint : WatchPoint} {completion : Completion}
      (known : server.watchPoints.lookup path = some watchPoint)
      (outstanding : 0 < watchPoint.outstandingReads)
      (onlyEnd : OnlyEnd ended server (server.complete path watchPoint completion))
      (rest : Runs ended (server.complete path watchPoint completion) progress outcome after) :
      Runs ended server progress outcome after

/-- What a call passes to `executeOnRunLoop`. -/
def Call.work : Call → Work
  | .startWatching paths => .registerPaths paths
  | .stopWatching paths => .unregisterPaths paths true

/-- What happens between two calls. -/
inductive Between (ended : Finset U16String) : Server → Server → Prop
  | nothing {server : Server} : Between ended server server
  | completion {server after : Server} {path : U16String} {watchPoint : WatchPoint}
      {completion : Completion} (known : server.watchPoints.lookup path = some watchPoint)
      (outstanding : 0 < watchPoint.outstandingReads)
      (onlyEnd : OnlyEnd ended server (server.complete path watchPoint completion))
      (rest : Between ended (server.complete path watchPoint completion) after) :
      Between ended server after
  | stopWatchingMovedPaths {server after : Server} {visits : List Server.Visit}
      (onlyEnd : OnlyEnd ended server (server.stopWatchingMovedPaths visits).2)
      (rest : Between ended (server.stopWatchingMovedPaths visits).2 after) :
      Between ended server after

/-- The calls of a client on a server. -/
inductive Session (last : Finset U16String) : Server → List Entry → Server → Prop
  | nil {server after : Server} (between : Between last server after) :
      Session last server [] after
  | call {server begin middle after : Server} {entry : Entry} {history : List Entry}
      (between : Between entry.ended server begin)
      (run : Runs entry.ended begin (.goesOn entry.call.work) entry.outcome middle)
      (rest : Session last middle history after) :
      Session last server (entry :: history) after

section Server

variable {ended : Finset U16String} {server after : Server} {path : U16String}
  {watchPoint : WatchPoint}

theorem mem_watched : path ∈ (paths server).watched ↔ (server.found path).isSome := by
  rw [paths, List.mem_toFinset, ← AList.mem_keys, ← AList.lookup_isSome]
  rfl

theorem mem_taken : path ∈ (paths server).taken ↔
    ∃ watchPoint, server.found path = some watchPoint ∧ watchPoint.status ≠ .finished := by
  rw [paths, Finset.mem_filter, List.mem_toFinset, ← AList.mem_keys, mem_iff_lookup]
  constructor
  · rintro ⟨-, watchPoint, known, unfinished⟩
    exact ⟨watchPoint, known, unfinished⟩
  · rintro ⟨watchPoint, known, unfinished⟩
    exact ⟨⟨watchPoint, known⟩, watchPoint, known, unfinished⟩

/-- The watch points stay where they are, and stay finished. -/
theorem finishes_of_found (onlyEnd : OnlyEnd ended server after)
    (left : ∀ path, after.found path = server.found path ∨ ∃ before watchPoint,
      server.found path = some before ∧ after.found path = some watchPoint ∧
        (before.status = .finished → watchPoint.status = .finished)) :
    Finishes ended (paths server) (paths after) where
  watched := by
    ext path
    rw [mem_watched, mem_watched]
    obtain same | ⟨before, watchPoint, known, found, -⟩ := left path
    · rw [same]
    · rw [known, found]
      rfl
  taken := by
    refine ⟨fun path mem => ?_, onlyEnd⟩
    obtain ⟨watchPoint, found, unfinished⟩ := mem_taken.mp mem
    obtain same | ⟨before, watchPoint', known, found', finishes⟩ := left path
    · exact mem_taken.mpr ⟨watchPoint, same ▸ found, unfinished⟩
    · obtain rfl := Option.some_inj.mp (found.symm.trans found')
      exact mem_taken.mpr ⟨before, known, mt finishes unfinished⟩

/-- A completion routine ends no other watch point than its own. -/
theorem onlyEnd_complete {completion : Completion} (own : path ∈ ended) :
    OnlyEnd ended server (server.complete path watchPoint completion) := by
  intro other mem
  rw [Finset.mem_union, mem_taken, Server.complete, Server.found_insert, Function.update_apply]
  split_ifs with same
  · exact .inr (same ▸ own)
  · exact .inl (mem_taken.mp mem)

theorem finishes_complete {completion : Completion}
    (known : server.watchPoints.lookup path = some watchPoint)
    (onlyEnd : OnlyEnd ended server (server.complete path watchPoint completion)) :
    Finishes ended (paths server) (paths (server.complete path watchPoint completion)) := by
  refine finishes_of_found onlyEnd fun other => ?_
  rw [Server.complete, Server.found_insert, Function.update_apply]
  split_ifs with own
  · refine .inr ⟨watchPoint, _, own ▸ known, rfl, fun finished => ?_⟩
    unfold Server.handleEventsInBuffer
    dsimp only
    split_ifs with aborted listening
    · exact WatchPoint.status_close
    · exact finished
    · rw [finished] at listening
      exact absurd nofun listening
  · exact .inl rfl

theorem finishes_stopWatchingMovedPaths {visits : List Server.Visit}
    (onlyEnd : OnlyEnd ended server (server.stopWatchingMovedPaths visits).2) :
    Finishes ended (paths server) (paths (server.stopWatchingMovedPaths visits).2) := by
  refine finishes_of_found onlyEnd fun path => ?_
  refine (lookup_cases_stopWatchingMovedPaths server visits path).imp_right ?_
  rintro ⟨before, cancelIo, known, listening, cancelled⟩
  refine ⟨before, _, known, cancelled, fun finished => ?_⟩
  rw [listening] at finished
  cases finished

/-- A watch point is entered. -/
theorem entered_of_found
    (found : after.found = Function.update server.found path (some watchPoint))
    (unfinished : watchPoint.status ≠ .finished) :
    (paths after).watched = insert path (paths server).watched ∧
      (paths after).taken = insert path (paths server).taken := by
  constructor <;> ext other
  · rw [mem_watched, Finset.mem_insert, mem_watched, found, Function.update_apply]
    split_ifs with own <;> simp [own]
  · rw [Finset.mem_insert, mem_taken, mem_taken, found, Function.update_apply]
    split_ifs with own <;> simp [own, unfinished]

/-- A watch point is removed. -/
theorem removed_of_found (found : after.found = Function.update server.found path none) :
    (paths after).watched = (paths server).watched.erase path ∧
      (paths after).taken = (paths server).taken.erase path := by
  constructor <;> ext other
  · rw [mem_watched, Finset.mem_erase, mem_watched, found, Function.update_apply]
    split_ifs with own <;> simp [own]
  · rw [Finset.mem_erase, mem_taken, mem_taken, found, Function.update_apply]
    split_ifs with own <;> simp [own]

/-- The `emplace` enters a watch point that listens, or throws what its constructor throws. -/
theorem constructed_cases (path : U16String) (answers : ConstructAnswers) :
    (∃ watchPoint, constructed path answers = (.ok (), some watchPoint) ∧
        EndOfWatch.Listens watchPoint) ∨
      ∃ ex, constructed path answers = (.error ex, none) ∧
        (WatchPoint.construct path answers).1 = .error ex := by
  have ok : (constructed path answers).1 = .ok () → (constructed path answers).2.isSome :=
    isSome_constructed
  unfold constructed at ok ⊢
  rcases built : WatchPoint.construct path answers with ⟨ex | _, _ | watchPoint⟩
  case ok.some => exact .inl ⟨watchPoint, rfl, EndOfWatch.listens_construct built⟩
  case ok.none =>
    rw [built] at ok
    cases ok rfl
  all_goals exact .inr ⟨ex, rfl, rfl⟩

/-- What `registerPath` does to the sets. -/
inductive Registers (before : Paths) (path : U16String) (answers : ConstructAnswers) :
    Except CppException Unit → Paths → Prop
  | entered {after : Paths} (free : path ∉ before.taken)
      (watched : after.watched = insert path before.watched)
      (taken : after.taken = insert path before.taken) :
      Registers before path answers (.ok ()) after
  | refused {after : Paths} (held : path ∈ before.taken)
      (watched : after.watched = before.watched) (taken : after.taken = before.taken) :
      Registers before path answers (.error (alreadyWatchingPath path)) after
  | failed {ex : CppException} {after : Paths} (free : path ∉ before.taken)
      (threw : (WatchPoint.construct path answers).1 = .error ex)
      (watched : after.watched = before.watched.erase path)
      (taken : after.taken = before.taken) : Registers before path answers (.error ex) after

theorem registers_registerPath (server : Server) (path : U16String)
    (answers : ConstructAnswers) :
    Registers (paths server) path answers (server.registerPath path answers).1
      (paths (server.registerPath path answers).2) := by
  obtain ⟨after, registers, found, -⟩ := server.registerPath_spec path answers
  rw [registers]
  have constructs (free : path ∉ (paths server).taken) (found : after.found =
      Function.update server.found path (constructed path answers).2) :
      Registers (paths server) path answers (constructed path answers).1 (paths after) := by
    obtain ⟨watchPoint, built, listening, -⟩ | ⟨ex, built, threw⟩ :=
      constructed_cases path answers
    · rw [built] at found ⊢
      obtain ⟨watched, taken⟩ := entered_of_found found (by simp [listening])
      exact .entered free watched taken
    · rw [built] at found ⊢
      obtain ⟨watched, taken⟩ := removed_of_found found
      exact .failed free threw watched (taken.trans (Finset.erase_eq_of_notMem free))
  cases known : server.found path with
  | none =>
    rw [known] at found
    exact constructs (by simp [mem_taken, known]) found
  | some watchPoint =>
    by_cases finished : watchPoint.status = .finished
    · rw [known, registered, if_pos finished] at found
      have free : path ∉ (paths server).taken := by simp [mem_taken, known, finished]
      simpa only [registered, if_pos finished] using constructs free found
    · rw [known, registered, if_neg finished, ← known, Function.update_eq_self] at found
      simp only [registered, if_neg finished]
      refine .refused (mem_taken.mpr ⟨watchPoint, known, finished⟩) ?_ ?_
      · ext other
        rw [mem_watched, mem_watched, found]
      · ext other
        rw [mem_taken, mem_taken, found]

/-! ## Whole calls -/

/-- What is left of a call does what it should. -/
def Ensures (ended : Finset U16String) (before : Paths) (outcome : Outcome) (after : Paths) :
    Progress → Prop
  | .ends result => outcome = result ∧ Finishes ended before after
  | .goesOn (.registerPaths paths) => Performs ended before (.startWatching paths) outcome after
  | .goesOn (.unregisterPaths paths success) =>
    outcome = .ok (success && (eraseAll before.watched paths).1) ∧
      after.watched = (eraseAll before.watched paths).2 ∧
      Loses ended (before.taken \ paths.toFinset) after.taken
  | .goesOn .shutdownRunLoop => outcome = .ok true ∧ Finishes ended before after

theorem Ensures.of_finishes {before middle after : Paths} {outcome : Outcome}
    {progress : Progress} (finishes : Finishes ended before middle)
    (ensures : Ensures ended middle outcome after progress) :
    Ensures ended before outcome after progress := by
  match progress, ensures with
  | .ends _, ⟨same, later⟩ | .goesOn .shutdownRunLoop, ⟨same, later⟩ =>
    exact ⟨same, finishes.trans later⟩
  | .goesOn (.registerPaths _), performs => exact Performs.of_finishes finishes performs
  | .goesOn (.unregisterPaths _ _), ⟨same, watched, taken⟩ =>
    rw [finishes.watched] at same watched
    exact ⟨same, watched, (finishes.taken.sdiff _).trans taken⟩

/-- A part of a call does its part of it. -/
theorem Ensures.of_goOnWhole {answers : ConstructAnswers} {work : Work} {outcome : Outcome}
    {after : Paths}
    (ensures : Ensures ended (paths (work.goOnWhole server answers).2) outcome after
      (work.goOnWhole server answers).1) :
    Ensures ended (paths server) outcome after (.goesOn work) := by
  match work with
  | .shutdownRunLoop =>
    obtain ⟨same, watched, taken⟩ := ensures
    exact ⟨same, watched, taken⟩
  | .registerPaths [] =>
    obtain ⟨rfl, watched, taken⟩ := ensures
    exact .started nofun (by simpa [Work.goOnWhole] using watched)
      (by simpa [Work.goOnWhole] using taken)
  | .registerPaths (path :: rest) =>
    have registers := registers_registerPath server path answers
    rw [Work.goOnWhole] at ensures
    rcases registerPath : server.registerPath path answers with ⟨ex | _, middle⟩
    · rw [registerPath] at ensures registers
      obtain ⟨rfl, finishes⟩ := ensures
      change Performs ended _ (.startWatching ([] ++ path :: rest)) _ _
      cases registers with
      | refused held watched taken =>
        refine .refused nofun (by simpa using held) ?_ ?_
        · simp [finishes.watched, watched]
        · simpa [taken] using finishes.taken
      | failed free threw watched taken =>
        refine .failed nofun (.inr (by simpa using free)) threw ?_ ?_
        · simp [finishes.watched, watched]
        · simpa [taken] using finishes.taken
    · rw [registerPath] at ensures registers
      cases registers with
      | entered free watched taken => exact .cons free watched taken ensures
  | .unregisterPaths [] success =>
    obtain ⟨rfl, watched, taken⟩ := ensures
    exact ⟨by simp, watched, by simpa [Work.goOnWhole] using taken⟩
  | .unregisterPaths (path :: rest) success =>
    obtain ⟨middle, unregisters, found, -⟩ := server.unregisterPath_spec path
    obtain ⟨watched, taken⟩ := removed_of_found found
    rw [Work.goOnWhole, unregisters] at ensures
    obtain ⟨same, watched', taken'⟩ := ensures
    rw [watched] at same watched'
    refine ⟨?_, watched', ?_⟩
    · rw [same, eraseAll, Bool.and_assoc, ← Bool.decide_coe (server.found path).isSome]
      simp only [mem_watched]
    · rwa [List.toFinset_cons, Finset.sdiff_insert, ← Finset.erase_sdiff_comm, ← taken]

end Server

section Session

variable {ended last : Finset U16String} {server after : Server} {history : List Entry}

/-- A call that is run whole does what it should. -/
theorem Runs.ensures {progress : Progress} {outcome : Outcome}
    (run : Runs ended server progress outcome after) :
    Ensures ended (paths server) outcome (paths after) progress := by
  induction run with
  | through => exact ⟨rfl, .refl _ _⟩
  | part answers rest ih => exact ih.of_goOnWhole
  | completion known outstanding onlyEnd rest ih =>
    exact ih.of_finishes (finishes_complete known onlyEnd)

theorem Runs.performs_work {call : Call} {outcome : Outcome}
    (run : Runs ended server (.goesOn call.work) outcome after) :
    Performs ended (paths server) call outcome (paths after) := by
  have ensures := run.ensures
  cases call with
  | startWatching paths => exact ensures
  | stopWatching paths =>
    obtain ⟨rfl, watched, taken⟩ := ensures
    exact .stopped watched taken

theorem Between.finishes (between : Between ended server after) :
    Finishes ended (paths server) (paths after) := by
  induction between with
  | nothing => exact .refl _ _
  | completion known outstanding onlyEnd rest ih =>
    exact (finishes_complete known onlyEnd).trans ih
  | stopWatchingMovedPaths onlyEnd rest ih =>
    exact (finishes_stopWatchingMovedPaths onlyEnd).trans ih

theorem Session.watches (session : Session last server history after) :
    Watches last (paths server) history (paths after) := by
  induction session with
  | nil between => exact .nil between.finishes
  | call between run rest ih => exact .cons (run.performs_work.of_finishes between.finishes) ih

/-- Calls do to the server what they do to the two sets, each up to the watch points that finish
then. A path is watched only if a `startWatching` listed it and no `stopWatching` since, and the
paths of a `startWatching` that returned are watched until then, or until one that throws lists
them. No other `startWatching` that lists one of them returns, as long as its watch point does
not finish and no `stopWatching` lists it. -/
theorem watches_of_calls (session : Session last machine.start.server history server) :
    Watches last .empty history (paths server) ∧
    (∀ path ∈ server.watchPoints, ∃ earlier started later paths,
      history = earlier ++ started :: later ∧ started.call = .startWatching paths ∧
        path ∈ paths ∧ Unstopped path later) ∧
    ∀ earlier started later paths, history = earlier ++ started :: later →
      started.call = .startWatching paths → started.outcome = .ok true → ∀ path ∈ paths,
        (Unbroken path later → path ∈ server.watchPoints) ∧
        ∀ meanwhile other rest others, later = meanwhile ++ other :: rest →
          other.call = .startWatching others → path ∈ others →
            Lasts path (started :: meanwhile ++ [other]) → other.outcome ≠ .ok true := by
  have watches : Watches last .empty history (paths server) := session.watches
  have mem_watchPoints (path : U16String) :
      path ∈ server.watchPoints ↔ path ∈ (paths server).watched := by
    rw [mem_watched, Server.found, AList.lookup_isSome]
  refine ⟨watches, fun path mem => ?_, ?_⟩
  · rcases watches.begun ((mem_watchPoints path).mp mem) with ⟨old, -⟩ | begun
    · cases Finset.notMem_empty path old
    · exact begun
  · rintro earlier ⟨call, outcome, ended⟩ later paths rfl called returned path listed
    obtain rfl : outcome = .ok true := returned
    obtain ⟨_, -, onward⟩ := watches.exists_of_append
    cases onward with
    | cons starts onward =>
      obtain ⟨watched, taken⟩ := starts.mem_of_started called listed
      refine ⟨fun unbroken => (mem_watchPoints path).mpr (onward.mem_watched watched unbroken),
        ?_⟩
      rintro meanwhile other rest others rfl called listed lasts
      obtain ⟨first, lasts⟩ := List.forall_mem_cons.mp lasts
      obtain ⟨between, final⟩ := List.forall_mem_append.mp lasts
      obtain ⟨lasting, unlisted⟩ := final other (List.mem_singleton_self _)
      obtain ⟨_, onward, later⟩ := onward.exists_of_append
      have mem := onward.mem_taken (Finset.notMem_empty path) (taken first.1) between
      cases later with
      | cons performs =>
        exact (performs.mem_taken lasting mem unlisted).2 others called listed

/-- The directory was deleted. -/
def deletedCompletion : Completion :=
  { createdCompletion with errorCode := ERROR_ACCESS_DENIED, attrib := INVALID_FILE_ATTRIBUTES }

/-- A path is registered, refused, and registered once more after its directory was deleted. -/
def deletedHistory : List Entry :=
  [⟨.startWatching [u16 "C:\\a"], .ok true, ∅⟩,
    ⟨.startWatching [u16 "C:\\b", u16 "C:\\a"], .error (alreadyWatchingPath (u16 "C:\\a")), ∅⟩,
    ⟨.startWatching [u16 "C:\\a"], .ok true, {u16 "C:\\a"}⟩,
    ⟨.stopWatching [u16 "C:\\b", u16 "C:\\b"], .ok false, ∅⟩]

theorem exists_session_deletedHistory :
    ∃ server, Session ∅ machine.start.server deletedHistory server :=
  ⟨_, .call .nothing (.part directoryAnswers (.part directoryAnswers .through))
    (.call .nothing (.part directoryAnswers (.part directoryAnswers .through))
    -- The directory is deleted between the second call and the third.
    (.call (@Between.completion _ _ _ (u16 "C:\\a") _ deletedCompletion rfl (by decide)
      (onlyEnd_complete (by simp)) .nothing)
      (.part directoryAnswers (.part directoryAnswers .through))
    (.call .nothing (.part directoryAnswers (.part directoryAnswers (.part directoryAnswers
      .through)))
    (.nil .nothing))))⟩

theorem watches_of_calls_deleted :
    ∃ server, Session ∅ machine.start.server deletedHistory server ∧
      u16 "C:\\a" ∈ server.watchPoints := by
  obtain ⟨server, session⟩ := exists_session_deletedHistory
  obtain ⟨-, -, watched⟩ := watches_of_calls session
  refine ⟨server, session, (watched [_, _] _ [_] [u16 "C:\\a"] rfl rfl rfl _
    List.mem_cons_self).1 ?_⟩
  intro entry mem listed
  obtain rfl := List.mem_singleton.mp mem
  exact absurd listed (by decide)

end Session

end WatchedPaths

end Windows

end FileEvents
