import FileEvents.Linux.BadEvent

/-!
# `stopWatchingMovedPaths` without the mutex

`stopWatchingMovedPaths` looks a watch point up and then works on a reference to it: it
checks the status, reads the path and the inode, and cancels it. It does not take
`mutationMutex`, so the run loop may handle events in between, and the `IN_IGNORED` of that
very watch point erases the entry that the reference leads to. The other functions that work
on `watchPoints` take the mutex.

What a program does with a reference to an erased entry is undefined. Here it gets stuck.

## Main definitions

* `Checks.State`, `Checks.machine` — a server at work beside a client in
  `stopWatchingMovedPaths`, step by step
* `Checks.Undisturbed` — no `IN_IGNORED` of the entry that is worked on is handled

## Main results

* `Checks.live_of_undisturbed` — where such steps lead, every entry that was used was there
* `Checks.stale_of_disturbed` — after any other step the next use is of an erased entry
-/

namespace FileEvents

namespace Linux

open Transition

namespace Checks

/-- Where the client is in `stopWatchingMovedPaths`, with the paths behind. A descriptor
stands for the entry that was looked up. -/
inductive Pc
  /-- Not in `stopWatchingMovedPaths`. -/
  | idle
  | lookup (paths : List U16String)
  | checkStatus (path : U16String) (entry : WatchDescriptor) (paths : List U16String)
  | lstat (path : U16String) (entry : WatchDescriptor) (paths : List U16String)
  /-- About to add the path to `droppedPaths`, and then to cancel the watch point if there is
  one. -/
  | addToList (path : U16String) (entry : Option WatchDescriptor) (paths : List U16String)
  | cancel (path : U16String) (entry : WatchDescriptor) (paths : List U16String)
  /-- An entry was used that was not there any more. -/
  | undefined
  deriving DecidableEq

/-- The entry that is going to be used. -/
def Pc.held : Pc → Option (U16String × WatchDescriptor)
  | .checkStatus path entry _ | .lstat path entry _ | .cancel path entry _
  | .addToList path (some entry) _ => some (path, entry)
  | .idle | .lookup _ | .addToList _ none _ | .undefined => none

/-- A server at work and a client. -/
structure State where
  system : System
  pc : Pc
  droppedPaths : List U16String
  /-- The paths whose entries were used after they had been erased. -/
  stale : List U16String

/-- What can happen next. -/
inductive Label
  /-- Something else, while the client is in `stopWatchingMovedPaths` or not. -/
  | other (label : Linux.Label)
  | call (absolutePathsToCheck : List U16String)
  | lookup
  | checkStatus
  | lstat (answer : Except Errno ℕ)
  | addToList
  | cancel

namespace State

/-- The client makes one call at a time. -/
def Allows (s : State) : Linux.Label → Prop
  | .registerPath .. | .enterWatchPoint | .unregisterPath _ => s.pc = .idle
  -- The call is cut into steps here.
  | .stopWatchingMovedPaths _ => False
  | .kernel _ | .read _ | .handle _ | .shutdown => True

instance (s : State) : DecidablePred s.Allows
  | .registerPath .. | .enterWatchPoint | .unregisterPath _ =>
    inferInstanceAs (Decidable (s.pc = .idle))
  | .stopWatchingMovedPaths _ => instDecidableFalse
  | .kernel _ | .read _ | .handle _ | .shutdown => instDecidableTrue

/-- What the reference that was looked up leads to. -/
def deref (s : State) (path : U16String) (entry : WatchDescriptor) : Option WatchPoint :=
  (s.system.server.watchPoints.lookup path).filter fun watchPoint =>
    watchPoint.watchDescriptor = entry

/-- Goes on with the entry that was looked up. -/
def use (s : State) (path : U16String) (entry : WatchDescriptor) (goOn : WatchPoint → State) :
    State :=
  match s.deref path entry with
  | some watchPoint => goOn watchPoint
  | none => { s with pc := .undefined, stale := s.stale ++ [path] }

/-- `watchPoints.find`, or the end of the loop. -/
def findPath (s : State) : List U16String → State
  | [] =>
    { s with
      pc := .idle
      system := { s.system with stopped := s.droppedPaths ++ s.system.stopped } }
  | path :: paths => match s.system.server.watchPoints.lookup path with
    | none => { s with pc := .addToList path none paths }
    | some watchPoint => { s with pc := .checkStatus path watchPoint.watchDescriptor paths }

/-- The check of the status. -/
def checkStatus (s : State) (path : U16String) (entry : WatchDescriptor)
    (paths : List U16String) (watchPoint : WatchPoint) : State :=
  if watchPoint.status = .listening then { s with pc := .lstat path entry paths }
  else { s with pc := .addToList path none paths }

/-- `lstat` on the path of the watch point and the comparison of the inodes. -/
def compare (s : State) (path : U16String) (entry : WatchDescriptor) (paths : List U16String)
    (answer : Except Errno ℕ) (watchPoint : WatchPoint) : State :=
  match utf16ToUtf8String watchPoint.path with
  -- The exception ends the call.
  | none => { s with pc := .idle }
  | some _ =>
    if answer = .ok watchPoint.inode then { s with pc := .lookup paths }
    else { s with pc := .addToList path (some entry) paths }

/-- `WatchPoint::cancel`. -/
def cancel (s : State) (path : U16String) (paths : List U16String) (watchPoint : WatchPoint) :
    State :=
  match s.system.server.cancelWatchPoint path watchPoint with
  | (.error _, server) => { s with pc := .idle, system := { s.system with server } }
  | (.ok _, server) => { s with pc := .lookup paths, system := { s.system with server } }

/-- The step function. -/
def next (s : State) : Label → Option State
  | .other label =>
    if s.Allows label then (s.system.next label).map fun system => { s with system } else none
  | .call absolutePathsToCheck =>
    if s.pc = .idle ∧ s.system.registering = none then
      some { s with pc := .lookup absolutePathsToCheck, droppedPaths := [] }
    else none
  | .lookup => match s.pc with
    | .lookup paths => some (s.findPath paths)
    | _ => none
  | .checkStatus => match s.pc with
    | .checkStatus path entry paths => some (s.use path entry (s.checkStatus path entry paths))
    | _ => none
  | .lstat answer => match s.pc with
    | .lstat path entry paths => some (s.use path entry (s.compare path entry paths answer))
    | _ => none
  | .addToList => match s.pc with
    | .addToList path none paths =>
      some { s with droppedPaths := s.droppedPaths ++ [path], pc := .lookup paths }
    | .addToList path (some entry) paths =>
      some { s with droppedPaths := s.droppedPaths ++ [path], pc := .cancel path entry paths }
    | _ => none
  | .cancel => match s.pc with
    | .cancel path entry paths => some (s.use path entry (s.cancel path paths))
    | _ => none

end State

/-- A server that was just created. -/
def machine : Machine State Label where
  start := { system := Linux.machine.start, pc := .idle, droppedPaths := [], stale := [] }
  next := State.next

/-- The steps that do something. -/
inductive Steps (s : State) : Label → State → Prop
  | other {label : Linux.Label} {system : System} (allowed : s.Allows label)
      (step : s.system.next label = some system) : Steps s (.other label) { s with system }
  | call {absolutePathsToCheck : List U16String} :
      Steps s (.call absolutePathsToCheck)
        { s with pc := .lookup absolutePathsToCheck, droppedPaths := [] }
  | lookup {paths : List U16String} (pc : s.pc = .lookup paths) :
      Steps s .lookup (s.findPath paths)
  | checkStatus {path : U16String} {entry : WatchDescriptor} {paths : List U16String}
      (pc : s.pc = .checkStatus path entry paths) :
      Steps s .checkStatus (s.use path entry (s.checkStatus path entry paths))
  | lstat {answer : Except Errno ℕ} {path : U16String} {entry : WatchDescriptor}
      {paths : List U16String} (pc : s.pc = .lstat path entry paths) :
      Steps s (.lstat answer) (s.use path entry (s.compare path entry paths answer))
  | skip {path : U16String} {paths : List U16String} (pc : s.pc = .addToList path none paths) :
      Steps s .addToList
        { s with droppedPaths := s.droppedPaths ++ [path], pc := .lookup paths }
  | addToList {path : U16String} {entry : WatchDescriptor} {paths : List U16String}
      (pc : s.pc = .addToList path (some entry) paths) :
      Steps s .addToList
        { s with droppedPaths := s.droppedPaths ++ [path], pc := .cancel path entry paths }
  | cancel {path : U16String} {entry : WatchDescriptor} {paths : List U16String}
      (pc : s.pc = .cancel path entry paths) :
      Steps s .cancel (s.use path entry (s.cancel path paths))

/-- There are no other steps. -/
theorem steps_of_next {s t : State} {label : Label} (step : machine.next s label = some t) :
    Steps s label t := by
  cases label with
  | other label =>
    simp only [machine, State.next] at step
    split_ifs at step with allowed
    obtain ⟨system, inner, rfl⟩ := Option.map_eq_some_iff.mp step
    exact .other allowed inner
  | call absolutePathsToCheck =>
    simp only [machine, State.next] at step
    split_ifs at step
    exact Option.some_inj.mp step ▸ .call
  | lookup =>
    simp only [machine, State.next] at step
    split at step
    next pc => exact Option.some_inj.mp step ▸ .lookup pc
    next => cases step
  | checkStatus =>
    simp only [machine, State.next] at step
    split at step
    next pc => exact Option.some_inj.mp step ▸ .checkStatus pc
    next => cases step
  | lstat answer =>
    simp only [machine, State.next] at step
    split at step
    next pc => exact Option.some_inj.mp step ▸ .lstat pc
    next => cases step
  | addToList =>
    simp only [machine, State.next] at step
    split at step
    -- A path that has not moved is skipped.
    next pc => exact Option.some_inj.mp step ▸ .skip pc
    next pc => exact Option.some_inj.mp step ▸ .addToList pc
    next => cases step
  | cancel =>
    simp only [machine, State.next] at step
    split at step
    next pc => exact Option.some_inj.mp step ▸ .cancel pc
    next => cases step

/-! ## Live entries -/

/-- The entry is in `watchPoints`. -/
def State.Has (s : State) (path : U16String) (entry : WatchDescriptor) : Prop :=
  ∃ watchPoint, s.system.server.watchPoints.lookup path = some watchPoint ∧
    watchPoint.watchDescriptor = entry

/-- The event to be handled is not the end of the watch that is worked on. -/
def Undisturbed (s : State) : Label → Prop
  | .other (.handle _) => ∀ event ∈ s.system.server.buffer.head?,
      event.Concerns event.wd ∧ event.IsIgnored →
        ∀ held ∈ s.pc.held, held.2 ≠ event.wd
  | _ => True

instance (s : State) : DecidablePred (Undisturbed s)
  | .other (.handle _) => inferInstanceAs (Decidable (∀ event ∈ s.system.server.buffer.head?,
      event.Concerns event.wd ∧ event.IsIgnored →
        ∀ held ∈ s.pc.held, held.2 ≠ event.wd))
  | .other (.registerPath ..) | .other .enterWatchPoint | .other (.unregisterPath _)
  | .other (.stopWatchingMovedPaths _) | .other (.kernel _) | .other (.read _)
  | .other .shutdown | .call _ | .lookup | .checkStatus | .lstat _ | .addToList | .cancel =>
    instDecidableTrue

section Live

variable {s t : State} {label : Label} {path : U16String} {entry : WatchDescriptor}
variable {paths : List U16String} {watchPoint : WatchPoint}

theorem State.deref_eq_some (live : s.Has path entry) :
    ∃ watchPoint, s.system.server.watchPoints.lookup path = some watchPoint ∧
      s.deref path entry = some watchPoint := by
  obtain ⟨watchPoint, found, same⟩ := live
  exact ⟨watchPoint, found, by simp [State.deref, found, same]⟩

theorem State.deref_eq_none (gone : path ∉ s.system.server.watchPoints) :
    s.deref path entry = none := by
  simp [State.deref, AList.lookup_eq_none.mpr gone]

/-- Cancelling a watch point keeps the server sound. -/
theorem sound_cancelWatchPoint {server : Server} {registering : Option WatchPoint}
    (sound : Sound server registering)
    (found : server.watchPoints.lookup path = some watchPoint) :
    ∃ result after, server.cancelWatchPoint path watchPoint = (.ok result, after) ∧
      Sound after registering := by
  obtain ⟨result, after, cancelled, spec⟩ := sound.consistent.cancelWatchPoint found
  exact ⟨result, after, cancelled, spec.consistent, sound.streams.of_onlyStops spec.stops⟩

/-- The server stays sound. -/
theorem sound_next (sound : Sound s.system.server s.system.registering)
    (step : machine.next s label = some t) : Sound t.system.server t.system.registering := by
  cases steps_of_next step with
  | other allowed inner => exact sound.next inner
  | call | skip | addToList => exact sound
  | @lookup paths =>
    cases paths with
    | nil => exact sound
    | cons path paths =>
      unfold State.findPath
      dsimp only
      split <;> exact sound
  | checkStatus =>
    unfold State.use
    split
    · unfold State.checkStatus
      split_ifs <;> exact sound
    · exact sound
  | lstat =>
    unfold State.use
    split
    · unfold State.compare
      split
      · exact sound
      · split_ifs <;> exact sound
    · exact sound
  | @cancel path entry paths =>
    unfold State.use
    split
    next watchPoint deref =>
      -- Only here does the loop change the server.
      obtain ⟨found, -⟩ := Option.filter_eq_some_iff.mp deref
      obtain ⟨result, after, cancelled, kept⟩ := sound_cancelWatchPoint sound found
      simp only [State.cancel, cancelled]
      exact kept
    next => exact sound

theorem sound (reach : machine.Reachable s) : Sound s.system.server s.system.registering :=
  reach.invariant (I := fun s => Sound s.system.server s.system.registering) sound_start
    fun _ _ _ h step => sound_next h step

/-- With the entry in the table the client goes on. -/
theorem State.use_of_has (live : s.Has path entry) (goOn : WatchPoint → State) :
    ∃ watchPoint, s.system.server.watchPoints.lookup path = some watchPoint ∧
      s.use path entry goOn = goOn watchPoint := by
  obtain ⟨watchPoint, found, deref⟩ := State.deref_eq_some live
  exact ⟨watchPoint, found, by simp only [State.use, deref]⟩

/-- Only the end of its watch takes an entry out of the table while the client is in
`stopWatchingMovedPaths`. -/
theorem has_of_other {inner : Linux.Label} {system : System}
    (sound : Sound s.system.server s.system.registering) (allowed : s.Allows inner)
    (undisturbed : Undisturbed s (.other inner)) (held : s.pc.held = some (path, entry))
    (live : s.Has path entry) (step : s.system.next inner = some system) :
    { s with system }.Has path entry := by
  have busy : s.pc ≠ .idle := by
    intro idle
    rw [idle] at held
    cases held
  cases inner with
  | registerPath | enterWatchPoint | unregisterPath => exact absurd allowed busy
  | stopWatchingMovedPaths => exact allowed.elim
  | kernel kernelStep =>
    obtain ⟨inotify, -, rfl⟩ := Option.map_eq_some_iff.mp step
    exact live
  | read count =>
    obtain ⟨-, -, -, rfl⟩ := System.read_spec step
    exact live
  | shutdown =>
    obtain ⟨-, rfl⟩ := System.shutdown_spec step
    exact live
  | handle order =>
    obtain ⟨event, buffer, -, next, ⟨ex, -, rfl⟩ | ⟨server, reports, handled, rfl⟩⟩ :=
      System.handled_cases step
    · exact live
    · -- The event may be the end of a watch, which erases an entry.
      have kept : ∃ watchPoint, server.watchPoints.lookup path = some watchPoint ∧
          watchPoint.watchDescriptor = entry := by
        by_cases ends : event.Concerns event.wd ∧ event.IsIgnored
        · -- It is the end of another watch, whose entry is another one.
          obtain ⟨rfl, -⟩ := Server.handleEvent_ignored ends.1 ends.2 handled
          obtain ⟨watchPoint, found, rfl⟩ := live
          have consistent : Consistent { s.system.server with buffer } s.system.registering :=
            sound.consistent.congr rfl rfl
          have other : watchPoint.watchDescriptor ≠ event.wd :=
            undisturbed event (by simp [next]) ends _ held
          have stays : path ∈ ({ s.system.server with buffer }.finish event.wd).watchPoints := by
            by_contra removed
            exact other (consistent.eq_of_not_mem_finish found removed)
          obtain ⟨watchPoint', found'⟩ := mem_iff_lookup.mp stays
          have before := (consistent.survives_finish found').1
          obtain rfl := Option.some_inj.mp (found.symm.trans before)
          exact ⟨watchPoint, found', rfl⟩
        · obtain rfl := Server.handleEvent_other ends handled
          exact live
      obtain ⟨watchPoint, found, same⟩ := kept
      refine ⟨watchPoint, ?_, same⟩
      dsimp only
      split_ifs <;> exact found

/-- The entry that is worked on is in the table, and so were all those that were used. -/
structure Live (s : State) : Prop where
  held : ∀ path entry, s.pc.held = some (path, entry) → s.Has path entry
  stale : s.stale = []

theorem Live.next (live : Live s) (sound : Sound s.system.server s.system.registering)
    (undisturbed : Undisturbed s label) (step : machine.next s label = some t) : Live t := by
  obtain ⟨held, stale⟩ := live
  cases steps_of_next step with
  -- Only what others do may take the entry away.
  | other allowed inner =>
    refine ⟨fun path entry here => ?_, stale⟩
    exact has_of_other sound allowed undisturbed here (held path entry here) inner
  | call | skip => exact ⟨by simp [Pc.held], stale⟩
  | addToList pc =>
    refine ⟨fun path entry here => held path entry ?_, stale⟩
    rw [pc]
    exact here
  -- An entry is looked up: it is in the table.
  | @lookup paths =>
    cases paths with
    | nil => exact ⟨by simp [State.findPath, Pc.held], stale⟩
    | cons path paths =>
      unfold State.findPath
      dsimp only
      split
      next => exact ⟨by simp [Pc.held], stale⟩
      next watchPoint found =>
        refine ⟨fun path' entry here => ?_, stale⟩
        obtain ⟨rfl, rfl⟩ := Prod.mk.inj (Option.some_inj.mp here)
        exact ⟨watchPoint, found, rfl⟩
  | @checkStatus path entry paths pc =>
    have here : s.Has path entry := held path entry (by rw [pc]; rfl)
    obtain ⟨watchPoint, -, goesOn⟩ := State.use_of_has here (s.checkStatus path entry paths)
    rw [goesOn]
    unfold State.checkStatus
    split_ifs
    · refine ⟨fun path' entry' same => ?_, stale⟩
      obtain ⟨rfl, rfl⟩ := Prod.mk.inj (Option.some_inj.mp same)
      exact here
    · exact ⟨by simp [Pc.held], stale⟩
  | @lstat answer path entry paths pc =>
    have here : s.Has path entry := held path entry (by rw [pc]; rfl)
    obtain ⟨watchPoint, -, goesOn⟩ := State.use_of_has here (s.compare path entry paths answer)
    rw [goesOn]
    unfold State.compare
    split
    next => exact ⟨by simp [Pc.held], stale⟩
    next =>
      split_ifs
      · exact ⟨by simp [Pc.held], stale⟩
      · refine ⟨fun path' entry' same => ?_, stale⟩
        obtain ⟨rfl, rfl⟩ := Prod.mk.inj (Option.some_inj.mp same)
        exact here
  | @cancel path entry paths pc =>
    have here : s.Has path entry := held path entry (by rw [pc]; rfl)
    obtain ⟨watchPoint, -, goesOn⟩ := State.use_of_has here (s.cancel path paths)
    rw [goesOn]
    unfold State.cancel
    split
    · exact ⟨by simp [Pc.held], stale⟩
    · exact ⟨by simp [Pc.held], stale⟩

/-- As long as the run loop handles no end of the watch that `stopWatchingMovedPaths` works
on, the entry that was looked up is in `watchPoints` whenever it is used. -/
theorem live_of_undisturbed (s : State) (reach : machine.ReachableWhere Undisturbed s) :
    Live s := by
  refine reach.invariant_of (J := fun s => Sound s.system.server s.system.registering) ?_ ?_ ?_
  · exact fun s reach => sound reach.reachable
  · constructor <;> simp [machine, Pc.held]
  · exact fun s label t sound live undisturbed => live.next sound undisturbed

/-- A directory is registered. -/
def registration : List Label :=
  [.other (.registerPath (u16 "/a") { lstat := .ok 7, addWatch := .ok ⟨1, 7⟩, fresh := 1 }),
    .other .enterWatchPoint]

/-- It is deleted and then checked, and the end of its watch is handled afterwards. -/
def undisturbedRun : List Label :=
  registration ++
    [.other (.kernel (.remove 1 IN_DELETE_SELF)), .call [u16 "/a"], .lookup,
      .other (.read 2), .other (.handle [u16 "/a"]), .checkStatus, .lstat (.error 2), .addToList,
      .cancel, .other (.handle [u16 "/a"]), .lookup]

theorem live_of_undisturbed_deleted :
    ∃ s, machine.ReachableWhere Undisturbed s ∧ s.droppedPaths = [u16 "/a"] ∧
      s.system.server.watchPoints.keys = [] ∧ Live s := by
  have computed : (machine.execWhere Undisturbed machine.start undisturbedRun).map (fun s =>
      (s.droppedPaths, s.system.server.watchPoints.keys)) = some ([u16 "/a"], []) := by decide
  obtain ⟨s, reach, observed⟩ := Machine.observe_of_execWhere computed
  obtain ⟨dropped, none⟩ := Prod.mk.inj observed
  exact ⟨s, reach, dropped, none, live_of_undisturbed s reach⟩

/-- The end of its watch is handled between the lookup and the check of the status. -/
def disturbedRun : List Label :=
  registration ++
    [.other (.kernel (.remove 1 IN_DELETE_SELF)), .other (.read 2), .call [u16 "/a"], .lookup,
      .other (.handle [u16 "/a"]), .other (.handle [u16 "/a"]), .checkStatus]

/-- `stopWatchingMovedPaths` may use an entry that is not there any more. -/
theorem not_forall_live : ¬ ∀ s, machine.Reachable s → Live s := by
  intro always
  have computed : (machine.exec machine.start disturbedRun).map State.stale =
    some [u16 "/a"] := by decide
  obtain ⟨s, reach, stale⟩ := Machine.observe_of_exec computed
  rw [(always s reach).stale] at stale
  cases stale

/-! ## Disturbed steps -/

/-- The next use of an entry that was erased is stale. -/
theorem State.stale_use (gone : path ∉ s.system.server.watchPoints) (goOn : WatchPoint → State) :
    (s.use path entry goOn).stale = s.stale ++ [path] := by
  simp [State.use, State.deref_eq_none gone]

theorem stale_of_use (gone : path ∉ s.system.server.watchPoints) {goOn : WatchPoint → State}
    (use : machine.next s label = some (s.use path entry goOn)) :
    ∃ labels t, Machine.Run machine (fun _ _ => True) s labels t ∧ t.stale = s.stale ++ [path] :=
  ⟨[label], _, .single trivial use, State.stale_use gone goOn⟩

/-- From where an entry is worked on, the client gets to its next use. -/
theorem stale_of_gone (held : s.pc.held = some (path, entry))
    (gone : path ∉ s.system.server.watchPoints) :
    ∃ labels t, Machine.Run machine (fun _ _ => True) s labels t ∧
      t.stale = s.stale ++ [path] := by
  cases pc : s.pc with
  | idle | lookup | undefined =>
    rw [pc] at held
    cases held
  | checkStatus path' entry' paths =>
    rw [pc] at held
    obtain ⟨rfl, rfl⟩ := Prod.mk.inj (Option.some_inj.mp held)
    have use : machine.next s .checkStatus =
        some (s.use path' entry' (s.checkStatus path' entry' paths)) := by
      simp only [machine, State.next, pc]
    exact stale_of_use gone use
  | lstat path' entry' paths =>
    rw [pc] at held
    obtain ⟨rfl, rfl⟩ := Prod.mk.inj (Option.some_inj.mp held)
    have use : machine.next s (.lstat (.ok 0)) =
        some (s.use path' entry' (s.compare path' entry' paths (.ok 0))) := by
      simp only [machine, State.next, pc]
    exact stale_of_use gone use
  | cancel path' entry' paths =>
    rw [pc] at held
    obtain ⟨rfl, rfl⟩ := Prod.mk.inj (Option.some_inj.mp held)
    have use : machine.next s .cancel =
        some (s.use path' entry' (s.cancel path' paths)) := by
      simp only [machine, State.next, pc]
    exact stale_of_use gone use
  | addToList path' entry' paths =>
    cases entry' with
    | none =>
      rw [pc] at held
      cases held
    | some entry' =>
      rw [pc] at held
      obtain ⟨rfl, rfl⟩ := Prod.mk.inj (Option.some_inj.mp held)
      -- The path is added to the list first. The entry is used when it is cancelled.
      let added : State :=
        { s with droppedPaths := s.droppedPaths ++ [path'], pc := .cancel path' entry' paths }
      have first : machine.next s .addToList = some added := by
        simp only [machine, State.next, pc]
        rfl
      have second : machine.next added .cancel =
          some (added.use path' entry' (added.cancel path' paths)) := rfl
      exact ⟨[.addToList, .cancel], _, .cons trivial first (.single trivial second),
        State.stale_use (s := added) gone _⟩

/-- After a step that does not meet the condition, the client gets to a stale use by
itself. -/
theorem stale_of_disturbed (reach : machine.ReachableWhere Undisturbed s)
    (disturbed : ¬ Undisturbed s label) (step : machine.next s label = some t) :
    ∃ labels u, Machine.Run machine (fun _ _ => True) t labels u ∧ u.stale ≠ [] := by
  have live := live_of_undisturbed s reach
  have sound := sound reach.reachable
  cases steps_of_next step with
  | @other inner system allowed inner' =>
    cases inner with
    | handle order =>
      obtain ⟨event, buffer, -, next, handled⟩ := System.handled_cases inner'
      simp only [Undisturbed, not_forall] at disturbed
      obtain ⟨event', first, ends, ⟨path, entry⟩, held, here⟩ := disturbed
      obtain rfl : event = event' := by simpa [next] using first
      obtain rfl : entry = event.wd := not_not.mp here
      -- The entry has the descriptor whose end is handled.
      obtain ⟨watchPoint, found, same⟩ := live.held path event.wd held
      have inverse : Server.Inverse { s.system.server with buffer } := sound.consistent.roots
      have root : s.system.server.watchRoots.lookup event.wd = some path :=
        (inverse event.wd path).mpr ⟨watchPoint, found, same⟩
      have gone : path ∉ system.server.watchPoints := by
        rcases handled with ⟨ex, thrown, -⟩ | ⟨server, reports, handled, rfl⟩
        · have bad := (inverse.handleEvent_error_iff order).mp ⟨ex, thrown⟩
          have last := ends.2.1
          rw [bad.2.2.1] at last
          cases last
        · obtain ⟨rfl, -⟩ := Server.handleEvent_ignored ends.1 ends.2 handled
          simp [ends, Server.finish, root]
      obtain ⟨labels, u, run, stale⟩ := stale_of_gone (s := { s with system }) held gone
      exact ⟨labels, u, run, by simp [stale]⟩
    | _ => exact absurd trivial disturbed
  | _ => exact absurd trivial disturbed

end Live

end Checks

end Linux

end FileEvents
