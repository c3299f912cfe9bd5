import FileEvents.Linux.MovedPaths
import FileEvents.Paths.Walk

/-!
# Directories that are moved

The Linux server on a file system that anybody may change at any time, also between the `lstat`
and the `inotify_add_watch` of a `registerPath`. `lstat` does not follow a link at the end of the
path, `inotify_add_watch` does, and of what `lstat` finds only the inode number is kept.

A call of `stopWatchingMovedPaths` on several paths is one step for each of them. That the kernel
removes the watch of a directory that is deleted is a step of its own. The record beside the
server keeps which directory the last `inotify_add_watch` for a path has found.

## Main definitions

* `FileSystem.locate`, `FileSystem.lstat`, `FileSystem.inotifyAddWatch` — the system calls
* `Hosted.machine` — the server, the kernel and the file system
* `Hosted.Detects` — a path that is kept is watched where it leads
* `Hosted.Unmoved` — what the inode number does not tell

## Main results

* `Hosted.detects_iff` — a path that is kept is watched where it leads exactly if it is unmoved
-/

namespace FileEvents

open Paths Transition

namespace Linux

/-! ## The file system -/

/-- How many links the kernel follows on a path. -/
def MAXSYMLINKS : ℕ := 40

/-- `ENOENT`. -/
def ENOENT : Errno := 2

/-- `ENOTDIR`. -/
def ENOTDIR : Errno := 20

/-- The byte between two components. -/
def slash : UInt8 := 0x2F

/-- What a name on a path stands for. -/
def component (name : ByteString) : Component ByteString :=
  if name = [0x2E] then .here else if name = [0x2E, 0x2E] then .up else .name name

/-- The path in a C string, which ends at the first zero byte. The empty path leads nowhere. -/
def pathname (pathNarrow : ByteString) : Option (Route ByteString) :=
  let bytes := pathNarrow.takeWhile fun byte => byte ≠ 0
  let names := (bytes.splitOn slash).filter fun name => name ≠ []
  if bytes = [] then none
  else some
    { absolute := bytes.head? = some slash
      components :=
        -- A trailing slash asks for a directory.
        names.map component ++ if bytes.getLast? = some slash then [.here] else [] }

/-- Files, directories and links, by device and inode. -/
abbrev FileSystem := Paths.FileSystem ByteString FileObject

namespace FileSystem

/-- What the path leads to. -/
def locate (fileSystem : FileSystem) (follow : Bool) (path : U16String) : Option FileObject :=
  ((utf16ToUtf8String path).bind pathname).bind (fileSystem.find follow MAXSYMLINKS)

/-- `st_ino` as `lstat` returns it. The call may fail for another reason than the path. -/
def lstat (fileSystem : FileSystem) (path : U16String) (errno : Option Errno) : Except Errno ℕ :=
  match errno, fileSystem.locate false path with
  | some errno, _ => .error errno
  -- Whatever is wrong with the path.
  | none, none => .error ENOENT
  | none, some object => .ok object.ino

/-- The object `inotify_add_watch` finds. The mask has `IN_ONLYDIR`. -/
def inotifyAddWatch (fileSystem : FileSystem) (path : U16String) (errno : Option Errno) :
    Except Errno FileObject :=
  match errno, fileSystem.locate true path with
  | some errno, _ => .error errno
  | none, none => .error ENOENT
  | none, some object => if fileSystem.isDirectory object then .ok object else .error ENOTDIR

variable {fileSystem : FileSystem} {path : U16String} {object : FileObject} {inode : ℕ}
variable {errno : Option Errno}

/-- What is not a link is found whether or not links are followed. -/
theorem locate_follow (direct : fileSystem.isLink object = false)
    (found : fileSystem.locate false path = some object) :
    fileSystem.locate true path = some object := by
  obtain ⟨route, read, found⟩ := Option.bind_eq_some_iff.mp found
  exact Option.bind_eq_some_iff.mpr ⟨route, read, Paths.FileSystem.find_follow direct found⟩

/-- `lstat` succeeds with what the path leads to itself. -/
theorem lstat_eq_ok_iff : fileSystem.lstat path errno = .ok inode ↔
    errno = none ∧ ∃ object, fileSystem.locate false path = some object ∧ object.ino = inode := by
  unfold lstat
  split
  next errno => simp
  next absent => simp [absent]
  next object found => simp [found]

end FileSystem

/-! ## The server on the file system -/

/-- A server at work and the file system it works on. -/
structure Hosted where
  system : System
  fileSystem : FileSystem
  /-- The path of a `registerPath` that has called `lstat`, with the answer. -/
  statted : Option (U16String × Except Errno ℕ)
  /-- The directory that the last `inotify_add_watch` for a path has found. Nothing reads it. -/
  targets : U16String → Option FileObject

/-- What can happen next. -/
inductive Action
  /-- Objects are created, removed, renamed or mounted. -/
  | change (fileSystem : FileSystem)
  /-- `registerPath` up to `lstat`. -/
  | lstat (path : U16String) (errno : Option Errno)
  /-- `registerPath` up to `inotify_add_watch`. -/
  | inotifyAddWatch (errno : Option Errno) (fresh : WatchDescriptor)
  | stopWatchingMovedPath (path : U16String) (errno : Option Errno)
  /-- Anything else that the server or the kernel does. -/
  | other (label : Label)

/-- The step needs `mutationMutex`. -/
def Label.locks : Label → Bool
  | .registerPath .. | .enterWatchPoint | .unregisterPath _ | .handle _ => true
  | .stopWatchingMovedPaths _ | .kernel _ | .read _ | .shutdown => false

/-- The step asks the file system. -/
def Label.asks : Label → Bool
  | .registerPath .. | .stopWatchingMovedPaths _ => true
  | .enterWatchPoint | .unregisterPath _ | .kernel _ | .read _ | .handle _ | .shutdown => false

namespace Hosted

/-- `inotify_add_watch` has returned, or `registerPath` has thrown. -/
def grant (s : Hosted) (path : U16String) (addWatch : Except Errno FileObject)
    (system : System) : Hosted :=
  { s with
    system
    statted := none
    targets :=
      if system.registering.isSome then Function.update s.targets path addWatch.toOption
      else s.targets }

/-- The step function. -/
def next (s : Hosted) : Action → Option Hosted
  | .change fileSystem => some { s with fileSystem }
  | .lstat path errno =>
    if s.statted.isNone ∧ s.system.registering = none then
      some { s with statted := some (path, s.fileSystem.lstat path errno) }
    else none
  | .inotifyAddWatch errno fresh => s.statted.bind fun (path, lstat) =>
      let addWatch := s.fileSystem.inotifyAddWatch path errno
      (s.system.next (.registerPath path { lstat, addWatch, fresh })).map (s.grant path addWatch)
  | .stopWatchingMovedPath path errno =>
    (s.system.next (.stopWatchingMovedPaths [(path, s.fileSystem.lstat path errno)])).map
      fun system => { s with system }
  -- Nothing that needs the mutex comes between the two halves of a `registerPath`.
  | .other label =>
    if label.asks ∨ (label.locks ∧ s.statted.isSome) then none
    else (s.system.next label).map fun system => { s with system }

/-- A server that was just created on a file system. -/
def machine (fileSystem : FileSystem) : Machine Hosted Action where
  start :=
    { system := Linux.machine.start
      fileSystem
      statted := none
      targets := fun _ => none }
  next := next

/-! ## What is claimed of a path -/

/-- If the path listens and a call of `stopWatchingMovedPaths` does not drop it now, its
descriptor watches the directory that the path leads to. -/
def Detects (s : Hosted) (path : U16String) : Prop :=
  ∀ watchPoint, s.system.server.watchPoints.lookup path = some watchPoint →
    watchPoint.status = .listening →
    ∀ errno, (s.system.server.stopWatchingMovedPath path (s.fileSystem.lstat path errno)).1 =
        .ok false →
      ∃ directory, s.system.server.inotify.active.lookup watchPoint.watchDescriptor =
          some directory ∧ s.fileSystem.locate true path = some directory

/-- Where an object with the inode number of the registration is found under the path, the
watch was not removed and the rest is as it was when `inotify_add_watch` was called: if the
object is a link, it leads to the same directory; otherwise the inode number was that of the
directory, and the device is the same. -/
def Unmoved (s : Hosted) (path : U16String) : Prop :=
  ∀ watchPoint, s.system.server.watchPoints.lookup path = some watchPoint →
    watchPoint.status = .listening →
    ∀ object, s.fileSystem.locate false path = some object → object.ino = watchPoint.inode →
      watchPoint.watchDescriptor ∈ s.system.server.inotify.active ∧
        ∃ directory, s.targets path = some directory ∧
          if s.fileSystem.isLink object then s.fileSystem.locate true path = some directory
          else directory.ino = watchPoint.inode ∧ directory.dev = object.dev

end Hosted

/-! ## Where the watches are -/

/-- The watches that are left were there before. -/
def Shrinks (before after : Inotify) : Prop :=
  ∀ wd object, after.active.lookup wd = some object → before.active.lookup wd = some object

section Shrinks

variable {before after : Inotify} {server server' : Server}

theorem Shrinks.refl (inotify : Inotify) : Shrinks inotify inotify := fun _ _ watched => watched

theorem Shrinks.retire (inotify : Inotify) (wd : WatchDescriptor) :
    Shrinks inotify (inotify.retire wd) := by
  intro other object watched
  rw [Inotify.active_retire, lookup_erase_eq] at watched
  split_ifs at watched
  exact watched

theorem Shrinks.step {kind : Inotify.Step} (taken : before.step kind = some after) :
    Shrinks before after := by
  obtain ⟨wd, mask, name, -, -, -, -, rfl⟩ | ⟨wd, mask, -, -, -, -, rfl⟩ | ⟨-, rfl⟩ |
    ⟨index, -, rfl⟩ := Inotify.step_cases taken
  · exact .refl before
  · exact Shrinks.retire (before.push { wd, mask, name := [] }) wd
  · exact .refl before
  · exact .refl before

theorem OnlyStops.shrinks (only : OnlyStops server server') :
    Shrinks server.inotify server'.inotify :=
  only.retires.invariant (I := Shrinks server.inotify) (.refl _)
    fun inotify wd _ shrinks other object watched =>
      shrinks other object (Shrinks.retire inotify wd other object watched)

theorem Server.inotify_handleEvent {event : InotifyEvent} {order : List U16String}
    {reports : List Report} (handled : server.handleEvent event order = .ok (server', reports)) :
    server'.inotify = server.inotify := by
  by_cases ends : event.Concerns event.wd ∧ event.IsIgnored
  · obtain ⟨rfl, -⟩ := Server.handleEvent_ignored ends.1 ends.2 handled
    unfold Server.finish
    split <;> rfl
  · rw [Server.handleEvent_other ends handled]

end Shrinks

/-- The watch of the watch point, if it is still there, is on the directory that was found for
the path. -/
def Follows (targets : U16String → Option FileObject) (inotify : Inotify)
    (watchPoint : WatchPoint) : Prop :=
  ∃ directory, targets watchPoint.path = some directory ∧
    ∀ object, inotify.active.lookup watchPoint.watchDescriptor = some object → object = directory

/-- The watch points follow, and so does the one to be entered. -/
structure Placed (targets : U16String → Option FileObject) (s : System) : Prop where
  entered : Every s.server.watchPoints (Follows targets s.server.inotify)
  entering : ∀ watchPoint ∈ s.registering, Follows targets s.server.inotify watchPoint

section Placed

variable {targets : U16String → Option FileObject} {inotify inotify' : Inotify} {s t : System}
variable {watchPoint : WatchPoint} {label : Label} {path : U16String} {answers : RegisterAnswers}

theorem Follows.shrink (follows : Follows targets inotify watchPoint)
    (shrinks : Shrinks inotify inotify') : Follows targets inotify' watchPoint := by
  obtain ⟨directory, target, same⟩ := follows
  exact ⟨directory, target, fun object watched => same object (shrinks _ object watched)⟩

/-- Only `registerPath` puts a watch on anything. -/
theorem System.shrinks_of_next (sound : Sound s.server s.registering)
    (step : s.next label = some t) (other : ∀ path answers, label ≠ .registerPath path answers) :
    Shrinks s.server.inotify t.server.inotify := by
  cases label with
  | registerPath path answers => exact absurd rfl (other path answers)
  | enterWatchPoint =>
    obtain ⟨watchPoint, -, ⟨-, rfl⟩ | ⟨server, entered, rfl⟩⟩ := System.enterWatchPoint_spec step
    · exact .refl _
    · obtain ⟨-, rfl⟩ := Server.enterWatchPoint_spec entered
      exact .refl _
  | unregisterPath path =>
    obtain ⟨idle, stopped, -, rfl⟩ := System.unregisterPath_spec step
    obtain ⟨-, only⟩ := (idle ▸ sound.consistent : Consistent s.server none).unregisterPath path
    exact only.shrinks
  | stopWatchingMovedPaths absolutePathsToCheck =>
    obtain ⟨stopped, -, rfl⟩ := System.stopWatchingMovedPaths_spec step
    obtain ⟨-, only, -⟩ := sound.consistent.stopWatchingMovedPaths absolutePathsToCheck
    exact only.shrinks
  | kernel kind =>
    obtain ⟨inotify, taken, rfl⟩ := Option.map_eq_some_iff.mp step
    exact .step taken
  | read count =>
    obtain ⟨-, -, -, rfl⟩ := System.read_spec step
    exact .refl _
  | handle order =>
    obtain ⟨event, buffer, -, -, ⟨ex, -, rfl⟩ | ⟨server, reports, handled, rfl⟩⟩ :=
      System.handled_cases step
    · exact .refl _
    · -- The tables change, but the watches do not.
      have same := Server.inotify_handleEvent handled
      dsimp only at same ⊢
      split_ifs <;> exact same ▸ .refl _
  | shutdown =>
    obtain ⟨-, rfl⟩ := System.shutdown_spec step
    exact .refl _

/-- `inotify_add_watch` finds the directory of the watch point it is called for. The other watch
points have other paths and other descriptors. -/
theorem Placed.register (placed : Placed targets s) (sound : Sound s.server s.registering)
    (step : s.next (.registerPath path answers) = some t) :
    Placed (if t.registering.isSome then Function.update targets path answers.addWatch.toOption
      else targets) t := by
  obtain ⟨idle, granted, rfl | ⟨watchPoint, inotify, begun, rfl⟩⟩ := System.registerPath_spec step
  · -- `registerPath` has thrown.
    rwa [idle, if_neg (by simp)]
  obtain ⟨object, answer, added, rfl, -, absent⟩ := Server.beginRegisterPath_spec begun
  have watched := Inotify.lookup_addWatch added
  rw [if_pos (by simp), answer]
  constructor
  case entered =>
    intro other found' found
    obtain ⟨directory, target, same⟩ := placed.entered other found' found
    have path := sound.consistent.paths other found' found
    refine ⟨directory, ?_, fun object' watched' => same object' ?_⟩
    · -- The path that is registered had no watch point.
      rwa [Function.update_of_ne]
      rintro here
      exact absent (mem_iff_lookup.mpr ⟨found', here ▸ path.symm ▸ found⟩)
    · -- The descriptor that was granted is not that of another watch point.
      rcases Inotify.addWatch_spec added with ⟨-, rfl⟩ | ⟨-, -, rfl⟩
      · exact watched'
      · exact (AList.lookup_insert_ne (sound.consistent.ne_of_canGrant found granted)).symm.trans
          watched'
  case entering =>
    intro other same
    obtain rfl := Option.some_inj.mp same
    refine ⟨object, by simp [Except.toOption], fun object' watched' => ?_⟩
    exact Option.some_inj.mp (watched'.symm.trans watched)

theorem Placed.next (placed : Placed targets s) (sound : Sound s.server s.registering)
    (step : s.next label = some t) (other : ∀ path answers, label ≠ .registerPath path answers) :
    Placed targets t := by
  have shrinks := System.shrinks_of_next sound step other
  constructor
  · have entered := System.every_next (fun _ => id) placed.entered placed.entering step
    exact fun path watchPoint found => (entered path watchPoint found).shrink shrinks
  · intro watchPoint registering
    rcases System.registering_of_next step registering with before | ⟨path, answers, -, same, -⟩
    · exact (placed.entering watchPoint before).shrink shrinks
    · exact absurd same (other path answers)

end Placed

/-! ## Reachable states -/

namespace Hosted

variable {fileSystem : FileSystem} {s t : Hosted} {action : Action} {path : U16String}

/-- What a step does to the server. -/
theorem next_cases (step : s.next action = some t) :
    (t.system = s.system ∧ t.targets = s.targets) ∨
      (∃ path answers, s.system.next (.registerPath path answers) = some t.system ∧
        t.targets = if t.system.registering.isSome then
          Function.update s.targets path answers.addWatch.toOption else s.targets) ∨
      ∃ label, (∀ path answers, label ≠ .registerPath path answers) ∧
        s.system.next label = some t.system ∧ t.targets = s.targets := by
  cases action with
  | change fileSystem =>
    obtain rfl := Option.some_inj.mp step
    exact .inl ⟨rfl, rfl⟩
  | lstat path errno =>
    simp only [next] at step
    split_ifs at step
    obtain rfl := Option.some_inj.mp step
    exact .inl ⟨rfl, rfl⟩
  | inotifyAddWatch errno fresh =>
    obtain ⟨⟨path, lstat⟩, -, granted⟩ := Option.bind_eq_some_iff.mp step
    obtain ⟨system, inner, rfl⟩ := Option.map_eq_some_iff.mp granted
    -- The path leads to the object of the descriptor that was granted.
    exact .inr (.inl ⟨path, _, inner, rfl⟩)
  | stopWatchingMovedPath path errno =>
    simp only [next] at step
    obtain ⟨system, inner, rfl⟩ := Option.map_eq_some_iff.mp step
    exact .inr (.inr ⟨_, by simp, inner, rfl⟩)
  | other label =>
    simp only [next] at step
    split_ifs at step with refused
    obtain ⟨system, inner, rfl⟩ := Option.map_eq_some_iff.mp step
    refine .inr (.inr ⟨label, ?_, inner, rfl⟩)
    rintro path answers rfl
    exact refused (.inl rfl)

/-- The server does what it does in any run. -/
theorem reachable_system (reach : (machine fileSystem).Reachable s) :
    Linux.machine.Reachable s.system := by
  refine reach.map system rfl ?_
  intro s action t _ step
  rcases next_cases step with ⟨same, -⟩ | ⟨path, answers, inner, -⟩ | ⟨label, -, inner, -⟩
  · exact .inl same
  · exact .inr ⟨.registerPath path answers, trivial, inner⟩
  · exact .inr ⟨label, trivial, inner⟩

/-- The watches are where they were put. -/
theorem placed (reach : (machine fileSystem).Reachable s) : Placed s.targets s.system := by
  refine reach.invariant_of (I := fun s : Hosted => Placed s.targets s.system)
    (J := fun s : Hosted => Sound s.system.server s.system.registering)
    (fun s reach => sound (reachable_system reach)) ⟨?_, ?_⟩ ?_
  · intro path watchPoint found
    cases found
  · simp [machine, Linux.machine]
  · intro s action t sound placed _ step
    rcases next_cases step with ⟨same, targets⟩ | ⟨path, answers, inner, targets⟩ |
      ⟨label, other, inner, targets⟩
    · rwa [same, targets]
    · exact targets ▸ placed.register sound inner
    · exact targets ▸ placed.next sound inner other

/-- A listening path is kept if an object with its inode number is found. -/
theorem kept_iff (named : s.system.server.Named) {watchPoint : WatchPoint}
    (found : s.system.server.watchPoints.lookup path = some watchPoint)
    (listens : watchPoint.status = .listening) {errno : Option Errno} :
    (s.system.server.stopWatchingMovedPath path (s.fileSystem.lstat path errno)).1 = .ok false ↔
      errno = none ∧ ∃ object, s.fileSystem.locate false path = some object ∧
        object.ino = watchPoint.inode := by
  obtain ⟨after, result, -⟩ :=
    Server.stopWatchingMovedPath_spec (fun _ => s.fileSystem.lstat path errno) named path
  rw [result, ← FileSystem.lstat_eq_ok_iff]
  rw [Except.ok.injEq, decide_eq_false_iff_not]
  constructor
  · intro stays
    by_contra gone
    refine stays fun other found' _ => ?_
    exact Option.some_inj.mp (found.symm.trans found') ▸ gone
  · exact fun unmoved moved => moved watchPoint found listens unmoved

/-- In every reachable state a path is detected if and only if it is unmoved. -/
theorem detects_iff (reach : (machine fileSystem).Reachable s) (path : U16String) :
    s.Detects path ↔ s.Unmoved path := by
  have named := named (reachable_system reach)
  constructor
  · intro detects watchPoint found listens object located inode
    obtain ⟨directory, target, same⟩ := (placed reach).entered path watchPoint found
    rw [(named path watchPoint found).1] at target
    obtain ⟨watched, active, leads⟩ := detects watchPoint found listens none
      ((kept_iff named found listens).mpr ⟨rfl, object, located, inode⟩)
    -- The watch is on the directory that `inotify_add_watch` has found.
    obtain rfl := same watched active
    refine ⟨mem_iff_lookup.mpr ⟨watched, active⟩, watched, target, ?_⟩
    split_ifs with link
    · exact leads
    · -- The path leads to what `lstat` finds.
      have direct := FileSystem.locate_follow (Bool.eq_false_iff.mpr link) located
      obtain rfl := Option.some_inj.mp (leads.symm.trans direct)
      exact ⟨inode, rfl⟩
  · intro unmoved watchPoint found listens errno kept
    obtain ⟨-, object, located, inode⟩ := (kept_iff named found listens).mp kept
    obtain ⟨active, directory, target, rest⟩ :=
      unmoved watchPoint found listens object located inode
    obtain ⟨followed, target', same⟩ := (placed reach).entered path watchPoint found
    rw [(named path watchPoint found).1] at target'
    obtain rfl := Option.some_inj.mp (target.symm.trans target')
    obtain ⟨watched, active⟩ := mem_iff_lookup.mp active
    obtain rfl := same watched active
    refine ⟨watched, active, ?_⟩
    split_ifs at rest with link
    · exact rest
    · -- The object is the directory: both numbers are the same.
      have direct := FileSystem.locate_follow (Bool.eq_false_iff.mpr link) located
      rw [direct]
      obtain ⟨dev, ino⟩ := object
      obtain ⟨dev', ino'⟩ := watched
      obtain ⟨rfl, rfl⟩ := rest
      exact congrArg (fun ino => some (FileObject.mk dev' ino)) inode

end Hosted

/-! ## A link that leads elsewhere -/

/-- A root directory with these entries, with a link to `/d` as the object `7`. -/
def disk (entries : List (ByteString × FileObject)) : FileSystem where
  root := ⟨1, 2⟩
  working := ⟨1, 2⟩
  node object :=
    if object = ⟨1, 2⟩ then .directory fun name => entries.lookup name
    else if object = ⟨1, 7⟩ then .link { absolute := true, components := [.name [0x64]] }
    else .directory fun _ => none
  parent _ := ⟨1, 2⟩
  mounted := id

/-- `/l` leads to `/d`. -/
def linked : FileSystem := disk [([0x6C], ⟨1, 7⟩), ([0x64], ⟨1, 8⟩)]

/-- `/d` is `/e` now, and `/l` leads to a new `/d`. -/
def relinked : FileSystem := disk [([0x6C], ⟨1, 7⟩), ([0x65], ⟨1, 8⟩), ([0x64], ⟨1, 9⟩)]

/-- The link is registered. -/
def linkRegistered : List Action :=
  [.lstat (u16 "/l") none, .inotifyAddWatch none 1, .other .enterWatchPoint]

/-- The directory behind the link is moved away and back again. -/
theorem Hosted.detects_moved_back : ∃ s, (machine linked).Reachable s ∧
    (s.system.server.stopWatchingMovedPath (u16 "/l") (s.fileSystem.lstat (u16 "/l") none)).1 =
      .ok false ∧ s.Detects (u16 "/l") := by
  have computed : ((machine linked).exec (machine linked).start
      (linkRegistered ++ [.change relinked, .change linked])).map (fun s =>
        (s.system.server.watchPoints.lookup (u16 "/l"), (s.system.server.stopWatchingMovedPath
            (u16 "/l") (s.fileSystem.lstat (u16 "/l") none)).1,
          decide (s.system.server.inotify.active.lookup 1 = some ⟨1, 8⟩ ∧
            s.targets (u16 "/l") = some ⟨1, 8⟩ ∧
            s.fileSystem.locate false (u16 "/l") = some ⟨1, 7⟩ ∧
            s.fileSystem.isLink ⟨1, 7⟩ = true ∧
            s.fileSystem.locate true (u16 "/l") = some ⟨1, 8⟩))) =
      some (some ⟨.listening, 1, u16 "/l", 7⟩, .ok false, true) := by decide
  obtain ⟨s, reach, observed⟩ := Machine.observe_of_exec computed
  simp only [Prod.mk.injEq, decide_eq_true_eq] at observed
  obtain ⟨entry, kept, active, target, located, link, leads⟩ := observed
  refine ⟨s, reach, kept, (detects_iff reach _).mpr ?_⟩
  intro watchPoint found listens object located' inode
  obtain rfl := Option.some_inj.mp (entry.symm.trans found)
  obtain rfl := Option.some_inj.mp (located.symm.trans located')
  refine ⟨mem_iff_lookup.mpr ⟨_, active⟩, _, target, ?_⟩
  rw [if_pos link]
  exact leads

/-- Once another directory is behind the link, the path is kept and the watch is still on the
directory that was moved. -/
theorem Hosted.not_forall_detects : ¬ ∀ fileSystem s, (machine fileSystem).Reachable s →
    ∀ path, s.Detects path := by
  intro claim
  have computed : ((machine linked).exec (machine linked).start
      (linkRegistered ++ [.change relinked])).map (fun s =>
        (s.system.server.watchPoints.lookup (u16 "/l"), (s.system.server.stopWatchingMovedPath
            (u16 "/l") (s.fileSystem.lstat (u16 "/l") none)).1,
          s.system.server.inotify.active.lookup 1, s.fileSystem.locate true (u16 "/l"))) =
      some (some ⟨.listening, 1, u16 "/l", 7⟩, .ok false, some ⟨1, 8⟩, some ⟨1, 9⟩) := by decide
  obtain ⟨s, reach, observed⟩ := Machine.observe_of_exec computed
  simp only [Prod.mk.injEq] at observed
  obtain ⟨entry, kept, active, leads⟩ := observed
  obtain ⟨directory, watched, found⟩ := claim linked s reach (u16 "/l") _ entry rfl none kept
  obtain rfl := Option.some_inj.mp (active.symm.trans watched)
  rw [leads] at found
  cases found

end Linux

end FileEvents
