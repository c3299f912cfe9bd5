import FileEvents.Native.CppException
import FileEvents.Native.UnorderedMap

/-!
# The kernel's side of an inotify instance

An inotify instance watches file-system objects under watch descriptors and queues
events in order. A descriptor is active from the `inotify_add_watch` that granted it
until the watch is removed, by `inotify_rm_watch` or by the kernel itself, which queues
one last event, `IN_IGNORED`. Adding a watch on an object that is watched already returns
its descriptor.

A descriptor that was removed is not granted again while its `IN_IGNORED` is unhandled.
Such descriptors are the retired ones: `release` ends the retirement.

A queue that overflows loses events. Losing an event is a step of its own here, which may
hit any queued event at any time.

## Main definitions

* `Inotify` — the active watches, the queue of events and the retired descriptors
* `Inotify.addWatch`, `Inotify.rmWatch` — the system calls
* `Inotify.step` — what the kernel does on its own
-/

namespace FileEvents

namespace Linux

/-- What `inotify_add_watch` returns. -/
abbrev WatchDescriptor := ℤ

/-- The values of `errno`. -/
abbrev Errno := ErrorCode

/-- `EINVAL`. -/
def EINVAL : Errno := 22

/-- `ENOSPC`. -/
def ENOSPC : Errno := 28

/-! ## Event masks -/

def IN_MODIFY : UInt32 := 0x2
def IN_MOVED_FROM : UInt32 := 0x40
def IN_MOVED_TO : UInt32 := 0x80
def IN_CREATE : UInt32 := 0x100
def IN_DELETE : UInt32 := 0x200
def IN_DELETE_SELF : UInt32 := 0x400
def IN_UNMOUNT : UInt32 := 0x2000
def IN_Q_OVERFLOW : UInt32 := 0x4000
def IN_IGNORED : UInt32 := 0x8000

/-- `IS_SET`. -/
def isSet (flags mask : UInt32) : Bool := flags &&& mask != 0

/-- `struct inotify_event`. The name is empty where the kernel passes none. -/
structure InotifyEvent where
  wd : WatchDescriptor
  mask : UInt32
  name : ByteString
  deriving DecidableEq, Repr

namespace InotifyEvent

/-- The event the kernel queues when a watch is removed. -/
def ignored (wd : WatchDescriptor) : InotifyEvent := { wd, mask := IN_IGNORED, name := [] }

/-- The event the kernel queues when the queue overflows. -/
def overflow : InotifyEvent := { wd := -1, mask := IN_Q_OVERFLOW, name := [] }

/-- The event concerns a watch, and it is this one. -/
def Concerns (wd : WatchDescriptor) (event : InotifyEvent) : Prop :=
  event.wd = wd ∧ isSet event.mask IN_Q_OVERFLOW = false

instance (wd : WatchDescriptor) : DecidablePred (Concerns wd) := fun event =>
  inferInstanceAs (Decidable (event.wd = wd ∧ isSet event.mask IN_Q_OVERFLOW = false))

/-- The event is read as the end of its watch. -/
def IsIgnored (event : InotifyEvent) : Prop :=
  isSet event.mask IN_IGNORED = true ∧ isSet event.mask IN_UNMOUNT = false

instance : DecidablePred IsIgnored := fun event =>
  inferInstanceAs (Decidable
    (isSet event.mask IN_IGNORED = true ∧ isSet event.mask IN_UNMOUNT = false))

end InotifyEvent

/-- An object of the file system. -/
structure FileObject where
  dev : ℕ
  ino : ℕ
  deriving DecidableEq, Repr

/-- An inotify instance. -/
structure Inotify where
  /-- The watched objects by descriptor. -/
  active : AList fun _ : WatchDescriptor => FileObject
  /-- The events that were not read yet. -/
  queue : List InotifyEvent
  /-- The removed descriptors that are not granted again yet. -/
  retired : List WatchDescriptor
  /-- A record of the events queued for each descriptor since it was granted last.
  Nothing reads it. -/
  queued : List InotifyEvent

namespace Inotify

/-- The descriptor under which an object is watched. -/
def watchOf (inotify : Inotify) (object : FileObject) : Option WatchDescriptor :=
  (inotify.active.entries.find? fun watch => watch.2 = object).map fun watch => watch.1

/-- The kernel may grant this descriptor. -/
def CanGrant (inotify : Inotify) (fresh : WatchDescriptor) : Prop :=
  0 < fresh ∧ fresh ∉ inotify.active ∧ fresh ∉ inotify.retired

instance (inotify : Inotify) (fresh : WatchDescriptor) : Decidable (inotify.CanGrant fresh) :=
  inferInstanceAs (Decidable (0 < fresh ∧ fresh ∉ inotify.active ∧ fresh ∉ inotify.retired))

/-- `inotify_add_watch` on an object, where the kernel would grant `fresh`. -/
def addWatch (inotify : Inotify) (object : FileObject) (fresh : WatchDescriptor) :
    WatchDescriptor × Inotify :=
  match inotify.watchOf object with
  | some wd => (wd, inotify)
  | none => (fresh,
      { inotify with
        active := inotify.active.insert fresh object
        queued := inotify.queued.filter fun event => ¬ event.Concerns fresh })

/-- Queues an event. -/
def push (inotify : Inotify) (event : InotifyEvent) : Inotify :=
  { inotify with queue := inotify.queue ++ [event], queued := inotify.queued ++ [event] }

/-- A watch is removed. -/
def retire (inotify : Inotify) (wd : WatchDescriptor) : Inotify :=
  { inotify.push (.ignored wd) with
    active := inotify.active.erase wd
    retired := wd :: inotify.retired }

/-- `inotify_rm_watch`. -/
def rmWatch (inotify : Inotify) (wd : WatchDescriptor) : Except Errno Inotify :=
  if wd ∈ inotify.active then .ok (inotify.retire wd) else .error EINVAL

/-- The `IN_IGNORED` of a descriptor was handled. -/
def release (inotify : Inotify) (wd : WatchDescriptor) : Inotify :=
  { inotify with retired := inotify.retired.filter fun other => other ≠ wd }

/-- What the kernel does on its own. -/
inductive Step
  /-- Something happens to a watched directory or to one of its entries. -/
  | event (wd : WatchDescriptor) (mask : UInt32) (name : ByteString)
  /-- A watched directory is deleted or unmounted, as the last event's mask says. -/
  | remove (wd : WatchDescriptor) (mask : UInt32)
  /-- The queue is found full. -/
  | overflow
  /-- The event at this place of the queue is lost. -/
  | lose (index : ℕ)
  deriving DecidableEq, Repr

/-- The event is neither the end of a watch nor an overflow of the queue. -/
def IsOrdinary (mask : UInt32) : Prop :=
  isSet mask IN_IGNORED = false ∧ isSet mask IN_Q_OVERFLOW = false

instance : DecidablePred IsOrdinary := fun mask => inferInstanceAs (Decidable
  (isSet mask IN_IGNORED = false ∧ isSet mask IN_Q_OVERFLOW = false))

/-- The step function of the kernel. -/
def step (inotify : Inotify) : Step → Option Inotify
  | .event wd mask name =>
    if wd ∈ inotify.active ∧ IsOrdinary mask ∧ isSet mask IN_UNMOUNT = false then
      some (inotify.push { wd, mask, name })
    else none
  | .remove wd mask =>
    if wd ∈ inotify.active ∧ IsOrdinary mask ∧
        (isSet mask IN_DELETE_SELF = true ∨ isSet mask IN_UNMOUNT = true) then
      -- The event that says why comes first, `IN_IGNORED` is the last one.
      some ((inotify.push { wd, mask, name := [] }).retire wd)
    else none
  | .overflow => some (inotify.push .overflow)
  -- The record of what was queued keeps the event.
  | .lose index => some { inotify with queue := inotify.queue.eraseIdx index }

/-- An inotify instance that was just created. -/
def init : Inotify := { active := ∅, queue := [], retired := [], queued := [] }

variable {inotify : Inotify} {event : InotifyEvent} {object : FileObject}
variable {wd fresh : WatchDescriptor}

@[simp] theorem active_push : (inotify.push event).active = inotify.active := rfl
@[simp] theorem retired_push : (inotify.push event).retired = inotify.retired := rfl
@[simp] theorem queue_push : (inotify.push event).queue = inotify.queue ++ [event] := rfl
@[simp] theorem active_retire : (inotify.retire wd).active = inotify.active.erase wd := rfl
@[simp] theorem retired_retire : (inotify.retire wd).retired = wd :: inotify.retired := rfl
@[simp] theorem queue_retire : (inotify.retire wd).queue = inotify.queue ++ [.ignored wd] := rfl
@[simp] theorem active_release : (inotify.release wd).active = inotify.active := rfl
@[simp] theorem queue_release : (inotify.release wd).queue = inotify.queue := rfl

@[simp] theorem mem_retired_release {other : WatchDescriptor} :
    other ∈ (inotify.release wd).retired ↔ other ≠ wd ∧ other ∈ inotify.retired := by
  simp [release, and_comm]

/-- The descriptor an object is watched under stands for that object. -/
theorem lookup_of_watchOf (h : inotify.watchOf object = some wd) :
    inotify.active.lookup wd = some object := by
  obtain ⟨⟨wd, watched⟩, found, rfl⟩ := Option.map_eq_some_iff.mp h
  obtain rfl : watched = object := by simpa using List.find?_some found
  exact AList.mem_lookup_iff.mpr (List.mem_of_find?_eq_some found)

theorem mem_active_of_watchOf (h : inotify.watchOf object = some wd) : wd ∈ inotify.active :=
  mem_iff_lookup.mpr ⟨object, lookup_of_watchOf h⟩

/-- An object that no descriptor stands for is not watched. -/
theorem watchOf_eq_none (h : ∀ wd, inotify.active.lookup wd ≠ some object) :
    inotify.watchOf object = none := by
  simp only [watchOf, Option.map_eq_none_iff, List.find?_eq_none, decide_eq_true_eq]
  rintro ⟨wd, watched⟩ mem rfl
  exact h wd (AList.mem_lookup_iff.mpr mem)

/-- `inotify_add_watch` returns a descriptor that is active already, or makes the one
granted active. -/
theorem addWatch_spec {inotify' : Inotify} (h : inotify.addWatch object fresh = (wd, inotify')) :
    (wd ∈ inotify.active ∧ inotify' = inotify) ∨
      (inotify.watchOf object = none ∧ wd = fresh ∧ inotify' =
        { inotify with
          active := inotify.active.insert fresh object
          queued := inotify.queued.filter fun event => ¬ event.Concerns fresh }) := by
  unfold addWatch at h
  cases found : inotify.watchOf object with
  | some wd' =>
    rw [found] at h
    obtain ⟨rfl, rfl⟩ := Prod.mk.inj h
    exact .inl ⟨mem_active_of_watchOf found, rfl⟩
  | none =>
    rw [found] at h
    obtain ⟨rfl, rfl⟩ := Prod.mk.inj h
    exact .inr ⟨rfl, rfl, rfl⟩

/-- The descriptor `inotify_add_watch` returns stands for the object. -/
theorem lookup_addWatch {inotify' : Inotify}
    (h : inotify.addWatch object fresh = (wd, inotify')) :
    inotify'.active.lookup wd = some object := by
  unfold addWatch at h
  cases found : inotify.watchOf object with
  | some wd' =>
    rw [found] at h
    obtain ⟨rfl, rfl⟩ := Prod.mk.inj h
    exact lookup_of_watchOf found
  | none =>
    rw [found] at h
    obtain ⟨rfl, rfl⟩ := Prod.mk.inj h
    exact AList.lookup_insert _

/-- What the kernel does on its own. -/
theorem step_cases {kind : Step} {inotify' : Inotify} (h : inotify.step kind = some inotify') :
    (∃ wd mask name, kind = .event wd mask name ∧ wd ∈ inotify.active ∧ IsOrdinary mask ∧
        isSet mask IN_UNMOUNT = false ∧ inotify' = inotify.push { wd, mask, name }) ∨
      (∃ wd mask, kind = .remove wd mask ∧ wd ∈ inotify.active ∧ IsOrdinary mask ∧
        (isSet mask IN_DELETE_SELF = true ∨ isSet mask IN_UNMOUNT = true) ∧
        inotify' = (inotify.push { wd, mask, name := [] }).retire wd) ∨
      (kind = .overflow ∧ inotify' = inotify.push .overflow) ∨
      ∃ index, kind = .lose index ∧
        inotify' = { inotify with queue := inotify.queue.eraseIdx index } := by
  cases kind with
  | event wd mask name =>
    simp only [step] at h
    split_ifs at h with enabled
    obtain ⟨active, ordinary, mounted⟩ := enabled
    exact .inl ⟨wd, mask, name, rfl, active, ordinary, mounted, (Option.some_inj.mp h).symm⟩
  | remove wd mask =>
    simp only [step] at h
    split_ifs at h with enabled
    obtain ⟨active, ordinary, gone⟩ := enabled
    exact .inr (.inl ⟨wd, mask, rfl, active, ordinary, gone, (Option.some_inj.mp h).symm⟩)
  | overflow => exact .inr (.inr (.inl ⟨rfl, (Option.some_inj.mp h).symm⟩))
  | lose index => exact .inr (.inr (.inr ⟨index, rfl, (Option.some_inj.mp h).symm⟩))

end Inotify

@[simp] theorem InotifyEvent.concerns_ignored {wd other : WatchDescriptor} :
    (InotifyEvent.ignored wd).Concerns other ↔ other = wd := by
  have ordinary : isSet IN_IGNORED IN_Q_OVERFLOW = false := by decide
  exact ⟨fun h => h.1.symm, fun h => ⟨h.symm, ordinary⟩⟩

theorem InotifyEvent.not_concerns_overflow (wd : WatchDescriptor) :
    ¬ InotifyEvent.overflow.Concerns wd := by
  have marked : isSet InotifyEvent.overflow.mask IN_Q_OVERFLOW = true := by decide
  exact fun concerns => by simp [InotifyEvent.Concerns, marked] at concerns

theorem Inotify.IsOrdinary.not_isIgnored {event : InotifyEvent}
    (ordinary : Inotify.IsOrdinary event.mask) : ¬ event.IsIgnored := fun ends => by
  simpa [ordinary.1] using ends.1

@[simp] theorem InotifyEvent.isIgnored_ignored (wd : WatchDescriptor) :
    (InotifyEvent.ignored wd).IsIgnored := by
  change isSet IN_IGNORED IN_IGNORED = true ∧ isSet IN_IGNORED IN_UNMOUNT = false
  decide

end Linux

end FileEvents
