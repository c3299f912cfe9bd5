import FileEvents.Callback.Events
import FileEvents.Linux.Inotify
import FileEvents.Native.CppException

/-!
# The events of the macOS server

`FileEvent`, `QueueItem` and `handleEvent` of `apple_fsnotifier.cpp`, and which paths lie
inside which. The flags are those of the FSEvents interface.

Log messages are left out. The one before an overflow is reported converts to UTF-8 what
was just converted from it.
-/

namespace FileEvents

namespace Apple

open Linux (isSet)

/-! ## Flags -/

def kFSEventStreamCreateFlagNone : UInt32 := 0x0
def kFSEventStreamEventFlagMustScanSubDirs : UInt32 := 0x1
def kFSEventStreamEventFlagUserDropped : UInt32 := 0x2
def kFSEventStreamEventFlagKernelDropped : UInt32 := 0x4
def kFSEventStreamEventFlagEventIdsWrapped : UInt32 := 0x8
def kFSEventStreamEventFlagHistoryDone : UInt32 := 0x10
def kFSEventStreamEventFlagRootChanged : UInt32 := 0x20
def kFSEventStreamEventFlagMount : UInt32 := 0x40
def kFSEventStreamEventFlagUnmount : UInt32 := 0x80
def kFSEventStreamEventFlagItemCreated : UInt32 := 0x100
def kFSEventStreamEventFlagItemRemoved : UInt32 := 0x200
def kFSEventStreamEventFlagItemInodeMetaMod : UInt32 := 0x400
def kFSEventStreamEventFlagItemRenamed : UInt32 := 0x800
def kFSEventStreamEventFlagItemModified : UInt32 := 0x1000
def kFSEventStreamEventFlagItemFinderInfoMod : UInt32 := 0x2000
def kFSEventStreamEventFlagItemChangeOwner : UInt32 := 0x4000
def kFSEventStreamEventFlagItemXattrMod : UInt32 := 0x8000
def kFSEventStreamEventFlagItemIsFile : UInt32 := 0x10000
def kFSEventStreamEventFlagItemIsDir : UInt32 := 0x20000
def kFSEventStreamEventFlagItemIsSymlink : UInt32 := 0x40000
def kFSEventStreamEventFlagOwnEvent : UInt32 := 0x80000
def kFSEventStreamEventFlagItemIsHardlink : UInt32 := 0x100000
def kFSEventStreamEventFlagItemIsLastHardlink : UInt32 := 0x200000
def kFSEventStreamEventFlagItemCloned : UInt32 := 0x400000

/-- `IGNORED_FLAGS`. -/
def IGNORED_FLAGS : UInt32 :=
  kFSEventStreamCreateFlagNone ||| kFSEventStreamEventFlagUserDropped |||
    kFSEventStreamEventFlagKernelDropped ||| kFSEventStreamEventFlagEventIdsWrapped |||
    kFSEventStreamEventFlagHistoryDone ||| kFSEventStreamEventFlagItemIsFile |||
    kFSEventStreamEventFlagItemIsDir ||| kFSEventStreamEventFlagItemIsSymlink |||
    kFSEventStreamEventFlagOwnEvent ||| kFSEventStreamEventFlagItemIsHardlink |||
    kFSEventStreamEventFlagItemIsLastHardlink ||| kFSEventStreamEventFlagItemCloned

/-! ## Events -/

/-- `FileEvent`. Its `eventId` is only logged. -/
structure FileEvent where
  eventPath : ByteString
  eventFlags : UInt32
  deriving DecidableEq, Repr

/-- A file is created. -/
def createdFile : FileEvent where
  eventPath := (utf16ToUtf8String (u16 "/a/f")).getD []
  eventFlags := kFSEventStreamEventFlagItemCreated

/-- `QueueItem`. -/
inductive QueueItem
  | fileEvent (event : FileEvent)
  | errorEvent (message : String)
  | poisonPill
  deriving DecidableEq, Repr

/-- The type of change that flags stand for, `none` for an unknown event. -/
def changeType (flags : UInt32) : Option ChangeType :=
  if isSet flags (kFSEventStreamEventFlagRootChanged ||| kFSEventStreamEventFlagMount |||
      kFSEventStreamEventFlagUnmount) then some .invalidated
  else if isSet flags kFSEventStreamEventFlagItemRenamed then
    if isSet flags kFSEventStreamEventFlagItemCreated then some .removed else some .created
  else if isSet flags kFSEventStreamEventFlagItemModified then some .modified
  else if isSet flags kFSEventStreamEventFlagItemRemoved then some .removed
  else if isSet flags (kFSEventStreamEventFlagItemInodeMetaMod |||
      kFSEventStreamEventFlagItemFinderInfoMod ||| kFSEventStreamEventFlagItemChangeOwner |||
      kFSEventStreamEventFlagItemXattrMod) then some .modified
  else if isSet flags kFSEventStreamEventFlagItemCreated then some .created
  else none

/-- `Server::handleEvent`: what the event is reported as, if it is reported. -/
def handleEvent (event : FileEvent) : Except CppException (Option Report) :=
  match utf8ToUtf16String event.eventPath with
  | none => .error fromBytesError
  | some path =>
    if event.eventFlags &&& ~~~ IGNORED_FLAGS = kFSEventStreamCreateFlagNone then .ok none
    else if isSet event.eventFlags kFSEventStreamEventFlagMustScanSubDirs then
      .ok (some (.reportOverflow (some path)))
    else match changeType event.eventFlags with
      | some type => .ok (some (.reportChangeEvent type.index path))
      | none => .ok (some (.reportUnknownEvent path))

/-- Handling the event reports something. -/
def FileEvent.Reportable (event : FileEvent) : Prop :=
  ∃ report, handleEvent event = .ok (some report)

instance : DecidablePred FileEvent.Reportable := fun event =>
  match result : handleEvent event with
  | .ok (some report) => .isTrue ⟨report, result⟩
  | .ok none | .error _ => .isFalse fun ⟨_, reported⟩ => by
      rw [result] at reported
      cases reported

/-! ## Paths inside a directory -/

/-- What the paths of everything in a directory begin with. -/
def directoryPrefix (path : U16String) : U16String :=
  if u16 "/" <:+ path then path else path ++ u16 "/"

/-- The path is that of the directory or of something in it. -/
def Inside (directory path : U16String) : Prop :=
  path = directory ∨ directoryPrefix directory <+: path

instance (directory path : U16String) : Decidable (Inside directory path) :=
  inferInstanceAs (Decidable (path = directory ∨ directoryPrefix directory <+: path))

variable {p q path : U16String}

@[simp] theorem inside_self : Inside p p := .inl rfl

theorem directoryPrefix_cases (p : U16String) :
    (u16 "/" <:+ p ∧ directoryPrefix p = p) ∨ directoryPrefix p = p ++ u16 "/" := by
  unfold directoryPrefix
  split_ifs with closed
  · exact .inl ⟨closed, rfl⟩
  · exact .inr rfl

/-- Of two directories whose prefixes begin alike, one is inside the other. -/
theorem inside_of_startsWith (begins : directoryPrefix p <+: directoryPrefix q) :
    Inside p q ∨ Inside q p := by
  rcases directoryPrefix_cases q with ⟨-, same⟩ | same
  · exact .inl (.inr (same ▸ begins))
  · rw [same, u16] at begins
    rcases List.prefix_concat_iff.mp begins with equal | shorter
    · -- The two prefixes are the same.
      rcases directoryPrefix_cases p with ⟨-, closed⟩ | extended
      · refine .inr (.inr ?_)
        rw [same, ← closed, equal]
        exact List.prefix_rfl
      · rw [extended] at equal
        exact .inl (.inl (List.append_cancel_right equal).symm)
    · exact .inl (.inr shorter)

/-- Of two directories that a path is inside of, one is inside the other. -/
theorem inside_or_inside (hp : Inside p path) (hq : Inside q path) :
    Inside p q ∨ Inside q p := by
  rcases hp with rfl | hp
  · exact .inr hq
  · rcases hq with rfl | hq
    · exact .inl (.inr hp)
    · rcases List.prefix_or_prefix_of_prefix hp hq with begins | begins
      · exact inside_of_startsWith begins
      · exact (inside_of_startsWith begins).symm

end Apple

end FileEvents
