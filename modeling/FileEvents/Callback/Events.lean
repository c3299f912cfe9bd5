import FileEvents.Text

/-!
# The events a client receives

`FileWatchEvent` with the implementations of `AbstractFileEventFunctions.java`, and
the calls the run-loop thread makes on the `NativeFileWatcherCallback` to have an
event queued.
-/

namespace FileEvents

/-- `FileWatchEvent.ChangeType`, which the native `ChangeType` corresponds to. -/
inductive ChangeType | created | removed | modified | invalidated
  deriving DecidableEq, Repr

/-- `ChangeType.values()`: the native side passes an index into it. -/
def ChangeType.values : List ChangeType := [.created, .removed, .modified, .invalidated]

/-- The index by which the native side passes a change type. -/
def ChangeType.index : ChangeType → ℕ
  | .created => 0
  | .removed => 1
  | .modified => 2
  | .invalidated => 3

/-- The native enumeration and the Java one list the same types in the same order. -/
theorem ChangeType.values_index (type : ChangeType) : values[type.index]? = some type := by
  cases type <;> rfl

/-- `FileWatchEvent.OverflowType`: the subsystem that suffered the overflow. -/
inductive OverflowType | operatingSystem | eventQueue
  deriving DecidableEq, Repr

/-- The events put in the client's queue. The path of an overflow event is `none`
where the source passes `null`: any path may be affected. -/
inductive FileWatchEvent
  | changeEvent (type : ChangeType) (path : U16String)
  | overflowEvent (type : OverflowType) (path : Option U16String)
  | unknownEvent (path : U16String)
  | failureEvent (failure : String)
  | terminationEvent
  deriving DecidableEq, Repr

namespace FileWatchEvent

/-- An overflow event marks a place where events may be missing. -/
def IsOverflow : FileWatchEvent → Prop
  | overflowEvent _ _ => True
  | _ => False

instance : DecidablePred IsOverflow := fun event =>
  match event with
  | overflowEvent _ _ => .isTrue trivial
  | changeEvent _ _ | unknownEvent _ | failureEvent _ | terminationEvent => .isFalse id

end FileWatchEvent

/-- The methods of `NativeFileWatcherCallback` called by the run-loop thread. -/
inductive Report
  | reportChangeEvent (typeIndex : ℕ) (path : U16String)
  | reportUnknownEvent (path : U16String)
  | reportOverflow (path : Option U16String)
  | reportFailure (ex : String)
  | reportTermination
  deriving DecidableEq, Repr

end FileEvents
