import FileEvents.Apple.System

/-!
# The macOS run loop over its queue

`runLoop` of `apple_fsnotifier.cpp` takes items out of `eventQueue` until it finds the
`PoisonPill`. It does not catch what `handleEvent` throws: the exception leaves the loop, and
`executeRunLoop` rethrows it as a Java exception. Linux's `processQueues` and Windows'
`handleEvents` catch it and report a failure instead.

Which events throw is left open here, also for two events that are alike.

## Main definitions

* `runLoop` — what the loop does with the items of a queue
* `TakesEverything` — every item is taken and handled, or reported as a failure
* `Undisturbed` — the handling of no event throws

## Main results

* `exec_runLoop` — the run-loop thread at work does that
* `takesEverything_iff` — everything is taken exactly if no event throws
-/

namespace FileEvents

open Transition

namespace Apple

/-- How the run loop stands once it has gone through a queue. -/
inductive LoopEnd
  /-- `runLoop` has returned. -/
  | returned
  /-- An exception has left `runLoop`. -/
  | thrown (ex : CppException)
  /-- It waits for another item. -/
  | waiting
  deriving DecidableEq

/-- What the run loop has done. -/
structure LoopRun where
  /-- The items taken out of the queue, in order. -/
  taken : List QueueItem
  /-- The reports made, in order. -/
  reports : List Report
  last : LoopEnd
  deriving DecidableEq

/-- An item is taken, and reports are made for it, before the rest of a run. -/
def LoopRun.after (item : QueueItem) (reports : List Report) (run : LoopRun) : LoopRun :=
  { run with taken := item :: run.taken, reports := reports ++ run.reports }

section Loop

-- What `handleEvent` reports or throws for the event at a position of the queue.
variable (handle : ℕ → FileEvent → Except CppException (Option Report))

/-- `runLoop`, from a position of the queue on. -/
def runLoop (position : ℕ) : List QueueItem → LoopRun
  | [] => { taken := [], reports := [], last := .waiting }
  | .poisonPill :: _ => { taken := [.poisonPill], reports := [], last := .returned }
  | .fileEvent event :: items =>
    match handle position event with
    | .ok report => (runLoop (position + 1) items).after (.fileEvent event) report.toList
    -- Nothing in the loop catches the exception.
    | .error ex => { taken := [.fileEvent event], reports := [], last := .thrown ex }
  | .errorEvent message :: items =>
    (runLoop (position + 1) items).after (.errorEvent message) [.reportFailure message]

/-- What is to be reported for an item. -/
def reportsFor (position : ℕ) : QueueItem → List Report
  | .fileEvent event =>
    match handle position event with
    | .ok report => report.toList
    | .error ex => [.reportFailure ex.what]
  | .errorEvent message => [.reportFailure message]
  | .poisonPill => []

/-- What is to be reported for the items of a queue. -/
def reportsForAll (position : ℕ) : List QueueItem → List Report
  | [] => []
  | item :: items => reportsFor handle position item ++ reportsForAll (position + 1) items

/-- In front of a `PoisonPill` the loop takes every item once and in order, reports a failure
for each error event and each event that throws, handles all the others, and returns. -/
def TakesEverything (items : List QueueItem) : Prop :=
  runLoop handle 0 (items ++ [.poisonPill]) =
    { taken := items ++ [.poisonPill]
      reports := reportsForAll handle 0 items
      last := .returned }

/-- No file event among the items throws. -/
def Undisturbed (position : ℕ) (items : List QueueItem) : Prop :=
  ∀ index event, items[index]? = some (.fileEvent event) →
    (handle (position + index) event).isOk = true

end Loop

/-! ## The loop and the run-loop thread -/

section Thread

/-- The thread's next place. -/
def LoopEnd.pc : LoopEnd → Pc
  | .returned => .returned
  | .thrown ex => .thrown ex
  | .waiting => .dequeuing

/-- The step is one of the run loop. -/
def IsRunLoopStep (_ : State) (label : Label) : Prop := label = .dequeue ∨ label = .handleEvent

variable {s : State}

/-- The run-loop thread goes through the queue as the loop does. -/
theorem exec_runLoop (pc : s.pc = .dequeuing) (position : ℕ) :
    ∃ labels t, machine.Run IsRunLoopStep s labels t ∧
      t.pc = (runLoop (fun _ => handleEvent) position s.eventQueue).last.pc ∧
      s.eventQueue = (runLoop (fun _ => handleEvent) position s.eventQueue).taken ++
        t.eventQueue := by
  induction queue : s.eventQueue generalizing s position with
  | nil => exact ⟨[], s, .nil s, by rw [pc]; rfl, by simp [runLoop, queue]⟩
  | cons item items ih =>
    have dequeue : machine.next s .dequeue = some (s.take items item) := by
      simp only [machine, State.next, pc, queue]
    cases item with
    | poisonPill =>
      exact ⟨_, _, .single (.inl rfl) dequeue, rfl, rfl⟩
    | errorEvent message =>
      obtain ⟨labels, t, run, last, taken⟩ :=
        ih (s := s.take items (.errorEvent message)) pc (position + 1) rfl
      exact ⟨_, t, .cons (.inl rfl) dequeue run, last, congrArg (.errorEvent message :: ·) taken⟩
    | fileEvent event =>
      -- The event is taken out before it is handled.
      let handling := s.take items (.fileEvent event)
      have step : machine.next handling .handleEvent = some (handling.finish event) := rfl
      have begins : machine.Run IsRunLoopStep s [.dequeue, .handleEvent]
          (handling.finish event) :=
        .cons (.inl rfl) dequeue (.single (.inr rfl) step)
      cases handled : handleEvent event with
      | error ex =>
        refine ⟨_, _, begins, ?_, ?_⟩
        · simp only [State.finish, handled, runLoop, LoopEnd.pc]
        · simp only [State.finish, handled, runLoop]
          rfl
      | ok report =>
        have goesOn : (handling.finish event).pc = .dequeuing ∧
            (handling.finish event).eventQueue = items := by
          unfold State.finish
          rw [handled]
          cases report with
          | none => exact ⟨rfl, rfl⟩
          | some report => exact ⟨rfl, rfl⟩
        -- The event is handled, and the thread goes on with the rest of the queue.
        obtain ⟨labels, t, run, last, taken⟩ := ih goesOn.1 (position + 1) goesOn.2
        refine ⟨_, t, begins.append run, ?_, ?_⟩
        · rw [last]
          simp only [runLoop, handled]
          rfl
        · simp only [runLoop, handled]
          exact congrArg (.fileEvent event :: ·) taken

end Thread

/-! ## Taking everything -/

section Everything

variable {handle : ℕ → FileEvent → Except CppException (Option Report)} {position : ℕ}
variable {item : QueueItem} {items : List QueueItem}

theorem undisturbed_nil : Undisturbed handle position [] := by
  intro index event here
  cases here

theorem undisturbed_cons : Undisturbed handle position (item :: items) ↔
    (∀ event, item = .fileEvent event → (handle position event).isOk = true) ∧
      Undisturbed handle (position + 1) items := by
  constructor
  · intro undisturbed
    refine ⟨fun event same => undisturbed 0 event (by simp [same]), fun index event here => ?_⟩
    have later := undisturbed (index + 1) event here
    rwa [← Nat.add_assoc, Nat.add_right_comm] at later
  · rintro ⟨first, others⟩ index event here
    cases index with
    | zero => exact first event (by simpa using here)
    | succ index =>
      have later := others index event here
      rwa [Nat.add_right_comm, Nat.add_assoc] at later

/-- Without a throwing event the loop gets to the `PoisonPill`. -/
theorem runLoop_of_undisturbed (unpoisoned : .poisonPill ∉ items)
    (undisturbed : Undisturbed handle position items) :
    runLoop handle position (items ++ [.poisonPill]) =
      { taken := items ++ [.poisonPill]
        reports := reportsForAll handle position items
        last := .returned } := by
  induction items generalizing position with
  | nil => rfl
  | cons item items ih =>
    obtain ⟨first, others⟩ := undisturbed_cons.mp undisturbed
    obtain ⟨other, rest⟩ := not_or.mp (mt List.mem_cons.mpr unpoisoned)
    have tail := ih rest others
    cases item with
    | poisonPill => exact absurd rfl other
    | errorEvent message =>
      simp only [List.cons_append, runLoop, tail]
      rfl
    | fileEvent event =>
      cases handled : handle position event with
      | error ex =>
        -- This event would throw.
        have fine := first event rfl
        rw [handled] at fine
        cases fine
      | ok report =>
        simp only [List.cons_append, runLoop, handled, tail, reportsForAll, reportsFor]
        rfl

/-- A loop that returns was not left by an exception. -/
theorem undisturbed_of_returned (unpoisoned : .poisonPill ∉ items)
    (returned : (runLoop handle position (items ++ [.poisonPill])).last = .returned) :
    Undisturbed handle position items := by
  induction items generalizing position with
  | nil => exact undisturbed_nil
  | cons item items ih =>
    obtain ⟨other, rest⟩ := not_or.mp (mt List.mem_cons.mpr unpoisoned)
    rw [undisturbed_cons]
    cases item with
    | poisonPill => exact absurd rfl other
    | errorEvent message => exact ⟨fun event same => (nomatch same), ih rest returned⟩
    | fileEvent event =>
      rw [List.cons_append, runLoop] at returned
      cases handled : handle position event with
      | error ex =>
        rw [handled] at returned
        cases returned
      | ok report =>
        rw [handled] at returned
        refine ⟨fun event' same => ?_, ih rest returned⟩
        obtain rfl := QueueItem.fileEvent.inj same
        rw [handled]
        rfl

/-- In front of the `PoisonPill`, every item is taken once and in order, each error event and
each event that throws is reported as a failure, all the others are handled and the loop
returns, exactly if no event throws. -/
theorem takesEverything_iff (handle : ℕ → FileEvent → Except CppException (Option Report))
    (items : List QueueItem) (unpoisoned : .poisonPill ∉ items) :
    TakesEverything handle items ↔ Undisturbed handle 0 items := by
  constructor
  · intro everything
    exact undisturbed_of_returned unpoisoned (congrArg LoopRun.last everything)
  · exact runLoop_of_undisturbed unpoisoned

/-- An error and an event that is handled. -/
def decentItems : List QueueItem := [.errorEvent "bad allocation", .fileEvent createdFile]

theorem takesEverything_iff_decentItems :
    TakesEverything (fun _ => handleEvent) decentItems := by
  refine (takesEverything_iff _ decentItems (by decide)).mpr ?_
  have created : (handleEvent createdFile).isOk = true := by decide
  refine undisturbed_cons.mpr ⟨fun event same => (nomatch same), ?_⟩
  refine undisturbed_cons.mpr ⟨fun event same => ?_, undisturbed_nil⟩
  exact QueueItem.fileEvent.inj same ▸ created

/-- An event whose path is not UTF-8, in front of one whose path is. -/
def badItems : List QueueItem :=
  [.fileEvent { createdFile with eventPath := [0xFF] }, .fileEvent createdFile]

/-- The second event is never taken out of the queue, nor is the `PoisonPill`, and no failure
is reported for the first one. -/
theorem not_forall_takesEverything :
    ¬ ∀ items : List QueueItem, .poisonPill ∉ items →
      TakesEverything (fun _ => handleEvent) items := by
  intro always
  have stopped : runLoop (fun _ => handleEvent) 0 (badItems ++ [.poisonPill]) =
      { taken := [.fileEvent { createdFile with eventPath := [0xFF] }]
        reports := []
        last := .thrown fromBytesError } := by decide
  have everything := always badItems (by decide)
  rw [TakesEverything, stopped] at everything
  exact absurd everything (by decide)

end Everything

end Apple

end FileEvents
