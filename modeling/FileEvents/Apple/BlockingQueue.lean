import FileEvents.Concurrency.Monitor
import FileEvents.Concurrency.Workload
import FileEvents.Transition.Machine

/-!
# The blocking queue of the macOS server

The class template `BlockingQueue` of `apple_fsnotifier.h`, used by any number of threads.
`enqueue` notifies one thread after it has given up the mutex; `dequeue` waits until the
queue is not empty. A wait may end for no reason, and then the queue is looked at again.

Every step is one operation of one thread: to take or to give up the mutex, to push or to
pop, to look whether the queue is empty, to notify, or to go on after a wait. The model keeps
what was pushed, what was popped and what the calls of `dequeue` returned, in order. The code
keeps none of them.

## Main definitions

* `State`, `machine` — the queue with its threads
* `Step` — the steps by name
* `Sound` — the invariant

## Main results

* `fifo` — items are popped in the order they were pushed in, and what is popped is returned
* `awake` — whoever waits for an item gets one as long as there is one
-/

namespace FileEvents

open Transition Concurrency

namespace Apple

namespace BlockingQueue

/-- Where a thread is in the methods of the queue. -/
inductive Pc (α : Type)
  /-- In neither of them. -/
  | outside
  /-- At the beginning of `enqueue`. -/
  | enqueue (item : α)
  /-- In `enqueue`, holding the mutex. -/
  | pushing (item : α)
  /-- At the end of the block in `enqueue`. -/
  | pushed
  /-- Before `notify_one`. -/
  | notifying
  /-- At the beginning of `dequeue`. -/
  | dequeue
  /-- Before the predicate of the `wait` is evaluated. -/
  | testing
  /-- In the `wait`. -/
  | blocked
  /-- Behind the `wait`. -/
  | popping
  /-- At the end of `dequeue`. -/
  | popped (item : α)
  deriving DecidableEq

/-- A queue in use. -/
structure State (T α : Type) where
  /-- `mtx` and `cv`. -/
  monitor : Monitor T
  queue : List α
  pc : T → Pc α
  /-- The items that were pushed. -/
  pushedItems : List α
  /-- The items that were popped, and by whom. -/
  poppedItems : List (T × α)
  /-- What the calls of `dequeue` returned. -/
  returned : List (T × α)

/-- What can happen next. -/
inductive Label (T α : Type)
  /-- A thread calls `enqueue`. -/
  | enqueue (t : T) (item : α)
  /-- A thread calls `dequeue`. -/
  | dequeue (t : T)
  | lock (t : T)
  | push (t : T)
  | test (t : T)
  | pop (t : T)
  /-- The lock goes out of scope. -/
  | unlock (t : T)
  /-- `notify_one`, with the thread it reaches. -/
  | notifyOne (t : T) (who : Option T)
  /-- The `wait` goes on after a notification. -/
  | resume (t : T)
  /-- The `wait` goes on for no reason. -/
  | wake (t : T)
  deriving DecidableEq

variable {T α : Type} [DecidableEq T]

namespace State

/-- One thread moves. -/
def move (s : State T α) (t : T) (pc : Pc α) : State T α :=
  { s with pc := Function.update s.pc t pc }

/-- The step function. -/
def next (s : State T α) : Label T α → Option (State T α)
  | .enqueue t item =>
    match s.pc t with
    | .outside => some (s.move t (.enqueue item))
    | _ => none
  | .dequeue t =>
    match s.pc t with
    | .outside => some (s.move t .dequeue)
    | _ => none
  | .lock t =>
    match s.pc t with
    | .enqueue item => (s.monitor.acquire t).map fun monitor =>
        { s with monitor }.move t (.pushing item)
    | .dequeue => (s.monitor.acquire t).map fun monitor => { s with monitor }.move t .testing
    | _ => none
  | .push t =>
    match s.pc t with
    | .pushing item => some
        ({ s with
          queue := s.queue ++ [item]
          pushedItems := s.pushedItems ++ [item] }.move t .pushed)
    | _ => none
  | .test t =>
    match s.pc t with
    | .testing =>
      if s.queue = [] then some ({ s with monitor := s.monitor.wait t }.move t .blocked)
      else some (s.move t .popping)
    | _ => none
  | .pop t =>
    match s.pc t, s.queue with
    | .popping, item :: queue => some
        ({ s with queue, poppedItems := s.poppedItems ++ [(t, item)] }.move t (.popped item))
    | _, _ => none
  | .unlock t =>
    match s.pc t with
    | .pushed => some ({ s with monitor := s.monitor.release }.move t .notifying)
    | .popped item => some
        ({ s with
          monitor := s.monitor.release
          returned := s.returned ++ [(t, item)] }.move t .outside)
    | _ => none
  | .notifyOne t who =>
    match s.pc t with
    | .notifying => (s.monitor.notifyOne who).map fun monitor =>
        { s with monitor }.move t .outside
    | _ => none
  | .resume t =>
    (s.monitor.resume t .notified).map fun monitor => { s with monitor }.move t .testing
  | .wake t =>
    (s.monitor.resume t .spurious).map fun monitor => { s with monitor }.move t .testing

end State

/-- An empty queue that nobody uses yet. -/
def machine (T α : Type) [DecidableEq T] : Machine (State T α) (Label T α) where
  start :=
    { monitor := .free
      queue := []
      pc := fun _ => .outside
      pushedItems := []
      poppedItems := []
      returned := [] }
  next := State.next

/-- The steps of the threads, by name. -/
inductive Step (s : State T α) : Label T α → State T α → Prop
  | enqueue {t : T} {item : α} (pc : s.pc t = .outside) :
      Step s (.enqueue t item) (s.move t (.enqueue item))
  | dequeue {t : T} (pc : s.pc t = .outside) : Step s (.dequeue t) (s.move t .dequeue)
  | lockToPush {t : T} {item : α} (pc : s.pc t = .enqueue item)
      (free : s.monitor.holder = none) :
      Step s (.lock t)
        ({ s with monitor := { s.monitor with holder := some t } }.move t (.pushing item))
  | lockToPop {t : T} (pc : s.pc t = .dequeue) (free : s.monitor.holder = none) :
      Step s (.lock t)
        ({ s with monitor := { s.monitor with holder := some t } }.move t .testing)
  | push {t : T} {item : α} (pc : s.pc t = .pushing item) :
      Step s (.push t)
        ({ s with
          queue := s.queue ++ [item]
          pushedItems := s.pushedItems ++ [item] }.move t .pushed)
  | wait {t : T} (pc : s.pc t = .testing) (empty : s.queue = []) :
      Step s (.test t) ({ s with monitor := s.monitor.wait t }.move t .blocked)
  | goOn {t : T} (pc : s.pc t = .testing) (filled : s.queue ≠ []) :
      Step s (.test t) (s.move t .popping)
  | pop {t : T} {item : α} {queue : List α} (pc : s.pc t = .popping)
      (filled : s.queue = item :: queue) :
      Step s (.pop t)
        ({ s with
          queue
          poppedItems := s.poppedItems ++ [(t, item)] }.move t (.popped item))
  | unlock {t : T} (pc : s.pc t = .pushed) :
      Step s (.unlock t) ({ s with monitor := s.monitor.release }.move t .notifying)
  | returnItem {t : T} {item : α} (pc : s.pc t = .popped item) :
      Step s (.unlock t)
        ({ s with
          monitor := s.monitor.release
          returned := s.returned ++ [(t, item)] }.move t .outside)
  | notifyNobody {t : T} {who : Option T} (pc : s.pc t = .notifying)
      (nobody : s.monitor.waiting = []) : Step s (.notifyOne t who) (s.move t .outside)
  | notifyOne {t u : T} {who : Option T} (pc : s.pc t = .notifying)
      (blocked : u ∈ s.monitor.waiting) :
      Step s (.notifyOne t who)
        ({ s with
          monitor :=
            { s.monitor with
              waiting := s.monitor.waiting.erase u
              woken := u :: s.monitor.woken } }.move t .outside)
  | resume {t : T} (free : s.monitor.holder = none) (woken : t ∈ s.monitor.woken) :
      Step s (.resume t)
        ({ s with
          monitor :=
            { holder := some t
              waiting := s.monitor.waiting.erase t
              woken := s.monitor.woken.erase t } }.move t .testing)
  | wake {t : T} (free : s.monitor.holder = none) (blocked : t ∈ s.monitor.waiting) :
      Step s (.wake t)
        ({ s with
          monitor :=
            { holder := some t
              waiting := s.monitor.waiting.erase t
              woken := s.monitor.woken.erase t } }.move t .testing)

variable {s s' : State T α} {label : Label T α}

theorem step_of_next (step : (machine T α).next s label = some s') : Step s label s' := by
  change s.next label = some s' at step
  cases label with
  | enqueue t item =>
    simp only [State.next] at step
    split at step
    next pc => exact Option.some_inj.mp step ▸ .enqueue pc
    next => cases step
  | dequeue t =>
    simp only [State.next] at step
    split at step
    next pc => exact Option.some_inj.mp step ▸ .dequeue pc
    next => cases step
  | lock t =>
    simp only [State.next] at step
    split at step
    next pc =>
      obtain ⟨monitor, acquired, rfl⟩ := Option.map_eq_some_iff.mp step
      obtain ⟨free, rfl⟩ := Monitor.acquire_eq acquired
      exact .lockToPush pc free
    next pc =>
      obtain ⟨monitor, acquired, rfl⟩ := Option.map_eq_some_iff.mp step
      obtain ⟨free, rfl⟩ := Monitor.acquire_eq acquired
      exact .lockToPop pc free
    next => cases step
  | push t =>
    simp only [State.next] at step
    split at step
    next pc => exact Option.some_inj.mp step ▸ .push pc
    next => cases step
  | test t =>
    simp only [State.next] at step
    split at step
    next pc =>
      split_ifs at step with empty
      · exact Option.some_inj.mp step ▸ .wait pc empty
      · exact Option.some_inj.mp step ▸ .goOn pc empty
    next => cases step
  | pop t =>
    simp only [State.next] at step
    split at step
    next pc filled => exact Option.some_inj.mp step ▸ .pop pc filled
    next => cases step
  | unlock t =>
    simp only [State.next] at step
    split at step
    next pc => exact Option.some_inj.mp step ▸ .unlock pc
    next pc => exact Option.some_inj.mp step ▸ .returnItem pc
    next => cases step
  | notifyOne t who =>
    simp only [State.next] at step
    split at step
    next pc =>
      obtain ⟨monitor, notified, rfl⟩ := Option.map_eq_some_iff.mp step
      obtain ⟨nobody, rfl⟩ | ⟨u, blocked, rfl⟩ := Monitor.notifyOne_spec notified
      · exact .notifyNobody pc nobody
      · exact .notifyOne pc blocked
    next => cases step
  | resume t =>
    simp only [State.next, Monitor.resume] at step
    split_ifs at step with goes
    · exact Option.some_inj.mp step ▸ .resume goes.1 goes.2
    · cases step
  | wake t =>
    simp only [State.next, Monitor.resume] at step
    split_ifs at step with goes
    · exact Option.some_inj.mp step ▸ .wake goes.1 goes.2
    · cases step

@[simp] theorem move_monitor (t : T) (pc : Pc α) : (s.move t pc).monitor = s.monitor := rfl
@[simp] theorem move_queue (t : T) (pc : Pc α) : (s.move t pc).queue = s.queue := rfl
@[simp] theorem move_pushedItems (t : T) (pc : Pc α) :
    (s.move t pc).pushedItems = s.pushedItems := rfl
@[simp] theorem move_poppedItems (t : T) (pc : Pc α) :
    (s.move t pc).poppedItems = s.poppedItems := rfl
@[simp] theorem move_returned (t : T) (pc : Pc α) : (s.move t pc).returned = s.returned := rfl
@[simp] theorem move_pc (t : T) (pc : Pc α) :
    (s.move t pc).pc = Function.update s.pc t pc := rfl

/-! ## The mutex and the blocked threads -/

/-- A thread at this place holds the mutex. -/
def Pc.Holds : Pc α → Prop
  | pushing _ | pushed | testing | popping | popped _ => True
  | outside | enqueue _ | notifying | dequeue | blocked => False

/-- Only the holder of the mutex is where one holds it, and only a blocked thread is in a
`wait`, once. -/
structure Exclusive (s : State T α) : Prop where
  holder : ∀ t, s.monitor.holder = some t ↔ (s.pc t).Holds
  blocked : ∀ t, t ∈ s.monitor.waiting ++ s.monitor.woken ↔ s.pc t = .blocked
  once : (s.monitor.waiting ++ s.monitor.woken).Nodup

section Exclusive

variable {t : T} {pc : Pc α} {holder : Option T}

/-- A thread moves without touching the mutex. -/
theorem Exclusive.holder_move (exclusive : Exclusive s) (same : pc.Holds ↔ (s.pc t).Holds)
    (u : T) : s.monitor.holder = some u ↔ (Function.update s.pc t pc u).Holds := by
  rw [exclusive.holder u]
  by_cases own : u = t
  · subst own
    rw [Function.update_self, same]
  · rw [Function.update_of_ne own]

/-- A thread takes the free mutex. -/
theorem Exclusive.holder_acquire (exclusive : Exclusive s) (free : s.monitor.holder = none)
    (holds : pc.Holds) (u : T) : some t = some u ↔ (Function.update s.pc t pc u).Holds := by
  by_cases own : u = t
  · subst own
    simp [holds]
  · have outside : ¬ (s.pc u).Holds := by
      rw [← exclusive.holder u, free]
      exact nofun
    rw [Function.update_of_ne own]
    exact iff_of_false (fun same => own (Option.some_inj.mp same).symm) outside

/-- The holder gives up the mutex. -/
theorem Exclusive.holder_release (exclusive : Exclusive s) (held : (s.pc t).Holds)
    (leaves : ¬ pc.Holds) (u : T) : none = some u ↔ (Function.update s.pc t pc u).Holds := by
  by_cases own : u = t
  · subst own
    simpa using leaves
  · have outside : ¬ (s.pc u).Holds := by
      rw [← exclusive.holder u, (exclusive.holder t).mpr held]
      exact fun same => own (Option.some_inj.mp same).symm
    rw [Function.update_of_ne own]
    exact iff_of_false nofun outside

/-- A thread that is not blocked moves to a place where it is not. -/
theorem Exclusive.blocked_move (exclusive : Exclusive s) (free : s.pc t ≠ .blocked)
    (goes : pc ≠ .blocked) (u : T) :
    u ∈ s.monitor.waiting ++ s.monitor.woken ↔ Function.update s.pc t pc u = .blocked := by
  rw [exclusive.blocked u]
  by_cases own : u = t
  · subst own
    rw [Function.update_self]
    exact iff_of_false free goes
  · rw [Function.update_of_ne own]

/-- A blocked thread goes on. -/
theorem Exclusive.blocked_resume (exclusive : Exclusive s) (goes : pc ≠ .blocked) (u : T) :
    u ∈ s.monitor.waiting.erase t ++ s.monitor.woken.erase t ↔
      Function.update s.pc t pc u = .blocked := by
  obtain ⟨waiting, woken, -⟩ := List.nodup_append.mp exclusive.once
  rw [List.mem_append, waiting.mem_erase_iff, woken.mem_erase_iff]
  by_cases own : u = t
  · subst own
    simp [goes]
  · rw [Function.update_of_ne own, ← exclusive.blocked u, List.mem_append]
    simp [own]

theorem Exclusive.once_resume (exclusive : Exclusive s) (t : T) :
    (s.monitor.waiting.erase t ++ s.monitor.woken.erase t).Nodup :=
  (List.erase_sublist.append List.erase_sublist).nodup exclusive.once

/-- A notification moves a thread from the waiting to the woken ones. -/
theorem perm_notifyOne {waiting woken : List T} (blocked : t ∈ waiting) :
    (waiting.erase t ++ t :: woken).Perm (waiting ++ woken) :=
  List.perm_middle.trans ((List.perm_cons_erase blocked).symm.append_right woken)

end Exclusive

theorem Exclusive.next (exclusive : Exclusive s) (step : Step s label s') : Exclusive s' := by
  cases step with
  | enqueue pc | dequeue pc | push pc | goOn pc _ | pop pc _ | notifyNobody pc _ =>
    exact
      { holder := exclusive.holder_move (by simp [pc, Pc.Holds])
        blocked := exclusive.blocked_move (by simp [pc]) (by simp)
        once := exclusive.once }
  | lockToPush pc free | lockToPop pc free =>
    exact
      { holder := exclusive.holder_acquire free (by simp [Pc.Holds])
        blocked := exclusive.blocked_move (by simp [pc]) (by simp)
        once := exclusive.once }
  | unlock pc | returnItem pc =>
    exact
      { holder := exclusive.holder_release (by simp [pc, Pc.Holds]) (by simp [Pc.Holds])
        blocked := exclusive.blocked_move (by simp [pc]) (by simp)
        once := exclusive.once }
  | @wait t pc empty =>
    have fresh : t ∉ s.monitor.waiting ++ s.monitor.woken := by
      simp [exclusive.blocked t, pc]
    refine
      { holder := exclusive.holder_release (by simp [pc, Pc.Holds]) (by simp [Pc.Holds])
        blocked := fun u => ?_
        once := List.nodup_cons.mpr ⟨fresh, exclusive.once⟩ }
    change u ∈ t :: (s.monitor.waiting ++ s.monitor.woken) ↔
      Function.update s.pc t .blocked u = .blocked
    rw [List.mem_cons, exclusive.blocked u]
    by_cases own : u = t
    · subst own
      simp
    · simp [own]
  | @notifyOne t u who pc blocked =>
    have moved : (s.monitor.waiting.erase u ++ u :: s.monitor.woken).Perm
        (s.monitor.waiting ++ s.monitor.woken) := perm_notifyOne blocked
    exact
      { holder := exclusive.holder_move (by simp [pc, Pc.Holds])
        blocked := fun u => moved.mem_iff.trans
          (exclusive.blocked_move (by simp [pc]) (by simp) u)
        once := moved.nodup_iff.mpr exclusive.once }
  | resume free _ | wake free _ =>
    exact
      { holder := exclusive.holder_acquire free (by simp [Pc.Holds])
        blocked := exclusive.blocked_resume (by simp)
        once := exclusive.once_resume _ }

/-! ## The items -/

/-- The item a thread has popped and not returned yet. -/
def Pc.inHand (t : T) : Pc α → List (T × α)
  | popped item => [(t, item)]
  | _ => []

/-- The items of one thread. -/
def ofThread (t : T) (items : List (T × α)) : List (T × α) :=
  items.filter fun entry => entry.1 = t

/-- Items leave the queue in the order they came in, and a thread returns what it popped. -/
structure Ordered (s : State T α) : Prop where
  filled : ∀ t, s.pc t = .popping → s.queue ≠ []
  items : s.poppedItems.map Prod.snd ++ s.queue = s.pushedItems
  returned : ∀ t, ofThread t s.poppedItems = ofThread t s.returned ++ (s.pc t).inHand t

section Ordered

variable {t : T} {pc : Pc α}

/-- A thread with nothing in hand moves to where it has nothing in hand. -/
theorem Ordered.returned_move (ordered : Ordered s) (before : (s.pc t).inHand t = [])
    (after : pc.inHand t = []) (u : T) :
    ofThread u s.poppedItems =
      ofThread u s.returned ++ (Function.update s.pc t pc u).inHand u := by
  rw [ordered.returned u]
  by_cases own : u = t
  · subst own
    rw [Function.update_self, before, after]
  · rw [Function.update_of_ne own]

/-- Only the holder of the mutex is about to pop. -/
theorem Ordered.filled_move (ordered : Ordered s) (goes : pc ≠ .popping) {queue : List α}
    (same : ∀ u, u ≠ t → s.pc u = .popping → s.queue ≠ [] → queue ≠ []) (u : T)
    (popping : Function.update s.pc t pc u = .popping) : queue ≠ [] := by
  by_cases own : u = t
  · subst own
    rw [Function.update_self] at popping
    exact absurd popping goes
  · rw [Function.update_of_ne own] at popping
    exact same u own popping (ordered.filled u popping)

theorem ofThread_snoc (t u : T) (items : List (T × α)) (item : α) :
    ofThread u (items ++ [(t, item)]) =
      ofThread u items ++ if u = t then [(t, item)] else [] := by
  unfold ofThread
  rw [List.filter_append]
  by_cases own : u = t
  · simp [own]
  · simp [own, Ne.symm own]

end Ordered

theorem Ordered.next (exclusive : Exclusive s) (ordered : Ordered s)
    (step : Step s label s') : Ordered s' := by
  cases step with
  | enqueue pc | dequeue pc | lockToPush pc _ | lockToPop pc _ | wait pc _ | unlock pc
  | notifyNobody pc _ | notifyOne pc _ =>
    exact
      { filled := ordered.filled_move (by simp) fun _ _ _ filled => filled
        items := ordered.items
        returned := ordered.returned_move (by simp [pc, Pc.inHand]) rfl }
  | @resume t _ woken | @wake t _ woken =>
    have pc : s.pc t = .blocked := (exclusive.blocked t).mp (by simp [woken])
    exact
      { filled := ordered.filled_move (by simp) fun _ _ _ filled => filled
        items := ordered.items
        returned := ordered.returned_move (by simp [pc, Pc.inHand]) rfl }
  | push pc =>
    exact
      { filled := ordered.filled_move (by simp) fun _ _ _ _ => by simp
        items := by
          simp only [move_queue, move_poppedItems, move_pushedItems]
          rw [← ordered.items, List.append_assoc]
        returned := ordered.returned_move (by simp [pc, Pc.inHand]) rfl }
  | @goOn t pc filled =>
    exact
      { filled := fun _ _ => filled
        items := ordered.items
        returned := ordered.returned_move (by simp [pc, Pc.inHand]) rfl }
  | @pop t item queue pc filled =>
    -- Nobody else is about to pop, as nobody else holds the mutex.
    have holder : s.monitor.holder = some t := (exclusive.holder t).mpr (by simp [pc, Pc.Holds])
    have alone : ∀ u, u ≠ t → s.pc u ≠ .popping := fun u other popping => by
      have same := (exclusive.holder u).mpr (by simp [popping, Pc.Holds])
      exact other (Option.some_inj.mp (same.symm.trans holder))
    refine
      { filled := ordered.filled_move (by simp) fun u other popping =>
          absurd popping (alone u other)
        items := ?_
        returned := fun u => ?_ }
    · simp only [move_queue, move_poppedItems, move_pushedItems]
      rw [← ordered.items, filled]
      simp
    · simp only [move_poppedItems, move_returned, move_pc]
      rw [ofThread_snoc, ordered.returned u]
      by_cases own : u = t
      · subst own
        simp [pc, Pc.inHand]
      · simp [own]
  | @returnItem t item pc =>
    refine
      { filled := ordered.filled_move (by simp) fun _ _ _ filled => filled
        items := ordered.items
        returned := fun u => ?_ }
    simp only [move_poppedItems, move_returned, move_pc]
    rw [ofThread_snoc, ordered.returned u]
    by_cases own : u = t
    · subst own
      simp [pc, Pc.inHand]
    · simp [own]

theorem exclusive_ordered (reach : (machine T α).Reachable s) : Exclusive s ∧ Ordered s := by
  refine reach.invariant (I := fun s => Exclusive s ∧ Ordered s) ⟨?_, ?_⟩ ?_
  · exact
      { holder := by simp [machine, Pc.Holds]
        blocked := by simp [machine]
        once := by simp [machine] }
  · exact
      { filled := by simp [machine]
        items := rfl
        returned := by simp [machine, ofThread, Pc.inHand] }
  · rintro s label s' ⟨exclusive, ordered⟩ step
    have step := step_of_next step
    exact ⟨exclusive.next step, ordered.next exclusive step⟩

/-- However the threads are interleaved, at most one of them holds the mutex, the items that
were popped, in the order of the pops, followed by those in the queue are the items that were
pushed, in the order of the pushes, and every call of `dequeue` returns what it popped. -/
theorem fifo (s : State T α) (reach : (machine T α).Reachable s) :
    (∀ t u, (s.pc t).Holds → (s.pc u).Holds → t = u) ∧
      s.poppedItems.map Prod.snd ++ s.queue = s.pushedItems ∧
      ∀ t, ofThread t s.poppedItems = ofThread t s.returned ++ (s.pc t).inHand t := by
  obtain ⟨exclusive, ordered⟩ := exclusive_ordered reach
  refine ⟨fun t u ht hu => ?_, ordered.items, ordered.returned⟩
  exact Option.some_inj.mp
    (((exclusive.holder t).mpr ht).symm.trans ((exclusive.holder u).mpr hu))

/-- A thread waits for an item, another one enqueues it and notifies the first. -/
def handOver : List (Label Bool ℕ) :=
  [.dequeue true, .lock true, .test true, .enqueue false 7, .lock false, .push false,
    .unlock false, .notifyOne false (some true), .resume true, .test true, .pop true,
    .unlock true]

theorem fifo_handOver : ∃ s, (machine Bool ℕ).Reachable s ∧ s.returned = [(true, 7)] ∧
    s.poppedItems.map Prod.snd ++ s.queue = s.pushedItems := by
  have computed : ((machine Bool ℕ).exec (machine Bool ℕ).start handOver).map
      (fun s => s.returned) = some [(true, 7)] := by decide
  obtain ⟨s, reach, last⟩ := Machine.observe_of_exec computed
  exact ⟨s, reach, last, (fifo s reach).2.1⟩

/-! ## Waking up -/

/-- The thread is about to notify somebody or to look at the queue, or it has just looked. -/
def Pc.attends : Pc α → ℕ
  | pushed | notifying | dequeue | testing | popping => 1
  | outside | enqueue _ | pushing _ | blocked | popped _ => 0

/-- While somebody waits without having been notified, every item in the queue has a thread
that attends to it. -/
def Attended [Fintype T] (s : State T α) : Prop :=
  s.monitor.waiting ≠ [] →
    s.queue.length ≤ s.monitor.woken.length + workload Pc.attends s.pc

/-- How many steps the calls in progress still have at most. -/
def Pc.rank : Pc α → ℕ
  | enqueue _ => 8
  | pushing _ => 7
  | pushed => 6
  | notifying => 5
  | dequeue => 4
  | testing => 3
  | popping => 2
  | popped _ => 1
  | outside | blocked => 0

/-- How many steps are left until all threads wait or are done. A notified thread is about
to look at the queue. -/
def State.rank [Fintype T] (s : State T α) : ℕ :=
  workload Pc.rank s.pc + 4 * s.monitor.woken.length

/-- The step goes on with a call in progress, and does so for a reason. -/
def Label.GoesOn : Label T α → Prop
  | enqueue _ _ | dequeue _ | wake _ => False
  | lock _ | push _ | test _ | pop _ | unlock _ | notifyOne _ _ | resume _ => True

instance : DecidablePred (Label.GoesOn (T := T) (α := α)) := fun label =>
  match label with
  | .enqueue _ _ | .dequeue _ | .wake _ => .isFalse id
  | .lock _ | .push _ | .test _ | .pop _ | .unlock _ | .notifyOne _ _ | .resume _ =>
    .isTrue trivial

/-- Where no call in progress can go on for a reason, all threads are outside the queue or
wait without having been notified. -/
theorem settled_of_stuck (exclusive : Exclusive s) (ordered : Ordered s)
    (stuck : ∀ label : Label T α, label.GoesOn → s.next label = none) :
    s.monitor.woken = [] ∧ ∀ t, s.pc t = .outside ∨ s.pc t = .blocked := by
  -- The holder of the mutex could go on.
  have free : s.monitor.holder = none := by
    by_contra held
    obtain ⟨t, holder⟩ := Option.ne_none_iff_exists'.mp held
    have holds := (exclusive.holder t).mp holder
    cases pc : s.pc t with
    | outside | enqueue | notifying | dequeue | blocked => simp [pc, Pc.Holds] at holds
    | pushing item => simpa [State.next, pc] using stuck (.push t) trivial
    | pushed => simpa [State.next, pc] using stuck (.unlock t) trivial
    | testing =>
      have none := stuck (.test t) trivial
      simp only [State.next, pc] at none
      split_ifs at none
    | popping =>
      obtain ⟨item, queue, filled⟩ := List.exists_cons_of_ne_nil (ordered.filled t pc)
      simpa [State.next, pc, filled] using stuck (.pop t) trivial
    | popped item => simpa [State.next, pc] using stuck (.unlock t) trivial
  have unwoken : s.monitor.woken = [] := by
    refine List.eq_nil_iff_forall_not_mem.mpr fun t woken => ?_
    simpa [State.next, Monitor.resume, free, woken] using stuck (.resume t) trivial
  refine ⟨unwoken, fun t => ?_⟩
  cases pc : s.pc t with
  | outside => exact .inl rfl
  | blocked => exact .inr rfl
  | enqueue item => simpa [State.next, pc, Monitor.acquire, free] using stuck (.lock t) trivial
  | dequeue => simpa [State.next, pc, Monitor.acquire, free] using stuck (.lock t) trivial
  | notifying =>
    cases blocked : s.monitor.waiting with
    | nil =>
      simpa [State.next, pc, Monitor.notifyOne, blocked] using stuck (.notifyOne t none) trivial
    | cons u _ =>
      simpa [State.next, pc, Monitor.notifyOne, blocked] using
        stuck (.notifyOne t (some u)) trivial
  | pushing | pushed | testing | popping | popped =>
    have holder := (exclusive.holder t).mpr (by simp [pc, Pc.Holds])
    rw [free] at holder
    cases holder

section Awake

variable [Fintype T]

theorem Attended.next (exclusive : Exclusive s) (attended : Attended s)
    (step : Step s label s') : Attended s' := by
  have moves := workload_update (Pc.attends (α := α)) s.pc
  intro waits
  cases step with
  | enqueue pc | dequeue pc | lockToPush pc _ | lockToPop pc _ | goOn pc _ | unlock pc
  | returnItem pc =>
    exact (attended waits).trans
      (Nat.add_le_add_left (workload_le_update (by simp [pc, Pc.attends])) _)
  | @push t item pc =>
    have before := attended waits
    have moved := moves t .pushed
    simp only [pc, Pc.attends] at moved
    simp only [move_queue, move_monitor, move_pc, List.length_append, List.length_singleton]
    omega
  | @pop t item queue pc filled =>
    have before := attended waits
    have moved := moves t (.popped item)
    simp only [pc, Pc.attends] at moved
    simp only [filled, List.length_cons] at before
    simp only [move_queue, move_monitor, move_pc]
    omega
  | wait pc empty =>
    -- Whoever begins to wait has found the queue empty.
    simp [empty]
  | notifyNobody _ nobody => exact absurd nobody waits
  | @notifyOne t u _ pc blocked =>
    have before := attended (List.ne_nil_of_mem blocked)
    have moved := moves t .outside
    simp only [pc, Pc.attends] at moved
    simp only [move_queue, move_monitor, move_pc, List.length_cons]
    omega
  | @resume t free woken =>
    have pc : s.pc t = .blocked := (exclusive.blocked t).mp (by simp [woken])
    have before := attended fun none => waits (by simp [none])
    have moved := moves t .testing
    have left := List.length_erase_of_mem woken
    have some := List.length_pos_of_mem woken
    simp only [pc, Pc.attends] at moved
    simp only [move_queue, move_monitor, move_pc]
    omega
  | @wake t free blocked =>
    have pc : s.pc t = .blocked := (exclusive.blocked t).mp (by simp [blocked])
    have before := attended (List.ne_nil_of_mem blocked)
    have moved := moves t .testing
    have unwoken : t ∉ s.monitor.woken := fun woken =>
      (List.nodup_append.mp exclusive.once).2.2 t blocked t woken rfl
    simp only [pc, Pc.attends] at moved
    simp only [move_queue, move_monitor, move_pc, List.erase_of_not_mem unwoken]
    omega

theorem attended (reach : (machine T α).Reachable s) : Attended s := by
  refine Machine.ReachableWhere.invariant_of (J := Exclusive) reach
    (fun s reached => (exclusive_ordered reached).1) (fun waits => absurd rfl waits) ?_
  intro s label s' exclusive attended _ step
  exact attended.next exclusive (step_of_next step)

/-- A step that goes on with a call brings it nearer to its end. -/
theorem rank_next (exclusive : Exclusive s) (step : Step s label s') (goesOn : label.GoesOn) :
    s'.rank < s.rank := by
  have moves := workload_update (Pc.rank (α := α)) s.pc
  unfold State.rank
  cases step with
  | enqueue | dequeue | wake => exact goesOn.elim
  | lockToPush pc _ | lockToPop pc _ | push pc | wait pc _ | goOn pc _ | pop pc _ | unlock pc
  | returnItem pc | notifyNobody pc _ =>
    exact Nat.add_lt_add_right (workload_update_lt (by simp [pc, Pc.rank])) _
  | @notifyOne t u _ pc blocked =>
    have moved := moves t .outside
    simp only [pc, Pc.rank] at moved
    simp only [move_monitor, move_pc, List.length_cons]
    omega
  | @resume t free woken =>
    have pc : s.pc t = .blocked := (exclusive.blocked t).mp (by simp [woken])
    have moved := moves t .testing
    have left := List.length_erase_of_mem woken
    have some := List.length_pos_of_mem woken
    simp only [pc, Pc.rank] at moved
    simp only [move_monitor, move_pc]
    omega

/-- No wake-up is lost: whatever happened before, the calls in progress go on for a bounded
number of steps, even if no `wait` ends without a reason, and where they cannot go on any
more every `enqueue` has returned, and a `dequeue` waits only if the queue is empty. -/
theorem awake (s : State T α) (reach : (machine T α).Reachable s) :
    (∀ labels s', (machine T α).Run (fun _ label => label.GoesOn) s labels s' →
      labels.length ≤ s.rank) ∧
    ((∀ label : Label T α, label.GoesOn → (machine T α).next s label = none) →
      (∀ t, s.pc t = .outside ∨ s.pc t = .blocked) ∧
        (s.queue = [] ∨ ∀ t, s.pc t ≠ .blocked)) := by
  refine ⟨fun labels s' run => ?_, fun stuck => ?_⟩
  · induction run with
    | nil => exact Nat.zero_le _
    | cons goesOn step _ ih =>
      have closer := rank_next (exclusive_ordered reach).1 (step_of_next step) goesOn
      have rest := ih (reach.snoc step)
      rw [List.length_cons]
      omega
  · obtain ⟨exclusive, ordered⟩ := exclusive_ordered reach
    obtain ⟨unwoken, settled⟩ := settled_of_stuck exclusive ordered stuck
    refine ⟨settled, ?_⟩
    by_cases nobody : s.monitor.waiting = []
    · refine .inr fun t blocked => ?_
      simpa [nobody, unwoken] using (exclusive.blocked t).mpr blocked
    · have idle : workload Pc.attends s.pc = 0 := workload_eq_zero fun t => by
        rcases settled t with pc | pc <;> simp [pc, Pc.attends]
      have few := attended reach nobody
      rw [unwoken, idle] at few
      exact .inl (List.eq_nil_of_length_eq_zero (Nat.le_zero.mp few))

end Awake

/-- Somebody who waits for an item of an empty queue cannot go on. -/
theorem awake_waiting : ∃ s, (machine Bool ℕ).Reachable s ∧ s.pc true = .blocked ∧
    (∀ label : Label Bool ℕ, label.GoesOn → (machine Bool ℕ).next s label = none) ∧
      s.queue = [] := by
  have computed : ((machine Bool ℕ).exec (machine Bool ℕ).start (handOver.take 3)).map
      (fun s => (s.pc true, s.pc false, s.monitor)) =
      some (.blocked, .outside, { holder := none, waiting := [true], woken := [] }) := by decide
  obtain ⟨s, reach, last⟩ := Machine.observe_of_exec computed
  simp only [Prod.mk.injEq] at last
  obtain ⟨consumer, producer, monitor⟩ := last
  have stuck : ∀ label : Label Bool ℕ, label.GoesOn →
      (machine Bool ℕ).next s label = none := by
    intro label goesOn
    change s.next label = none
    cases label with
    | enqueue | dequeue | wake => exact goesOn.elim
    | lock t | push t | test t | pop t | unlock t | notifyOne t _ =>
      cases t <;> simp [State.next, consumer, producer]
    | resume t => simp [State.next, Monitor.resume, monitor]
  refine ⟨s, reach, consumer, stuck, ?_⟩
  exact ((awake s reach).2 stuck).2.resolve_right fun nobody => nobody true consumer

end BlockingQueue

end Apple

end FileEvents
