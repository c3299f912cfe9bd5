import Mathlib.Data.List.Basic

/-!
# Monitors

A mutex together with a condition variable, as the C++ standard describes them: a
thread that holds the mutex may give it up and block in one step; a blocked thread
goes on when it was notified, when its time is up or for no reason at all, and in
each case only once it holds the mutex again. Notifying all threads, or one of them,
reaches those that are blocked at that moment and no others.
-/

namespace Concurrency

/-- Why a blocked thread goes on. -/
inductive Wake
  | notified
  | timeout
  | spurious
  deriving DecidableEq, Repr

/-- A mutex and a condition variable used by the threads `T`. -/
structure Monitor (T : Type*) where
  /-- The thread that holds the mutex. -/
  holder : Option T
  /-- The threads blocked on the condition variable. -/
  waiting : List T
  /-- The threads that were notified and have not gone on yet. -/
  woken : List T
  deriving DecidableEq, Repr

namespace Monitor

variable {T : Type*} {m m' : Monitor T} {t : T} {w : Wake}

/-- A monitor nobody holds or waits for. -/
def free : Monitor T := { holder := none, waiting := [], woken := [] }

/-- Takes the mutex, once it is free. -/
def acquire (m : Monitor T) (t : T) : Option (Monitor T) :=
  if m.holder = none then some { m with holder := some t } else none

/-- Gives up the mutex. -/
def release (m : Monitor T) : Monitor T := { m with holder := none }

/-- Gives up the mutex and blocks. -/
def wait (m : Monitor T) (t : T) : Monitor T :=
  { m with holder := none, waiting := t :: m.waiting }

/-- Notifies every blocked thread. -/
def notifyAll (m : Monitor T) : Monitor T :=
  { m with waiting := [], woken := m.waiting ++ m.woken }

/-- Notifies one blocked thread, if there is one. -/
def notifyOne [DecidableEq T] (m : Monitor T) : Option T → Option (Monitor T)
  | none => if m.waiting = [] then some m else none
  | some t =>
    if t ∈ m.waiting then some { m with waiting := m.waiting.erase t, woken := t :: m.woken }
    else none

/-- A blocked thread goes on, holding the mutex again. -/
def resume [DecidableEq T] (m : Monitor T) (t : T) (w : Wake) : Option (Monitor T) :=
  let go : Monitor T :=
    { holder := some t, waiting := m.waiting.erase t, woken := m.woken.erase t }
  match w with
  | .notified => if m.holder = none ∧ t ∈ m.woken then some go else none
  | .timeout => if m.holder = none ∧ (t ∈ m.waiting ∨ t ∈ m.woken) then some go else none
  | .spurious => if m.holder = none ∧ t ∈ m.waiting then some go else none

@[simp] theorem holder_free : (free : Monitor T).holder = none := rfl
@[simp] theorem waiting_free : (free : Monitor T).waiting = [] := rfl
@[simp] theorem woken_free : (free : Monitor T).woken = [] := rfl
@[simp] theorem holder_release : m.release.holder = none := rfl
@[simp] theorem waiting_release : m.release.waiting = m.waiting := rfl
@[simp] theorem woken_release : m.release.woken = m.woken := rfl
@[simp] theorem holder_wait : (m.wait t).holder = none := rfl
@[simp] theorem waiting_wait : (m.wait t).waiting = t :: m.waiting := rfl
@[simp] theorem woken_wait : (m.wait t).woken = m.woken := rfl
@[simp] theorem holder_notifyAll : m.notifyAll.holder = m.holder := rfl
@[simp] theorem waiting_notifyAll : m.notifyAll.waiting = [] := rfl
@[simp] theorem woken_notifyAll : m.notifyAll.woken = m.waiting ++ m.woken := rfl

theorem acquire_spec (h : m.acquire t = some m') :
    m.holder = none ∧ m'.holder = some t ∧ m'.woken = m.woken := by
  unfold acquire at h
  split_ifs at h with hfree
  obtain rfl := Option.some_inj.mp h
  exact ⟨hfree, rfl, rfl⟩

theorem waiting_of_acquire (h : m.acquire t = some m') : m'.waiting = m.waiting := by
  unfold acquire at h
  split_ifs at h
  exact (congrArg waiting (Option.some_inj.mp h)).symm

theorem acquire_eq (h : m.acquire t = some m') :
    m.holder = none ∧ m' = { m with holder := some t } := by
  unfold acquire at h
  split_ifs at h with hfree
  exact ⟨hfree, (Option.some_inj.mp h).symm⟩

/-- One notification reaches a blocked thread, or there is none. -/
theorem notifyOne_spec [DecidableEq T] {who : Option T} (h : m.notifyOne who = some m') :
    (m.waiting = [] ∧ m' = m) ∨ ∃ t ∈ m.waiting,
      m' = { m with waiting := m.waiting.erase t, woken := t :: m.woken } := by
  cases who with
  | none =>
    simp only [notifyOne] at h
    split_ifs at h with nobody
    exact .inl ⟨nobody, (Option.some_inj.mp h).symm⟩
  | some t =>
    simp only [notifyOne] at h
    split_ifs at h with blocked
    exact .inr ⟨t, blocked, (Option.some_inj.mp h).symm⟩

/-- Whoever goes on found the mutex free and holds it; to go on notified one has to
have been notified. -/
theorem resume_spec [DecidableEq T] (h : m.resume t w = some m') :
    m.holder = none ∧ m'.holder = some t ∧ m'.woken = m.woken.erase t ∧
      (w = .notified → t ∈ m.woken) := by
  cases w with
  | notified =>
    simp only [resume] at h
    split_ifs at h with hgo
    obtain rfl := Option.some_inj.mp h
    exact ⟨hgo.1, rfl, rfl, fun _ => hgo.2⟩
  | timeout | spurious =>
    simp only [resume] at h
    split_ifs at h with hgo
    obtain rfl := Option.some_inj.mp h
    exact ⟨hgo.1, rfl, rfl, fun hw => by cases hw⟩

theorem waiting_of_resume [DecidableEq T] (h : m.resume t w = some m') :
    m'.waiting = m.waiting.erase t := by
  cases w <;>
  · simp only [resume] at h
    split_ifs at h
    exact (congrArg waiting (Option.some_inj.mp h)).symm

/-- Only a thread that was not notified goes on for no reason. -/
theorem mem_waiting_of_spurious [DecidableEq T] (h : m.resume t .spurious = some m') :
    t ∈ m.waiting := by
  simp only [resume] at h
  split_ifs at h with hgo
  exact hgo.2

end Monitor

end Concurrency
