import FileEvents.Linux.EventBuffer
import FileEvents.Wire.Batches

/-!
# The count of available bytes

`handleEvents` of `linux_fsnotifier.cpp` asks once, with `FIONREAD`, how many bytes of events are
queued, and then reads until it has read as many. Each `read` takes as many whole events as fit
into the buffer, also such that were queued since, so it may take more than what is left of the
count. The count is unsigned and wraps around.

## Main definitions

* `Reading` — the count and the queue before a `read`
* `handleEvents` — the loop over the `read`s
* `NeverWraps` — no `read` takes more than what is left of the count
* `Reading.LeavesLater` — a `read` leaves what was queued since the count was taken

## Main results

* `neverWraps_iff` — the count never wraps exactly if every `read` leaves what was queued since
-/

namespace FileEvents

namespace Linux

open Wire

namespace AvailableBytes

/-- The size of an event. -/
def size (event : RawEvent) : ℕ := sizeofInotifyEvent + event.len

/-- The size of some events is the number of their bytes. -/
theorem totalSize_eq (events : List RawEvent) :
    totalSize size events = (encodeAll events).length := by
  induction events with
  | nil => rfl
  | cons event events ih =>
    rw [totalSize_cons, ih, encodeAll_cons, List.length_append, length_encode, size]

/-- The loop before a `read`. -/
structure Reading where
  /-- `available`. -/
  available : UInt32
  /-- The queued events that `FIONREAD` counted. -/
  counted : List RawEvent
  /-- The events queued since, behind those. -/
  later : List RawEvent

namespace Reading

variable (reading : Reading)

/-- `FIONREAD` counts what is queued. -/
def start (queued : List RawEvent) : Reading where
  available := UInt32.ofNat (totalSize size queued)
  counted := queued
  later := []

/-- More events are queued. -/
def arrive (arrived : List RawEvent) : Reading :=
  { reading with later := reading.later ++ arrived }

/-- The events that `read` takes. -/
def batch : List RawEvent := fitting size EVENT_BUFFER_SIZE (reading.counted ++ reading.later)

/-- What `read` returns. -/
def bytesRead : ℕ := totalSize size reading.batch

/-- `available -= bytesRead`, behind the batch. -/
def advance : Reading where
  available := reading.available - UInt32.ofNat reading.bytesRead
  counted := reading.counted.drop reading.batch.length
  later := reading.later.drop (reading.batch.length - reading.counted.length)

/-- The events left of those that were counted do not fit into the buffer together with the
first one queued since. -/
def LeavesLater : Prop :=
  ∀ event ∈ reading.later.head?,
    EVENT_BUFFER_SIZE < totalSize size reading.counted + size event

instance : Decidable reading.LeavesLater :=
  inferInstanceAs (Decidable (∀ event ∈ reading.later.head?,
    EVENT_BUFFER_SIZE < totalSize size reading.counted + size event))

end Reading

/-- What happens in one iteration. -/
structure Round where
  /-- The events queued since the `read` before, or since `FIONREAD`. -/
  arrived : List RawEvent
  /-- `read` fails, or finds the end of the file. -/
  failure : Bool
  /-- `handleEvent` throws on one of the events. -/
  throws : Bool

/-- How the loop ends. -/
inductive Ending
  /-- `handleEvents` has returned or thrown. -/
  | left
  /-- It is in front of another `read`. -/
  | reading
  deriving DecidableEq

/-- The loop of `handleEvents`: the successful `read`s, and whether it has ended. -/
def handleEvents : List Round → Reading → List Reading × Ending
  | [], reading => ([], if reading.available = 0 then .left else .reading)
  | round :: rounds, reading =>
    if reading.available = 0 then ([], .left)
    else
      let reading := reading.arrive round.arrived
      -- There is nothing to read, or not even one event fits.
      if round.failure ∨ reading.batch = [] then ([], .left)
      else if round.throws then ([reading], .left)
      else
        let (readings, ending) := handleEvents rounds reading.advance
        (reading :: readings, ending)

/-- No `read` takes more than what is left of the count, there are not more `read`s than the
count admits, and then the loop has ended. -/
structure NeverWraps (queued : List RawEvent) (rounds : List Round) : Prop where
  bounded : ∀ reading ∈ (handleEvents rounds (.start queued)).1,
    reading.bytesRead ≤ reading.available.toNat
  few : (handleEvents rounds (.start queued)).1.length ≤
    (Reading.start queued).available.toNat / sizeofInotifyEvent
  ends : (Reading.start queued).available.toNat / sizeofInotifyEvent < rounds.length →
    (handleEvents rounds (.start queued)).2 = .left

/-! ## One iteration -/

section Iteration

variable {reading : Reading}

/-- The count is that of the events it was taken of and that are not read yet. -/
def Reading.Counts (reading : Reading) : Prop :=
  reading.available.toNat = totalSize size reading.counted

theorem counts_start {queued : List RawEvent} (few : totalSize size queued < UInt32.size) :
    (Reading.start queued).Counts :=
  UInt32.toNat_ofNat_of_lt' few

/-- A batch that leaves what was queued since is the one of the counted events alone. -/
theorem batch_of_leavesLater (leaves : reading.LeavesLater) :
    reading.batch = fitting size EVENT_BUFFER_SIZE reading.counted := by
  unfold Reading.batch
  unfold Reading.LeavesLater at leaves
  cases later : reading.later with
  | nil => rw [List.append_nil]
  | cons event events =>
    rw [later] at leaves
    exact fitting_append_of_blocked (leaves event rfl)

/-- The bytes of such a batch are counted. -/
theorem bytesRead_add (leaves : reading.LeavesLater) :
    reading.bytesRead + totalSize size reading.advance.counted =
      totalSize size reading.counted := by
  have parts := @totalSize_fitting_add _ size EVENT_BUFFER_SIZE reading.counted
  rwa [← batch_of_leavesLater leaves] at parts

/-- A read takes no more than was counted exactly if it leaves what was queued since. -/
theorem leavesLater_iff (counts : reading.Counts) :
    reading.bytesRead ≤ reading.available.toNat ↔ reading.LeavesLater := by
  rw [counts]
  constructor
  · intro bounded event first
    by_contra fits
    obtain ⟨events, later⟩ := List.head?_eq_some_iff.mp first
    -- The event is read together with all that was counted.
    have all : reading.counted ++ [event] <+: reading.batch := by
      rw [Reading.batch, later, List.append_cons _ event events]
      refine prefix_fitting_append ?_
      rw [totalSize_append, totalSize_cons, totalSize_nil]
      omega
    obtain ⟨more, same⟩ := all
    rw [Reading.bytesRead, ← same, totalSize_append, totalSize_append, totalSize_cons, size,
      sizeofInotifyEvent] at bounded
    omega
  · intro leaves
    have parts := bytesRead_add leaves
    omega

/-- Then the count is right again afterwards. -/
theorem Reading.Counts.advance (counts : reading.Counts) (leaves : reading.LeavesLater) :
    reading.advance.Counts := by
  have bounded := (leavesLater_iff counts).mpr leaves
  have parts := bytesRead_add leaves
  have small : reading.bytesRead < UInt32.size :=
    Nat.lt_of_le_of_lt bounded reading.available.toNat_lt
  have same : (UInt32.ofNat reading.bytesRead).toNat = reading.bytesRead :=
    UInt32.toNat_ofNat_of_lt' small
  have sub : reading.advance.available.toNat = reading.available.toNat - reading.bytesRead := by
    rw [Reading.advance, UInt32.toNat_sub_of_le _ _ (by rwa [UInt32.le_iff_toNat_le, same]), same]
  rw [Reading.Counts] at counts ⊢
  omega

/-- A batch has the size of a header at least. -/
theorem sizeof_le_bytesRead (some : reading.batch ≠ []) :
    sizeofInotifyEvent ≤ reading.bytesRead := by
  obtain ⟨event, events, same⟩ := List.exists_cons_of_ne_nil some
  rw [Reading.bytesRead, same, totalSize_cons, size]
  omega

end Iteration

/-! ## The loop -/

section Loop

variable {rounds : List Round} {reading : Reading}

/-- An iteration ends the loop without a `read`, or it makes one, after which the loop ends or
goes on. -/
theorem handleEvents_cons (round : Round) (rounds : List Round) (reading : Reading) :
    handleEvents (round :: rounds) reading = ([], .left) ∨
      ((reading.arrive round.arrived).batch ≠ [] ∧
        (handleEvents (round :: rounds) reading = ([reading.arrive round.arrived], .left) ∨
          handleEvents (round :: rounds) reading =
            (reading.arrive round.arrived ::
                (handleEvents rounds (reading.arrive round.arrived).advance).1,
              (handleEvents rounds (reading.arrive round.arrived).advance).2))) := by
  by_cases done : reading.available = 0
  · exact .inl (if_pos done)
  · rw [handleEvents, if_neg done]
    by_cases ended : round.failure ∨ (reading.arrive round.arrived).batch = []
    · exact .inl (if_pos ended)
    · refine .inr ⟨(not_or.mp ended).2, ?_⟩
      dsimp only
      rw [if_neg ended]
      by_cases thrown : round.throws
      · exact .inl (if_pos thrown)
      · exact .inr (if_neg thrown)

/-- What is wrong with the first wrong `read` is that it does not leave what was queued since.
The induction is on the rounds; up to there the count is right. -/
theorem bounded_iff (counts : reading.Counts) :
    (∀ before ∈ (handleEvents rounds reading).1, before.bytesRead ≤ before.available.toNat) ↔
      ∀ before ∈ (handleEvents rounds reading).1, before.LeavesLater := by
  induction rounds generalizing reading with
  | nil => simp [handleEvents]
  | cons round rounds ih =>
    have arrived : (reading.arrive round.arrived).Counts := counts
    rcases handleEvents_cons round rounds reading with same | ⟨-, same | same⟩
    · simp [same]
    · simpa [same] using leavesLater_iff arrived
    · simp only [same, List.forall_mem_cons, leavesLater_iff arrived]
      exact and_congr_right fun leaves => ih (arrived.advance leaves)

/-- There are no more reads than the count admits. -/
theorem length_le (counts : reading.Counts)
    (leave : ∀ before ∈ (handleEvents rounds reading).1, before.LeavesLater) :
    sizeofInotifyEvent * (handleEvents rounds reading).1.length ≤ reading.available.toNat := by
  induction rounds generalizing reading with
  | nil => simp [handleEvents]
  | cons round rounds ih =>
    have arrived : (reading.arrive round.arrived).Counts := counts
    have same_available : (reading.arrive round.arrived).available = reading.available := rfl
    rcases handleEvents_cons round rounds reading with same | ⟨some, same | same⟩
    · simp [same]
    · rw [same, List.forall_mem_cons] at leave
      have bounded := (leavesLater_iff arrived).mpr leave.1
      have least := sizeof_le_bytesRead some
      rw [same_available] at bounded
      simpa [same] using Nat.le_trans least bounded
    · rw [same, List.forall_mem_cons] at leave
      obtain ⟨first, others⟩ := leave
      have rest := ih (arrived.advance first) others
      have least := sizeof_le_bytesRead some
      have parts := bytesRead_add first
      -- The count before is that after the read and what was read.
      rw [arrived.advance first] at rest
      rw [← same_available, arrived, same, List.length_cons, Nat.mul_succ]
      omega

/-- A loop that has not ended has made a `read` in every round. -/
theorem length_of_reading (unfinished : (handleEvents rounds reading).2 = .reading) :
    (handleEvents rounds reading).1.length = rounds.length := by
  induction rounds generalizing reading with
  | nil => rfl
  | cons round rounds ih =>
    rcases handleEvents_cons round rounds reading with same | ⟨-, same | same⟩
    · simp [same] at unfinished
    · simp [same] at unfinished
    · rw [same] at unfinished ⊢
      exact congrArg Nat.succ (ih unfinished)

/-- No `read` takes more than what is left of the count, so that it does not wrap around and the
loop ends after as many reads as it admits, exactly if every `read` leaves what was queued
since: if anything was, the counted events that are left do not fit into the buffer together
with the first one of it. -/
theorem neverWraps_iff (queued : List RawEvent) (rounds : List Round)
    (few : totalSize size queued < UInt32.size) :
    NeverWraps queued rounds ↔
      ∀ reading ∈ (handleEvents rounds (.start queued)).1, reading.LeavesLater := by
  have counts := counts_start few
  constructor
  · exact fun never => (bounded_iff counts).mp never.bounded
  · intro leave
    have length : (handleEvents rounds (.start queued)).1.length ≤
        (Reading.start queued).available.toNat / sizeofInotifyEvent := by
      rw [Nat.le_div_iff_mul_le (by decide), Nat.mul_comm]
      exact length_le counts leave
    constructor
    case bounded => exact (bounded_iff counts).mpr leave
    case few => exact length
    case ends =>
      intro enough
      cases ending : (handleEvents rounds (.start queued)).2 with
      | left => rfl
      | reading =>
        rw [length_of_reading ending] at length
        omega

/-- An event of the watched directory itself. -/
def bareEvent : RawEvent where
  wd := 1
  mask := IN_DELETE_SELF
  cookie := 0
  name := []
  padding := 0
  clean := List.not_mem_nil
  terminated := fun named => absurd rfl named

/-- Something happens in every round. -/
def busyRound : Round where
  arrived := [bareEvent]
  failure := false
  throws := false

theorem neverWraps_iff_quiet : NeverWraps [bareEvent] [{ busyRound with arrived := [] }] :=
  (neverWraps_iff [bareEvent] [{ busyRound with arrived := [] }] (by decide)).mpr (by decide)

/-- An event is counted, another one is queued before the `read`, and the count wraps around.
With an event in every round the loop does not end any more. -/
theorem not_forall_neverWraps :
    ¬ ∀ (queued : List RawEvent) (rounds : List Round), totalSize size queued < UInt32.size →
      NeverWraps queued rounds := by
  intro always
  have never := always [bareEvent] [busyRound, busyRound, busyRound] (by decide)
  exact absurd (never.ends (by decide)) (by decide)

end Loop

end AvailableBytes

end Linux

end FileEvents
