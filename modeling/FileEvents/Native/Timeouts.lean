import Mathlib.Algebra.Ring.Int.Defs
import FileEvents.Native.Termination
import FileEvents.Windows.Command

/-!
# Time-outs

How long `FileWatcher.awaitTermination` waits before it returns `false`, and `Command::execute`
before it throws "Execution timed out". The number of milliseconds is a Java `long`; the JNI
functions cast it to a C++ `long`, which has 32 bits on Windows. When the native call returns
`true`, the Java method waits for the rest of the time, which it computes from two readings of
the system clock.

`wait_for` is taken to time out no earlier than after the duration it is given, and
`Thread.join` to return no earlier than after its argument unless the thread has ended. Time is
counted in nanoseconds; `TimeUnit.toMillis` is left out.

## Main definitions

* `Platform.toLong` — the cast to a C++ `long`
* `Await`, `AwaitNotShortened` — a call of `awaitTermination`, and that it waits long enough
* `CommandNotShortened` — a command waits long enough

## Main results

* `notShortened_iff` — both do exactly if the number fits into a `long` and, for the former, the
  clock is not set forward, or too far back, meanwhile
-/

namespace FileEvents

open Concurrency

namespace Timeouts

/-- The platforms, by their data models. -/
inductive Platform | linux | macOS | windows
  deriving DecidableEq, Repr

/-- A `jlong`, cast to `long`. -/
def Platform.toLong (platform : Platform) (value : Int64) : ℤ :=
  match platform with
  | .linux | .macOS => value.toInt
  | .windows => value.toInt32.toInt

/-- The value fits into a `long`, if it is not negative. -/
def FitsLong (platform : Platform) (value : Int64) : Prop :=
  platform = .windows → value.toInt < 2 ^ 31

instance (platform : Platform) (value : Int64) : Decidable (FitsLong platform value) :=
  inferInstanceAs (Decidable (platform = .windows → value.toInt < 2 ^ 31))

/-- The nanoseconds of so many milliseconds. -/
def nanos (millis : ℤ) : ℤ := millis * 1000000

/-! ## `awaitTermination` -/

/-- A call of `awaitTermination0`. -/
structure NativeWait where
  /-- `terminated` is set already. -/
  terminated : Bool
  /-- Why `wait_for` returns, if it is called. -/
  wake : Wake
  /-- How long the call takes. -/
  elapsed : ℕ

/-- What the call returns. -/
def NativeWait.successful (wait : NativeWait) : Bool :=
  wait.terminated || Termination.success wait.wake

/-- `wait_for` times out no earlier than after the duration, in milliseconds. -/
def NativeWait.Lasts (wait : NativeWait) (duration : ℤ) : Prop :=
  wait.terminated = false → wait.wake = .timeout → nanos duration ≤ wait.elapsed

/-- A call of `AbstractFileWatcher.awaitTermination`. -/
structure Await where
  native : NativeWait
  /-- How long `join` takes, if it is called. -/
  joinElapsed : ℕ
  /-- The processor thread is alive in the end. -/
  isAlive : Bool

section Await

-- The argument of the call, and what `System.currentTimeMillis` returns so many nanoseconds
-- after it began.
variable (timeoutInMillis : Int64) (clock : ℕ → Int64)

/-- `remainingTimeout`, if the native call takes so long. -/
def remainingTimeout (elapsed : ℕ) : Int64 :=
  timeoutInMillis - (clock elapsed - clock 0)

namespace Await

variable (await : Await)

/-- `join` is called. -/
def Joins : Prop :=
  await.native.successful = true ∧
    0 < (remainingTimeout timeoutInMillis clock await.native.elapsed).toInt

instance : Decidable (await.Joins timeoutInMillis clock) :=
  inferInstanceAs (Decidable (await.native.successful = true ∧
    0 < (remainingTimeout timeoutInMillis clock await.native.elapsed).toInt))

/-- What the method returns. -/
def result : Bool := if await.native.successful then !await.isAlive else false

/-- How long the call takes. -/
def elapsed : ℕ :=
  await.native.elapsed + if await.Joins timeoutInMillis clock then await.joinElapsed else 0

/-- The call waits as `wait_for` and `join` do. -/
structure Possible (platform : Platform) : Prop where
  native : await.native.Lasts (platform.toLong timeoutInMillis)
  join : await.Joins timeoutInMillis clock → await.isAlive = true →
    nanos (remainingTimeout timeoutInMillis clock await.native.elapsed).toInt ≤
      await.joinElapsed

end Await

/-- `false` is returned only after the requested time. -/
def AwaitNotShortened (platform : Platform) : Prop :=
  ∀ await : Await, await.Possible timeoutInMillis clock platform → await.result = false →
    nanos timeoutInMillis.toInt ≤ await.elapsed timeoutInMillis clock

/-- Before the time is up, the clock does not advance by more than the time that has passed, and
is not set back so far that the remaining time overflows. -/
def ClockKeepsTime : Prop :=
  ∀ elapsed : ℕ, elapsed < nanos timeoutInMillis.toInt →
    nanos (clock elapsed - clock 0).toInt ≤ elapsed ∧
      timeoutInMillis.toInt - (clock elapsed - clock 0).toInt < 2 ^ 63

end Await

/-! ## Commands -/

/-- "Execution timed out" is thrown only after the requested time. -/
def CommandNotShortened (platform : Platform) (commandTimeoutInMillis : Int64) : Prop :=
  ∀ (command : Windows.Command.State) (wake : Wake) (elapsed : ℕ),
    (wake = .timeout → nanos (platform.toLong commandTimeoutInMillis) ≤ elapsed) →
    command.answer wake = .timedOut → nanos commandTimeoutInMillis.toInt ≤ elapsed

/-! ## What is not shortened -/

section Shortened

variable {platform : Platform} {timeoutInMillis : Int64} {clock : ℕ → Int64}

/-- The cast keeps what fits, and makes everything else smaller. -/
theorem le_toLong_iff (nonneg : 0 ≤ timeoutInMillis.toInt) :
    timeoutInMillis.toInt ≤ platform.toLong timeoutInMillis ↔
      FitsLong platform timeoutInMillis := by
  cases platform with
  | linux | macOS => exact iff_of_true (Int.le_refl _) (fun windows => by cases windows)
  | windows =>
    have small : timeoutInMillis.toInt32.toInt < 2 ^ 31 := timeoutInMillis.toInt32.toInt_lt
    have cast : timeoutInMillis.toInt32.toInt = timeoutInMillis.toInt.bmod (2 ^ 32) :=
      Int64.toInt_toInt32 _
    simp only [Platform.toLong, FitsLong, true_implies]
    constructor
    · exact fun le => Int.lt_of_le_of_lt le small
    · intro fits
      have same : timeoutInMillis.toInt32.toInt = timeoutInMillis.toInt := by
        rw [cast, Int.bmod_eq_of_le (by omega) (by omega)]
      exact Int.le_of_eq same.symm

/-- A number that does not fit has been made smaller, and is large. -/
theorem toLong_lt_of_unfit (nonneg : 0 ≤ timeoutInMillis.toInt)
    (unfit : ¬ FitsLong platform timeoutInMillis) :
    platform.toLong timeoutInMillis < timeoutInMillis.toInt ∧ 2 ^ 31 ≤ timeoutInMillis.toInt := by
  refine ⟨Int.not_le.mp (mt (le_toLong_iff nonneg).mp unfit), ?_⟩
  by_contra small
  exact unfit fun _ => Int.not_le.mp small

/-- The remaining time is what is left of the time-out, as far as the subtraction does not
overflow. -/
theorem toInt_remainingTimeout (nonneg : 0 ≤ timeoutInMillis.toInt) (elapsed : ℕ) :
    let passed := (clock elapsed - clock 0).toInt
    let remaining := (remainingTimeout timeoutInMillis clock elapsed).toInt
    remaining = timeoutInMillis.toInt - passed ∧ timeoutInMillis.toInt - passed < 2 ^ 63 ∨
      remaining < 0 ∧ 2 ^ 63 ≤ timeoutInMillis.toInt - passed := by
  have bound : timeoutInMillis.toInt < 2 ^ 63 := timeoutInMillis.toInt_lt
  have low : -2 ^ 63 ≤ (clock elapsed - clock 0).toInt := (clock elapsed - clock 0).le_toInt
  have high : (clock elapsed - clock 0).toInt < 2 ^ 63 := (clock elapsed - clock 0).toInt_lt
  simp only [remainingTimeout, Int64.toInt_sub timeoutInMillis, Int.bmod_def]
  split_ifs
  · omega
  · omega

/-- If the clock keeps time, the remaining time is not less than what is left. -/
theorem nanos_le_of_clockKeepsTime (nonneg : 0 ≤ timeoutInMillis.toInt)
    (keeps : ClockKeepsTime timeoutInMillis clock) {elapsed : ℕ}
    (early : elapsed < nanos timeoutInMillis.toInt) :
    nanos timeoutInMillis.toInt ≤
      elapsed + nanos (remainingTimeout timeoutInMillis clock elapsed).toInt := by
  obtain ⟨slow, fits⟩ := keeps elapsed early
  have remaining := @toInt_remainingTimeout _ clock nonneg elapsed
  unfold nanos at *
  omega

/-- A native call fails only on a time-out. -/
theorem NativeWait.timeout_of_failed {wait : NativeWait} (failed : wait.successful = false) :
    wait.terminated = false ∧ wait.wake = .timeout := by
  obtain ⟨unset, unsuccessful⟩ := Bool.or_eq_false_iff.mp failed
  refine ⟨unset, ?_⟩
  cases wake : wait.wake with
  | timeout => rfl
  | notified | spurious =>
    rw [wake] at unsuccessful
    cases unsuccessful

/-- The native call may return successfully at any time, with the processor thread alive ever
after. -/
def earlySuccess (elapsed joinElapsed : ℕ) : Await where
  native := { terminated := false, wake := .spurious, elapsed }
  joinElapsed
  isAlive := true

/-- The native call may time out as soon as the duration it is given has passed. -/
def promptTimeout (elapsed : ℕ) : Await where
  native := { terminated := false, wake := .timeout, elapsed }
  joinElapsed := 0
  isAlive := true

/-- A native call that times out at once waits for the duration it was given, which must not be
a smaller one. -/
theorem AwaitNotShortened.fits (notShortened : AwaitNotShortened timeoutInMillis clock platform)
    (nonneg : 0 ≤ timeoutInMillis.toInt) : FitsLong platform timeoutInMillis := by
  by_contra unfit
  obtain ⟨short, large⟩ := toLong_lt_of_unfit nonneg unfit
  let await := promptTimeout (nanos (platform.toLong timeoutInMillis)).toNat
  have silent : ¬ await.Joins timeoutInMillis clock := fun joins => by cases joins.1
  have possible : await.Possible timeoutInMillis clock platform :=
    ⟨fun _ _ => Int.self_le_toNat _, fun joins => absurd joins silent⟩
  have waited := notShortened await possible rfl
  rw [Await.elapsed, if_neg silent] at waited
  change nanos timeoutInMillis.toInt ≤
    ((nanos (platform.toLong timeoutInMillis)).toNat + 0 : ℕ) at waited
  unfold nanos at waited
  omega

/-- After a native call that succeeds at once, all of the remaining time must be waited for. -/
theorem AwaitNotShortened.clockKeepsTime
    (notShortened : AwaitNotShortened timeoutInMillis clock platform)
    (nonneg : 0 ≤ timeoutInMillis.toInt) : ClockKeepsTime timeoutInMillis clock := by
  intro elapsed early
  let remaining := (remainingTimeout timeoutInMillis clock elapsed).toInt
  let await := earlySuccess elapsed (nanos remaining).toNat
  have possible : await.Possible timeoutInMillis clock platform :=
    ⟨fun _ timeout => (nomatch timeout), fun _ _ => Int.self_le_toNat _⟩
  have waited := notShortened await possible rfl
  have cases := @toInt_remainingTimeout _ clock nonneg elapsed
  rw [Await.elapsed] at waited
  by_cases joins : await.Joins timeoutInMillis clock
  · have positive : 0 < remaining := joins.2
    rw [if_pos joins] at waited
    change nanos timeoutInMillis.toInt ≤ (elapsed + (nanos remaining).toNat : ℕ) at waited
    unfold nanos at *
    dsimp only at cases
    omega
  · -- Without a join the call returns too early.
    rw [if_neg joins] at waited
    change nanos timeoutInMillis.toInt ≤ (elapsed + 0 : ℕ) at waited
    omega

/-- A number that fits, and a clock that keeps time, do not shorten a call. -/
theorem awaitNotShortened_of_fits (nonneg : 0 ≤ timeoutInMillis.toInt)
    (fits : FitsLong platform timeoutInMillis) (keeps : ClockKeepsTime timeoutInMillis clock) :
    AwaitNotShortened timeoutInMillis clock platform := by
  intro await possible failed
  by_cases late : nanos timeoutInMillis.toInt ≤ await.native.elapsed
  · unfold Await.elapsed
    omega
  · have left := nanos_le_of_clockKeepsTime nonneg keeps (Int.not_le.mp late)
    have positive : 0 < (remainingTimeout timeoutInMillis clock await.native.elapsed).toInt := by
      unfold nanos at left late
      omega
    cases successful : await.native.successful with
    | false =>
      -- `wait_for` has timed out, after the duration it was given.
      obtain ⟨unset, timedOut⟩ := NativeWait.timeout_of_failed successful
      have waited := possible.native unset timedOut
      have whole := (@le_toLong_iff platform _ nonneg).mpr fits
      unfold nanos at *
      omega
    | true =>
      -- `join` waits for the rest.
      have joins : await.Joins timeoutInMillis clock := ⟨successful, positive⟩
      have alive : await.isAlive = true := by
        simpa [Await.result, successful] using failed
      have waited := possible.join joins alive
      rw [Await.elapsed, if_pos joins]
      omega

/-- `awaitTermination` returns `false` too early if the number does not fit, or if the clock does
not keep time, and only then. -/
theorem awaitNotShortened_iff (nonneg : 0 ≤ timeoutInMillis.toInt) :
    AwaitNotShortened timeoutInMillis clock platform ↔
      FitsLong platform timeoutInMillis ∧ ClockKeepsTime timeoutInMillis clock :=
  ⟨fun notShortened => ⟨notShortened.fits nonneg, notShortened.clockKeepsTime nonneg⟩,
    fun both => awaitNotShortened_of_fits nonneg both.1 both.2⟩

/-- A command answers that it timed out only if `wait_for` did. -/
theorem timeout_of_timedOut {command : Windows.Command.State} {wake : Wake}
    (answered : command.answer wake = .timedOut) : wake = .timeout := by
  cases wake with
  | timeout => rfl
  | notified | spurious =>
    unfold Windows.Command.State.answer at answered
    dsimp only at answered
    split at answered
    · cases answered
    · cases answered

/-- A command times out too early if the number does not fit, and only then. -/
theorem commandNotShortened_iff (nonneg : 0 ≤ timeoutInMillis.toInt) :
    CommandNotShortened platform timeoutInMillis ↔ FitsLong platform timeoutInMillis := by
  constructor
  · intro notShortened
    by_contra unfit
    obtain ⟨short, large⟩ := toLong_lt_of_unfit nonneg unfit
    have waited := notShortened Windows.Command.machine.start .timeout
      (nanos (platform.toLong timeoutInMillis)).toNat (fun _ => Int.self_le_toNat _) rfl
    unfold nanos at waited
    omega
  · intro fits command wake elapsed lasts answered
    have waited := lasts (timeout_of_timedOut answered)
    have whole := (@le_toLong_iff platform _ nonneg).mpr fits
    unfold nanos at *
    omega

/-- On each platform and for each time-out, `awaitTermination` returns `false` only after that
time exactly if it fits into a C++ `long` and the system clock keeps time, and a command times
out only after that time exactly if it fits. -/
theorem notShortened_iff (platform : Platform) (timeoutInMillis : Int64) (clock : ℕ → Int64)
    (nonneg : 0 ≤ timeoutInMillis.toInt) :
    (AwaitNotShortened timeoutInMillis clock platform ↔
      FitsLong platform timeoutInMillis ∧ ClockKeepsTime timeoutInMillis clock) ∧
    (CommandNotShortened platform timeoutInMillis ↔ FitsLong platform timeoutInMillis) :=
  ⟨awaitNotShortened_iff nonneg, commandNotShortened_iff nonneg⟩

end Shortened

/-! ## A time-out that is shortened -/

/-- A clock that shows the milliseconds that have passed. -/
def steadyClock (elapsed : ℕ) : Int64 := Int64.ofNat (elapsed / 1000000)

theorem notShortened_iff_steadyClock : 0 ≤ (5 : Int64).toInt ∧
    (AwaitNotShortened 5 steadyClock .windows ↔
      FitsLong .windows 5 ∧ ClockKeepsTime 5 steadyClock) ∧
    (CommandNotShortened .windows 5 ↔ FitsLong .windows 5) :=
  ⟨by decide, notShortened_iff .windows 5 steadyClock (by decide)⟩

/-- The milliseconds of 25 days. -/
def days25 : Int64 := 2160000000

/-- On Windows 25 days are cast to a negative number, and a command times out at once. -/
theorem not_forall_notShortened :
    ¬ ∀ (platform : Platform) (timeoutInMillis : Int64), 0 ≤ timeoutInMillis.toInt →
      AwaitNotShortened timeoutInMillis steadyClock platform ∧
        CommandNotShortened platform timeoutInMillis := by
  intro notShortened
  have nonneg : 0 ≤ days25.toInt := by decide
  have command := (notShortened .windows days25 nonneg).2
  have early := command Windows.Command.machine.start .timeout 0 (fun _ => by decide) rfl
  exact absurd early (by decide)

end Timeouts

end FileEvents
