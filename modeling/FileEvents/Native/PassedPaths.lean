import FileEvents.Linux.Inotify
import FileEvents.Native.LocalReferences

/-!
# Paths that are passed in arrays

`startWatching`, `stopWatching` and on Linux `stopWatchingMovedPaths` pass an array of paths. The
native code takes the paths from it one by one, and on Linux adds some of them to a list of Java.

What the tables and the file system say of a path is a verdict here.

## Main definitions

* `javaToUtf16StringArray` — the paths of an array
* `LinuxServer.stopWatchingMovedPaths` — the loop that adds paths to a list

## Main results

* `keeps_passedPaths` — the paths are those of the array, and no reference is left
-/

namespace FileEvents

open Calls
open Calls.Program (raise)

namespace Jni

/-- The loop of `javaToUtf16StringArray` from an index on. -/
def javaToUtf16Strings (index : ℕ) : ℕ → Code (List U16String)
  | 0 => pure []
  | count + 1 => do
    let javaString ← ask (.getObjectArrayElement index)
    let string ← javaToUtf16String javaString
    ask (.deleteLocalRef javaString)
    let strings ← javaToUtf16Strings (index + 1) count
    pure (string :: strings)

/-- `javaToUtf16StringArray`. -/
def javaToUtf16StringArray : Code (List U16String) := do
  let count ← ask .getArrayLength
  javaToUtf16Strings 0 count

/-- `JniSupport::throwNativeExceptionWhenJavaExceptionOccurred`. -/
def throwNativeExceptionWhenJavaExceptionOccurred : Code Unit := do
  match ← ask .exceptionOccurred with
  | none => pure ()
  | some _ => raise .javaExceptionThrownException

namespace LinuxServer

open Linux (EINVAL)

/-- `Server::addToList`. -/
def addToList (jString : Option Ref) : Code Unit := do
  ask (.invoke .callBooleanMethod jString)
  throwNativeExceptionWhenJavaExceptionOccurred

/-- `WatchPoint::cancel`, where it listens, given what `inotify_rm_watch` returns. -/
def cancel (path : U16String) (removal : Except ErrorCode Unit) : Code Unit :=
  match removal with
  | .ok () => pure ()
  | .error errno =>
    if errno = EINVAL then do
      let _ ← toUtf8 path
      Logging.send
    else raise (fileWatcherException "Couldn't stop watching" path errno)

/-- What comes of a path. -/
inductive Verdict
  /-- It has no watch point that listens. -/
  | notListening
  /-- The path of its watch point cannot be converted. -/
  | unconvertible
  | inPlace
  /-- Its watch point is cancelled. -/
  | moved (path : U16String) (removal : Except ErrorCode Unit)

/-- What is done for a path of the array. -/
def check (verdict : Verdict) (jPathToCheck : Option Ref) : Code Unit := do
  let _ ← javaToUtf16String jPathToCheck
  match verdict with
  | .notListening =>
    addToList jPathToCheck
    ask (.deleteLocalRef jPathToCheck)
  | .unconvertible => raise toBytesError
  | .inPlace => ask (.deleteLocalRef jPathToCheck)
  | .moved path removal =>
    addToList jPathToCheck
    ask (.deleteLocalRef jPathToCheck)
    cancel path removal

/-- The loop of `Server::stopWatchingMovedPaths` from an index on. -/
def stopWatchingMovedPathsFrom (verdict : ℕ → Verdict) (index : ℕ) : ℕ → Code Unit
  | 0 => pure ()
  | count + 1 => do
    let jPathToCheck ← ask (.getObjectArrayElement index)
    check (verdict index) jPathToCheck
    stopWatchingMovedPathsFrom verdict (index + 1) count

/-- `Server::stopWatchingMovedPaths`. -/
def stopWatchingMovedPaths (verdict : ℕ → Verdict) : Code Unit := do
  let count ← ask .getArrayLength
  stopWatchingMovedPathsFrom verdict 0 count

end LinuxServer

/-! ## What is left of them -/

section Keeps

variable {java : Java} {s t u : Jvm}

/-- A list of strings is all that is left. -/
structure Keeps (s t : Jvm) : Prop where
  ready : t.Ready
  misused : t.misused = s.misused
  locals : t.locals = s.locals
  raised : t.raised = s.raised
  peak : t.peak ≤ max s.peak (s.locals.card + 1)

theorem keeps_javaToUtf16Strings (ready : s.Ready) {index count : ℕ}
    (all : index + count = java.array.length) :
    Sound java (javaToUtf16Strings index count) s fun outcome t =>
      outcome = .returned (java.array.drop index) ∧ Keeps s t := by
  induction count generalizing s index with
  | zero =>
    refine sound_pure ⟨?_, ready, rfl, rfl, rfl, le_max_left _ _⟩
    rw [List.drop_eq_nil_of_le (by omega)]
  | succ count ih =>
    obtain ⟨calm, outside⟩ := ready
    have inside : index < java.array.length := by omega
    refine sound_getObjectArrayElement ⟨calm, outside⟩ inside fun same => ?_
    refine sound_javaToUtf16String ⟨calm, outside⟩ (by simp) ?_
    refine sound_deleteLocalRef outside (by simp) ?_
    refine Sound.bind ((ih (s := s.create.delete s.next) ⟨calm, outside⟩ (by omega)).mono ?_)
    rintro _ t ⟨rfl, keeps⟩
    refine sound_pure ⟨?_, keeps.ready, keeps.misused, ?_, keeps.raised, ?_⟩
    · rw [List.getElem?_eq_getElem inside] at same
      rw [List.drop_eq_getElem_cons inside, Option.some_inj.mp same]
    · simpa using keeps.locals
    · have := keeps.peak
      simp at this
      omega

theorem keeps_javaToUtf16StringArray (ready : s.Ready) :
    Sound java javaToUtf16StringArray s fun outcome t =>
      outcome = .returned java.array ∧ Keeps s t :=
  sound_getArrayLength ready (keeps_javaToUtf16Strings ready (Nat.zero_add _))

/-- How the loop on Linux ends. A Java exception is pending if it throws
`JavaExceptionThrownException`, and only then. -/
structure Ends (s : Jvm) (outcome : Outcome CppException Unit) (t : Jvm) : Prop where
  outside : t.critical = false
  misused : t.misused = s.misused
  raised : s.raised ≤ t.raised
  card : t.locals.card ≤ s.locals.card + 3 * (t.raised - s.raised) + 1
  peak : t.peak ≤ max s.peak (s.locals.card + 3 * (t.raised - s.raised) + 2)
  pending : t.pending = true ↔ outcome = .threw .javaExceptionThrownException
  returned : outcome = .returned () → Leaks s t

theorem Leaks.ends {outcome : Outcome CppException Unit} (leaks : Leaks s t)
    (other : outcome ≠ .threw .javaExceptionThrownException) : Ends s outcome t where
  outside := leaks.ready.2
  misused := leaks.misused
  raised := leaks.raised
  card := Nat.le_succ_of_le leaks.card
  peak := leaks.peak
  pending := by simp [leaks.ready.1, other]
  returned _ := leaks

theorem Ends.of_leaks {outcome : Outcome CppException Unit} (leaks : Leaks s t)
    (ends : Ends t outcome u) : Ends s outcome u where
  outside := ends.outside
  misused := ends.misused.trans leaks.misused
  raised := leaks.raised.trans ends.raised
  card := by
    have := leaks.card
    have := leaks.raised
    have := ends.card
    have := ends.raised
    omega
  peak := by
    have := leaks.card
    have := leaks.raised
    have := leaks.peak
    have := ends.peak
    have := ends.raised
    omega
  pending := ends.pending
  returned returned := leaks.trans (ends.returned returned)

namespace LinuxServer

/-- A path of the array is added to the list, and the rest follows, or the list throws. -/
theorem sound_addToList {next : Unit → Code Unit} {Q : Outcome CppException Unit → Jvm → Prop}
    {ref : Ref} (ready : s.Ready) (given : ref ∈ s.locals) (rest : Sound java (next ()) s Q)
    (throws : Q (.threw .javaExceptionThrownException) s.throwing.create) :
    Sound java (addToList (some ref) >>= next) s Q := by
  obtain ⟨calm, outside⟩ := ready
  refine Sound.bind (sound_invoke ⟨calm, outside⟩ (by simpa using given) ?_ ?_)
  · refine sound_exceptionOccurred outside (by simp [calm]) fun _ => ?_
    exact sound_pure rest
  · refine sound_exceptionOccurred outside (fun _ => ?_) (by simp)
    exact sound_raise throws

theorem ends_cancel (ready : s.Ready) (path : U16String) (removal : Except ErrorCode Unit) :
    Sound java (cancel path removal) s fun outcome t => Ends s outcome t := by
  have leaks : Leaks s s := .refl ready
  unfold cancel
  split
  next => exact sound_pure (leaks.ends (by simp))
  next errno =>
    split_ifs
    · refine Sound.bind ?_
      unfold toUtf8
      split
      next => exact sound_raise (leaks.ends (by simp [toBytesError]))
      next =>
        refine sound_pure ((leaks_send ready).mono ?_)
        exact fun outcome t left => left.2.ends left.1
    · have other := fileWatcherException_ne "Couldn't stop watching" path (some errno)
      exact sound_raise (leaks.ends (by simp [other]))

theorem ends_check (ready : s.Ready) (verdict : Verdict) :
    Sound java (check verdict (some s.next)) s.create fun outcome t => Ends s outcome t := by
  obtain ⟨calm, outside⟩ := ready
  have one : Within s 2 1 s.create := (Within.refl outside).create (by decide)
  have none : Within s 2 0 (s.create.delete s.next) := one.delete s.next (by simp) (by simp)
  have kept : Leaks s (s.create.delete s.next) := none.leaks calm (by simp) (by simp)
  -- The path and the exception are left if the list throws.
  have two : Within s 2 2 s.create.throwing.create := one.throwing.create (by decide)
  have throws : Ends s (.threw .javaExceptionThrownException) s.create.throwing.create :=
    { outside
      misused := rfl
      raised := two.raised
      card := by rw [two.card]; simp
      peak := two.peak.trans (by simp; omega)
      pending := by simp
      returned := by simp }
  unfold check
  refine sound_javaToUtf16String ⟨calm, outside⟩ (by simp) ?_
  cases verdict with
  | notListening =>
    refine sound_addToList ⟨calm, outside⟩ (by simp) ?_ throws
    exact sound_deleteLocalRef_last outside (by simp) (kept.ends (by simp))
  | unconvertible =>
    refine sound_raise ?_
    exact
      { outside
        misused := rfl
        raised := le_rfl
        card := by rw [one.card]; simp
        peak := one.peak.trans (by simp)
        pending := by simp [calm, toBytesError]
        returned := by simp }
  | inPlace => exact sound_deleteLocalRef_last outside (by simp) (kept.ends (by simp))
  | moved path removal =>
    refine sound_addToList ⟨calm, outside⟩ (by simp) ?_ throws
    refine sound_deleteLocalRef outside (by simp) ?_
    refine (ends_cancel (s := s.create.delete s.next) ⟨calm, outside⟩ path removal).mono ?_
    exact fun outcome t => Ends.of_leaks kept

theorem ends_stopWatchingMovedPathsFrom (ready : s.Ready) (verdict : ℕ → Verdict)
    {index count : ℕ} (all : index + count = java.array.length) :
    Sound java (stopWatchingMovedPathsFrom verdict index count) s fun outcome t =>
      Ends s outcome t := by
  induction count generalizing s index with
  | zero => exact sound_pure ((Leaks.refl ready).ends (by simp))
  | succ count ih =>
    refine sound_getObjectArrayElement ready (by omega) fun _ => ?_
    refine Sound.bind ((ends_check ready (verdict index)).mono fun outcome t ends => ?_)
    cases outcome with
    | returned =>
      have leaks := ends.returned rfl
      exact (ih leaks.ready (by omega)).mono fun _ _ => Ends.of_leaks leaks
    | threw | aborted | running => exact ends

end LinuxServer

/-- The paths of an array are taken from it in their order, with one local reference at a time.
However long the array is, and whatever comes of its paths, `stopWatchingMovedPaths` on Linux
breaks no rule of the JNI and leaves a Java exception pending exactly where it throws
`JavaExceptionThrownException`, unless the memory is exhausted. The references that are left are
three at most for each Java exception, and one more if it throws. -/
theorem keeps_passedPaths (java : Java) (s : Jvm) (ready : s.Ready) (clean : s.misused = false)
    (verdict : ℕ → LinuxServer.Verdict) :
    (Sound java javaToUtf16StringArray s fun outcome t =>
      outcome = .returned java.array ∧ t.misused = false ∧ t.Ready ∧ t.locals = s.locals ∧
        t.peak ≤ max s.peak (s.locals.card + 1)) ∧
    Sound java (LinuxServer.stopWatchingMovedPaths verdict) s fun outcome t =>
      t.misused = false ∧ t.critical = false ∧
        (t.pending = true ↔ outcome = .threw .javaExceptionThrownException) ∧
        t.locals.card ≤ s.locals.card + 3 * (t.raised - s.raised) + 1 ∧
        t.peak ≤ max s.peak (s.locals.card + 3 * (t.raised - s.raised) + 2) ∧
        (outcome = .returned () → t.raised = s.raised → t.locals = s.locals) := by
  constructor
  · refine (keeps_javaToUtf16StringArray ready).mono ?_
    rintro _ t ⟨rfl, keeps⟩
    exact ⟨rfl, keeps.misused.trans clean, keeps.ready, keeps.locals, keeps.peak⟩
  · refine sound_getArrayLength ready ?_
    refine (LinuxServer.ends_stopWatchingMovedPathsFrom ready verdict (Nat.zero_add _)).mono ?_
    intro outcome t ends
    refine ⟨ends.misused.trans clean, ends.outside, ends.pending, ends.card, ends.peak, ?_⟩
    exact fun returned => (ends.returned returned).locals_eq

/-- An array with one path. -/
def onePath : Java := ⟨fun _ => u16 "a", [u16 "a"]⟩

/-- The list of dropped paths throws. -/
def throwingAdd : List (Sigma Call.Answer) :=
  [⟨.getArrayLength, 1⟩, ⟨.getObjectArrayElement 0, some 0⟩, ⟨.getStringLength (some 0), 1⟩,
    ⟨.getStringCritical (some 0), some (u16 "a")⟩, ⟨.releaseStringCritical (some 0), ()⟩,
    ⟨.invoke .callBooleanMethod (some 0), ()⟩, ⟨.exceptionOccurred, some 1⟩]

theorem follows_throwingAdd :
    onePath.partner.Follows .fresh throwingAdd
      (((Jvm.fresh.create.setCritical true).setCritical false).throwing.create) := by
  refine .cons (.allowed ⟨rfl, rfl⟩ .getArrayLength) ?_
  refine .cons (.allowed ⟨⟨rfl, rfl⟩, by decide⟩ (.getObjectArrayElement rfl)) ?_
  refine .cons (.allowed ⟨⟨rfl, rfl⟩, 0, rfl, by simp [Jvm.fresh]⟩ .getStringLength) ?_
  refine .cons (.allowed ⟨⟨rfl, rfl⟩, 0, rfl, by simp [Jvm.fresh]⟩ .getStringCritical) ?_
  refine .cons (.allowed ⟨rfl, 0, rfl, by simp [Jvm.fresh]⟩ .releaseStringCritical) ?_
  refine .cons (.allowed ⟨⟨rfl, rfl⟩, by simp [Jvm.fresh]⟩ .invoke_throws) ?_
  exact .cons (.allowed rfl (.exceptionOccurred rfl)) (.nil _)

theorem keeps_passedPaths_throwingAdd :
    ∃ t, Program.Run (LinuxServer.stopWatchingMovedPaths fun _ => .notListening) throwingAdd
        (.threw .javaExceptionThrownException) ∧
      onePath.partner.Follows .fresh throwingAdd t ∧ t.pending = true := by
  have run : Program.Run (LinuxServer.stopWatchingMovedPaths fun _ => .notListening) throwingAdd
      (.threw .javaExceptionThrownException) :=
    .call (.call (.call (.call (.call (.call (.call (.done _)))))))
  refine ⟨_, run, follows_throwingAdd, ?_⟩
  obtain ⟨-, loop⟩ := keeps_passedPaths onePath .fresh ⟨rfl, rfl⟩ rfl fun _ => .notListening
  obtain exhausted | ⟨-, -, pending, -⟩ := loop _ _ _ run follows_throwingAdd
  · cases exhausted
  · exact pending.mpr rfl

end Keeps

end Jni

end FileEvents
