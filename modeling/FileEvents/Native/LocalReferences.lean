import FileEvents.Callback.Events
import FileEvents.Native.Jni

/-!
# Local references of the native code

The run loop is one native method that does not return, and so the local references that it
leaves behind stay. What it calls of the JVM are reports, log messages and failures.

Methods are looked up once for each server. That every thread has a JNI environment is not
looked at here.

## Main definitions

* `getJavaExceptionAndPrintStacktrace`, `rethrowJavaException` — the handling of Java exceptions
* `reportChangeEvent`, `Logging.send`, `reportFailure` — what the run loop calls
* `handleEvents`, `runLoop` — batches of events, handled one after another with their failures

## Main results

* `leaks_of_runLoop` — no reference is left but for the Java exceptions thrown
-/

namespace FileEvents

open Calls Text
open Calls.Program (raise)

namespace Jni

/-! ## Java exceptions -/

/-- `JniSupport::getJavaExceptionAndPrintStacktrace`. -/
def getJavaExceptionAndPrintStacktrace : Code (Option Ref) := do
  match ← ask .exceptionOccurred with
  | none => pure none
  | some exception =>
    ask .exceptionDescribe
    ask .exceptionClear
    pure (some exception)

/-- `javaToUtf16String`. -/
def javaToUtf16String (javaString : Option Ref) : Code U16String := do
  let length ← ask (.getStringLength javaString)
  match ← ask (.getStringCritical javaString) with
  | none => raise (.runtimeError "Could not get Java string character")
  | some javaChars =>
    ask (.releaseStringCritical javaString)
    pure (javaChars.take length)

/-- `utf16ToUtf8String`, whose result is text. -/
def toUtf8 (string : U16String) : Code String :=
  match utf16ToUtf8String string with
  | none => raise toBytesError
  | some _ => pure (text string)

/-- `javaToUtf8String`. -/
def javaToUtf8String (javaString : Option Ref) : Code String := do
  let string ← javaToUtf16String javaString
  toUtf8 string

/-- The message of `rethrowJavaException`. -/
def caughtMessage (exceptionType : String) (javaMessage : Option Ref) : Code String :=
  match javaMessage with
  | none => pure ("Caught " ++ exceptionType)
  | some ref => do
    let message ← javaToUtf8String (some ref)
    pure ("Caught " ++ exceptionType ++ " with message: " ++ message)

/-- `DeleteLocalRef`, where there is something to delete. -/
def deleteUnlessNull (ref : Option Ref) : Code Unit :=
  match ref with
  | none => pure ()
  | some ref => ask (.deleteLocalRef (some ref))

/-- `JniSupport::rethrowJavaException`. -/
def rethrowJavaException : Code Unit := do
  match ← getJavaExceptionAndPrintStacktrace with
  | none => pure ()
  | some exception =>
    ask .exceptionDescribe
    ask .exceptionClear
    let exceptionClass ← ask (.getObjectClass exception)
    ask (.getMethodID none)
    let javaExceptionType ← ask (.callObjectMethod exceptionClass .getName)
    if ← ask .exceptionCheck then
      ask .exceptionDescribe
      raise (.runtimeError "Couldn't get exception type")
    else
      let exceptionType ← javaToUtf8String javaExceptionType
      ask (.deleteLocalRef javaExceptionType)
      ask (.getMethodID (some exceptionClass))
      let javaMessage ← ask (.callObjectMethod exception .getMessage)
      if ← ask .exceptionCheck then
        ask .exceptionDescribe
        raise (.runtimeError "Couldn't get exception message")
      else
        ask (.deleteLocalRef (some exceptionClass))
        let message ← caughtMessage exceptionType javaMessage
        deleteUnlessNull javaMessage
        ask (.deleteLocalRef (some exception))
        raise (.runtimeError message)

/-! ## What the run loop calls -/

/-- `Logging::send`, where the thread has a JNI environment. -/
def Logging.send : Code Unit := do
  let logString ← ask .newStringUTF
  ask (.invoke .callStaticVoidMethod logString)
  ask (.deleteLocalRef logString)
  rethrowJavaException

/-- A report of a path: `AbstractServer::reportChangeEvent` and the like. -/
def report (path : U16String) : Code Unit := do
  let javaPath ← ask (.newString path)
  ask (.invoke .callVoidMethod javaPath)
  ask (.deleteLocalRef javaPath)
  let _ ← getJavaExceptionAndPrintStacktrace

/-- `AbstractServer::reportChangeEvent`. -/
def reportChangeEvent (_ : ChangeType) (path : U16String) : Code Unit := report path

/-- `AbstractServer::reportUnknownEvent`. -/
def reportUnknownEvent (path : U16String) : Code Unit := report path

/-- `AbstractServer::reportOverflow`. -/
def reportOverflow (path : U16String) : Code Unit := do
  let _ ← toUtf8 path
  Logging.send
  report path

/-- The bytes of a message, up to the first NUL. -/
def cString (message : String) : ByteString :=
  (message.toList.flatMap fun c => encodeUtf8 c.toNat).takeWhile (· ≠ 0)

/-- `AbstractServer::reportFailure`. -/
def reportFailure (message : String) : Code Unit :=
  match utf8ToUtf16String (cString message) with
  | none => raise fromBytesError
  | some utf16Message => do
    let javaMessage ← ask (.newString utf16Message)
    ask (.getMethodID none)
    let javaException ← ask (.newObject javaMessage)
    ask (.invoke .callVoidMethod javaException)
    ask (.deleteLocalRef javaMessage)
    ask (.deleteLocalRef javaException)
    let _ ← getJavaExceptionAndPrintStacktrace

/-- What the handling of events calls. -/
inductive Action
  | reportChangeEvent (type : ChangeType) (path : U16String)
  | reportUnknownEvent (path : U16String)
  | reportOverflow (path : U16String)
  | logToJava
  /-- A conversion or a system call fails. -/
  | fail (ex : CppException)

/-- A report of a change or of an unknown event. -/
def Action.IsReport : Action → Prop
  | reportChangeEvent _ _ | reportUnknownEvent _ => True
  | reportOverflow _ | logToJava | fail _ => False

def Action.code : Action → Code Unit
  | reportChangeEvent type path => Jni.reportChangeEvent type path
  | reportUnknownEvent path => Jni.reportUnknownEvent path
  | reportOverflow path => Jni.reportOverflow path
  | logToJava => Logging.send
  | fail ex => raise ex

/-- The handling of a batch of events, in a `try` block whose handler reports the failure. -/
def handleEvents (actions : List Action) : Code Unit :=
  (Program.each Action.code actions).tryCatch fun ex => reportFailure ex.what

/-- The batches that the run loop handles. It ends if a failure cannot be reported. -/
def runLoop (batches : List (List Action)) : Code Unit := Program.each handleEvents batches

/-! ## What is left of them -/

section Leaks

variable {java : Java} {s t u : Jvm}

theorem Jvm.notMem_of_next_le {ref : Ref} (new : s.next ≤ ref) : ref ∉ s.locals :=
  fun mem => absurd (s.lt_next ref mem) (Nat.not_lt.mpr new)

@[simp] theorem Jvm.next_notMem : s.next ∉ s.locals := notMem_of_next_le le_rfl

@[simp] theorem Jvm.next_add_notMem {k : ℕ} : s.next + k ∉ s.locals :=
  notMem_of_next_le (Nat.le_add_right _ _)

/-- Nothing is pending, and the local references are those from before and three at most for
each Java exception. -/
structure Leaks (s t : Jvm) : Prop where
  ready : t.Ready
  misused : t.misused = s.misused
  kept : s.locals ⊆ t.locals
  raised : s.raised ≤ t.raised
  card : t.locals.card ≤ s.locals.card + 3 * (t.raised - s.raised)
  peak : t.peak ≤ max s.peak (s.locals.card + 3 * (t.raised - s.raised) + 2)

theorem Leaks.refl (ready : s.Ready) : Leaks s s :=
  ⟨ready, rfl, subset_rfl, le_rfl, by simp, by simp⟩

theorem Leaks.locals_eq (leaks : Leaks s t) (calm : t.raised = s.raised) :
    t.locals = s.locals := by
  have card := leaks.card
  rw [calm, Nat.sub_self] at card
  exact (Finset.eq_of_subset_of_card_le leaks.kept card).symm

theorem Leaks.trans (first : Leaks s t) (second : Leaks t u) : Leaks s u where
  ready := second.ready
  misused := second.misused.trans first.misused
  kept := first.kept.trans second.kept
  raised := first.raised.trans second.raised
  card := by
    have := first.card
    have := second.card
    have := first.raised
    have := second.raised
    omega
  peak := by
    have := first.card
    have := first.peak
    have := second.peak
    have := first.raised
    have := second.raised
    omega

/-- Each Java exception leaves exactly one reference, to itself. -/
structure LeaksEach (s t : Jvm) : Prop extends Leaks s t where
  card_eq : t.locals.card = s.locals.card + (t.raised - s.raised)

/-- A method has thrown and a reference to its exception is left, or neither. -/
def LeavesException (s t : Jvm) : Prop :=
  t.raised = s.raised ∧ t.locals = s.locals ∨
    t.raised = s.raised + 1 ∧ ∃ exception ∉ s.locals, t.locals = insert exception s.locals

theorem LeavesException.card_eq (leaves : LeavesException s t) :
    t.locals.card = s.locals.card + (t.raised - s.raised) := by
  obtain ⟨raised, locals⟩ | ⟨raised, exception, new, locals⟩ := leaves
  · rw [raised, locals, Nat.sub_self, Nat.add_zero]
  · rw [raised, locals, Finset.card_insert_of_notMem new, Nat.add_sub_cancel_left]

theorem LeaksEach.refl (ready : s.Ready) : LeaksEach s s := ⟨.refl ready, by simp⟩

theorem LeaksEach.trans (first : LeaksEach s t) (second : LeaksEach t u) : LeaksEach s u where
  toLeaks := first.toLeaks.trans second.toLeaks
  card_eq := by
    have := first.card_eq
    have := second.card_eq
    have := first.raised
    have := second.raised
    omega

theorem sound_getJavaExceptionAndPrintStacktrace {α : Type} {next : Option Ref → Code α}
    {Q : Outcome CppException α → Jvm → Prop} (outside : s.critical = false)
    (occurred : s.pending = true → Sound java (next (some s.next)) s.create.clear Q)
    (calm : s.pending = false → Sound java (next none) s Q) :
    Sound java (getJavaExceptionAndPrintStacktrace >>= next) s Q := by
  refine Sound.bind (sound_exceptionOccurred outside ?_ ?_)
  · intro pending
    exact sound_exceptionDescribe outside
      (sound_exceptionClear outside (sound_pure (occurred pending)))
  · intro none
    exact sound_pure (calm none)

/-- There are some more local references, and there were not too many at once. -/
structure Within (s : Jvm) (most count : ℕ) (t : Jvm) : Prop where
  outside : t.critical = false
  misused : t.misused = s.misused
  kept : s.locals ⊆ t.locals
  raised : s.raised ≤ t.raised
  card : t.locals.card = s.locals.card + count
  peak : t.peak ≤ max s.peak (s.locals.card + most)

namespace Within

variable {most count : ℕ}

theorem refl (outside : s.critical = false) : Within s most 0 s :=
  ⟨outside, rfl, subset_rfl, le_rfl, rfl, le_max_left _ _⟩

theorem create (within : Within s most count t) (room : count < most) :
    Within s most (count + 1) t.create where
  outside := within.outside
  misused := within.misused
  kept := within.kept.trans (Finset.subset_insert _ _)
  raised := within.raised
  card := by simp [within.card, Nat.add_assoc]
  peak := by
    have := within.card
    have := within.peak
    simp only [Jvm.create_peak]
    omega

theorem delete (within : Within s most (count + 1) t) (ref : Ref) (given : ref ∈ t.locals)
    (new : ref ∉ s.locals) : Within s most count (t.delete ref) where
  outside := within.outside
  misused := within.misused
  kept := Finset.subset_erase.mpr ⟨within.kept, new⟩
  raised := within.raised
  card := by simp [Finset.card_erase_of_mem given, within.card]
  peak := within.peak

theorem clear (within : Within s most count t) : Within s most count t.clear :=
  { within with }

theorem throwing (within : Within s most count t) : Within s most count t.throwing :=
  { within with raised := Nat.le_succ_of_le within.raised }

theorem leaks (within : Within s most count t) (calm : t.pending = false)
    (left : count ≤ 3 * (t.raised - s.raised)) (room : most ≤ 3 * (t.raised - s.raised) + 2) :
    Leaks s t where
  ready := ⟨calm, within.outside⟩
  misused := within.misused
  kept := within.kept
  raised := within.raised
  card := by rw [within.card]; omega
  peak := by have := within.peak; omega

end Within

theorem leaves_report (ready : s.Ready) (path : U16String) :
    Sound java (report path) s fun outcome t =>
      outcome = .returned () ∧ Leaks s t ∧ LeavesException s t := by
  obtain ⟨calm, outside⟩ := ready
  have one : Within s 2 1 s.create := (Within.refl outside).create (by decide)
  refine sound_newString ⟨calm, outside⟩ (sound_invoke ⟨calm, outside⟩ (by simp) ?_ ?_)
  · have none := one.delete s.next (by simp) (by simp)
    refine sound_deleteLocalRef outside (by simp) ?_
    refine sound_getJavaExceptionAndPrintStacktrace outside (by simp [calm]) fun _ => ?_
    exact sound_pure ⟨rfl, none.leaks calm (by simp) (by simp), .inl ⟨rfl, by simp⟩⟩
  · have none := one.throwing.delete s.next (by simp) (by simp)
    refine sound_deleteLocalRef outside (by simp) ?_
    refine sound_getJavaExceptionAndPrintStacktrace outside (fun _ => ?_) (by simp)
    -- The reference to the exception stays.
    have one := (none.create (by decide)).clear
    exact sound_pure ⟨rfl, one.leaks rfl (by simp) (by simp),
      .inr ⟨rfl, s.next + 1, by simp, by simp⟩⟩

/-- A string is converted, and nothing is left. -/
theorem sound_javaToUtf16String {α : Type} {next : U16String → Code α} {ref : Ref}
    {Q : Outcome CppException α → Jvm → Prop} (ready : s.Ready) (given : ref ∈ s.locals)
    (rest : Sound java (next (java.text ref)) s Q) :
    Sound java (javaToUtf16String (some ref) >>= next) s Q := by
  obtain ⟨calm, outside⟩ := ready
  have same : (s.setCritical true).setCritical false = s := by
    obtain ⟨⟩ := s
    obtain rfl := outside
    rfl
  refine Sound.bind (sound_getStringLength ⟨calm, outside⟩ given ?_)
  refine sound_getStringCritical ⟨calm, outside⟩ given ?_
  refine sound_releaseStringCritical rfl given (sound_pure ?_)
  rw [List.take_length, same]
  exact rest

theorem sound_javaToUtf8String {α : Type} {next : String → Code α} {ref : Ref}
    {Q : Outcome CppException α → Jvm → Prop} (ready : s.Ready) (given : ref ∈ s.locals)
    (rest : ∀ string, Sound java (next string) s Q) (throws : Q (.threw toBytesError) s) :
    Sound java (javaToUtf8String (some ref) >>= next) s Q := by
  refine Sound.bind (sound_javaToUtf16String ready given ?_)
  unfold toUtf8
  split
  next => exact sound_raise throws
  next => exact sound_pure (rest _)

theorem sound_caughtMessage {α : Type} {next : String → Code α} {exceptionType : String}
    {javaMessage : Option Ref} {Q : Outcome CppException α → Jvm → Prop} (ready : s.Ready)
    (given : ∀ ref ∈ javaMessage, ref ∈ s.locals) (rest : ∀ string, Sound java (next string) s Q)
    (throws : Q (.threw toBytesError) s) :
    Sound java (caughtMessage exceptionType javaMessage >>= next) s Q := by
  cases javaMessage with
  | none => exact Sound.bind (sound_pure (rest _))
  | some ref =>
    refine Sound.bind (sound_javaToUtf8String ready (given ref rfl) ?_ throws)
    exact fun message => sound_pure (rest _)

/-- A pending exception is thrown on as a `runtime_error`, or as the error of a conversion, and
leaves three references at most. -/
theorem within_rethrowJavaException (outside : s.critical = false) :
    Sound java rethrowJavaException s fun outcome t =>
      outcome ≠ .threw .javaExceptionThrownException ∧
      if s.pending = true then t.pending = false ∧ ∃ count ≤ 3, Within s 3 count t else t = s := by
  refine sound_getJavaExceptionAndPrintStacktrace outside ?_ ?_
  · intro pending
    simp only [pending, if_true]
    have one : Within s 3 1 s.create := (Within.refl outside).create (by decide)
    have two := one.clear.clear.create (by decide)
    refine sound_exceptionDescribe outside (sound_exceptionClear outside ?_)
    refine sound_getObjectClass ⟨rfl, outside⟩ (by simp) ?_
    refine sound_getMethodID ⟨rfl, outside⟩ (by simp) ?_
    refine sound_getName ⟨rfl, outside⟩ (by simp) ?_ ?_
    · -- The exception, its class and the name of the class.
      have three := two.create (by decide)
      refine sound_exceptionCheck outside ?_
      refine sound_javaToUtf8String ⟨rfl, outside⟩ (by simp) (fun exceptionType => ?_)
        ⟨by simp [toBytesError], rfl, 3, le_rfl, three⟩
      have two := three.delete (s.next + 1 + 1) (by simp) (by simp [Nat.add_assoc])
      refine sound_deleteLocalRef outside (by simp) ?_
      refine sound_getMethodID ⟨rfl, outside⟩ (by simp [Nat.add_assoc]) ?_
      refine sound_getMessage ⟨rfl, outside⟩ (by simp [Nat.add_assoc]) ?_ ?_ ?_
      · have three := two.create (by decide)
        have two := three.delete (s.next + 1) (by simp [Nat.add_assoc]) (by simp)
        refine sound_exceptionCheck outside ?_
        refine sound_deleteLocalRef outside (by simp [Nat.add_assoc]) ?_
        refine sound_caughtMessage ⟨rfl, outside⟩ (by simp [Nat.add_assoc]) (fun message => ?_)
          ⟨by simp [toBytesError], rfl, 2, by decide, two⟩
        have one := two.delete (s.next + 1 + 1 + 1) (by simp [Nat.add_assoc])
          (by simp [Nat.add_assoc])
        refine sound_deleteLocalRef outside (by simp [Nat.add_assoc]) ?_
        refine sound_deleteLocalRef outside (by simp [Nat.add_assoc]) (sound_raise ?_)
        exact ⟨by simp, rfl, 0, by decide, one.delete s.next (by simp [Nat.add_assoc]) (by simp)⟩
      · have one := two.delete (s.next + 1) (by simp [Nat.add_assoc]) (by simp)
        refine sound_exceptionCheck outside ?_
        refine sound_deleteLocalRef outside (by simp) ?_
        refine sound_caughtMessage ⟨rfl, outside⟩ (by simp) (fun message => ?_)
          ⟨by simp [toBytesError], rfl, 1, by decide, one⟩
        refine Sound.bind (sound_pure ?_)
        refine sound_deleteLocalRef outside (by simp [Nat.add_assoc]) (sound_raise ?_)
        exact ⟨by simp, rfl, 0, by decide, one.delete s.next (by simp [Nat.add_assoc]) (by simp)⟩
      · refine sound_exceptionCheck outside ?_
        refine sound_exceptionDescribe outside (sound_raise ?_)
        exact ⟨by simp, rfl, 2, by decide, two.throwing.clear⟩
    · refine sound_exceptionCheck outside ?_
      refine sound_exceptionDescribe outside (sound_raise ?_)
      exact ⟨by simp, rfl, 2, by decide, two.throwing.clear⟩
  · intro calm
    exact sound_pure (by simp [calm])

/-- A log message leaves nothing unless the logger throws. -/
theorem leaks_send (ready : s.Ready) : Sound java Logging.send s fun outcome t =>
    outcome ≠ .threw .javaExceptionThrownException ∧ Leaks s t := by
  obtain ⟨calm, outside⟩ := ready
  refine sound_newStringUTF ⟨calm, outside⟩ ?_
  refine sound_invoke ⟨calm, outside⟩ (by simp) ?_ ?_
  · refine sound_deleteLocalRef outside (by simp) ?_
    refine (within_rethrowJavaException (s := s.create.delete s.next) outside).mono ?_
    rintro _ t ⟨other, left⟩
    obtain rfl : t = s.create.delete s.next := by simpa [calm] using left
    refine ⟨other, ⟨calm, outside⟩, rfl, by simp, le_rfl, by simp, ?_⟩
    simp
    omega
  · refine sound_deleteLocalRef outside (by simp) ?_
    refine (within_rethrowJavaException (s := s.create.throwing.delete s.next) outside).mono ?_
    rintro _ t ⟨other, left⟩
    obtain ⟨calm, count, atMost, within⟩ : t.pending = false ∧ ∃ count ≤ 3,
        Within (s.create.throwing.delete s.next) 3 count t := by simpa using left
    obtain ⟨outside, misused, kept, raised, card, peak⟩ := within
    simp only [Jvm.delete_raised, Jvm.throwing_raised, Jvm.create_raised, Jvm.delete_peak,
      Jvm.throwing_peak, Jvm.create_peak, Jvm.delete_locals, Jvm.throwing_locals,
      Jvm.create_locals, Finset.erase_insert_eq_erase,
      Finset.erase_eq_of_notMem Jvm.next_notMem] at kept raised card peak
    exact ⟨other, ⟨calm, outside⟩, misused, kept, by omega, by omega, by omega⟩

theorem leaks_toUtf8 (ready : s.Ready) (string : U16String) :
    Sound java (toUtf8 string) s fun _ t => Leaks s t := by
  unfold toUtf8
  split
  next => exact sound_raise (.refl ready)
  next => exact sound_pure (.refl ready)

/-- Code that goes on after a part leaves what both leave. -/
theorem Leaks.bind {α β : Type} {code : Code α} {next : α → Code β}
    (first : Sound java code s fun _ t => Leaks s t)
    (rest : ∀ value t, t.Ready → Sound java (next value) t fun _ u => Leaks t u) :
    Sound java (code >>= next) s fun _ t => Leaks s t := by
  refine Sound.bind (first.mono fun outcome t leaks => ?_)
  cases outcome with
  | returned value => exact (rest value t leaks.ready).mono fun _ _ later => leaks.trans later
  | threw | aborted | running => exact leaks

theorem leaks_reportFailure (ready : s.Ready) (message : String) :
    Sound java (reportFailure message) s fun _ t => Leaks s t := by
  obtain ⟨calm, outside⟩ := ready
  unfold reportFailure
  split
  next => exact sound_raise (.refl ⟨calm, outside⟩)
  next =>
    have two : Within s 2 2 s.create.create :=
      ((Within.refl outside).create (by decide)).create (by decide)
    refine sound_newString ⟨calm, outside⟩ (sound_getMethodID ⟨calm, outside⟩ (by simp) ?_)
    refine sound_newObject ⟨calm, outside⟩ (by simp) ?_
    refine sound_invoke ⟨calm, outside⟩ (by simp) ?_ ?_
    · have none := (two.delete s.next (by simp) (by simp)).delete (s.next + 1) (by simp) (by simp)
      refine sound_deleteLocalRef outside (by simp) (sound_deleteLocalRef outside (by simp) ?_)
      refine sound_getJavaExceptionAndPrintStacktrace outside (by simp [calm]) fun _ => ?_
      exact sound_pure (none.leaks calm (by simp) (by simp))
    · have none :=
        (two.throwing.delete s.next (by simp) (by simp)).delete (s.next + 1) (by simp) (by simp)
      refine sound_deleteLocalRef outside (by simp) (sound_deleteLocalRef outside (by simp) ?_)
      refine sound_getJavaExceptionAndPrintStacktrace outside (fun _ => ?_) (by simp)
      exact sound_pure ((none.create (by decide)).clear.leaks rfl (by simp) (by simp))

theorem leaks_reportOverflow (ready : s.Ready) (path : U16String) :
    Sound java (reportOverflow path) s fun _ t => Leaks s t := by
  refine Leaks.bind (leaks_toUtf8 ready path) fun _ t ready => ?_
  refine Leaks.bind ((leaks_send ready).mono fun _ _ => And.right) fun _ u ready => ?_
  exact (leaves_report ready path).mono fun _ _ left => left.2.1

theorem leaks_action (ready : s.Ready) (action : Action) :
    Sound java action.code s fun _ t => Leaks s t := by
  cases action with
  | reportChangeEvent _ path | reportUnknownEvent path =>
    exact (leaves_report ready path).mono fun _ _ left => left.2.1
  | reportOverflow path => exact leaks_reportOverflow ready path
  | logToJava => exact (leaks_send ready).mono fun _ _ => And.right
  | fail ex => exact sound_raise (.refl ready)

theorem leaks_each {β : Type} {body : β → Code Unit}
    (leaks : ∀ b t, t.Ready → Sound java (body b) t fun _ u => Leaks t u) (ready : s.Ready)
    (l : List β) : Sound java (Program.each body l) s fun _ t => Leaks s t := by
  refine Sound.each (Leaks s) (fun b _ t first => ?_) (fun _ leaks => leaks) (.refl ready)
  refine (leaks b t first.ready).mono fun outcome u later => ?_
  cases outcome with
  | returned | threw | aborted | running => exact first.trans later

theorem leaks_handleEvents (ready : s.Ready) (actions : List Action) :
    Sound java (handleEvents actions) s fun _ t => Leaks s t := by
  refine Sound.tryCatch ?_
  refine (leaks_each (fun action _ ready => leaks_action ready action) ready actions).mono ?_
  intro outcome t leaks
  cases outcome with
  | threw ex => exact (leaks_reportFailure leaks.ready ex.what).mono fun _ _ => leaks.trans
  | returned | aborted | running => exact leaks

theorem leaksEach_each {β : Type} {body : β → Code Unit} {l : List β}
    (leaks : ∀ b ∈ l, ∀ t, t.Ready →
      Sound java (body b) t fun outcome u => outcome = .returned () ∧ LeaksEach t u)
    (ready : s.Ready) : Sound java (Program.each body l) s fun outcome t =>
      outcome = .returned () ∧ LeaksEach s t := by
  refine Sound.each (LeaksEach s) (fun b mem t first => ?_) (fun _ leaks => ⟨rfl, leaks⟩)
    (.refl ready)
  refine (leaks b mem t first.ready).mono ?_
  rintro _ u ⟨rfl, later⟩
  exact first.trans later

theorem leaves_action (ready : s.Ready) {action : Action} (report : action.IsReport) :
    Sound java action.code s fun outcome t =>
      outcome = .returned () ∧ Leaks s t ∧ LeavesException s t := by
  cases action with
  | reportChangeEvent _ path | reportUnknownEvent path => exact leaves_report ready path
  | reportOverflow | logToJava | fail => exact report.elim

theorem leaksEach_handleEvents (ready : s.Ready) {actions : List Action}
    (reports : ∀ action ∈ actions, action.IsReport) :
    Sound java (handleEvents actions) s fun outcome t =>
      outcome = .returned () ∧ LeaksEach s t := by
  refine Sound.tryCatch ((leaksEach_each (fun action mem t ready => ?_) ready).mono ?_)
  · exact (leaves_action ready (reports action mem)).mono fun _ _ left =>
      ⟨left.1, left.2.1, left.2.2.card_eq⟩
  · rintro _ t ⟨rfl, leaks⟩
    exact ⟨rfl, leaks⟩

/-- However many batches the run loop handles, and whatever their handling reports, logs and
fails at, no rule of the JNI is broken and no Java exception stays pending, unless the memory is
exhausted. The local references that are left are three at most for each Java exception that a
method has thrown, and none where none has thrown. There are never more than two others. A report,
whatever came before it, leaves exactly one, to the exception, if its callback throws, and none
otherwise. -/
theorem leaks_of_runLoop (java : Java) (s : Jvm) (ready : s.Ready)
    (clean : s.misused = false) (batches : List (List Action)) :
    (Sound java (runLoop batches) s fun _ t =>
      t.misused = false ∧ t.Ready ∧ s.locals ⊆ t.locals ∧
        t.locals.card ≤ s.locals.card + 3 * (t.raised - s.raised) ∧
        t.peak ≤ max s.peak (s.locals.card + 3 * (t.raised - s.raised) + 2) ∧
        (t.raised = s.raised → t.locals = s.locals) ∧
        ((∀ actions ∈ batches, ∀ action ∈ actions, action.IsReport) →
          t.locals.card = s.locals.card + (t.raised - s.raised))) ∧
      ∀ (action : Action) (before : Jvm), action.IsReport → before.Ready →
        Sound java action.code before fun outcome after =>
          outcome = .returned () ∧ LeavesException before after := by
  have leaks : Sound java (runLoop batches) s fun _ t => Leaks s t :=
    leaks_each (fun actions _ ready => leaks_handleEvents ready actions) ready batches
  have tight (reports : ∀ actions ∈ batches, ∀ action ∈ actions, action.IsReport) :
      Sound java (runLoop batches) s fun outcome t => outcome = .returned () ∧ LeaksEach s t :=
    leaksEach_each (fun actions mem _ ready => leaksEach_handleEvents ready (reports actions mem))
      ready
  refine ⟨?_, fun action before report ready =>
    (leaves_action ready report).mono fun _ _ left => ⟨left.1, left.2.2⟩⟩
  intro trace outcome t run follows
  by_cases exhausted : t.exhausted = true
  · exact .inl exhausted
  have left : Leaks s t := (leaks trace outcome t run follows).resolve_left exhausted
  refine .inr ⟨left.misused.trans clean, left.ready, left.kept, left.card, left.peak,
    left.locals_eq, fun reports => ?_⟩
  exact ((tight reports trace outcome t run follows).resolve_left exhausted).2.card_eq

/-- A native method that has just begun. -/
def Jvm.fresh : Jvm where
  locals := ∅
  next := 0
  lt_next := by simp
  pending := false
  critical := false
  raised := 0
  peak := 0
  exhausted := false
  misused := false

/-- Every string is the same. -/
def constantJava : Java := ⟨fun _ => u16 "a", []⟩

/-- A change is reported, and the callback throws. -/
def throwingReport : List (Sigma Call.Answer) :=
  [⟨.newString (u16 "a"), some 0⟩, ⟨.invoke .callVoidMethod (some 0), ()⟩,
    ⟨.deleteLocalRef (some 0), ()⟩, ⟨.exceptionOccurred, some 1⟩, ⟨.exceptionDescribe, ()⟩,
    ⟨.exceptionClear, ()⟩]

theorem follows_throwingReport :
    constantJava.partner.Follows .fresh throwingReport
      (((Jvm.fresh.create.throwing.delete 0).create).clear.clear) := by
  refine .cons (.allowed ⟨rfl, rfl⟩ (.newString rfl)) ?_
  refine .cons (.allowed ⟨⟨rfl, rfl⟩, by simp [Jvm.fresh]⟩ .invoke_throws) ?_
  refine .cons (.allowed ⟨rfl, by simp [Jvm.fresh]⟩ .deleteLocalRef) ?_
  refine .cons (.allowed rfl (.exceptionOccurred rfl)) ?_
  exact .cons (.allowed rfl .exceptionDescribe) (.cons (.allowed rfl .exceptionClear) (.nil _))

theorem leaks_of_runLoop_throwingReport :
    ∃ t, Program.Run (runLoop [[.reportChangeEvent .created (u16 "a")]]) throwingReport
        (.returned ()) ∧
      constantJava.partner.Follows .fresh throwingReport t ∧ t.locals.card = 1 := by
  have run : Program.Run (runLoop [[.reportChangeEvent .created (u16 "a")]]) throwingReport
      (.returned ()) := .call (.call (.call (.call (.call (.call (.done _))))))
  refine ⟨_, run, follows_throwingReport, ?_⟩
  obtain exhausted | ⟨-, -, -, -, -, -, left⟩ := (leaks_of_runLoop constantJava .fresh
    ⟨rfl, rfl⟩ rfl _).1 _ _ _ run follows_throwingReport
  · cases exhausted
  · exact left (by simp [Action.IsReport])

end Leaks

end Jni

end FileEvents
