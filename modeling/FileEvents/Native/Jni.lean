import FileEvents.Calls.Partner
import FileEvents.Native.CppException
import Mathlib.Data.Finset.Card
import Mathlib.Data.Finset.Lattice.Lemmas

/-!
# The Java native interface

The calls of `JNIEnv` that the native code makes, with three rules they have: while a Java
exception is pending, only exceptions are looked at and references deleted, between
`GetStringCritical` and `ReleaseStringCritical` nothing else is called, and a local reference is
used while it is there. What happens after a call against the rules is undefined.

A local reference that is deleted is not used again for another object. The constructors and
the methods that are looked up exist, and a constructor throws only where the memory is
exhausted. `ExceptionDescribe` clears the exception.

## Main definitions

* `Jvm` — what the JVM keeps for a native method
* `Call`, `Jvm.Allows` — the calls and their rules
* `Effect`, `Java.partner` — how they are answered
* `Sound` — a condition on what native code leaves, unless the memory is exhausted
-/

namespace FileEvents

open Calls

namespace Jni

/-- A local reference that is not null. -/
abbrev Ref := ℕ

/-- What the JVM keeps for a native method. -/
structure Jvm where
  /-- The local references. -/
  locals : Finset Ref
  /-- The next one. -/
  next : Ref
  lt_next : ∀ ref ∈ locals, ref < next
  /-- A Java exception is pending. -/
  pending : Bool
  /-- Between `GetStringCritical` and `ReleaseStringCritical`. -/
  critical : Bool
  /-- How many Java exceptions the methods called have thrown. -/
  raised : ℕ
  /-- How many local references there were at once. -/
  peak : ℕ
  /-- Something could not be allocated. -/
  exhausted : Bool
  /-- Something was called against the rules. -/
  misused : Bool

namespace Jvm

/-- A local reference is created. -/
@[simps] def create (s : Jvm) : Jvm :=
  { s with
    locals := insert s.next s.locals
    next := s.next + 1
    lt_next := fun ref mem => by
      rcases Finset.mem_insert.mp mem with rfl | mem
      · exact Nat.lt_succ_self _
      · exact Nat.lt_succ_of_lt (s.lt_next ref mem)
    peak := max s.peak (s.locals.card + 1) }

/-- A local reference is deleted. -/
@[simps] def delete (s : Jvm) (ref : Ref) : Jvm :=
  { s with
    locals := s.locals.erase ref
    lt_next := fun other mem => s.lt_next other (Finset.mem_of_mem_erase mem) }

/-- A method throws. -/
@[simps] def throwing (s : Jvm) : Jvm := { s with pending := true, raised := s.raised + 1 }

/-- The pending exception is cleared. -/
@[simps] def clear (s : Jvm) : Jvm := { s with pending := false }

/-- A critical region begins or ends. -/
@[simps] def setCritical (s : Jvm) (critical : Bool) : Jvm := { s with critical }

/-- Methods may be called. -/
def Ready (s : Jvm) : Prop := s.pending = false ∧ s.critical = false

end Jvm

/-- The methods without arguments that are called on an object. -/
inductive Getter | getName | getMessage
  deriving DecidableEq

/-- The calls of a method that returns nothing the native code looks at. -/
inductive Invocation | callVoidMethod | callStaticVoidMethod | callBooleanMethod

/-- The calls. Methods, and the classes and objects that have a global reference, are left
out of their arguments. -/
inductive Call
  | newString (string : U16String)
  | newStringUTF
  | newObject (argument : Option Ref)
  | getObjectClass (object : Ref)
  /-- The class is a local reference, or a global one. -/
  | getMethodID (localClass : Option Ref)
  | invoke (invocation : Invocation) (argument : Option Ref)
  | callObjectMethod (object : Ref) (method : Getter)
  | getStringLength (string : Option Ref)
  | getStringCritical (string : Option Ref)
  | releaseStringCritical (string : Option Ref)
  | getArrayLength
  | getObjectArrayElement (index : ℕ)
  | exceptionOccurred
  | exceptionCheck
  | exceptionDescribe
  | exceptionClear
  | deleteLocalRef (ref : Option Ref)

/-- What answers a call. -/
abbrev Call.Answer : Call → Type
  | newString _ | newStringUTF | newObject _ | getObjectArrayElement _ => Option Ref
  | callObjectMethod _ _ | exceptionOccurred => Option Ref
  | getObjectClass _ => Ref
  | getStringLength _ | getArrayLength => ℕ
  | getStringCritical _ => Option U16String
  | exceptionCheck => Bool
  | getMethodID _ | invoke _ _ | releaseStringCritical _ => Unit
  | exceptionDescribe | exceptionClear | deleteLocalRef _ => Unit

/-- Native code that returns an `α`. -/
abbrev Code (α : Type) := Program Call.Answer CppException α

/-- Makes a call. -/
def ask (call : Call) : Code call.Answer := Program.ask call

/-- What Java hands over. -/
structure Java where
  /-- The strings that are referred to. -/
  text : Ref → U16String
  /-- The strings of the array that was passed. -/
  array : List U16String

/-- The rules. -/
def Jvm.Allows (s : Jvm) (java : Java) : Call → Prop
  | .exceptionOccurred | .exceptionCheck | .exceptionDescribe | .exceptionClear =>
    s.critical = false
  | .deleteLocalRef ref => s.critical = false ∧ ∀ r ∈ ref, r ∈ s.locals
  | .releaseStringCritical string => s.critical = true ∧ ∃ r ∈ string, r ∈ s.locals
  | .newString _ | .newStringUTF | .getArrayLength => s.Ready
  | .getMethodID given | .newObject given | .invoke _ given =>
    s.Ready ∧ ∀ r ∈ given, r ∈ s.locals
  | .getObjectClass object | .callObjectMethod object _ => s.Ready ∧ object ∈ s.locals
  | .getStringLength string | .getStringCritical string =>
    s.Ready ∧ ∃ r ∈ string, r ∈ s.locals
  | .getObjectArrayElement index => s.Ready ∧ index < java.array.length

/-- The calls that need memory. -/
def Call.Allocates : Call → Prop
  | .newString _ | .newStringUTF | .newObject _ | .getMethodID _ | .getStringCritical _ => True
  | .getObjectClass _ | .invoke _ _ | .callObjectMethod _ _ | .getStringLength _
  | .releaseStringCritical _ | .getArrayLength | .getObjectArrayElement _ | .exceptionOccurred
  | .exceptionCheck | .exceptionDescribe | .exceptionClear | .deleteLocalRef _ => False

/-- What comes of a call that keeps to the rules. -/
inductive Effect (java : Java) (s : Jvm) : (call : Call) → call.Answer → Jvm → Prop
  | newString {string : U16String} (same : java.text s.next = string) :
      Effect java s (.newString string) (some s.next) s.create
  | newStringUTF : Effect java s .newStringUTF (some s.next) s.create
  | newObject {argument : Option Ref} :
      Effect java s (.newObject argument) (some s.next) s.create
  | getObjectClass {object : Ref} : Effect java s (.getObjectClass object) s.next s.create
  | getMethodID {localClass : Option Ref} : Effect java s (.getMethodID localClass) () s
  | invoke {invocation : Invocation} {argument : Option Ref} :
      Effect java s (.invoke invocation argument) () s
  | invoke_throws {invocation : Invocation} {argument : Option Ref} :
      Effect java s (.invoke invocation argument) () s.throwing
  | callObjectMethod {object : Ref} {method : Getter} :
      Effect java s (.callObjectMethod object method) (some s.next) s.create
  /-- An exception need not have a message. -/
  | getMessage_null {object : Ref} :
      Effect java s (.callObjectMethod object .getMessage) none s
  | callObjectMethod_throws {object : Ref} {method : Getter} :
      Effect java s (.callObjectMethod object method) none s.throwing
  | getStringLength {ref : Ref} :
      Effect java s (.getStringLength (some ref)) (java.text ref).length s
  | getStringCritical {ref : Ref} :
      Effect java s (.getStringCritical (some ref)) (some (java.text ref)) (s.setCritical true)
  | releaseStringCritical {string : Option Ref} :
      Effect java s (.releaseStringCritical string) () (s.setCritical false)
  | getArrayLength : Effect java s .getArrayLength java.array.length s
  | getObjectArrayElement {index : ℕ} (same : java.array[index]? = some (java.text s.next)) :
      Effect java s (.getObjectArrayElement index) (some s.next) s.create
  | exceptionOccurred (pending : s.pending = true) :
      Effect java s .exceptionOccurred (some s.next) s.create
  | exceptionOccurred_none (calm : s.pending = false) : Effect java s .exceptionOccurred none s
  | exceptionCheck : Effect java s .exceptionCheck s.pending s
  | exceptionDescribe : Effect java s .exceptionDescribe () s.clear
  | exceptionClear : Effect java s .exceptionClear () s.clear
  | deleteLocalRef {ref : Ref} : Effect java s (.deleteLocalRef (some ref)) () (s.delete ref)
  | deleteLocalRef_null : Effect java s (.deleteLocalRef none) () s
  /-- Without memory anything may be answered. -/
  | exhausted {call : Call} {answer : call.Answer} {t : Jvm} (allocates : call.Allocates)
      (exhausted : t.exhausted = true) : Effect java s call answer t

/-- How the JVM answers. -/
inductive Java.Answers (java : Java) (s : Jvm) (call : Call) (answer : call.Answer) (t : Jvm) :
    Prop
  | allowed (allows : s.Allows java call) (effect : Effect java s call answer t)
  | misused (forbidden : ¬ s.Allows java call) (misused : t.misused = true)
      (exhausted : s.exhausted = true → t.exhausted = true)

def Java.partner (java : Java) : Partner Call.Answer Jvm := java.Answers

/-- What native code leaves meets a condition, unless the memory is exhausted. -/
def Sound (java : Java) {α : Type} (code : Code α) (s : Jvm)
    (Q : Outcome CppException α → Jvm → Prop) : Prop :=
  code.Ensures java.partner s fun outcome t => t.exhausted = true ∨ Q outcome t

section Sound

variable {java : Java} {s : Jvm} {α β : Type} {code : Code α}
  {Q R : Outcome CppException α → Jvm → Prop}

theorem exhausted_of_answers {call : Call} {answer : call.Answer} {t : Jvm}
    (exhausted : s.exhausted = true) (answers : java.partner s call answer t) :
    t.exhausted = true := by
  cases answers with
  | misused _ _ sticks => exact sticks exhausted
  | allowed _ effect => cases effect <;> assumption

theorem sound_of_exhausted (exhausted : s.exhausted = true) : Sound java code s Q := by
  have ends : code.Ensures java.partner s fun _ t => t.exhausted = true :=
    Program.ensures_invariant (I := fun t : Jvm => t.exhausted = true)
      (fun _ _ _ _ => exhausted_of_answers) exhausted code
  exact ends.mono fun _ _ => .inl

theorem Sound.mono (sound : Sound java code s Q)
    (weaker : ∀ outcome t, Q outcome t → R outcome t) : Sound java code s R :=
  Program.Ensures.mono sound fun outcome t => Or.imp_right (weaker outcome t)

theorem sound_pure {value : α} (meets : Q (.returned value) s) :
    Sound java (pure value) s Q := Program.ensures_pure.mpr (.inr meets)

theorem sound_raise {ex : CppException} (meets : Q (.threw ex) s) :
    Sound java (Program.raise ex) s Q := Program.ensures_raise.mpr (.inr meets)

theorem Sound.bind {next : α → Code β} {Q : Outcome CppException β → Jvm → Prop}
    (sound : Sound java code s fun outcome t =>
      match outcome with
      | .returned value => Sound java (next value) t Q
      | .threw ex => Q (.threw ex) t
      | .aborted => Q .aborted t
      | .running => Q .running t) : Sound java (code >>= next) s Q := by
  refine Program.ensures_bind.mpr (Program.Ensures.mono sound ?_)
  rintro (_ | _ | _ | _) t (exhausted | meets)
  case returned.inl => exact sound_of_exhausted exhausted
  case returned.inr => exact meets
  all_goals first | exact .inl exhausted | exact .inr meets

theorem Sound.tryCatch {handler : CppException → Code α}
    (sound : Sound java code s fun outcome t =>
      match outcome with
      | .threw ex => Sound java (handler ex) t Q
      | .returned _ | .aborted | .running => Q outcome t) :
    Sound java (code.tryCatch handler) s Q := by
  refine Program.ensures_tryCatch.mpr (Program.Ensures.mono sound ?_)
  rintro (_ | _ | _ | _) t (exhausted | meets)
  case threw.inl => exact sound_of_exhausted exhausted
  case threw.inr => exact meets
  all_goals first | exact .inl exhausted | exact .inr meets

/-- The rule for a loop, whose body keeps the invariant or ends the loop as the condition
allows. -/
theorem Sound.each {β : Type} {body : β → Code Unit} {Q : Outcome CppException Unit → Jvm → Prop}
    (I : Jvm → Prop) {l : List β}
    (keeps : ∀ b ∈ l, ∀ t, I t → Sound java (body b) t (Program.keeping I Q))
    (ends : ∀ t, I t → Q (.returned ()) t) (holds : I s) :
    Sound java (Program.each body l) s Q := by
  refine Program.Ensures.each (fun t => t.exhausted = true ∨ I t) ?_ ?_ (.inr holds)
  · rintro b mem t (exhausted | holds)
    · refine Program.Ensures.mono (sound_of_exhausted exhausted (Q := fun _ _ => False)) ?_
      rintro (_ | _ | _ | _) u (exhausted | ⟨⟨⟩⟩)
      all_goals exact .inl exhausted
    · refine Program.Ensures.mono (keeps b mem t holds) ?_
      rintro (_ | _ | _ | _) u meets
      all_goals exact meets
  · rintro t (exhausted | holds)
    · exact .inl exhausted
    · exact .inr (ends t holds)

/-- The rule for a call that keeps to the rules. -/
theorem sound_ask_bind {call : Call} {next : call.Answer → Code α} (allows : s.Allows java call)
    (rest : ∀ answer t, Effect java s call answer t →
      t.exhausted = true ∨ Sound java (next answer) t Q) :
    Sound java (ask call >>= next) s Q := by
  refine Program.ensures_ask_bind.mpr fun answer t answers => ?_
  cases answers with
  | misused forbidden => exact absurd allows forbidden
  | allowed _ effect =>
    rcases rest answer t effect with exhausted | sound
    · exact sound_of_exhausted exhausted
    · exact sound

end Sound

/-! ## The rules for the calls -/

section Calls

variable {java : Java} {s : Jvm} {α : Type} {Q : Outcome CppException α → Jvm → Prop}

theorem sound_newString {string : U16String} {next : Option Ref → Code α} (ready : s.Ready)
    (rest : Sound java (next (some s.next)) s.create Q) :
    Sound java (ask (.newString string) >>= next) s Q := by
  refine sound_ask_bind ready fun answer t effect => ?_
  cases effect with
  | newString => exact .inr rest
  | exhausted _ exhausted => exact .inl exhausted

theorem sound_newStringUTF {next : Option Ref → Code α} (ready : s.Ready)
    (rest : Sound java (next (some s.next)) s.create Q) :
    Sound java (ask .newStringUTF >>= next) s Q := by
  refine sound_ask_bind ready fun answer t effect => ?_
  cases effect with
  | newStringUTF => exact .inr rest
  | exhausted _ exhausted => exact .inl exhausted

theorem sound_newObject {argument : Option Ref} {next : Option Ref → Code α}
    (ready : s.Ready) (given : ∀ r ∈ argument, r ∈ s.locals)
    (rest : Sound java (next (some s.next)) s.create Q) :
    Sound java (ask (.newObject argument) >>= next) s Q := by
  refine sound_ask_bind ⟨ready, given⟩ fun answer t effect => ?_
  cases effect with
  | newObject => exact .inr rest
  | exhausted _ exhausted => exact .inl exhausted

theorem sound_getObjectClass {object : Ref} {next : Ref → Code α} (ready : s.Ready)
    (given : object ∈ s.locals) (rest : Sound java (next s.next) s.create Q) :
    Sound java (ask (.getObjectClass object) >>= next) s Q := by
  refine sound_ask_bind ⟨ready, given⟩ fun answer t effect => ?_
  cases effect with
  | getObjectClass => exact .inr rest
  | exhausted allocates => exact allocates.elim

theorem sound_getMethodID {localClass : Option Ref} {next : Unit → Code α} (ready : s.Ready)
    (given : ∀ r ∈ localClass, r ∈ s.locals) (rest : Sound java (next ()) s Q) :
    Sound java (ask (.getMethodID localClass) >>= next) s Q := by
  refine sound_ask_bind ⟨ready, given⟩ fun answer t effect => ?_
  cases effect with
  | getMethodID => exact .inr rest
  | exhausted _ exhausted => exact .inl exhausted

theorem sound_invoke {invocation : Invocation} {argument : Option Ref} {next : Unit → Code α}
    (ready : s.Ready) (given : ∀ r ∈ argument, r ∈ s.locals) (rest : Sound java (next ()) s Q)
    (throws : Sound java (next ()) s.throwing Q) :
    Sound java (ask (.invoke invocation argument) >>= next) s Q := by
  refine sound_ask_bind ⟨ready, given⟩ fun answer t effect => ?_
  cases effect with
  | invoke => exact .inr rest
  | invoke_throws => exact .inr throws
  | exhausted allocates => exact allocates.elim

theorem sound_getName {object : Ref} {next : Option Ref → Code α} (ready : s.Ready)
    (given : object ∈ s.locals) (rest : Sound java (next (some s.next)) s.create Q)
    (throws : Sound java (next none) s.throwing Q) :
    Sound java (ask (.callObjectMethod object .getName) >>= next) s Q := by
  refine sound_ask_bind ⟨ready, given⟩ fun answer t effect => ?_
  cases effect with
  | callObjectMethod => exact .inr rest
  | callObjectMethod_throws => exact .inr throws
  | exhausted allocates => exact allocates.elim

theorem sound_getMessage {object : Ref} {next : Option Ref → Code α} (ready : s.Ready)
    (given : object ∈ s.locals) (rest : Sound java (next (some s.next)) s.create Q)
    (null : Sound java (next none) s Q) (throws : Sound java (next none) s.throwing Q) :
    Sound java (ask (.callObjectMethod object .getMessage) >>= next) s Q := by
  refine sound_ask_bind ⟨ready, given⟩ fun answer t effect => ?_
  cases effect with
  | callObjectMethod => exact .inr rest
  | getMessage_null => exact .inr null
  | callObjectMethod_throws => exact .inr throws
  | exhausted allocates => exact allocates.elim

theorem sound_getStringLength {ref : Ref} {next : ℕ → Code α} (ready : s.Ready)
    (given : ref ∈ s.locals) (rest : Sound java (next (java.text ref).length) s Q) :
    Sound java (ask (.getStringLength (some ref)) >>= next) s Q := by
  refine sound_ask_bind ⟨ready, ref, rfl, given⟩ fun answer t effect => ?_
  cases effect with
  | getStringLength => exact .inr rest
  | exhausted allocates => exact allocates.elim

theorem sound_getStringCritical {ref : Ref} {next : Option U16String → Code α} (ready : s.Ready)
    (given : ref ∈ s.locals)
    (rest : Sound java (next (some (java.text ref))) (s.setCritical true) Q) :
    Sound java (ask (.getStringCritical (some ref)) >>= next) s Q := by
  refine sound_ask_bind ⟨ready, ref, rfl, given⟩ fun answer t effect => ?_
  cases effect with
  | getStringCritical => exact .inr rest
  | exhausted _ exhausted => exact .inl exhausted

theorem sound_releaseStringCritical {ref : Ref} {next : Unit → Code α}
    (critical : s.critical = true) (given : ref ∈ s.locals)
    (rest : Sound java (next ()) (s.setCritical false) Q) :
    Sound java (ask (.releaseStringCritical (some ref)) >>= next) s Q := by
  refine sound_ask_bind ⟨critical, ref, rfl, given⟩ fun answer t effect => ?_
  cases effect with
  | releaseStringCritical => exact .inr rest
  | exhausted allocates => exact allocates.elim

theorem sound_getArrayLength {next : ℕ → Code α} (ready : s.Ready)
    (rest : Sound java (next java.array.length) s Q) :
    Sound java (ask .getArrayLength >>= next) s Q := by
  refine sound_ask_bind ready fun answer t effect => ?_
  cases effect with
  | getArrayLength => exact .inr rest
  | exhausted allocates => exact allocates.elim

theorem sound_getObjectArrayElement {index : ℕ} {next : Option Ref → Code α} (ready : s.Ready)
    (inside : index < java.array.length)
    (rest : java.array[index]? = some (java.text s.next) →
      Sound java (next (some s.next)) s.create Q) :
    Sound java (ask (.getObjectArrayElement index) >>= next) s Q := by
  refine sound_ask_bind ⟨ready, inside⟩ fun answer t effect => ?_
  cases effect with
  | getObjectArrayElement same => exact .inr (rest same)
  | exhausted allocates => exact allocates.elim

theorem sound_exceptionOccurred {next : Option Ref → Code α} (outside : s.critical = false)
    (occurred : s.pending = true → Sound java (next (some s.next)) s.create Q)
    (calm : s.pending = false → Sound java (next none) s Q) :
    Sound java (ask .exceptionOccurred >>= next) s Q := by
  refine sound_ask_bind outside fun answer t effect => ?_
  cases effect with
  | exceptionOccurred pending => exact .inr (occurred pending)
  | exceptionOccurred_none none => exact .inr (calm none)
  | exhausted allocates => exact allocates.elim

theorem sound_exceptionCheck {next : Bool → Code α} (outside : s.critical = false)
    (rest : Sound java (next s.pending) s Q) :
    Sound java (ask .exceptionCheck >>= next) s Q := by
  refine sound_ask_bind outside fun answer t effect => ?_
  cases effect with
  | exceptionCheck => exact .inr rest
  | exhausted allocates => exact allocates.elim

theorem sound_exceptionDescribe {next : Unit → Code α} (outside : s.critical = false)
    (rest : Sound java (next ()) s.clear Q) :
    Sound java (ask .exceptionDescribe >>= next) s Q := by
  refine sound_ask_bind outside fun answer t effect => ?_
  cases effect with
  | exceptionDescribe => exact .inr rest
  | exhausted allocates => exact allocates.elim

theorem sound_exceptionClear {next : Unit → Code α} (outside : s.critical = false)
    (rest : Sound java (next ()) s.clear Q) : Sound java (ask .exceptionClear >>= next) s Q := by
  refine sound_ask_bind outside fun answer t effect => ?_
  cases effect with
  | exceptionClear => exact .inr rest
  | exhausted allocates => exact allocates.elim

theorem sound_deleteLocalRef {ref : Ref} {next : Unit → Code α} (outside : s.critical = false)
    (given : ref ∈ s.locals) (rest : Sound java (next ()) (s.delete ref) Q) :
    Sound java (ask (.deleteLocalRef (some ref)) >>= next) s Q := by
  refine sound_ask_bind ⟨outside, by simpa using given⟩ fun answer t effect => ?_
  cases effect with
  | deleteLocalRef => exact .inr rest
  | exhausted allocates => exact allocates.elim

theorem sound_deleteLocalRef_last {ref : Ref} {Q : Outcome CppException Unit → Jvm → Prop}
    (outside : s.critical = false) (given : ref ∈ s.locals)
    (meets : Q (.returned ()) (s.delete ref)) :
    Sound java (ask (.deleteLocalRef (some ref))) s Q := by
  refine Program.ensures_ask.mpr fun answer t answers => ?_
  cases answers with
  | misused forbidden => exact absurd ⟨outside, by simpa using given⟩ forbidden
  | allowed _ effect =>
    cases effect with
    | deleteLocalRef => exact .inr meets
    | exhausted allocates => exact allocates.elim

end Calls

end Jni

end FileEvents
