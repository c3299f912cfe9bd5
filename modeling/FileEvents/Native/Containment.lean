import FileEvents.Native.EntryPoints

/-!
# What the bodies of the entry points leave to their handlers

Native code is plain if it returns or throws with no Java exception pending and without a
step that no handler can make good: a `ThrowNew` that fails, or an exception that leaves a
destructor. It is contained if it is plain except that it may also throw
`JavaExceptionThrownException`, with a Java exception pending if and only if no `ThrowNew`
has failed.

## Main definitions

* `Fatal` — the steps after which an entry point fails whatever its handlers do
* `HandlerFails` — the failed log message of a handler
* `Plain`, `Looping`, `Contained` — the conditions on what the body of an entry point does

## Main results

* `IsPlain.bind`, `IsPlain.tryCatch`, `IsLooping.bind`, `IsContained.bind` — the rules
-/

namespace FileEvents

open Calls
open Calls.Program (raise noexcept)

namespace Native

/-- `ThrowNew` fails, or an exception leaves `~JniGlobalRef` or `~WatchPoint`. -/
def Fatal : Step → Prop
  | ⟨.throwNew, ret⟩ => ret ≠ 0
  | ⟨.deleteGlobalRef, ret⟩ => ret ≠ 0
  | ⟨.logToJava _ message, error⟩ =>
    message = WindowsServer.couldNotCancel ∧ error.isSome = true
  | _ => False

/-- The log message of `rethrowAsJavaException` throws. -/
def HandlerFails : Step → Prop
  | ⟨.logToJava _ message, error⟩ => message = caughtException ∧ error.isSome = true
  | _ => False

/-- Nothing fatal has happened, no handler has failed and no Java exception is pending. -/
structure Clean (trace : List Step) : Prop where
  notFatal : ∀ step ∈ trace, ¬ Fatal step
  noHandler : ∀ step ∈ trace, ¬ HandlerFails step
  notPending : pending trace = false

/-- Plain code throws no `JavaExceptionThrownException`. It has no endless loop. -/
def Plain {α : Type} (trace : List Step) : Outcome CppException α → Prop
  | .returned _ => Clean trace
  | .threw ex => ex ≠ .javaExceptionThrownException ∧ Clean trace
  | .aborted => ∃ step ∈ trace, Fatal step
  | .running => False

/-- Looping code is plain once its loop has ended. -/
def Looping {α : Type} (trace : List Step) : Outcome CppException α → Prop
  | .running => Clean trace
  | outcome => Plain trace outcome

/-- Contained code throws `JavaExceptionThrownException` with a Java exception pending
unless `ThrowNew` has failed. -/
def Contained {α : Type} (trace : List Step) : Outcome CppException α → Prop
  | .threw ex =>
    if ex = .javaExceptionThrownException then
      (∀ step ∈ trace, ¬ HandlerFails step) ∧
        (pending trace = true ↔ ∀ step ∈ trace, ¬ Fatal step)
    else Clean trace
  | .returned _ => Clean trace
  | .aborted => ∃ step ∈ trace, Fatal step
  | .running => False

variable {α β : Type} {before after trace : List Step}

/-! ## Traces -/

theorem exists_fatal_append (h : ∃ step ∈ after, Fatal step) :
    ∃ step ∈ before ++ after, Fatal step := by
  obtain ⟨step, mem, fatal⟩ := h
  exact ⟨step, List.mem_append_right _ mem, fatal⟩

theorem Clean.nil : Clean [] := ⟨by simp, by simp, rfl⟩

theorem Clean.pending_append (clean : Clean before) :
    pending (before ++ after) = pending after := by
  have start : before.foldl pendingAfter false = false := clean.notPending
  rw [pending, List.foldl_append, start]
  rfl

theorem Clean.append (first : Clean before) (second : Clean after) : Clean (before ++ after) where
  notFatal step mem := (List.mem_append.mp mem).elim (first.notFatal step) (second.notFatal step)
  noHandler step mem :=
    (List.mem_append.mp mem).elim (first.noHandler step) (second.noHandler step)
  notPending := first.pending_append.trans second.notPending

theorem Plain.prepend {outcome : Outcome CppException α} (first : Clean before)
    (second : Plain after outcome) : Plain (before ++ after) outcome := by
  cases outcome with
  | returned => exact first.append second
  | threw => exact ⟨second.1, first.append second.2⟩
  | aborted => exact exists_fatal_append second
  | running => exact second

theorem Looping.prepend {outcome : Outcome CppException α} (first : Clean before)
    (second : Looping after outcome) : Looping (before ++ after) outcome := by
  cases outcome with
  | running => exact first.append second
  | returned value => exact first.append second
  | threw ex => exact ⟨second.1, first.append second.2⟩
  | aborted => exact exists_fatal_append second

/-- Plain code is contained. -/
theorem Plain.contained {outcome : Outcome CppException α} (h : Plain trace outcome) :
    Contained trace outcome := by
  cases outcome with
  | returned => exact h
  | threw => exact (if_neg h.1).mpr h.2
  | aborted => exact h
  | running => exact h

theorem Contained.prepend {outcome : Outcome CppException α} (first : Clean before)
    (second : Contained after outcome) : Contained (before ++ after) outcome := by
  cases outcome with
  | returned => exact first.append second
  | threw ex =>
    simp only [Contained] at second ⊢
    split_ifs at second ⊢
    · refine ⟨fun step mem => (List.mem_append.mp mem).elim (first.noHandler step)
        (second.1 step), ?_⟩
      rw [first.pending_append, second.2, List.forall_mem_append]
      exact ⟨fun later => ⟨first.notFatal, later⟩, fun both => both.2⟩
    · exact first.append second
  | aborted => exact exists_fatal_append second
  | running => exact second

/-! ## The rules -/

/-- All runs of the code are plain. -/
abbrev IsPlain (code : Code α) : Prop := code.Meets Plain

/-- All runs of the code are contained. -/
abbrev IsContained (code : Code α) : Prop := code.Meets Contained

/-- All runs of the code are plain, or still in its loop. -/
abbrev IsLooping (code : Code α) : Prop := code.Meets Looping

theorem IsPlain.isContained {code : Code α} (h : IsPlain code) : IsContained code :=
  h.mono fun _ _ => Plain.contained

theorem IsPlain.isLooping {code : Code α} (h : IsPlain code) : IsLooping code :=
  h.mono fun _ outcome plain => by cases outcome <;> trivial

theorem isPlain_pure (value : α) : IsPlain (pure value) := Program.Meets.done Clean.nil

theorem isLooping_running : IsLooping (.done .running : Code α) := Program.Meets.done Clean.nil

theorem isPlain_raise {ex : CppException} (h : ex ≠ .javaExceptionThrownException) :
    IsPlain (raise ex : Code α) := Program.Meets.done ⟨h, Clean.nil⟩

/-- A call is harmless if no answer to it matters to a handler. -/
def Harmless (call : Call) : Prop :=
  ∀ answer, ¬ Fatal ⟨call, answer⟩ ∧ ¬ HandlerFails ⟨call, answer⟩ ∧
    pendingAfter false ⟨call, answer⟩ = false

theorem isPlain_of_harmless {call : Call} (harmless : Harmless call) : IsPlain (ask call) := by
  refine Program.Meets.ask fun answer => ?_
  obtain ⟨notFatal, noHandler, notPending⟩ := harmless answer
  exact ⟨by simpa using notFatal, by simpa using noHandler, notPending⟩

/-- The calls that have nothing to do with Java exceptions. -/
def Call.isSilent : Call → Bool
  | .throwNew | .deleteGlobalRef | .listAdd | .logToJava _ _ => false
  | _ => true

theorem isPlain_ask (call : Call) (silent : call.isSilent = true) : IsPlain (ask call) := by
  refine isPlain_of_harmless fun answer => ?_
  cases call with
  | throwNew | deleteGlobalRef | listAdd | logToJava => cases silent
  | _ => exact ⟨id, id, rfl⟩

/-- Code that begins with a call. -/
theorem meets_ask_bind {call : Call} {next : call.Answer → Code β}
    {P : List Step → Outcome CppException β → Prop}
    (h : ∀ answer, (next answer).Meets fun trace outcome => P (⟨call, answer⟩ :: trace) outcome) :
    (ask call >>= next).Meets P := Program.Meets.call h

theorem IsPlain.bind {code : Code α} {next : α → Code β} (first : IsPlain code)
    (rest : ∀ value, IsPlain (next value)) : IsPlain (code >>= next) := by
  refine Program.Meets.andThen first fun before middle h => ?_
  cases middle with
  | returned value => exact (rest value).mono fun _ _ => Plain.prepend h
  | threw => exact Program.Meets.stop h
  | aborted => exact Program.Meets.stop h
  | running => exact h.elim

theorem IsLooping.bind {code : Code α} {next : α → Code β} (first : IsPlain code)
    (rest : ∀ value, IsLooping (next value)) : IsLooping (code >>= next) := by
  refine Program.Meets.andThen first fun before middle h => ?_
  cases middle with
  | returned value => exact (rest value).mono fun _ _ => Looping.prepend h
  | threw => exact Program.Meets.stop h
  | aborted => exact Program.Meets.stop h
  | running => exact h.elim

theorem IsPlain.tryCatch {code : Code α} {handler : CppException → Code α}
    (first : IsPlain code) (rest : ∀ ex, IsPlain (handler ex)) :
    IsPlain (code.tryCatch handler) := by
  refine Program.Meets.andThen first fun before middle h => ?_
  cases middle with
  | returned value => exact Program.Meets.stop h
  | threw ex => exact (rest ex).mono fun _ _ => Plain.prepend h.2
  | aborted => exact Program.Meets.stop h
  | running => exact h.elim

theorem IsContained.bind {code : Code α} {next : α → Code β} (first : IsContained code)
    (rest : ∀ value, IsContained (next value)) : IsContained (code >>= next) := by
  refine Program.Meets.andThen first fun before middle h => ?_
  cases middle with
  | returned value => exact (rest value).mono fun _ _ => Contained.prepend h
  | threw => exact Program.Meets.stop h
  | aborted => exact Program.Meets.stop h
  | running => exact h.elim

theorem isPlain_forM {list : List α} {body : α → Code Unit} (h : ∀ a, IsPlain (body a)) :
    IsPlain (list.forM body) := by
  induction list with
  | nil => exact isPlain_pure ()
  | cons a list ih => exact (h a).bind fun _ => ih

theorem isContained_forM {list : List α} {body : α → Code Unit}
    (h : ∀ a, IsContained (body a)) : IsContained (list.forM body) := by
  induction list with
  | nil => exact (isPlain_pure ()).isContained
  | cons a list ih => exact (h a).bind fun _ => ih

/-! ## Functions that must not throw -/

/-- What is thrown is fatal. -/
def Guarded {α : Type} (trace : List Step) : Outcome CppException α → Prop
  | .returned _ => Clean trace
  | .threw _ | .aborted => ∃ step ∈ trace, Fatal step
  | .running => False

theorem Guarded.prepend {outcome : Outcome CppException α} (first : Clean before)
    (second : Guarded after outcome) : Guarded (before ++ after) outcome := by
  cases outcome with
  | returned => exact first.append second
  | running => exact second
  | threw | aborted => exact exists_fatal_append second

theorem isPlain_noexcept {code : Code α} (h : code.Meets Guarded) : IsPlain (noexcept code) := by
  refine Program.Meets.andThen h fun before middle h => ?_
  cases middle with
  | returned | threw | aborted => exact Program.Meets.stop h
  | running => exact h.elim

theorem guarded_tryCatch {code : Code α} {handler : CppException → Code α}
    (first : IsPlain code) (rest : ∀ ex, (handler ex).Meets Guarded) :
    (code.tryCatch handler).Meets Guarded := by
  refine Program.Meets.andThen first fun before middle h => ?_
  cases middle with
  | returned | aborted => exact Program.Meets.stop h
  | running => exact h.elim
  | threw ex => exact (rest ex).mono fun _ _ => Guarded.prepend h.2

/-- `~JniGlobalRef` deletes the reference, or it is aborted. -/
theorem meets_destroyJniGlobalRef :
    destroyJniGlobalRef.Meets fun trace outcome => ∃ ret, trace = [⟨.deleteGlobalRef, ret⟩] ∧
      (ret = 0 ∧ outcome = .returned () ∨ ret ≠ 0 ∧ outcome = .aborted) := by
  have body : Program.Meets
      (ask .deleteGlobalRef >>= fun ret => throwIf (ret ≠ 0) (noJniEnv ret)) fun trace outcome =>
      ∃ ret, trace = [⟨.deleteGlobalRef, ret⟩] ∧
        (ret = 0 ∧ outcome = .returned () ∨ ret ≠ 0 ∧ outcome = .threw (noJniEnv ret)) := by
    refine meets_ask_bind fun ret => ?_
    unfold throwIf
    split_ifs with failed
    · exact Program.Meets.done ⟨ret, rfl, .inr ⟨failed, rfl⟩⟩
    · exact Program.Meets.done ⟨ret, rfl, .inl ⟨not_not.mp failed, rfl⟩⟩
  refine Program.Meets.andThen body ?_
  rintro before middle ⟨ret, rfl, ⟨success, rfl⟩ | ⟨failed, rfl⟩⟩
  · exact Program.Meets.done ⟨ret, rfl, .inl ⟨success, rfl⟩⟩
  · exact Program.Meets.done ⟨ret, rfl, .inr ⟨failed, rfl⟩⟩

theorem isPlain_destroyJniGlobalRef : IsPlain destroyJniGlobalRef := by
  refine meets_destroyJniGlobalRef.mono ?_
  rintro _ _ ⟨ret, rfl, ⟨rfl, rfl⟩ | ⟨failed, rfl⟩⟩
  · exact ⟨by simp [Fatal], by simp [HandlerFails], rfl⟩
  · exact ⟨_, List.mem_singleton_self _, failed⟩

/-! ## The JNI support -/

section Wrappers

variable {level : LogLevel} {message : String} {path : U16String} {ex : CppException}

theorem isPlain_throwIf {failed : Prop} [Decidable failed]
    (h : ex ≠ .javaExceptionThrownException) : IsPlain (throwIf failed ex) := by
  unfold throwIf
  split_ifs
  · exact isPlain_raise h
  · exact isPlain_pure ()

theorem isPlain_orThrow {answer : Except ErrorCode α} {ex : ErrorCode → CppException}
    (h : ∀ errorCode, ex errorCode ≠ .javaExceptionThrownException) :
    IsPlain (orThrow answer ex) := by
  cases answer with
  | ok value => exact isPlain_pure value
  | error errorCode => exact isPlain_raise (h errorCode)

theorem isPlain_rethrow {answer : Except HandlingException α} : IsPlain (rethrow answer) := by
  cases answer with
  | ok value => exact isPlain_pure value
  | error ex => exact isPlain_raise ex.2

theorem isPlain_getThreadEnv : IsPlain getThreadEnv :=
  (isPlain_ask .getEnv rfl).bind fun _ => isPlain_throwIf (by simp [noJniEnv])

theorem LoggingError.exception_ne (error : LoggingError) :
    error.exception ≠ .javaExceptionThrownException := by
  cases error <;> simp [exception, toBytesError]

/-- Only in a handler and in a destructor does it matter that a log message fails. -/
theorem isPlain_logToJava (other : message ∉ [caughtException, WindowsServer.couldNotCancel]) :
    IsPlain (logToJava level message) := by
  have notHandler : message ≠ caughtException := by
    rintro rfl
    exact other List.mem_cons_self
  have notDestructor : message ≠ WindowsServer.couldNotCancel := by
    rintro rfl
    exact other (List.mem_cons_of_mem _ List.mem_cons_self)
  refine (isPlain_of_harmless fun answer => ?_).bind fun error => ?_
  · exact ⟨fun fatal => notDestructor fatal.1, fun fails => notHandler fails.1, rfl⟩
  · cases error with
    | none => exact isPlain_pure ()
    | some error => exact isPlain_raise error.exception_ne

theorem isPlain_logPathToJava
    (other : message ∉ [caughtException, WindowsServer.couldNotCancel]) :
    IsPlain (logPathToJava level message path) :=
  (isPlain_throwIf (by simp [toBytesError])).bind fun _ => isPlain_logToJava other

theorem isPlain_javaToUtf16String : IsPlain javaToUtf16String :=
  (isPlain_ask .getStringCritical rfl).bind fun _ => isPlain_throwIf (by simp)

theorem isPlain_javaToUtf16StringArray (javaStrings : List U16String) :
    IsPlain (javaToUtf16StringArray javaStrings) := by
  induction javaStrings with
  | nil => exact isPlain_pure ()
  | cons javaString javaStrings ih => exact isPlain_javaToUtf16String.bind fun _ => ih

theorem isPlain_getServer : IsPlain getServer :=
  (isPlain_ask .getDirectBufferAddress rfl).bind fun _ => isPlain_throwIf (by simp)

end Wrappers

end Native

end FileEvents
