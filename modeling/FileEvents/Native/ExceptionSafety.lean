import FileEvents.Native.ServerContainment

/-!
# No C++ exception leaves an entry point

An entry point handles its operation if it returns to Java, with a Java exception pending
when the operation has failed. It does so exactly in the runs it withstands: no `ThrowNew`
fails, no exception leaves a destructor, the last step is not the failing log message of a
handler, and, for `startWatcher0`, nothing fails that its `catch` clauses do not name. On
Linux these name the `EMFILE` of `inotify_init1` only, on the other platforms nothing.

## Main definitions

* `Handled` — the entry point returns, with an exception pending after a failure
* `Uncaught` — the failures that only `startWatcher0` meets and does not catch
* `EntryPoint.Withstands` — the runs without any of these failures

## Main results

* `handled_iff` — an entry point handles its operation exactly in the runs it withstands
* `not_forall_handled` — `startWatcher0` on Linux lets the `ENFILE` of `inotify_init1`
  through
-/

namespace FileEvents

open Calls

namespace Native

/-- The entry point returns to Java, with a Java exception pending if the operation has
failed. If it `loops` it may also be running still. -/
def Handled (loops : Prop) (trace : List Step) : Outcome CppException Returned → Prop
  | .returned returned => returned.failure ≠ none → pending trace = true
  | .running => loops
  | .threw _ | .aborted => False

/-- A call that only a constructor makes fails, in a way that no handler of `startWatcher0`
is for. -/
def Uncaught : Step → Prop
  | ⟨.getJavaVm, jvmStatus⟩ => jvmStatus ≠ 0
  | ⟨.newGlobalRef, ref⟩ => ref = false
  | ⟨.inotifyInit1, fd⟩ => ∃ errno, fd = .error errno ∧ errno ≠ LinuxServer.EMFILE
  | ⟨.eventfd, fd⟩ => ∃ errno, fd = .error errno
  | _ => False

/-- Nothing fatal happens and the last step is not a failing log message of a handler. -/
structure Survives (trace : List Step) : Prop where
  notFatal : ∀ step ∈ trace, ¬ Fatal step
  lastNotHandler : ∀ step ∈ trace.getLast?, ¬ HandlerFails step

/-- The entry points that create a server. -/
def EntryPoint.Creates : EntryPoint → Prop
  | startWatcher0 _ => True
  | _ => False

/-- The entry point that runs a loop. -/
def EntryPoint.Loops : EntryPoint → Prop
  | executeRunLoop0 _ _ => True
  | _ => False

/-- The run survives, and a server is created without a failure nobody catches. -/
def EntryPoint.Withstands (entryPoint : EntryPoint) (trace : List Step) : Prop :=
  Survives trace ∧ (entryPoint.Creates → ∀ step ∈ trace, ¬ Uncaught step)

variable {α β : Type} {before after trace : List Step} {loops : Prop}

theorem Clean.survives (clean : Clean trace) : Survives trace where
  notFatal := clean.notFatal
  lastNotHandler step mem := clean.noHandler step (List.mem_of_getLast? mem)

theorem not_survives (h : ∃ step ∈ trace, Fatal step) : ¬ Survives trace := fun survives => by
  obtain ⟨step, mem, fatal⟩ := h
  exact survives.notFatal step mem fatal

/-- A clean start does not matter. -/
theorem survives_append_iff (clean : Clean before) :
    Survives (before ++ after) ↔ Survives after := by
  have last : (before ++ after).getLast? = after.getLast?.or before.getLast? :=
    List.getLast?_append
  constructor
  · intro survives
    refine ⟨fun step mem => survives.notFatal step (List.mem_append_right _ mem), ?_⟩
    intro step mem
    refine survives.lastNotHandler step ?_
    rw [last, Option.mem_def.mp mem]
    rfl
  · intro survives
    refine ⟨List.forall_mem_append.mpr ⟨clean.notFatal, survives.notFatal⟩, ?_⟩
    intro step mem
    rw [last] at mem
    cases found : after.getLast? with
    | some step' =>
      rw [found] at mem
      exact survives.lastNotHandler step (found ▸ mem)
    | none =>
      rw [found] at mem
      exact clean.survives.lastNotHandler step mem

/-! ## The handlers -/

/-- The log message of a handler. -/
abbrev handlerLog (error : Option LoggingError) : Step :=
  ⟨.logToJava .error caughtException, error⟩

/-- `rethrowAsJavaException` fails to log, or it comes to `ThrowNew`. -/
theorem meets_rethrowAsJavaException :
    rethrowAsJavaException.Meets fun trace outcome =>
      (∃ error, trace = [handlerLog (some error)] ∧ outcome = .threw error.exception) ∨
        ∃ ret, trace = [handlerLog none, ⟨.throwNew, ret⟩] ∧ outcome = .returned () := by
  have logged : (logToJava .error caughtException).Meets fun trace outcome =>
      (∃ error, trace = [handlerLog (some error)] ∧ outcome = .threw error.exception) ∨
        trace = [handlerLog none] ∧ outcome = .returned () := by
    refine meets_ask_bind fun error => ?_
    cases error with
    | none => exact Program.Meets.done (.inr ⟨rfl, rfl⟩)
    | some error => exact Program.Meets.done (.inl ⟨error, rfl, rfl⟩)
  refine Program.Meets.andThen logged ?_
  rintro before middle (⟨error, rfl, rfl⟩ | ⟨rfl, rfl⟩)
  · exact Program.Meets.done (.inl ⟨error, rfl, rfl⟩)
  · exact meets_ask_bind fun ret => Program.Meets.done (.inr ⟨ret, rfl, rfl⟩)

theorem not_fatal_handlerLog (error : Option LoggingError) : ¬ Fatal (handlerLog error) :=
  fun fatal => by
    have different : caughtException ≠ WindowsServer.couldNotCancel := by decide
    exact different fatal.1

/-- After a failing log message of a handler no run survives. -/
theorem not_survives_handlerLog (error : LoggingError) :
    ¬ Survives (before ++ [handlerLog (some error)]) := fun survives => by
  refine survives.lastNotHandler (handlerLog (some error)) ?_ ⟨rfl, rfl⟩
  simp

/-- After a `ThrowNew` a run survives if it has so far and `ThrowNew` succeeds. -/
theorem survives_throwNew_iff (notFatal : ∀ step ∈ before, ¬ Fatal step) (ret : ℤ) :
    Survives (before ++ [⟨.throwNew, ret⟩]) ↔ ret = 0 := by
  constructor
  · intro survives
    have last := survives.notFatal ⟨.throwNew, ret⟩ (by simp)
    simpa [Fatal] using last
  · rintro rfl
    refine ⟨?_, by simp [HandlerFails]⟩
    rw [List.forall_mem_append]
    exact ⟨notFatal, by simp [Fatal]⟩

/-- What a handler makes of a run in which nothing fatal has happened. -/
def Rethrows (trace : List Step) : Outcome CppException Unit → Prop
  | .returned _ => pending trace = true ↔ Survives trace
  | .threw _ => ¬ Survives trace ∧ ∀ step ∈ trace, ¬ Fatal step
  | .running | .aborted => False

/-- The handler makes the Java exception pending, unless one of its calls fails. -/
theorem meets_rethrows (notFatal : ∀ step ∈ before, ¬ Fatal step) :
    rethrowAsJavaException.Meets fun after outcome => Rethrows (before ++ after) outcome := by
  have logged (error : Option LoggingError) :
      ∀ step ∈ before ++ [handlerLog error], ¬ Fatal step := by
    rw [List.forall_mem_append]
    exact ⟨notFatal, by simpa using not_fatal_handlerLog error⟩
  refine meets_rethrowAsJavaException.mono ?_
  rintro after outcome (⟨error, rfl, rfl⟩ | ⟨ret, rfl, rfl⟩)
  · exact ⟨not_survives_handlerLog error, logged (some error)⟩
  · have survives := survives_throwNew_iff (logged none) ret
    rw [List.append_assoc] at survives
    have thrown : pending (before ++ [handlerLog none, ⟨.throwNew, ret⟩]) = true ↔ ret = 0 := by
      simp [pending, pendingAfter]
    exact thrown.trans survives.symm

/-- The run is handled exactly if it survives. -/
def Settled (loops : Prop) (trace : List Step) (outcome : Outcome CppException Returned) : Prop :=
  Handled loops trace outcome ↔ Survives trace

/-- A handler can settle the run. -/
def Rescuable (loops : Prop) (trace : List Step) : Outcome CppException Returned → Prop
  | .threw _ => ∀ step ∈ trace, ¬ Fatal step
  | outcome => Settled loops trace outcome

theorem rethrow_settled {ex : CppException} {value : JavaValue}
    (notFatal : ∀ step ∈ before, ¬ Fatal step) :
    (rethrowAsJavaException >>= fun _ => fail value ex).Meets
      fun after outcome => Settled loops (before ++ after) outcome := by
  refine Program.Meets.andThen (meets_rethrows notFatal) fun after middle h => ?_
  cases middle with
  | returned =>
    have settled : pending (before ++ after) = true ↔ Survives (before ++ after) := h
    exact Program.Meets.done (by simpa [Settled, Handled] using settled)
  | threw ex =>
    rw [← List.append_nil after] at h
    exact Program.Meets.done (iff_of_false id h.1)
  | running | aborted => exact h.elim

/-- What a clean start leaves can be settled as before. -/
theorem rescuable_bind {code : Code α} {next : α → Code Returned} (first : IsPlain code)
    (rest : ∀ a, (next a).Meets (Rescuable loops)) :
    (code >>= next).Meets (Rescuable loops) := by
  refine Program.Meets.andThen first fun before middle h => ?_
  cases middle with
  | threw ex => exact Program.Meets.stop h.2.notFatal
  | aborted => exact Program.Meets.stop (iff_of_false id (not_survives h))
  | running => exact h.elim
  | returned a =>
    refine (rest a).mono fun after outcome rescuable => ?_
    cases outcome with
    | threw => exact List.forall_mem_append.mpr ⟨h.notFatal, rescuable⟩
    | returned returned =>
      refine Iff.trans ?_ (rescuable.trans (survives_append_iff h).symm)
      simp only [Handled, h.pending_append]
    | aborted | running => exact rescuable.trans (survives_append_iff h).symm

/-- A `try` statement settles what its handler can settle. -/
theorem rethrowing_settled {body : Code Returned} {value : JavaValue}
    (h : body.Meets (Rescuable loops)) : (rethrowing value body).Meets (Settled loops) := by
  refine Program.Meets.andThen h fun before middle h => ?_
  cases middle with
  | threw ex => exact rethrow_settled h
  | returned | aborted | running => exact Program.Meets.stop h

/-! ## The bodies -/

/-- What is returned is a success. -/
def Succeeds (outcome : Outcome CppException Returned) : Prop :=
  ∀ returned, outcome = .returned returned → returned.failure = none

theorem meets_succeed (value : JavaValue) : (succeed value).Meets fun _ => Succeeds :=
  Program.Meets.done fun returned h => by
    obtain rfl := Outcome.returned.inj h
    rfl

theorem succeeds_bind (code : Code α) {next : α → Code Returned}
    (h : ∀ a, (next a).Meets fun _ => Succeeds) : (code >>= next).Meets fun _ => Succeeds := by
  have any : code.Meets fun _ _ => True := fun _ _ _ => trivial
  refine Program.Meets.andThen any fun before middle _ => ?_
  cases middle with
  | returned a => exact h a
  | threw | aborted | running => exact Program.Meets.done fun returned h => nomatch h

/-- A clean run that returns a success is settled. -/
theorem settled_of_succeeds {returned : Returned} (clean : Clean trace)
    (succeeds : Succeeds (.returned returned)) : Settled loops trace (.returned returned) :=
  iff_of_true (fun failed => absurd (succeeds returned rfl) failed) clean.survives

theorem rescuable_of_plain {body : Code Returned} (plain : IsPlain body)
    (succeeds : body.Meets fun _ => Succeeds) : body.Meets (Rescuable loops) := by
  intro trace outcome run
  have h := plain trace outcome run
  cases outcome with
  | returned returned => exact settled_of_succeeds h (succeeds _ _ run)
  | threw => exact h.2.notFatal
  | aborted => exact iff_of_false id (not_survives h)
  | running => exact h.elim

/-- A `try` statement with a silent clause settles contained bodies. -/
theorem rethrowingOthers_settled {body : Code Returned} {value : JavaValue}
    (contained : IsContained body) (succeeds : body.Meets fun _ => Succeeds) :
    (rethrowingOthers value body).Meets (Settled loops) := by
  have both : body.Meets fun trace outcome => Contained trace outcome ∧ Succeeds outcome :=
    fun trace outcome run => ⟨contained _ _ run, succeeds _ _ run⟩
  refine Program.Meets.andThen both fun before middle h => ?_
  cases middle with
  | returned returned => exact Program.Meets.stop (settled_of_succeeds h.1 h.2)
  | aborted => exact Program.Meets.stop (iff_of_false id (not_survives h.1))
  | running => exact h.1.elim
  | threw ex =>
    obtain ⟨contained, -⟩ := h
    simp only [Contained] at contained
    dsimp only
    split_ifs at contained ⊢ with silent
    · obtain ⟨noHandler, pendingIff⟩ := contained
      have survives : Survives before ↔ ∀ step ∈ before, ¬ Fatal step :=
        ⟨fun survives => survives.notFatal,
          fun notFatal => ⟨notFatal, fun step mem => noHandler step (List.mem_of_getLast? mem)⟩⟩
      refine Program.Meets.stop ⟨fun handled => ?_, fun h _ => pendingIff.mpr (survives.mp h)⟩
      exact survives.mpr (pendingIff.mp (handled (by simp)))
    · exact rethrow_settled contained.notFatal

/-- What `executeRunLoop` leaves to the handler of its caller. -/
def Closes (trace : List Step) : Outcome CppException (Option CppException) → Prop
  | .returned none | .running => Clean trace
  | .returned (some _) => pending trace = true ↔ Survives trace
  | .threw _ => ∀ step ∈ trace, ¬ Fatal step
  | .aborted => ∃ step ∈ trace, Fatal step

/-- The handler of `executeRunLoop` makes the exception of the run loop pending, or it
fails. -/
theorem meets_closes_handler (clean : Clean before) (ex : CppException) :
    (rethrowAsJavaException >>= fun _ => (pure (some ex) : Code _)).Meets
      fun after outcome => Closes (before ++ after) outcome := by
  refine Program.Meets.andThen (meets_rethrows clean.notFatal) fun after middle h => ?_
  rw [← List.append_nil after] at h
  cases middle with
  | returned => exact Program.Meets.done h
  | threw ex => exact Program.Meets.done h.2
  | running | aborted => exact h.elim

theorem executeRunLoop_closes {server : AbstractServer} (contained : server.IsContained)
    (rounds : ℕ) : (executeRunLoop server rounds).Meets Closes := by
  have body : (server.runLoop rounds >>= fun _ => (pure none : Code (Option CppException))).Meets
      fun trace outcome => Looping trace outcome ∧
        ∀ failure, outcome = .returned failure → failure = none := by
    refine Program.Meets.andThen (contained.runLoop rounds) fun before middle h => ?_
    rw [← List.append_nil before] at h
    cases middle with
    | returned => exact Program.Meets.done ⟨h, fun failure same => (Outcome.returned.inj same).symm⟩
    | threw | aborted | running => exact Program.Meets.done ⟨h, fun failure same => nomatch same⟩
  refine Program.Meets.andThen body ?_
  rintro before middle ⟨looping, success⟩
  cases middle with
  | returned failure =>
    obtain rfl := success failure rfl
    exact Program.Meets.stop looping
  | threw ex => exact meets_closes_handler looping.2 ex
  | aborted | running => exact Program.Meets.stop looping

/-- The run loop has a handler of its own; where that fails, the entry point's takes
over. -/
theorem executeRunLoop0_settled {server : AbstractServer} (contained : server.IsContained)
    (rounds : ℕ) : (executeRunLoop0 server rounds).Meets (Settled True) := by
  have body : (executeRunLoop server rounds >>= fun failure =>
      (pure { value := .void, failure } : Code Returned)).Meets (Rescuable True) := by
    refine Program.Meets.andThen (executeRunLoop_closes contained rounds) fun before middle h => ?_
    cases middle with
    | returned failure =>
      refine Program.Meets.stop ?_
      cases failure with
      | none => exact settled_of_succeeds h fun _ same => (Outcome.returned.inj same) ▸ rfl
      | some ex => exact (by simp [Handled] : Handled True _ (.returned ⟨_, some ex⟩) ↔ _).trans h
    | threw ex => exact Program.Meets.stop h
    | aborted => exact Program.Meets.stop (iff_of_false id (not_survives h))
    | running => exact Program.Meets.stop (iff_of_true trivial h.survives)
  exact rethrowing_settled (rescuable_bind isPlain_getServer fun _ => body)

/-! ## Creating a server -/

/-- Clean, and nothing has failed that nobody catches. -/
structure Sound (trace : List Step) : Prop extends Clean trace where
  noUncaught : ∀ step ∈ trace, ¬ Uncaught step

/-- A constructor throws an exception that is caught, or another one after a failure that
nobody catches. -/
def Builds (caught : CppException → Prop) (trace : List Step) : Outcome CppException α → Prop
  | .returned _ => Sound trace
  | .threw ex => (caught ex ∧ Sound trace) ∨ (¬ caught ex ∧ ∃ step ∈ trace, Uncaught step)
  | .aborted => ∃ step ∈ trace, Fatal step
  | .running => False

section Creating

variable {caught : CppException → Prop}

theorem Sound.single {step : Step} (notFatal : ¬ Fatal step) (noHandler : ¬ HandlerFails step)
    (notPending : pendingAfter false step = false) (noUncaught : ¬ Uncaught step) :
    Sound [step] where
  notFatal := by simpa using notFatal
  noHandler := by simpa using noHandler
  notPending := notPending
  noUncaught := by simpa using noUncaught

theorem Sound.append (first : Sound before) (second : Sound after) : Sound (before ++ after) where
  toClean := first.toClean.append second.toClean
  noUncaught := List.forall_mem_append.mpr ⟨first.noUncaught, second.noUncaught⟩

theorem Builds.prepend {outcome : Outcome CppException α} (first : Sound before)
    (second : Builds caught after outcome) : Builds caught (before ++ after) outcome := by
  cases outcome with
  | returned => exact first.append second
  | threw ex =>
    obtain ⟨isCaught, sound⟩ | ⟨escapes, step, mem, uncaught⟩ := second
    · exact .inl ⟨isCaught, first.append sound⟩
    · exact .inr ⟨escapes, step, List.mem_append_right _ mem, uncaught⟩
  | aborted => exact exists_fatal_append second
  | running => exact second

theorem builds_bind {code : Code α} {next : α → Code β} (first : code.Meets (Builds caught))
    (rest : ∀ a, (next a).Meets (Builds caught)) : (code >>= next).Meets (Builds caught) := by
  refine Program.Meets.andThen first fun before middle h => ?_
  cases middle with
  | returned a => exact (rest a).mono fun _ _ => Builds.prepend h
  | threw | aborted | running => exact Program.Meets.stop h

/-- A call whose failure throws an exception that nobody catches. -/
theorem builds_ask_throwIf {call : Call} {failed : call.Answer → Prop} [DecidablePred failed]
    {ex : call.Answer → CppException} (harmless : Harmless call)
    (uncaught : ∀ answer, Uncaught ⟨call, answer⟩ ↔ failed answer)
    (escapes : ∀ answer, ¬ caught (ex answer)) :
    (ask call >>= fun answer => throwIf (failed answer) (ex answer)).Meets (Builds caught) := by
  refine meets_ask_bind fun answer => ?_
  obtain ⟨notFatal, noHandler, notPending⟩ := harmless answer
  unfold throwIf
  split_ifs with fails
  · refine Program.Meets.done (.inr ⟨escapes answer, ?_⟩)
    exact ⟨_, List.mem_singleton_self _, (uncaught answer).mpr fails⟩
  · exact Program.Meets.done
      (Sound.single notFatal noHandler notPending (mt (uncaught answer).mp fails))

theorem builds_createAbstractServer (h : ∀ message, ¬ caught (.runtimeError message)) :
    createAbstractServer.Meets (Builds caught) := by
  have getJavaVm : getJavaVm.Meets (Builds caught) :=
    builds_ask_throwIf (fun _ => ⟨id, id, rfl⟩) (fun _ => Iff.rfl) fun _ => h _
  exact builds_bind getJavaVm fun _ => builds_bind getJavaVm fun _ =>
    builds_ask_throwIf (fun _ => ⟨id, id, rfl⟩) (fun _ => Iff.rfl) fun _ => h _

end Creating

/-- What `startWatcher0` catches on Linux. -/
abbrev IsLimit (ex : CppException) : Prop := ex = .inotifyInstanceLimitTooLowException

/-- Only the `EMFILE` of `inotify_init1` becomes the exception that is caught. -/
theorem builds_createInotify : LinuxServer.createInotify.Meets (Builds IsLimit) := by
  refine meets_ask_bind fun fd => ?_
  cases fd with
  | ok =>
    refine Program.Meets.done (Sound.single id id rfl fun uncaught => ?_)
    simp [Uncaught] at uncaught
  | error errno =>
    refine Program.Meets.done ?_
    by_cases limit : errno = LinuxServer.EMFILE
    · refine .inl ⟨if_pos limit, Sound.single id id rfl fun uncaught => ?_⟩
      simp [Uncaught, limit] at uncaught
    · refine .inr ⟨?_, _, List.mem_singleton_self _, errno, rfl, limit⟩
      simp [IsLimit, limit]

theorem builds_createShutdownEvent :
    LinuxServer.createShutdownEvent.Meets (Builds IsLimit) := by
  refine meets_ask_bind fun fd => ?_
  cases fd with
  | ok =>
    refine Program.Meets.done (Sound.single id id rfl fun uncaught => ?_)
    simp [Uncaught] at uncaught
  | error errno =>
    exact Program.Meets.done
      (.inr ⟨(nomatch ·), _, List.mem_singleton_self _, errno, rfl⟩)

/-- The members that were built are destroyed before the exception goes on. -/
theorem builds_onThrow {caught : CppException → Prop} {code : Code Unit}
    (h : code.Meets (Builds caught)) :
    (code.onThrow destroyAbstractServer).Meets (Builds caught) := by
  refine Program.Meets.andThen h fun before middle h => ?_
  cases middle with
  | returned | aborted | running => exact Program.Meets.stop h
  | threw ex =>
    refine Program.Meets.andThen meets_destroyJniGlobalRef ?_
    rintro _ _ ⟨ret, rfl, ⟨rfl, rfl⟩ | ⟨failed, rfl⟩⟩
    · refine Program.Meets.done ?_
      have deleted : Sound [⟨.deleteGlobalRef, 0⟩] := Sound.single (by simp [Fatal]) id rfl id
      obtain ⟨isCaught, sound⟩ | ⟨escapes, step, mem, uncaught⟩ := h
      · exact .inl ⟨isCaught, sound.append deleted⟩
      · exact .inr ⟨escapes, step, List.mem_append_left _ mem, uncaught⟩
    · exact Program.Meets.done (exists_fatal_append ⟨_, List.mem_singleton_self _, failed⟩)

theorem builds_create : LinuxServer.create.Meets (Builds IsLimit) :=
  builds_bind (builds_createAbstractServer fun _ same => nomatch same) fun _ =>
    builds_onThrow (builds_bind builds_createInotify fun _ => builds_createShutdownEvent)

/-- The run is handled exactly if it survives and nobody misses a failure. -/
def Created (trace : List Step) (outcome : Outcome CppException Returned) : Prop :=
  Handled False trace outcome ↔ Survives trace ∧ ∀ step ∈ trace, ¬ Uncaught step

/-- A `catch` clause can still settle the run. -/
def Creatable (caught : CppException → Prop) (trace : List Step) :
    Outcome CppException Returned → Prop
  | .threw ex => (caught ex ∧ Sound trace) ∨ (¬ caught ex ∧ Created trace (.threw ex))
  | outcome => Created trace outcome

/-- A server that is built is returned. -/
theorem creatable_of_builds {caught : CppException → Prop} {code : Code Unit}
    (h : code.Meets (Builds caught)) :
    (code >>= fun _ => succeed .object).Meets (Creatable caught) := by
  refine Program.Meets.andThen h fun before middle h => ?_
  cases middle with
  | returned =>
    exact Program.Meets.stop (iff_of_true (fun failed => absurd rfl failed)
      ⟨h.toClean.survives, h.noUncaught⟩)
  | aborted => exact Program.Meets.stop (iff_of_false id fun both => not_survives h both.1)
  | running => exact h.elim
  | threw ex =>
    refine Program.Meets.stop ?_
    obtain sound | ⟨escapes, step, mem, uncaught⟩ := h
    · exact .inl sound
    · exact .inr ⟨escapes, iff_of_false id fun both => both.2 step mem uncaught⟩

/-- On Linux the exception for `EMFILE` is caught, and `ThrowNew` makes it pending. -/
theorem linuxStartWatcher0_created : linuxStartWatcher0.Meets Created := by
  refine Program.Meets.andThen (creatable_of_builds builds_create) fun before middle h => ?_
  cases middle with
  | returned | aborted | running => exact Program.Meets.stop h
  | threw ex =>
    obtain ⟨limit, sound⟩ | ⟨escapes, created⟩ := h
    · simp only [limit, if_true]
      refine meets_ask_bind fun ret => Program.Meets.done ?_
      have thrown : pending (before ++ [⟨.throwNew, ret⟩]) = true ↔ ret = 0 := by
        rw [sound.pending_append]
        simp [pending, pendingAfter]
      have noUncaught : ∀ step ∈ before ++ [⟨.throwNew, ret⟩], ¬ Uncaught step :=
        List.forall_mem_append.mpr ⟨sound.noUncaught, by simp [Uncaught]⟩
      have survives := survives_throwNew_iff sound.notFatal ret
      exact ⟨fun handled => ⟨survives.mpr (thrown.mp (handled (by simp))), noUncaught⟩,
        fun withstands _ => thrown.mpr (survives.mp withstands.1)⟩
    · simp only [escapes, if_false]
      exact Program.Meets.stop created

/-- On the other platforms nothing is caught. -/
theorem createAbstractServer_created :
    (createAbstractServer >>= fun _ => succeed .object).Meets Created := by
  have builds : createAbstractServer.Meets (Builds fun _ => False) :=
    builds_createAbstractServer fun _ => id
  refine (creatable_of_builds builds).mono fun trace outcome h => ?_
  cases outcome with
  | threw ex => exact (h.resolve_left fun both => both.1).2
  | returned | aborted | running => exact h

/-! ## The entry points -/

/-- No other entry point creates a server. -/
theorem withstands_of_settled {entryPoint : EntryPoint} {code : Code Returned}
    (creates : ¬ entryPoint.Creates) (h : code.Meets (Settled entryPoint.Loops)) :
    code.Meets fun trace outcome =>
      Handled entryPoint.Loops trace outcome ↔ entryPoint.Withstands trace :=
  h.mono fun _ _ settled => settled.trans
    ⟨fun survives => ⟨survives, fun is => absurd is creates⟩, fun withstands => withstands.1⟩

/-- Every run of an entry point is handled exactly if it is withstood. -/
theorem meets_handled_iff (entryPoint : EntryPoint) :
    entryPoint.code.Meets fun trace outcome =>
      Handled entryPoint.Loops trace outcome ↔ entryPoint.Withstands trace := by
  cases entryPoint with
  | startWatcher0 platform =>
    have created : (EntryPoint.startWatcher0 platform).code.Meets Created := by
      cases platform with
      | linux => exact linuxStartWatcher0_created
      | windows | apple => exact createAbstractServer_created
    exact created.mono fun _ _ h => h.trans (by simp [EntryPoint.Withstands, EntryPoint.Creates])
  -- Whatever is thrown inside is rethrown as a Java exception.
  | initializeRunLoop0 platform =>
    have contained := server_contained platform
    refine withstands_of_settled id (rethrowing_settled (rescuable_of_plain ?_ ?_))
    · exact isPlain_getServer.bind fun _ => contained.initializeRunLoop.bind fun _ =>
        isPlain_pure _
    · exact succeeds_bind _ fun _ => succeeds_bind _ fun _ => meets_succeed _
  | executeRunLoop0 platform rounds =>
    exact withstands_of_settled id (executeRunLoop0_settled (server_contained platform) rounds)
  -- A Java exception may be pending already: `JavaExceptionThrownException` is caught first.
  | startWatching0 platform javaPaths =>
    have contained := server_contained platform
    refine withstands_of_settled id (rethrowingOthers_settled ?_ ?_)
    · refine isPlain_getServer.isContained.bind fun _ => ?_
      refine (isPlain_javaToUtf16StringArray javaPaths).isContained.bind fun _ => ?_
      exact (contained.registerPaths javaPaths).bind fun _ => (isPlain_pure _).isContained
    · exact succeeds_bind _ fun _ => succeeds_bind _ fun _ => succeeds_bind _ fun _ =>
        meets_succeed _
  | stopWatching0 platform javaPaths =>
    have contained := server_contained platform
    refine withstands_of_settled id (rethrowing_settled (rescuable_of_plain ?_ ?_))
    · refine isPlain_getServer.bind fun _ => ?_
      refine (isPlain_javaToUtf16StringArray javaPaths).bind fun _ => ?_
      exact (contained.unregisterPaths javaPaths).bind fun _ => isPlain_pure _
    · exact succeeds_bind _ fun _ => succeeds_bind _ fun _ => succeeds_bind _ fun _ =>
        meets_succeed _
  | linuxStopWatchingMovedPaths0 absolutePathsToCheck =>
    refine withstands_of_settled id (rethrowingOthers_settled ?_ ?_)
    · refine isPlain_getServer.isContained.bind fun _ => ?_
      exact (LinuxServer.isContained_stopWatchingMovedPaths absolutePathsToCheck).bind fun _ =>
        (isPlain_pure _).isContained
    · exact succeeds_bind _ fun _ => succeeds_bind _ fun _ => meets_succeed _
  | windowsStopWatchingMovedPaths0 =>
    refine withstands_of_settled id (rethrowing_settled (rescuable_of_plain ?_ ?_))
    · exact isPlain_getServer.bind fun _ =>
        WindowsServer.isPlain_stopWatchingMovedPaths.bind fun _ => isPlain_pure _
    · exact succeeds_bind _ fun _ => succeeds_bind _ fun _ => meets_succeed _
  | shutdown0 platform =>
    have contained := server_contained platform
    refine withstands_of_settled id (rethrowing_settled (rescuable_of_plain ?_ ?_))
    · exact isPlain_getServer.bind fun _ => contained.shutdownRunLoop.bind fun _ =>
        isPlain_pure _
    · exact succeeds_bind _ fun _ => succeeds_bind _ fun _ => meets_succeed _
  | awaitTermination0 platform =>
    have contained := server_contained platform
    refine withstands_of_settled id (rethrowing_settled (rescuable_of_plain ?_ ?_))
    · refine isPlain_getServer.bind fun _ => ?_
      refine (isPlain_ask .awaitTerminated rfl).bind fun successful => ?_
      refine IsPlain.bind ?_ fun _ => isPlain_pure _
      unfold deleteIf
      split_ifs
      · exact contained.destroy
      · exact isPlain_pure ()
    · exact succeeds_bind _ fun _ => succeeds_bind _ fun _ => succeeds_bind _ fun _ =>
        meets_succeed _

/-- Whatever the environment answers, an entry point returns to Java with an exception
pending after a failure, or is still in its run loop, exactly if it withstands the run. -/
theorem handled_iff (entryPoint : EntryPoint)
    (environment : List Step → (call : Call) → call.Answer) :
    Handled entryPoint.Loops (entryPoint.code.exec environment []).1
        (entryPoint.code.exec environment []).2 ↔
      entryPoint.Withstands (entryPoint.code.exec environment []).1 :=
  meets_handled_iff entryPoint _ _ (Program.run_exec environment entryPoint.code [])

/-- An environment in which every call succeeds except `inotify_init1`, which answers
`ENFILE`. -/
def tooManyFiles (_ : List Step) : (call : Call) → call.Answer
  | .getJavaVm | .getEnv | .deleteGlobalRef | .throwNew => (0 : ℤ)
  | .newGlobalRef | .getDirectBufferAddress | .getStringCritical => true
  | .createString | .createArray | .createStream | .startStream => true
  | .listAdd => false
  | .logToJava _ _ => none
  | .awaitTerminated | .awaitExecuted => true
  | .inotifyInit1 => .error 23
  | .eventfd | .consume | .inotifyAddWatch _ | .inotifyRmWatch => .ok ()
  | .poll => .ok { shutdownEvent := true, inotify := false }
  | .lstat _ => .ok 0
  | .handleEvents | .handleEvent => .ok ()
  | .sleepEx => .ok true
  | .findWatchPoint _ => none
  | .findWatchRoot | .findStream _ => false
  | .openThread | .queueUserApc | .createFile _ | .readDirectoryChanges | .cancelIo
  | .closeHandle => .ok ()
  | .getFinalPathName => .ok []
  | .reserve => (0x10000, true)
  | .getFileAttributes => 0
  | .watchPoints => []
  | .findWindowsWatchPoint _ => none
  | .dequeue => .poisonPill

/-- Not every entry point handles its operation: an exception leaves `startWatcher0` on
Linux. -/
theorem not_forall_handled :
    ¬ ∀ (entryPoint : EntryPoint) (environment : List Step → (call : Call) → call.Answer),
      Handled entryPoint.Loops (entryPoint.code.exec environment []).1
        (entryPoint.code.exec environment []).2 :=
  fun always => always (.startWatcher0 .linux) tooManyFiles

end Native

end FileEvents
