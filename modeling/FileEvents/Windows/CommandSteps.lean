import FileEvents.Windows.SerialRun

/-!
# What the commands have done

The bookkeeping for the commands of `win_fsnotifier.cpp` that run inside one another: the steps
done so far as acts on single paths, what is left of every work according to them, and the
watch points of a server where some are just being replaced.

## Main definitions

* `Recorded` — steps that lead to the watch points found, in the order of the commands
* `progressOf` — what is left of a work
* `Mirrors` — a server with the watch points found, but for those that are being replaced

## Main results

* `Recorded.snoc`, `Recorded.exists_last` — one more step, and the last step on a path
* `register_spec`, `unregister_spec`, `enter_of_absent` — what the parts do to the watch points
-/

namespace FileEvents

open Concurrency

namespace Windows

/-- The command an event is a part of. -/
def Event.command? : Event → Option ℕ
  | .registerPath command _ _ | .unregisterPath command _ => some command
  | .completion _ _ => none

def Event.path : Event → U16String
  | .registerPath _ path _ | .unregisterPath _ path | .completion path _ => path

@[simp] theorem path_event (step : Step) : step.event.path = step.path := by
  unfold Step.event
  split <;> rfl

namespace Commands

/-- The registrations that go on when the destructors return, the innermost first. -/
def continuations (system : System) : List (Option U16String) :=
  system.destroying.map Destruction.thenRegister

/-- A `registerPath` has removed the finished watch point of the path and not yet entered the
new one. -/
def Replacing (system : System) (path : U16String) : Prop :=
  some path ∈ continuations system

instance (system : System) : DecidablePred (Replacing system) := fun path =>
  inferInstanceAs (Decidable (some path ∈ continuations system))

/-! ## What was done -/

/-- The steps so far lead from no watch points to those found now, every path was dealt with in
the order of the commands, and a completion routine counts for the last command before it. -/
structure Recorded (rank : ℕ → ℕ) (done : List Step) (found : U16String → Option WatchPoint) :
    Prop where
  replayed : steps.replay (fun _ => none) done = some found
  sorted : ∀ path, (done.filter fun step => step.path = path).Pairwise fun a b =>
    rank a.command ≤ rank b.command
  owned : ∀ step ∈ done, ∃ part ∈ done, part.path = step.path ∧ part.command = step.command ∧
    part.event.command? = some part.command

section Recorded

variable {rank : ℕ → ℕ} {done : List Step} {found : U16String → Option WatchPoint} {step : Step}
  {path : U16String}

theorem Recorded.snoc {after : Option WatchPoint} (recorded : Recorded rank done found)
    (acts : steps.act (found step.path) step = some after)
    (last : ∀ other ∈ done, other.path = step.path → rank other.command ≤ rank step.command)
    (owned : step.event.command? = some step.command ∨
      ∃ part ∈ done, part.path = step.path ∧ part.command = step.command ∧
        part.event.command? = some part.command) :
    Recorded rank (done ++ [step]) (Function.update found step.path after) := by
  constructor
  case replayed =>
    rw [Sites.replay_append, recorded.replayed, Option.bind_some, Sites.replay]
    exact Option.bind_eq_some_iff.mpr ⟨after, acts, rfl⟩
  case sorted =>
    intro path
    rw [List.filter_append, List.pairwise_append]
    refine ⟨recorded.sorted path, List.Pairwise.filter _ (List.pairwise_singleton _ _), ?_⟩
    intro a earlier b new
    obtain ⟨mem, rfl⟩ : a ∈ done ∧ a.path = path := by simpa using earlier
    obtain ⟨rfl, same⟩ : b = step ∧ b.path = a.path := by simpa using new
    exact last a mem same.symm
  case owned =>
    intro other mem
    rcases List.mem_append.mp mem with old | new
    · obtain ⟨part, mem, rest⟩ := recorded.owned other old
      exact ⟨part, List.mem_append_left _ mem, rest⟩
    · obtain rfl := List.mem_singleton.mp new
      rcases owned with part | ⟨part, mem, rest⟩
      · exact ⟨other, mem, rfl, rfl, part⟩
      · exact ⟨part, List.mem_append_left _ mem, rest⟩

/-- Where there is a watch point, somebody was the last to deal with it. -/
theorem Recorded.exists_last (recorded : Recorded rank done found) (known : found path ≠ none) :
    ∃ step ∈ done, step.path = path ∧
      ∀ other ∈ done, other.path = path → rank other.command ≤ rank step.command := by
  have replayed := Sites.replay_eq_some_iff.mp recorded.replayed path
  have sorted := recorded.sorted path
  rcases List.eq_nil_or_concat (done.filter fun step => step.path = path) with empty | ⟨as, a, eq⟩
  · change (done.filter fun step => step.path = path).foldlM steps.act none = _ at replayed
    rw [empty] at replayed
    exact absurd (Option.some_inj.mp replayed).symm known
  · rw [List.concat_eq_append] at eq
    have listed {other : Step} : other ∈ done ∧ other.path = path ↔ other ∈ as ∨ other = a := by
      rw [← List.mem_singleton (b := a), ← List.mem_append, ← eq, List.mem_filter,
        decide_eq_true_eq]
    obtain ⟨mem, same⟩ := listed.mpr (.inr rfl)
    rw [eq, List.pairwise_append] at sorted
    refine ⟨a, mem, same, fun other mem same => ?_⟩
    rcases listed.mp ⟨mem, same⟩ with before | rfl
    · exact sorted.2.2 other before a (List.mem_singleton_self a)
    · exact le_rfl

end Recorded

/-! ## What is left of the commands -/

/-- What becomes of the work of a command when its steps are its parts. -/
def progressOf (works : List Work) (done : List Step) (i : ℕ) : Option Progress :=
  works[i]?.bind fun work =>
    (done.filter fun step => step.command = i).foldlM Progress.take (.goesOn work)

section Progress

variable {works : List Work} {done : List Step} {step : Step} {i : ℕ}

theorem progressOf_snoc (own : step.command = i) : progressOf works (done ++ [step]) i =
    (progressOf works done i).bind fun progress => progress.take step := by
  have one : ([step].filter fun step => step.command = i) = [step] := by simp [own]
  rw [progressOf, List.filter_append, one, progressOf, Option.bind_assoc]
  simp

theorem progressOf_snoc_of_ne (other : step.command ≠ i) :
    progressOf works (done ++ [step]) i = progressOf works done i := by
  simp [progressOf, List.filter_append, other]

theorem progressOf_snoc_completion {completion : Completion}
    (act : step.act = .completion completion) :
    progressOf works (done ++ [step]) i = progressOf works done i := by
  by_cases own : step.command = i
  · rw [progressOf_snoc own]
    simp [Progress.take, act]
  · exact progressOf_snoc_of_ne own

end Progress

/-- Nothing becomes the shutdown of the run loop. -/
theorem progressOf_ne {works : List Work} {done : List Step} {i : ℕ}
    (admitted : .shutdownRunLoop ∉ works) :
    progressOf works done i ≠ some (.goesOn .shutdownRunLoop) := by
  have keeps (progress last : Progress) (block : List Step)
      (other : progress ≠ .goesOn .shutdownRunLoop)
      (folds : block.foldlM Progress.take progress = some last) :
      last ≠ .goesOn .shutdownRunLoop := by
    induction block generalizing progress with
    | nil => exact Option.some_inj.mp folds ▸ other
    | cons step block ih =>
      rw [List.foldlM_cons] at folds
      obtain ⟨progress', takes, folds⟩ := Option.bind_eq_some_iff.mp folds
      refine ih progress' ?_ folds
      unfold Progress.take at takes
      split at takes
      next => exact Option.some_inj.mp takes ▸ other
      next result _ _ _ =>
        split_ifs at takes
        cases result <;> exact Option.some_inj.mp takes ▸ by simp
      next =>
        split_ifs at takes
        exact Option.some_inj.mp takes ▸ by simp
      next => cases takes
  intro same
  obtain ⟨work, known, folds⟩ := Option.bind_eq_some_iff.mp same
  refine keeps _ _ _ (fun same => admitted ?_) folds rfl
  exact Progress.goesOn.inj same ▸ List.mem_of_getElem? known

/-! ## What the server does -/

/-- The server has the watch points found, except for those that are just replaced: they are
removed already. -/
structure Mirrors (system : System) (found : U16String → Option WatchPoint) : Prop where
  running : system.server.shouldTerminate = false
  same : ∀ path, ¬ Replacing system path → system.server.found path = found path
  replaced : ∀ path, Replacing system path →
    system.server.found path = none ∧ ∃ watchPoint ∈ found path, watchPoint.status = .finished

section Mirrors

variable {system after : System} {found : U16String → Option WatchPoint} {path : U16String}
  {watchPoint : WatchPoint}

/-- One watch point changes, and it is not just replaced. -/
theorem Mirrors.update {left : Option WatchPoint} (mirrors : Mirrors system found)
    (settled : ¬ Replacing system path)
    (changes : after.server.found = Function.update system.server.found path left)
    (continues : ∀ other, Replacing after other ↔ Replacing system other)
    (running : after.server.shouldTerminate = system.server.shouldTerminate) :
    Mirrors after (Function.update found path left) where
  running := running.trans mirrors.running
  same other settled' := by
    rw [changes]
    rcases eq_or_ne other path with rfl | different
    · simp
    · rw [Function.update_of_ne different, Function.update_of_ne different]
      exact mirrors.same other (by rwa [continues] at settled')
  replaced other replacing := by
    rw [continues] at replacing
    have different : other ≠ path := fun same => settled (same ▸ replacing)
    rw [changes, Function.update_of_ne different, Function.update_of_ne different]
    exact mirrors.replaced other replacing

theorem Mirrors.congr (mirrors : Mirrors system found) (same : after.server = system.server)
    (continues : ∀ other, Replacing after other ↔ Replacing system other) :
    Mirrors after found where
  running := by rw [same, mirrors.running]
  same other settled := by
    rw [same]
    exact mirrors.same other (by rwa [continues] at settled)
  replaced other replacing := by
    rw [same]
    exact mirrors.replaced other ((continues other).mp replacing)

/-- A finished watch point is removed. -/
theorem Mirrors.begin (mirrors : Mirrors system found) (settled : ¬ Replacing system path)
    (known : system.server.found path = some watchPoint) (finished : watchPoint.status = .finished)
    (changes : after.server.found = Function.update system.server.found path none)
    (continues : continuations after = some path :: continuations system)
    (running : after.server.shouldTerminate = system.server.shouldTerminate) :
    Mirrors after found where
  running := running.trans mirrors.running
  same other settled' := by
    have different : other ≠ path := by
      rintro rfl
      exact settled' (by simp [Replacing, continues])
    rw [changes, Function.update_of_ne different]
    exact mirrors.same other fun replacing => settled' (by
      rw [Replacing, continues]
      exact List.mem_cons_of_mem _ replacing)
  replaced other replacing := by
    rw [changes]
    rcases eq_or_ne other path with rfl | different
    · refine ⟨by simp, watchPoint, ?_, finished⟩
      rw [← mirrors.same other settled, known]
      rfl
    · rw [Function.update_of_ne different]
      refine mirrors.replaced other ?_
      rw [Replacing, continues] at replacing
      exact (List.mem_cons.mp replacing).resolve_left (by simpa using different)

/-- The watch point that replaces another one is entered. -/
theorem Mirrors.enter {left : Option WatchPoint} {rest : List (Option U16String)}
    (mirrors : Mirrors system found) (replacing : continuations system = some path :: rest)
    (once : some path ∉ rest) (continues : continuations after = rest)
    (changes : after.server.found = Function.update system.server.found path left)
    (running : after.server.shouldTerminate = system.server.shouldTerminate) :
    Mirrors after (Function.update found path left) where
  running := running.trans mirrors.running
  same other settled := by
    rw [changes]
    rcases eq_or_ne other path with rfl | different
    · simp
    · rw [Function.update_of_ne different, Function.update_of_ne different]
      refine mirrors.same other ?_
      rw [Replacing, continues] at settled
      simpa [Replacing, replacing, different] using settled
  replaced other replacing' := by
    rw [Replacing, continues] at replacing'
    have different : other ≠ path := fun same => once (same ▸ replacing')
    rw [changes, Function.update_of_ne different, Function.update_of_ne different]
    refine mirrors.replaced other ?_
    rw [Replacing, replacing]
    exact List.mem_cons_of_mem _ replacing'

theorem destroy_spec (system : System) (watchPoint : WatchPoint)
    (cancelIo : Except ErrorCode Unit) (thenRegister : Option U16String) :
    (system.destroy watchPoint cancelIo thenRegister).server = system.server ∧
      (continuations (system.destroy watchPoint cancelIo thenRegister) = continuations system ∨
        continuations (system.destroy watchPoint cancelIo thenRegister) =
          thenRegister :: continuations system) := by
  unfold System.destroy
  split
  next => exact ⟨rfl, .inr rfl⟩
  next => exact ⟨rfl, .inl rfl⟩

theorem enter_of_absent (system : System) (answers : ConstructAnswers)
    (cancelIo : Except ErrorCode Unit) (absent : system.server.found path = none) :
    (system.enter path answers cancelIo).server.found =
        Function.update system.server.found path (constructed path answers).2 ∧
      (system.enter path answers cancelIo).server.shouldTerminate =
        system.server.shouldTerminate ∧
      continuations (system.enter path answers cancelIo) = continuations system := by
  obtain ⟨server, enters, found, running⟩ :=
    system.server.enterWatchPoint_of_absent path answers absent
  simp only [System.enter, enters]
  exact ⟨found, running, rfl⟩

/-- What `registerPath` does before the wait of a destructor, or at once. -/
inductive Registers (system : System) (path : U16String) (answers : ConstructAnswers) : Prop
  | refused {watchPoint : WatchPoint} {ex : CppException}
      (known : system.server.found path = some watchPoint)
      (unfinished : watchPoint.status ≠ .finished)
      (refuses : system.server.beginRegisterPath path = .error ex)
      (result : registered path answers (some watchPoint) = (.error ex, some watchPoint))
      (unchanged : system.register path answers = system)
  | enters (absent : system.server.found path = none)
      (begins : system.server.beginRegisterPath path = .ok (none, system.server))
      (same : system.register path answers = system.enter path answers (.ok ()))
  | replaces {watchPoint : WatchPoint} {server : Server}
      (known : system.server.found path = some watchPoint)
      (finished : watchPoint.status = .finished)
      (begins : system.server.beginRegisterPath path = .ok (some watchPoint, server))
      (changes : (system.register path answers).server.found =
        Function.update system.server.found path none)
      (running : (system.register path answers).server.shouldTerminate =
        system.server.shouldTerminate)
      (continues : continuations (system.register path answers) =
        some path :: continuations system)

theorem register_spec (system : System) (path : U16String) (answers : ConstructAnswers) :
    Registers system path answers := by
  cases known : system.server.found path with
  | none =>
    have begins : system.server.beginRegisterPath path = .ok (none, system.server) := by
      simp [Server.beginRegisterPath, show system.server.watchPoints.lookup path = none from known]
    exact .enters known begins (by simp [System.register, begins])
  | some watchPoint =>
    have listed : system.server.watchPoints.lookup path = some watchPoint := known
    by_cases finished : watchPoint.status = .finished
    · let erased : Server :=
        { system.server with watchPoints := system.server.watchPoints.erase path }
      have begins : system.server.beginRegisterPath path = .ok (some watchPoint, erased) := by
        simp [Server.beginRegisterPath, listed, finished, erased]
      -- A finished watch point is not cancelled, so its destructor waits.
      have registers : system.register path answers =
          { server := erased, destroying := ⟨watchPoint, some path⟩ :: system.destroying } := by
        simp [System.register, begins, System.destroy, WatchPoint.cancel, finished]
      refine .replaces known finished begins ?_ ?_ ?_
      · rw [registers]
        exact system.server.found_erase path
      · rw [registers]
      · rw [registers]
        rfl
    · have refuses : system.server.beginRegisterPath path =
          .error (fileWatcherException "Already watching path" path none) := by
        simp [Server.beginRegisterPath, listed, finished]
      exact .refused known finished refuses (by simp [registered, finished])
        (by simp [System.register, refuses])

/-- What `unregisterPath` does before the wait of the destructor. -/
theorem unregister_spec (system : System) (path : U16String) (cancelIo : Except ErrorCode Unit) :
    (system.unregister path cancelIo).server.found =
        Function.update system.server.found path none ∧
      (system.unregister path cancelIo).server.shouldTerminate = system.server.shouldTerminate ∧
      (continuations (system.unregister path cancelIo) = continuations system ∨
        continuations (system.unregister path cancelIo) = none :: continuations system) := by
  obtain ⟨server, unregisters, found, running⟩ := system.server.unregisterPath_spec path
  cases known : system.server.found path with
  | none =>
    have unchanged : system.unregister path cancelIo = system := by
      simp [System.unregister, unregisters, known]
    rw [unchanged, ← known, Function.update_eq_self]
    exact ⟨rfl, rfl, .inl rfl⟩
  | some watchPoint =>
    rw [System.unregister, unregisters, known]
    obtain ⟨same, continues⟩ := destroy_spec { system with server } watchPoint cancelIo none
    exact ⟨by rw [same, found], by rw [same, running], continues⟩

end Mirrors

end Commands

end Windows

end FileEvents
