import FileEvents.Windows.CommandSteps

/-!
# Callbacks inside one another

The callbacks of the commands of `win_fsnotifier.cpp` that are in progress: each waits in a
destructor, except possibly the innermost. What is left of the work of a command agrees with
the steps that were done for it; where its `registerPath` waits, that one is still to be done.

## Main definitions

* `Nested` — the callbacks that wait with the destructors they wait in
* `Waits`, `Settled` — what is left of the work of a command agrees with its steps
* `Tracks` — this for all commands
* `Head` — the innermost callback does not wait

## Main results

* `Tracks.advance`, `Tracks.push`, `Tracks.pop`, `Tracks.append`, `Tracks.snoc` — steps that are
  not parts of a work
* `Tracks.goOn`, `Tracks.wait` — the parts of a work
-/

namespace FileEvents

open Concurrency

namespace Windows

namespace Commands

/-- What is found in a list of which one element was replaced. -/
theorem exists_getElem?_set {α : Type} {as : List α} {i j : ℕ} {a a' b : α} {P : α → Prop}
    (replaced : as[j]? = some a) (found : as[i]? = some b) (own : a = b → P a') (other : P b) :
    ∃ c, (as.set j a')[i]? = some c ∧ P c := by
  rcases eq_or_ne j i with rfl | different
  · have same := Option.some_inj.mp (replaced.symm.trans found)
    exact ⟨a', List.getElem?_set_self (List.getElem?_eq_some_iff.mp replaced).1, own same⟩
  · exact ⟨b, (List.getElem?_set_ne different).trans found, other⟩

/-- The callbacks that wait, each in a destructor. -/
inductive Nested (P : ℕ → Option U16String → Prop) :
    List CommandQueue.Frame → List (Option U16String) → Prop
  | nil : Nested P [] []
  | cons {frame : CommandQueue.Frame} {stack : List CommandQueue.Frame}
      {continuation : Option U16String} {continuations : List (Option U16String)}
      (waits : P frame.command continuation) (base : frame.base = continuations.length)
      (new : frame.command ∉ stack.map CommandQueue.Frame.command)
      (once : ∀ path ∈ continuation, some path ∉ continuations)
      (rest : Nested P stack continuations) :
      Nested P (frame :: stack) (continuation :: continuations)

theorem Nested.mono {P Q : ℕ → Option U16String → Prop} {stack : List CommandQueue.Frame}
    {continuations : List (Option U16String)} (nested : Nested P stack continuations)
    (weaker : ∀ i ∈ stack.map CommandQueue.Frame.command, ∀ continuation ∈ continuations,
      P i continuation → Q i continuation) : Nested Q stack continuations := by
  induction nested with
  | nil => exact .nil
  | cons waits base new once _ ih =>
    refine .cons (weaker _ ?_ _ ?_ waits) base new once (ih fun i mem continuation mem' =>
      weaker i (List.mem_cons_of_mem _ mem) continuation (List.mem_cons_of_mem _ mem'))
    · exact List.mem_cons_self
    · exact List.mem_cons_self

theorem Nested.length {P : ℕ → Option U16String → Prop} {stack : List CommandQueue.Frame}
    {continuations : List (Option U16String)} (nested : Nested P stack continuations) :
    ∀ frame ∈ stack.head?, frame.base < continuations.length := by
  cases nested with
  | nil => simp
  | cons waits base => simp [base]

theorem Nested.eq_nil {P : ℕ → Option U16String → Prop} {continuations : List (Option U16String)}
    (nested : Nested P [] continuations) : continuations = [] := by
  cases nested
  rfl

/-- A `registerPath` whose destructor waits is still to be done. -/
inductive Resumes : Option U16String → Work → Work → Prop
  | none {work : Work} : Resumes none work work
  | some {path : U16String} {paths : List U16String} :
      Resumes (some path) (.registerPaths paths) (.registerPaths (path :: paths))

/-- What is left of the work of a callback that waits. -/
def Waits (rank : ℕ → ℕ) (commands : List CommandQueue.Entry) (works : List Work)
    (done : List Step) (i : ℕ) (continuation : Option U16String) : Prop :=
  ∃ entry work, commands[i]? = some entry ∧ entry.state.callback = .working ∧
    Resumes continuation entry.work work ∧ progressOf works done i = some (.goesOn work) ∧
    ∀ path ∈ continuation, ∀ step ∈ done, step.path = path → rank step.command ≤ rank i

/-- What is left of the work of a command whose callback does not wait. -/
def Settled (commands : List CommandQueue.Entry) (works : List Work) (done : List Step) (i : ℕ) :
    Prop :=
  ∀ entry, commands[i]? = some entry → ∃ progress, progressOf works done i = some progress ∧
    (entry.state.runs = [] → progress = .goesOn entry.work) ∧
    ∀ outcome ∈ entry.state.runs, progress.outcome = some outcome

/-- The callbacks in progress and what is left of all works. -/
structure Tracks (rank : ℕ → ℕ) (commands : List CommandQueue.Entry)
    (stack : List CommandQueue.Frame) (continuations : List (Option U16String))
    (works : List Work) (done : List Step) : Prop where
  known : works.length = commands.length
  begun : ∀ step ∈ done, ∃ entry, commands[step.command]? = some entry ∧
    CommandQueue.Begun entry.state.callback
  inside : ∀ (i : ℕ) (entry : CommandQueue.Entry), commands[i]? = some entry →
    CommandQueue.InProgress entry.state.callback → i ∈ stack.map CommandQueue.Frame.command
  /-- All callbacks wait, or all but the innermost. -/
  stacked : ∃ waiting, Nested (Waits rank commands works done) waiting continuations ∧
    (∀ i, i ∉ waiting.map CommandQueue.Frame.command → Settled commands works done i) ∧
    (stack = waiting ∨ ∃ frame, stack = frame :: waiting ∧ frame.base = continuations.length ∧
      frame.command ∉ waiting.map CommandQueue.Frame.command ∧
      ∃ entry, commands[frame.command]? = some entry ∧
        CommandQueue.InProgress entry.state.callback)

section Tracks

variable {rank : ℕ → ℕ} {commands commands' : List CommandQueue.Entry}
  {stack : List CommandQueue.Frame} {conts : List (Option U16String)}
  {works works' : List Work} {done done' : List Step} {i j : ℕ} {entry : CommandQueue.Entry}
  {state : Command.State}

theorem Waits.transfer {continuation : Option U16String}
    (waits : Waits rank commands works done i continuation)
    (keeps : ∀ entry, commands[i]? = some entry → entry.state.callback = .working →
      ∃ entry', commands'[i]? = some entry' ∧ entry'.state.callback = .working ∧
        entry'.work = entry.work)
    (progress : progressOf works' done' i = progressOf works done i)
    (untouched : ∀ path ∈ continuation, ∀ step ∈ done', step.path = path → step ∈ done) :
    Waits rank commands' works' done' i continuation := by
  obtain ⟨entry, work, known, working, resumes, left, first⟩ := waits
  obtain ⟨entry', known', working', same⟩ := keeps entry known working
  refine ⟨entry', work, known', working', same ▸ resumes, progress.trans left, ?_⟩
  exact fun path mem step mem' own => first path mem step (untouched path mem step mem' own) own

theorem Settled.transfer (settled : Settled commands works done i)
    (keeps : ∀ entry', commands'[i]? = some entry' → ∃ entry, commands[i]? = some entry ∧
      entry'.work = entry.work ∧ entry'.state.runs = entry.state.runs)
    (progress : progressOf works' done' i = progressOf works done i) :
    Settled commands' works' done' i := by
  intro entry' known'
  obtain ⟨entry, known, work, runs⟩ := keeps entry' known'
  obtain ⟨left, same, agrees⟩ := settled entry known
  rw [work, runs, progress]
  exact ⟨left, same, agrees⟩

/-- A command takes a step that is not the end of its work. -/
theorem Waits.advance {continuation : Option U16String}
    (waits : Waits rank commands works done i continuation) (known : commands[j]? = some entry)
    (working : entry.state.callback = .working → state.callback = .working) :
    Waits rank (commands.set j { entry with state }) works done i continuation := by
  refine waits.transfer (fun found known' pc => ?_) rfl fun _ _ _ mem _ => mem
  refine exists_getElem?_set known known' ?_ ⟨pc, rfl⟩
  rintro rfl
  exact ⟨working pc, rfl⟩

theorem Settled.advance (settled : Settled commands works done i)
    (known : commands[j]? = some entry) (runs : state.runs = entry.state.runs) :
    Settled (commands.set j { entry with state }) works done i := by
  refine settled.transfer (fun found known' => ?_) rfl
  rcases eq_or_ne j i with rfl | other
  · rw [List.getElem?_set_self (List.getElem?_eq_some_iff.mp known).1] at known'
    obtain rfl := Option.some_inj.mp known'
    exact ⟨entry, known, rfl, runs⟩
  · exact ⟨found, (List.getElem?_set_ne other).symm.trans known', rfl, rfl⟩

theorem Nested.exists_of_mem {P : ℕ → Option U16String → Prop} (nested : Nested P stack conts)
    (mem : i ∈ stack.map CommandQueue.Frame.command) :
    ∃ continuation ∈ conts, P i continuation := by
  induction nested with
  | nil => cases mem
  | cons waits base new once _ ih =>
    rcases List.mem_cons.mp mem with rfl | mem
    · exact ⟨_, List.mem_cons_self, waits⟩
    · obtain ⟨continuation, mem, waits⟩ := ih mem
      exact ⟨continuation, List.mem_cons_of_mem _ mem, waits⟩

theorem Tracks.begun_set (tracks : Tracks rank commands stack conts works done)
    (known : commands[j]? = some entry) (work : Work)
    (begins : CommandQueue.Begun entry.state.callback → CommandQueue.Begun state.callback) :
    ∀ step ∈ done, ∃ entry, (commands.set j { work, state })[step.command]? = some entry ∧
      CommandQueue.Begun entry.state.callback := by
  intro step mem
  obtain ⟨found, known', begun⟩ := tracks.begun step mem
  refine exists_getElem?_set known known' ?_ begun
  rintro rfl
  exact begins begun

/-- The callbacks in progress after a step of one command. -/
theorem Tracks.inside_set {stack' : List CommandQueue.Frame} {work : Work}
    (tracks : Tracks rank commands stack conts works done)
    (own : CommandQueue.InProgress state.callback → j ∈ stack'.map CommandQueue.Frame.command)
    (others : ∀ i ∈ stack.map CommandQueue.Frame.command, i ≠ j →
      i ∈ stack'.map CommandQueue.Frame.command) :
    ∀ (i : ℕ) (entry : CommandQueue.Entry), (commands.set j { work, state })[i]? = some entry →
      CommandQueue.InProgress entry.state.callback →
        i ∈ stack'.map CommandQueue.Frame.command := by
  intro i found known progress
  rw [List.getElem?_set] at known
  split_ifs at known with same
  · obtain rfl := Option.some_inj.mp known
    exact same ▸ own progress
  · exact others i (tracks.inside i found known progress) (Ne.symm same)

/-- A thread takes a step in a command that does not begin or end its callback. -/
theorem Tracks.advance (tracks : Tracks rank commands stack conts works done)
    (known : commands[j]? = some entry) (runs : state.runs = entry.state.runs)
    (working : entry.state.callback = .working → state.callback = .working)
    (begins : CommandQueue.Begun entry.state.callback → CommandQueue.Begun state.callback)
    (progress : CommandQueue.InProgress state.callback ↔
      CommandQueue.InProgress entry.state.callback) :
    Tracks rank (commands.set j { entry with state }) stack conts works done where
  known := by rw [List.length_set, tracks.known]
  begun := tracks.begun_set known entry.work begins
  inside := tracks.inside_set (fun busy => tracks.inside j entry known (progress.mp busy))
    fun _ mem _ => mem
  stacked := by
    obtain ⟨waiting, nested, settled, stacked⟩ := tracks.stacked
    refine ⟨waiting, nested.mono fun i _ _ _ waits => waits.advance known working,
      fun i mem => (settled i mem).advance known runs, ?_⟩
    rcases stacked with rfl | ⟨frame, rfl, base, new, found, known', busy⟩
    · exact .inl rfl
    · refine .inr ⟨frame, rfl, base, new, exists_getElem?_set known known' ?_ busy⟩
      rintro rfl
      exact progress.mpr busy

/-- A callback begins while all others wait. -/
theorem Tracks.push (tracks : Tracks rank commands stack conts works done)
    (alertable : ∀ frame ∈ stack.head?, frame.base < conts.length)
    (known : commands[j]? = some entry) (queued : entry.state.callback = .queued)
    (runs : state.runs = entry.state.runs) (working : state.callback = .working) :
    Tracks rank (commands.set j { entry with state })
      ({ command := j, base := conts.length } :: stack) conts works done where
  known := by rw [List.length_set, tracks.known]
  begun := tracks.begun_set known entry.work fun begun => absurd queued begun.2
  inside := tracks.inside_set (fun _ => List.mem_cons_self)
    fun i mem _ => List.mem_cons_of_mem _ mem
  stacked := by
    obtain ⟨waiting, nested, settled, stacked⟩ := tracks.stacked
    refine ⟨waiting, nested.mono fun i _ _ _ waits => waits.advance known fun pc => ?_,
      fun i mem => (settled i mem).advance known runs, ?_⟩
    · rw [queued] at pc
      cases pc
    -- The innermost callback has to wait for another one to begin.
    rcases stacked with rfl | ⟨frame, rfl, base, -⟩
    · refine .inr ⟨_, rfl, rfl, fun mem => ?_, ?_⟩
      · obtain ⟨_, -, found, _, known', pc, -⟩ := nested.exists_of_mem mem
        obtain rfl := Option.some_inj.mp (known.symm.trans known')
        rw [queued] at pc
        cases pc
      · exact ⟨_, List.getElem?_set_self (List.getElem?_eq_some_iff.mp known).1, .inl working⟩
    · exact absurd (alertable frame rfl) (by simp [base])

/-- The innermost callback returns. -/
theorem Tracks.pop {frame : CommandQueue.Frame}
    (tracks : Tracks rank commands (frame :: stack) conts works done)
    (known : commands[frame.command]? = some entry) (notified : entry.state.callback = .notified)
    (runs : state.runs = entry.state.runs) (finished : state.callback = .finished) :
    Tracks rank (commands.set frame.command { entry with state }) stack conts works done where
  known := by rw [List.length_set, tracks.known]
  begun := tracks.begun_set known entry.work fun _ => by simp [finished, CommandQueue.Begun]
  inside := tracks.inside_set (fun busy => by simp [finished, CommandQueue.InProgress] at busy)
    fun i mem other => (List.mem_cons.mp mem).resolve_left other
  stacked := by
    obtain ⟨waiting, nested, settled, stacked⟩ := tracks.stacked
    refine ⟨waiting, nested.mono fun i _ _ _ waits => waits.advance known fun pc => ?_,
      fun i mem => (settled i mem).advance known runs, .inl ?_⟩
    · rw [notified] at pc
      cases pc
    rcases stacked with rfl | ⟨frame', same, -⟩
    · -- A callback that waits is at work.
      obtain ⟨_, -, found, _, known', pc, -⟩ := nested.exists_of_mem List.mem_cons_self
      obtain rfl := Option.some_inj.mp (known.symm.trans known')
      rw [notified] at pc
      cases pc
    · exact (List.cons.inj same).2

/-- A command is new. -/
theorem Tracks.append (tracks : Tracks rank commands stack conts works done) (work : Work) :
    Tracks rank (commands ++ [{ work, state := Command.machine.start }]) stack conts
      (works ++ [work]) done := by
  have older {i : ℕ} {entry : CommandQueue.Entry} (known : commands[i]? = some entry) :
      (commands ++ [{ work, state := Command.machine.start }])[i]? = some entry :=
    (List.getElem?_append_left (List.getElem?_eq_some_iff.mp known).1).trans known
  have cases {i : ℕ} {entry : CommandQueue.Entry}
      (known : (commands ++ [{ work, state := Command.machine.start }])[i]? = some entry) :
      commands[i]? = some entry ∨
        i = commands.length ∧ entry = { work, state := Command.machine.start } := by
    rcases lt_or_ge i commands.length with old | new
    · exact .inl ((List.getElem?_append_left old).symm.trans known)
    · rw [List.getElem?_append_right new] at known
      obtain ⟨single, same⟩ := List.getElem?_eq_some_iff.mp known
      have index : i = commands.length := by
        simp only [List.length_singleton] at single
        omega
      exact .inr ⟨index, by simpa using same.symm⟩
  -- No progress changes, as the new command is the last one.
  have progress {i : ℕ} {entry : CommandQueue.Entry} (known : commands[i]? = some entry) :
      progressOf (works ++ [work]) done i = progressOf works done i := by
    have inside : i < works.length := tracks.known ▸ (List.getElem?_eq_some_iff.mp known).1
    rw [progressOf, List.getElem?_append_left inside, progressOf]
  constructor
  case known => simp [tracks.known]
  case begun =>
    intro step mem
    obtain ⟨entry, known, begun⟩ := tracks.begun step mem
    exact ⟨entry, older known, begun⟩
  case inside =>
    intro i entry known busy
    rcases cases known with known | ⟨-, rfl⟩
    · exact tracks.inside i entry known busy
    · simp [CommandQueue.InProgress, Command.machine] at busy
  case stacked =>
    obtain ⟨waiting, nested, settled, stacked⟩ := tracks.stacked
    refine ⟨waiting, nested.mono fun i _ _ _ waits => ?_, fun i mem entry known => ?_,
      stacked.imp_right ?_⟩
    · -- The callbacks that wait belong to older commands.
      obtain ⟨entry, left, known, working, rest⟩ := waits
      rw [← progress known] at rest
      exact ⟨entry, left, older known, working, rest⟩
    · rcases cases known with known | ⟨rfl, rfl⟩
      · rw [progress known]
        exact settled i mem entry known
      · -- Nothing was done for the new command.
        have none : (done.filter fun step => step.command = commands.length) = [] := by
          refine List.filter_eq_nil_iff.mpr fun step mem => ?_
          obtain ⟨entry, known, -⟩ := tracks.begun step mem
          have := (List.getElem?_eq_some_iff.mp known).1
          simp only [decide_eq_true_eq]
          omega
        have last : (works ++ [work])[commands.length]? = some work := by simp [← tracks.known]
        refine ⟨.goesOn work, ?_, fun _ => rfl, by simp [Command.machine]⟩
        rw [progressOf, last, Option.bind_some, none]
        rfl
    · rintro ⟨frame, same, base, new, entry, known, busy⟩
      exact ⟨frame, same, base, new, entry, older known, busy⟩

/-- A completion routine runs. -/
theorem Tracks.snoc {step : Step} (tracks : Tracks rank commands stack conts works done)
    (progress : ∀ i, progressOf works (done ++ [step]) i = progressOf works done i)
    (older : ∃ part ∈ done, part.command = step.command) (free : some step.path ∉ conts) :
    Tracks rank commands stack conts works (done ++ [step]) where
  known := tracks.known
  begun other mem := by
    rcases List.mem_append.mp mem with old | new
    · exact tracks.begun other old
    · obtain ⟨part, mem, same⟩ := older
      rw [List.mem_singleton.mp new, ← same]
      exact tracks.begun part mem
  inside := tracks.inside
  stacked := by
    obtain ⟨waiting, nested, settled, stacked⟩ := tracks.stacked
    refine ⟨waiting, nested.mono fun i _ continuation mem waits => ?_, fun i mem => ?_, stacked⟩
    · refine waits.transfer (fun entry known working => ⟨entry, known, working, rfl⟩) (progress i)
        fun path own other done same => ?_
      refine (List.mem_append.mp done).resolve_right fun new => free ?_
      rw [← List.mem_singleton.mp new, same, ← Option.mem_def.mp own]
      exact mem
    · exact (settled i mem).transfer (fun entry known => ⟨entry, known, rfl, rfl⟩) (progress i)

/-- The innermost callback does not wait, and all others do. -/
structure Head (rank : ℕ → ℕ) (commands : List CommandQueue.Entry) (frame : CommandQueue.Frame)
    (waiting : List CommandQueue.Frame) (conts : List (Option U16String)) (works : List Work)
    (done : List Step) : Prop where
  nested : Nested (Waits rank commands works done) waiting conts
  settled : ∀ i, i ∉ waiting.map CommandQueue.Frame.command → i ≠ frame.command →
    Settled commands works done i
  base : frame.base = conts.length
  new : frame.command ∉ waiting.map CommandQueue.Frame.command

/-- A callback that has gone past its last destructor is the head, and what is left of its work
is what its command says. -/
theorem Tracks.head {frame : CommandQueue.Frame}
    (tracks : Tracks rank commands (frame :: stack) conts works done)
    (active : ¬ frame.base < conts.length) : Head rank commands frame stack conts works done ∧
      Settled commands works done frame.command := by
  obtain ⟨waiting, nested, settled, rfl | ⟨frame', same, base, new, -⟩⟩ := tracks.stacked
  · exact absurd (nested.length frame rfl) active
  · obtain ⟨rfl, rfl⟩ := List.cons.inj same
    exact ⟨⟨nested, fun i mem _ => settled i mem, base, new⟩, settled _ new⟩

/-- A callback whose destructor returns is the head afterwards. -/
theorem Tracks.resume {frame : CommandQueue.Frame} {continuation : Option U16String}
    (tracks : Tracks rank commands (frame :: stack) (continuation :: conts) works done)
    (waits : frame.base < (continuation :: conts).length) :
    Head rank commands frame stack conts works done ∧
      Waits rank commands works done frame.command continuation ∧
      ∀ path ∈ continuation, some path ∉ conts := by
  obtain ⟨waiting, nested, settled, rfl | ⟨frame', same, base, -⟩⟩ := tracks.stacked
  · cases nested with
    | cons left base new once nested =>
      refine ⟨⟨nested, fun i mem other => settled i ?_, base, new⟩, left, once⟩
      simpa [other] using mem
  · obtain ⟨rfl, -⟩ := List.cons.inj same
    exact absurd waits (by simp [base])

theorem begun_of_inProgress {pc : Command.CallbackPc} (busy : CommandQueue.InProgress pc) :
    CommandQueue.Begun pc := by
  rcases busy with rfl | rfl | rfl | rfl <;> exact ⟨by simp, by simp⟩

/-- A command after a part of its work. -/
def after (entry : CommandQueue.Entry) : Progress → CommandQueue.Entry
  | .goesOn work => { entry with work }
  | .ends outcome => { entry with state := entry.state.store outcome }

theorem callback_after (working : entry.state.callback = .working) (progress : Progress) :
    CommandQueue.InProgress (after entry progress).state.callback := by
  cases progress with
  | goesOn => exact .inl working
  | ends outcome => cases outcome <;> exact .inr (.inl rfl)

/-- A part of the innermost callback is done. -/
structure Part (commands : List CommandQueue.Entry) (entry : CommandQueue.Entry)
    (frame : CommandQueue.Frame) (conts : List (Option U16String)) (works : List Work)
    (done done' : List Step) : Prop where
  known : commands[frame.command]? = some entry
  working : entry.state.callback = .working
  others : ∀ i, i ≠ frame.command → progressOf works done' i = progressOf works done i
  steps : ∀ step ∈ done', step ∈ done ∨ step.command = frame.command ∧ some step.path ∉ conts

section Part

variable {frame : CommandQueue.Frame} {waiting : List CommandQueue.Frame}
  {before : List (Option U16String)}

/-- What a part does not concern. -/
theorem Head.part (head : Head rank commands frame waiting conts works done)
    (part : Part commands entry frame conts works done done') (entry' : CommandQueue.Entry) :
    Nested (Waits rank (commands.set frame.command entry') works done') waiting conts ∧
      ∀ i, i ∉ waiting.map CommandQueue.Frame.command → i ≠ frame.command →
        Settled (commands.set frame.command entry') works done' i := by
  constructor
  · refine head.nested.mono fun i mem continuation mem' waits => ?_
    have other : i ≠ frame.command := fun same => head.new (same ▸ mem)
    -- No part is done on the path of a watch point that is being replaced.
    refine waits.transfer (fun found known working => ⟨found, ?_, working, rfl⟩)
      (part.others i other) fun path own step done same => ?_
    · exact (List.getElem?_set_ne other.symm).trans known
    · refine (part.steps step done).resolve_right fun new => new.2 ?_
      rw [same, ← Option.mem_def.mp own]
      exact mem'
  · intro i mem other
    refine (head.settled i mem other).transfer (fun found known => ⟨found, ?_, rfl, rfl⟩)
      (part.others i other)
    exact (List.getElem?_set_ne other.symm).symm.trans known

/-- After a part of the innermost callback. -/
theorem Tracks.of_head {conts' : List (Option U16String)} {progress : Progress}
    (tracks : Tracks rank commands (frame :: waiting) before works done)
    (part : Part commands entry frame conts works done done')
    (stacked : ∃ waiting', Nested (Waits rank (commands.set frame.command (after entry progress))
        works done') waiting' conts' ∧
      (∀ i, i ∉ waiting'.map CommandQueue.Frame.command →
        Settled (commands.set frame.command (after entry progress)) works done' i) ∧
      (frame :: waiting = waiting' ∨ waiting = waiting' ∧ frame.base = conts'.length ∧
        frame.command ∉ waiting'.map CommandQueue.Frame.command)) :
    Tracks rank (commands.set frame.command (after entry progress)) (frame :: waiting) conts'
      works done' := by
  have own : (commands.set frame.command (after entry progress))[frame.command]? =
      some (after entry progress) :=
    List.getElem?_set_self (List.getElem?_eq_some_iff.mp part.known).1
  have busy := callback_after part.working progress
  constructor
  case known => rw [List.length_set, tracks.known]
  case begun =>
    intro step mem
    rcases part.steps step mem with old | ⟨same, -⟩
    · exact tracks.begun_set part.known _ (fun _ => begun_of_inProgress busy) step old
    · exact ⟨_, same ▸ own, begun_of_inProgress busy⟩
  case inside => exact tracks.inside_set (fun _ => List.mem_cons_self) fun _ mem _ => mem
  case stacked =>
    obtain ⟨waiting', nested, settled, same | ⟨rfl, base, new⟩⟩ := stacked
    · exact ⟨waiting', nested, settled, .inl same⟩
    · exact ⟨waiting, nested, settled, .inr ⟨frame, rfl, base, new, _, own, busy⟩⟩

/-- After a part the innermost callback goes on or is through. -/
theorem Tracks.goOn {progress left : Progress}
    (tracks : Tracks rank commands (frame :: waiting) before works done)
    (head : Head rank commands frame waiting conts works done)
    (part : Part commands entry frame conts works done done') (runs : entry.state.runs = [])
    (leaves : progressOf works done' frame.command = some left)
    (agrees : left = progress ∨ ∃ outcome, progress = .ends outcome ∧
      left.outcome = some outcome) :
    Tracks rank (commands.set frame.command (after entry progress)) (frame :: waiting) conts works
      done' := by
  obtain ⟨nested, settled⟩ := head.part part (after entry progress)
  refine tracks.of_head part ⟨waiting, nested, fun i mem => ?_, .inr ⟨rfl, head.base, head.new⟩⟩
  rcases eq_or_ne i frame.command with rfl | other
  · intro found known
    rw [List.getElem?_set_self (List.getElem?_eq_some_iff.mp part.known).1] at known
    obtain rfl := Option.some_inj.mp known
    refine ⟨left, leaves, ?_⟩
    -- A work that is through has stored its outcome.
    cases progress with
    | goesOn work =>
      refine ⟨fun _ => agrees.resolve_right (by simp), ?_⟩
      simp [after, runs]
    | ends outcome =>
      have through : left.outcome = some outcome := by
        rcases agrees with rfl | ⟨outcome', same, through⟩
        · rfl
        · exact Progress.ends.inj same ▸ through
      cases outcome <;> simp [after, Command.State.store, runs, through]
  · exact settled i mem other

/-- After a part the innermost callback waits in a destructor. -/
theorem Tracks.wait {work work' : Work} {continuation : Option U16String}
    (tracks : Tracks rank commands (frame :: waiting) before works done)
    (head : Head rank commands frame waiting conts works done)
    (part : Part commands entry frame conts works done done')
    (leaves : progressOf works done' frame.command = some (.goesOn work'))
    (resumes : Resumes continuation work work')
    (once : ∀ path ∈ continuation, some path ∉ conts)
    (first : ∀ path ∈ continuation, ∀ step ∈ done', step.path = path →
      rank step.command ≤ rank frame.command) :
    Tracks rank (commands.set frame.command (after entry (.goesOn work))) (frame :: waiting)
      (continuation :: conts) works done' := by
  obtain ⟨nested, settled⟩ := head.part part (after entry (.goesOn work))
  have own := List.getElem?_set_self (a := after entry (.goesOn work))
    (List.getElem?_eq_some_iff.mp part.known).1
  refine tracks.of_head part ⟨frame :: waiting, ?_, fun i mem => ?_, .inl rfl⟩
  · exact .cons ⟨_, work', own, part.working, resumes, leaves, first⟩ head.base head.new once nested
  · obtain ⟨other, mem⟩ := not_or.mp (mt List.mem_cons.mpr mem)
    exact settled i mem other

end Part

end Tracks

/-! ## Steps of the queue -/

section Queue

variable {s t : CommandQueue.State} {i : ℕ}

theorem proceed_eq {entry : CommandQueue.Entry} {progress : Progress}
    (known : s.commands[i]? = some entry) (working : entry.state.callback = .working)
    (h : s.proceed i entry progress = some t) :
    t = { s with commands := s.commands.set i (after entry progress) } := by
  cases progress with
  | goesOn work => exact (Option.some_inj.mp h).symm
  | ends outcome =>
    obtain ⟨entry', state, known', next, rfl⟩ := CommandQueue.advance_spec h
    obtain rfl := Option.some_inj.mp (known.symm.trans known')
    simp only [Command.State.next, working, if_true] at next
    rw [← Option.some_inj.mp next]
    rfl

/-- The work of a command does a part. -/
theorem workOn_result {part : Work → Option Windows.Label × Progress}
    (h : s.workOn i part = some t) : ∃ entry, s.commands[i]? = some entry ∧
      entry.state.callback = .working ∧ t.stack = s.stack ∧
      t.commands = s.commands.set i (after entry (part entry.work).2) ∧
      (∀ label ∈ (part entry.work).1, s.system.next label = some t.system) ∧
      ((part entry.work).1 = none → t.system = s.system) := by
  obtain ⟨entry, known, h⟩ := Option.bind_eq_some_iff.mp h
  split_ifs at h with working
  refine ⟨entry, known, working, ?_⟩
  generalize part entry.work = result at h ⊢
  obtain ⟨_ | label, progress⟩ := result
  · obtain rfl := proceed_eq known working h
    exact ⟨rfl, rfl, by simp, fun _ => rfl⟩
  · obtain ⟨served, serves, h⟩ := Option.bind_eq_some_iff.mp h
    obtain ⟨system, next, rfl⟩ := CommandQueue.serve_spec serves
    obtain rfl := proceed_eq (s := { s with system, log := s.log ++ [(i, label)] }) known working h
    exact ⟨rfl, rfl, by simpa using next, by simp⟩

end Queue

section Callers

variable {c c' : Command.State} {step : Command.Label}

/-- A step of a caller leaves the callback alone, or queues it. -/
theorem caller_spec (reach : Command.machine.Reachable c)
    (caller : step = .execute ∨ (∃ errorCode, step = .refuse errorCode) ∨
      ∃ wake, step = .wake wake) (next : c.next step = some c') :
    c'.runs = c.runs ∧ (c'.callback = c.callback ∨
      c.callback = .unscheduled ∧ c'.callback = .queued) := by
  cases Command.steps_of_next next with
  | lock | wait | answer | refuse | wake => exact ⟨rfl, .inl rfl⟩
  | schedule pc => exact ⟨rfl, .inr ⟨(Command.lockInvariant reach).unscheduled (.inr pc), rfl⟩⟩
  | begin | store | lockRunLoop | notify | unlock => simp at caller

/-- A step of the callback outside of its work. -/
theorem callback_spec (next : c.next .executeInsideRunLoop = some c') : c'.runs = c.runs ∧
    (c.callback = .queued ∧ c'.callback = .working ∨
      c.callback = .stored ∧ c'.callback = .locked ∨
      c.callback = .locked ∧ c'.callback = .notified ∨
      c.callback = .notified ∧ c'.callback = .finished) := by
  cases Command.steps_of_next next with
  | begin pc => exact ⟨rfl, .inl ⟨pc, rfl⟩⟩
  | lockRunLoop pc => exact ⟨rfl, .inr (.inl ⟨pc, rfl⟩)⟩
  | notify pc => exact ⟨rfl, .inr (.inr (.inl ⟨pc, rfl⟩))⟩
  | unlock pc => exact ⟨rfl, .inr (.inr (.inr ⟨pc, rfl⟩))⟩

end Callers

end Commands

end Windows

end FileEvents
