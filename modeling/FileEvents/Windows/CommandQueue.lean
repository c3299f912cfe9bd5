import FileEvents.Windows.Command
import FileEvents.Windows.System

/-!
# The queue of commands

`executeOnRunLoop` of `win_fsnotifier.cpp`: every call makes a `Command` on its own stack
and queues a callback with its address. The run-loop thread runs queued callbacks whenever
it waits alertably, that is between two rounds of the run loop and in the destructors that
the works of the commands run. So callbacks are nested: the innermost goes on until it
waits in a destructor or is through.

A command that ended while its callback is queued or running is used all the same when the
callback goes on. The machine lets it go on as if the command were still there.

## Main definitions

* `Work`, `Work.goOn` — what the commands do on the run-loop thread, part by part
* `CommandQueue.State` — all commands, the callbacks that run and the server
* `CommandQueue.Orderly` — the waits that end by a notification or after the run loop

## Main results

* `reachable_command`, `reachable_system` — every command runs as in `Command.machine`, and
  the server as in `Windows.machine`
* `unused_of_orderly` — where orderly steps lead, no callback runs for a command that ended,
  and the work of a command that timed out was not begun
* `used_of_not_orderly` — any other end of a wait lets one of them happen
-/

namespace FileEvents

open Transition Concurrency

namespace Windows

/-- The functions passed to `executeOnRunLoop`, as far as they are not done yet. -/
inductive Work
  | registerPaths (paths : List U16String)
  | unregisterPaths (paths : List U16String) (success : Bool)
  | shutdownRunLoop

/-- Whether a work goes on after a part of it. -/
inductive Progress
  | goesOn (work : Work)
  | ends (outcome : Except CppException Bool)

/-- What becomes of `registerPaths` after an `emplace`. -/
def Work.entered (server : Server) (path : U16String) (answers : ConstructAnswers)
    (work : Work) : Progress :=
  match (server.enterWatchPoint path answers).1 with
  | .ok () => .goesOn work
  | .error ex => .ends (.error ex)

/-- The next part of a work, up to the destructor it runs: what it does to the server, and
what is left. -/
def Work.goOn (server : Server) (answers : ConstructAnswers)
    (cancelIo : Except ErrorCode Unit) : Work → Option Label × Progress
  | .registerPaths [] => (none, .ends (.ok true))
  | .registerPaths (path :: paths) =>
    (some (.registerPath path answers),
      match server.beginRegisterPath path with
      | .error ex => .ends (.error ex)
      | .ok (none, server) => Work.entered server path answers (.registerPaths paths)
      -- The `emplace` follows when the destructor has returned.
      | .ok (some _, _) => .goesOn (.registerPaths paths))
  | .unregisterPaths [] success => (none, .ends (.ok success))
  | .unregisterPaths (path :: paths) success =>
    (some (.unregisterPath path cancelIo),
      .goesOn (.unregisterPaths paths (success && (server.unregisterPath path).1.isSome)))
  | .shutdownRunLoop => (some .shutdown, .ends (.ok true))

/-- The part of a work after the destructor it was in. -/
def Work.destroyed (s : System) (answers : ConstructAnswers)
    (cancelIo : Except ErrorCode Unit) (work : Work) : Option Label × Progress :=
  (some (.destroyed answers cancelIo),
    match s.destroying.head?.bind fun destruction => destruction.thenRegister with
    | some path => Work.entered s.server path answers work
    | none => .goesOn work)

namespace CommandQueue

/-- A command that was passed to `executeOnRunLoop`. -/
structure Entry where
  /-- What is left of its work. -/
  work : Work
  state : Command.State

/-- A callback that the run-loop thread is in. -/
structure Frame where
  command : ℕ
  /-- How many destructors waited when it began. -/
  base : ℕ

/-- The commands, the run-loop thread and the server. -/
structure State where
  /-- All commands so far. -/
  commands : List Entry
  /-- The callbacks that run, the innermost first. -/
  stack : List Frame
  system : System
  /-- The run-loop thread has left its run loop. -/
  ended : Bool
  /-- What the works have done to the server, with the command each part belongs to. -/
  log : List (ℕ × Windows.Label)

/-- What can happen next. -/
inductive Label
  /-- A thread calls `executeOnRunLoop`. -/
  | executeOnRunLoop (work : Work)
  /-- The caller of a command takes its next step. -/
  | execute (command : ℕ)
  /-- `QueueUserAPC` fails. -/
  | refuse (command : ℕ) (errorCode : ErrorCode)
  /-- The `wait_for` of a command returns. -/
  | wake (command : ℕ) (wake : Wake)
  /-- The run-loop thread runs a queued callback. -/
  | executeOnRunLoopCallback (command : ℕ)
  /-- The work of the innermost callback does its next part. -/
  | work (answers : ConstructAnswers) (cancelIo : Except ErrorCode Unit)
  /-- The destructor that the innermost callback waits in returns. -/
  | destroyed (answers : ConstructAnswers) (cancelIo : Except ErrorCode Unit)
  /-- The innermost callback goes on after its work. -/
  | executeInsideRunLoop
  | completion (path : U16String) (completion : Completion)
  | lateCompletion (index : ℕ) (completion : Completion)
  | stopWatchingMovedPaths (visits : List Server.Visit)
  /-- The run-loop thread leaves its run loop. -/
  | leave

namespace State

/-- The run-loop thread waits alertably. -/
def Alertable (s : State) : Prop :=
  ∀ frame ∈ s.stack.head?, frame.base < s.system.destroying.length

instance (s : State) : Decidable s.Alertable := inferInstanceAs (Decidable
  (∀ frame ∈ s.stack.head?, frame.base < s.system.destroying.length))

/-- A command takes a step. -/
def advance (s : State) (command : ℕ) (label : Command.Label) : Option State :=
  s.commands[command]?.bind fun entry => (entry.state.next label).map fun state =>
    { s with commands := s.commands.set command { entry with state } }

/-- The server takes a step. -/
def serve (s : State) (label : Windows.Label) : Option State :=
  (s.system.next label).map fun system => { s with system }

/-- The callback of a command is somewhere in `executeInsideRunLoop`. -/
def At (s : State) (command : ℕ) (pc : Command.CallbackPc) : Prop :=
  ∃ entry ∈ s.commands[command]?, entry.state.callback = pc

instance (s : State) (command : ℕ) (pc : Command.CallbackPc) : Decidable (s.At command pc) :=
  inferInstanceAs (Decidable (∃ entry ∈ s.commands[command]?, entry.state.callback = pc))

/-- The work of a command goes on. -/
def proceed (s : State) (command : ℕ) (entry : Entry) : Progress → Option State
  | .goesOn work => some { s with commands := s.commands.set command { entry with work } }
  | .ends outcome => s.advance command (.work outcome)

/-- The work of a running command does a part of what is left. -/
def workOn (s : State) (command : ℕ) (part : Work → Option Windows.Label × Progress) :
    Option State :=
  s.commands[command]?.bind fun entry =>
    if entry.state.callback = .working then
      match part entry.work with
      | (none, progress) => s.proceed command entry progress
      | (some label, progress) => (s.serve label).bind fun s =>
        { s with log := s.log ++ [(command, label)] }.proceed command entry progress
    else none

/-- The step function. -/
def next (s : State) : Label → Option State
  | .executeOnRunLoop work => some
      { s with commands := s.commands ++ [{ work, state := Command.machine.start }] }
  | .execute command => s.advance command .execute
  | .refuse command errorCode => s.advance command (.refuse errorCode)
  | .wake command wake => s.advance command (.wake wake)
  | .executeOnRunLoopCallback command =>
    if s.ended = false ∧ s.Alertable ∧ s.At command .queued then
      (s.advance command .executeInsideRunLoop).map fun t =>
        { t with stack := { command, base := s.system.destroying.length } :: s.stack }
    else none
  | .work answers cancelIo =>
    s.stack.head?.bind fun frame =>
      if frame.base < s.system.destroying.length then none
      else s.workOn frame.command (Work.goOn s.system.server answers cancelIo)
  | .destroyed answers cancelIo =>
    s.stack.head?.bind fun frame =>
      if frame.base < s.system.destroying.length then
        s.workOn frame.command (Work.destroyed s.system answers cancelIo)
      else none
  | .executeInsideRunLoop =>
    s.stack.head?.bind fun frame =>
      if s.At frame.command .queued then none
      else if s.At frame.command .notified then
        -- The callback returns after its last step.
        (s.advance frame.command .executeInsideRunLoop).map fun t =>
          { t with stack := s.stack.tail }
      else s.advance frame.command .executeInsideRunLoop
  | .completion path completion => s.serve (.completion path completion)
  | .lateCompletion index completion => s.serve (.lateCompletion index completion)
  | .stopWatchingMovedPaths visits => s.serve (.stopWatchingMovedPaths visits)
  | .leave =>
    if s.system.server.shouldTerminate = true ∧ s.stack = [] then some { s with ended := true }
    else none

end State

/-- A server whose run loop was just started. -/
def machine : Machine State Label where
  start :=
    { commands := []
      stack := []
      system := Windows.machine.start
      ended := false
      log := [] }
  next := State.next

/-! ## What a step does -/

/-- A step concerns one command at most, and begins a callback only on a run loop that has
not ended. -/
inductive Effect (s : State) : Label → State → Prop
  /-- No command is concerned. -/
  | server {label : Label} {t : State} (commands : t.commands = s.commands)
      (log : t.log = s.log) (ended : s.ended = true → t.ended = true) : Effect s label t
  /-- A command is new. -/
  | new {work : Work} : Effect s (.executeOnRunLoop work)
      { s with commands := s.commands ++ [{ work, state := Command.machine.start }] }
  /-- A thread takes a step in a command. -/
  | command {label : Label} {t : State} {i : ℕ} {entry : Entry} {step : Command.Label}
      {work : Work} {state : Command.State} (known : s.commands[i]? = some entry)
      (next : entry.state.next step = some state)
      (commands : t.commands = s.commands.set i { work, state }) (ended : t.ended = s.ended)
      (begins : entry.state.callback = .queued → state.callback ≠ .queued → s.ended = false)
      (wakes : ∀ wake, step = .wake wake → label = .wake i wake)
      (log : t.log = s.log ∨
        entry.state.callback = .working ∧ ∃ done, t.log = s.log ++ [(i, done)]) :
      Effect s label t
  /-- The work of a command does a part, and is not through. -/
  | part {label : Label} {t : State} {i : ℕ} {entry : Entry} {work : Work}
      (known : s.commands[i]? = some entry) (working : entry.state.callback = .working)
      (commands : t.commands = s.commands.set i { entry with work }) (ended : t.ended = s.ended)
      (log : t.log = s.log ∨ ∃ done, t.log = s.log ++ [(i, done)]) : Effect s label t

section Effect

variable {s t : State} {label : Label} {i : ℕ}

theorem advance_spec {step : Command.Label} (h : s.advance i step = some t) :
    ∃ entry state, s.commands[i]? = some entry ∧ entry.state.next step = some state ∧
      t = { s with commands := s.commands.set i { entry with state } } := by
  obtain ⟨entry, known, h⟩ := Option.bind_eq_some_iff.mp h
  obtain ⟨state, next, rfl⟩ := Option.map_eq_some_iff.mp h
  exact ⟨entry, state, known, next, rfl⟩

theorem serve_spec {step : Windows.Label} (h : s.serve step = some t) :
    ∃ system, s.system.next step = some system ∧ t = { s with system } := by
  obtain ⟨system, next, rfl⟩ := Option.map_eq_some_iff.mp h
  exact ⟨system, next, rfl⟩

/-- After a part of its work a command is where it was, or its work is through. -/
theorem proceed_spec {entry : Entry} {progress : Progress}
    (known : s.commands[i]? = some entry) (h : s.proceed i entry progress = some t) :
    ∃ work state, t = { s with commands := s.commands.set i { work, state } } ∧
      (state = entry.state ∨ ∃ outcome, entry.state.next (.work outcome) = some state) := by
  cases progress with
  | goesOn work =>
    obtain rfl := Option.some_inj.mp h
    exact ⟨work, entry.state, rfl, .inl rfl⟩
  | ends outcome =>
    obtain ⟨entry', state, known', next, rfl⟩ := advance_spec h
    obtain rfl := Option.some_inj.mp (known.symm.trans known')
    exact ⟨entry.work, state, rfl, .inr ⟨outcome, next⟩⟩

/-- Only a command whose callback is working does a part of its work. -/
theorem workOn_spec {part : Work → Option Windows.Label × Progress}
    (h : s.workOn i part = some t) :
    ∃ entry work state, s.commands[i]? = some entry ∧ entry.state.callback = .working ∧
      t.commands = s.commands.set i { work, state } ∧
      (state = entry.state ∨ ∃ outcome, entry.state.next (.work outcome) = some state) ∧
      t.ended = s.ended ∧ (t.log = s.log ∨ ∃ done, t.log = s.log ++ [(i, done)]) ∧
      (t.system = s.system ∨ ∃ step, s.system.next step = some t.system) := by
  obtain ⟨entry, known, h⟩ := Option.bind_eq_some_iff.mp h
  split_ifs at h with working
  split at h
  next progress _ =>
    obtain ⟨work, state, rfl, proceeds⟩ := proceed_spec known h
    exact ⟨entry, work, state, known, working, rfl, proceeds, rfl, .inl rfl, .inl rfl⟩
  next done progress _ =>
    obtain ⟨served, serves, h⟩ := Option.bind_eq_some_iff.mp h
    obtain ⟨system, next, rfl⟩ := serve_spec serves
    obtain ⟨work, state, rfl, proceeds⟩ := proceed_spec
      (s := { s with system, log := s.log ++ [(i, done)] }) known h
    exact ⟨entry, work, state, known, working, rfl, proceeds, rfl, .inr ⟨done, rfl⟩,
      .inr ⟨done, next⟩⟩

theorem effect_of_workOn {part : Work → Option Windows.Label × Progress}
    (h : s.workOn i part = some t) : Effect s label t := by
  obtain ⟨entry, work, state, known, working, commands, proceeds, ended, log, -⟩ :=
    workOn_spec h
  obtain rfl | ⟨outcome, next⟩ := proceeds
  · exact .part known working commands ended log
  · refine .command known next commands ended (fun queued => ?_) (fun _ none => by cases none)
      (log.imp id fun done => ⟨working, done⟩)
    rw [working] at queued
    cases queued

/-- A step of a caller does not begin the callback. -/
theorem callback_of_caller {c c' : Command.State} {step : Command.Label}
    (caller : step = .execute ∨ (∃ errorCode, step = .refuse errorCode) ∨
      ∃ wake, step = .wake wake) (next : c.next step = some c')
    (queued : c.callback = .queued) : c'.callback = .queued := by
  cases Command.steps_of_next next with
  | lock | wait | answer | refuse | wake => exact queued
  | schedule => rfl
  | begin | store | lockRunLoop | notify | unlock => simp at caller

/-- Every step has one of these effects. -/
theorem effect_of_next (step : machine.next s label = some t) : Effect s label t := by
  cases label with
  | executeOnRunLoop work => exact Option.some_inj.mp step ▸ .new
  | execute command =>
    -- The caller's steps leave the callback where it is.
    obtain ⟨entry, state, known, next, rfl⟩ := advance_spec step
    exact .command known next rfl rfl
      (fun queued begun => absurd (callback_of_caller (.inl rfl) next queued) begun)
      (fun _ none => by cases none) (.inl rfl)
  | refuse command errorCode =>
    obtain ⟨entry, state, known, next, rfl⟩ := advance_spec step
    exact .command known next rfl rfl
      (fun queued begun => absurd (callback_of_caller (.inr (.inl ⟨_, rfl⟩)) next queued) begun)
      (fun _ none => by cases none) (.inl rfl)
  | wake command wake =>
    obtain ⟨entry, state, known, next, rfl⟩ := advance_spec step
    refine .command known next rfl rfl
      (fun queued begun => absurd (callback_of_caller (.inr (.inr ⟨_, rfl⟩)) next queued) begun)
      (fun wake' same => ?_) (.inl rfl)
    rw [Command.Label.wake.inj same]
  | executeOnRunLoopCallback command =>
    simp only [machine, State.next] at step
    split_ifs at step with enabled
    obtain ⟨u, advances, rfl⟩ := Option.map_eq_some_iff.mp step
    obtain ⟨entry, state, known, next, rfl⟩ := advance_spec advances
    exact .command known next rfl rfl (fun _ _ => enabled.1) (fun _ none => by cases none)
      (.inl rfl)
  | work answers cancelIo =>
    -- What a frame on the run-loop thread does, for its command or for a destructor.
    obtain ⟨frame, -, step⟩ := Option.bind_eq_some_iff.mp step
    split_ifs at step
    exact effect_of_workOn step
  | destroyed answers cancelIo =>
    obtain ⟨frame, -, step⟩ := Option.bind_eq_some_iff.mp step
    split_ifs at step
    exact effect_of_workOn step
  | executeInsideRunLoop =>
    obtain ⟨frame, -, step⟩ := Option.bind_eq_some_iff.mp step
    split_ifs at step with queued notified
    · obtain ⟨u, advances, rfl⟩ := Option.map_eq_some_iff.mp step
      obtain ⟨entry, state, known, next, rfl⟩ := advance_spec advances
      exact .command known next rfl rfl (fun pc => absurd ⟨entry, known, pc⟩ queued)
        (fun _ none => by cases none) (.inl rfl)
    · obtain ⟨entry, state, known, next, rfl⟩ := advance_spec step
      exact .command known next rfl rfl (fun pc => absurd ⟨entry, known, pc⟩ queued)
        (fun _ none => by cases none) (.inl rfl)
  | completion | lateCompletion | stopWatchingMovedPaths =>
    -- No command is concerned.
    obtain ⟨system, -, rfl⟩ := serve_spec step
    exact .server rfl rfl id
  | leave =>
    simp only [machine, State.next] at step
    split_ifs at step
    obtain rfl := Option.some_inj.mp step
    exact .server rfl rfl fun _ => rfl

/-- What all commands meet at first and each keeps when it takes a step, they all meet after
every step. -/
theorem Effect.forall_commands {P Q : Command.State → Prop} (effect : Effect s label t)
    (all : ∀ (i : ℕ) (entry : Entry), s.commands[i]? = some entry → P entry.state)
    (weaker : ∀ c, P c → Q c) (new : Q Command.machine.start)
    (keeps : ∀ (i : ℕ) (entry : Entry) step state, s.commands[i]? = some entry →
      entry.state.next step = some state →
      (entry.state.callback = .queued → state.callback ≠ .queued → s.ended = false) →
      (∀ wake, step = .wake wake → label = .wake i wake) → Q state) :
    ∀ (i : ℕ) (entry : Entry), t.commands[i]? = some entry → Q entry.state := by
  intro j found known
  cases effect with
  | server commands =>
    rw [commands] at known
    exact weaker _ (all j found known)
  | new =>
    dsimp only at known
    rw [List.getElem?_append] at known
    split_ifs at known with older
    · exact weaker _ (all j found known)
    · obtain rfl := List.mem_singleton.mp (List.mem_of_getElem? known)
      exact new
  | @command _ _ i entry step work state known' next commands _ begins wakes =>
    rw [commands, List.getElem?_set] at known
    split_ifs at known with same inside
    · obtain rfl := Option.some_inj.mp known
      exact keeps i entry step state known' next begins wakes
    · exact weaker _ (all j found known)
  | @part _ _ i entry work known' _ commands =>
    rw [commands, List.getElem?_set] at known
    split_ifs at known with same inside
    · obtain rfl := Option.some_inj.mp known
      exact weaker _ (all i entry known')
    · exact weaker _ (all j found known)

/-- No step makes a server whose run loop has ended one whose run loop has not. -/
theorem Effect.ended (effect : Effect s label t) (ended : s.ended = true) : t.ended = true := by
  cases effect with
  | server _ _ stays => exact stays ended
  | new => exact ended
  | command _ _ _ same => exact same.trans ended
  | part _ _ _ same => exact same.trans ended

end Effect

/-! ## The commands and the server in it -/

section Projection

variable {s t : State} {label : Label}

/-- Every command runs by itself as if there were no others. -/
theorem reachable_command (reach : machine.Reachable s) (i : ℕ) (entry : Entry)
    (known : s.commands[i]? = some entry) : Command.machine.Reachable entry.state := by
  refine reach.invariant (I := fun s => ∀ i entry, s.commands[i]? = some entry →
    Command.machine.Reachable entry.state) ?_ ?_ i entry known
  · intro i entry known
    simp [machine] at known
  · intro s label t all step
    refine (effect_of_next step).forall_commands all (fun _ reach => reach) .start ?_
    exact fun i entry step state known next _ _ => (all i entry known).snoc next

theorem system_next (step : machine.next s label = some t) :
    t.system = s.system ∨ ∃ inner, s.system.next inner = some t.system := by
  cases label with
  | executeOnRunLoop work =>
    obtain rfl := Option.some_inj.mp step
    exact .inl rfl
  | execute | refuse | wake =>
    obtain ⟨_, _, -, -, rfl⟩ := advance_spec step
    exact .inl rfl
  | executeOnRunLoopCallback command =>
    simp only [machine, State.next] at step
    split_ifs at step
    obtain ⟨u, advances, rfl⟩ := Option.map_eq_some_iff.mp step
    obtain ⟨_, _, -, -, rfl⟩ := advance_spec advances
    exact .inl rfl
  | work | destroyed =>
    obtain ⟨frame, -, step⟩ := Option.bind_eq_some_iff.mp step
    split_ifs at step
    obtain ⟨_, _, _, -, -, -, -, -, -, served⟩ := workOn_spec step
    exact served
  | executeInsideRunLoop =>
    obtain ⟨frame, -, step⟩ := Option.bind_eq_some_iff.mp step
    split_ifs at step
    · obtain ⟨u, advances, rfl⟩ := Option.map_eq_some_iff.mp step
      obtain ⟨_, _, -, -, rfl⟩ := advance_spec advances
      exact .inl rfl
    · obtain ⟨_, _, -, -, rfl⟩ := advance_spec step
      exact .inl rfl
  | completion | lateCompletion | stopWatchingMovedPaths =>
    obtain ⟨system, next, rfl⟩ := serve_spec step
    exact .inr ⟨_, next⟩
  | leave =>
    simp only [machine, State.next] at step
    split_ifs at step
    obtain rfl := Option.some_inj.mp step
    exact .inl rfl

/-- Whatever the commands do, the server is at work as in `Windows.machine`. -/
theorem reachable_system (reach : machine.Reachable s) :
    Windows.machine.Reachable s.system := by
  refine reach.map State.system rfl fun s label t _ step => ?_
  rcases system_next step with same | ⟨inner, step'⟩
  · exact .inl same
  · exact .inr ⟨inner, trivial, step'⟩

end Projection

/-! ## Commands that end in time -/

/-- The callback is in `executeInsideRunLoop` and uses the command. -/
def InProgress (pc : Command.CallbackPc) : Prop :=
  pc = .working ∨ pc = .stored ∨ pc = .locked ∨ pc = .notified

/-- The callback has begun. -/
def Begun (pc : Command.CallbackPc) : Prop := pc ≠ .unscheduled ∧ pc ≠ .queued

/-- The wait of a command ends because the command is notified, or it ends for another
reason when the run loop has ended without having begun its callback. -/
def Orderly (s : State) : Label → Prop
  | .wake command wake => wake = .notified ∨ (s.ended = true ∧ s.At command .queued)
  | _ => True

instance (s : State) : DecidablePred (Orderly s) := fun label =>
  match label with
  | .wake command wake => inferInstanceAs (Decidable
      (wake = .notified ∨ (s.ended = true ∧ s.At command .queued)))
  | .executeOnRunLoop .. | .execute .. | .refuse .. | .executeOnRunLoopCallback .. | .work ..
  | .destroyed .. | .executeInsideRunLoop | .completion .. | .lateCompletion ..
  | .stopWatchingMovedPaths .. | .leave => instDecidableTrue

/-- When the wait of a command is over, its callback is through or will not begin any more;
when its time was up, the callback will not begin any more. -/
structure Kept (ended : Prop) (c : Command.State) : Prop where
  left : (∃ wake, c.caller = .resumed wake) ∨ (∃ outcome, c.caller = .ended outcome) →
    c.callback = .finished ∨ c.callback = .unscheduled ∨ (c.callback = .queued ∧ ended)
  timedOut : c.caller = .resumed .timeout ∨ c.caller = .ended .timedOut →
    c.callback = .queued ∧ ended

section Kept

variable {ended ended' : Prop} {c c' : Command.State} {step : Command.Label}

theorem Kept.mono (kept : Kept ended c) (later : ended → ended') : Kept ended' c where
  left waited := (kept.left waited).imp id (.imp id (.imp id later))
  timedOut waited := (kept.timedOut waited).imp id later

/-- A step of one of the threads of a command whose wait ends in time. -/
theorem Kept.next (reach : Command.machine.Reachable c) (kept : Kept ended c)
    (begins : c.callback = .queued → c'.callback ≠ .queued → ¬ ended)
    (wakes : ∀ wake, step = .wake wake → wake = .notified ∨ (ended ∧ c.callback = .queued))
    (next : c.next step = some c') : Kept ended c' := by
  have lock := Command.lockInvariant reach
  cases Command.steps_of_next next with
  | lock | schedule | wait => exact ⟨by simp, by simp⟩
  | @answer wake pc =>
    refine ⟨fun _ => kept.left (.inl ⟨wake, pc⟩), fun waited => kept.timedOut (.inl ?_)⟩
    -- `execute` throws "Execution timed out" only if the time was up.
    obtain answer : c.answer wake = .timedOut := by simpa using waited
    rw [pc]
    cases wake with
    | timeout => rfl
    | notified | spurious =>
      simp only [Command.State.answer] at answer
      split at answer <;> cases answer
  | refuse pc => exact ⟨fun _ => .inr (.inl (lock.unscheduled (.inr pc))), by simp⟩
  | @wake executionMutex wake pc resumed =>
    obtain ⟨free, -, -, notified⟩ := Monitor.resume_spec resumed
    rcases wakes wake rfl with rfl | ⟨gone, queued⟩
    · -- The run loop has notified the caller and released the mutex.
      have woken := (Command.waitInvariant reach).woken (notified rfl)
      have released : ¬ c.callback.HoldsMutex := by
        rw [lock.runLoop_holds, free]
        simp
      have finished := woken.resolve_left fun pc => released (.inr pc)
      exact ⟨fun _ => .inl finished, by simp⟩
    · exact ⟨fun _ => .inr (.inr ⟨queued, gone⟩), fun _ => ⟨queued, gone⟩⟩
  | begin pc =>
    have running : ¬ ended := begins pc (by simp)
    refine ⟨fun waited => ?_, fun waited => absurd (kept.timedOut waited).2 running⟩
    have := kept.left waited
    simp [pc, running] at this
  | @store outcome pc =>
    have same : (c.store outcome).caller = c.caller := by cases outcome <;> rfl
    refine ⟨fun waited => ?_, fun waited => ?_⟩
    · have := kept.left (same ▸ waited)
      simp [pc] at this
    · have := kept.timedOut (same ▸ waited)
      simp [pc] at this
  | lockRunLoop pc | notify pc =>
    refine ⟨fun waited => ?_, fun waited => ?_⟩
    · have := kept.left waited
      simp [pc] at this
    · have := kept.timedOut waited
      simp [pc] at this
  | unlock pc =>
    refine ⟨fun _ => .inl rfl, fun waited => ?_⟩
    have := kept.timedOut waited
    simp [pc] at this

end Kept

/-- A callback that has begun does not begin again. -/
theorem begun_next {c c' : Command.State} {step : Command.Label}
    (reach : Command.machine.Reachable c) (begun : Begun c.callback)
    (next : c.next step = some c') : Begun c'.callback := by
  cases Command.steps_of_next next with
  | lock | wait | answer | refuse | wake => exact begun
  | schedule pc => exact absurd ((Command.lockInvariant reach).unscheduled (.inr pc)) begun.1
  | @store outcome => cases outcome <;> exact ⟨by simp [Command.State.store],
      by simp [Command.State.store]⟩
  | begin | lockRunLoop | notify | unlock => exact ⟨by simp, by simp⟩

section Orderly

variable {s t : State} {label : Label}

/-- Parts of a work are done only after its callback has begun. -/
def Logged (s : State) : Prop :=
  ∀ i done, (i, done) ∈ s.log →
    ∃ entry, s.commands[i]? = some entry ∧ Begun entry.state.callback

theorem Logged.next (reach : machine.Reachable s) (logged : Logged s)
    (step : machine.next s label = some t) : Logged t := by
  intro i done mem
  cases effect_of_next step with
  | server commands log =>
    rw [commands]
    exact logged i done (log ▸ mem)
  | new =>
    -- The commands that there were keep their numbers.
    obtain ⟨entry, known, begun⟩ := logged i done mem
    exact ⟨entry, List.getElem?_append_left (List.getElem?_eq_some_iff.mp known).1 ▸ known, begun⟩
  | @command _ _ j entry step work state known next commands _ _ _ log =>
    have reached := reachable_command reach j entry known
    have inside := (List.getElem?_eq_some_iff.mp known).1
    rw [commands]
    rcases eq_or_ne i j with rfl | other
    · -- What was begun stays begun; what is logged for the first time is at work.
      refine ⟨_, List.getElem?_set_self inside, begun_next reached ?_ next⟩
      rcases log with log | ⟨working, _⟩
      · obtain ⟨entry', known', begun⟩ := logged i done (log ▸ mem)
        exact Option.some_inj.mp (known.symm.trans known') ▸ begun
      · exact ⟨by simp [working], by simp [working]⟩
    · rw [List.getElem?_set_ne other.symm]
      apply logged i done
      rcases log with log | ⟨-, done', log⟩
      · exact log ▸ mem
      · rw [log, List.mem_append, List.mem_singleton] at mem
        exact mem.resolve_right fun same => other (Prod.mk.inj same).1
  | @part _ _ j entry work known working commands _ log =>
    have inside := (List.getElem?_eq_some_iff.mp known).1
    rw [commands]
    rcases eq_or_ne i j with rfl | other
    · -- A part of the work is done for the command that is at work.
      exact ⟨_, List.getElem?_set_self inside, by simp [working], by simp [working]⟩
    · rw [List.getElem?_set_ne other.symm]
      apply logged i done
      rcases log with log | ⟨done', log⟩
      · exact log ▸ mem
      · rw [log, List.mem_append, List.mem_singleton] at mem
        exact mem.resolve_right fun same => other (Prod.mk.inj same).1

theorem logged (reach : machine.Reachable s) : Logged s :=
  reach.invariant_of (J := machine.Reachable) (fun _ reach => reach.reachable)
    (by intro i done mem; cases mem) fun _ _ _ reach logged _ step => logged.next reach step

/-- Where every wait ends in time, all commands are left in time. -/
theorem kept_of_orderly (reach : machine.ReachableWhere Orderly s) :
    ∀ (i : ℕ) (entry : Entry), s.commands[i]? = some entry →
      Kept (s.ended = true) entry.state := by
  refine reach.invariant_of (J := machine.Reachable)
    (I := fun s => ∀ (i : ℕ) (entry : Entry), s.commands[i]? = some entry →
      Kept (s.ended = true) entry.state)
    (fun _ reach => reach.reachable) ?_ ?_
  · intro i entry known
    simp [machine] at known
  · intro s label t reach kept orderly step
    have effect := effect_of_next step
    refine effect.forall_commands kept (fun c kept => kept.mono effect.ended)
      ⟨by simp [Command.machine], by simp [Command.machine]⟩ ?_
    intro i entry step state known next begins wakes
    refine Kept.mono (Kept.next (reachable_command reach i entry known) (kept i entry known)
      (fun queued begun => by simp [begins queued begun]) (fun wake same => ?_) next) effect.ended
    obtain rfl := wakes wake same
    rcases orderly with awaited | ⟨gone, entry', known', queued⟩
    · exact .inl awaited
    · exact .inr ⟨gone, Option.some_inj.mp (known.symm.trans known') ▸ queued⟩

/-- As long as the wait of every command ends because it is notified, or after the run loop
has ended without having begun its callback, a callback uses a command only while `execute`
has not ended, and of a command that timed out nothing was done. -/
theorem unused_of_orderly (s : State) (reach : machine.ReachableWhere Orderly s) (i : ℕ)
    (entry : Entry) (known : s.commands[i]? = some entry) :
    (InProgress entry.state.callback → ∀ outcome, entry.state.caller ≠ .ended outcome) ∧
      (entry.state.caller = .ended .timedOut →
        entry.state.runs = [] ∧ ∀ done, (i, done) ∉ s.log) := by
  have kept := kept_of_orderly reach i entry known
  refine ⟨fun busy outcome waited => ?_, fun waited => ⟨?_, fun done mem => ?_⟩⟩
  · have := kept.left (.inr ⟨outcome, waited⟩)
    rcases busy with pc | pc | pc | pc <;> simp [pc] at this
  · have recorded := Command.recorded (reachable_command reach.reachable i entry known)
    have unstored : ¬ entry.state.callback.Stored := by
      simp [(kept.timedOut (.inr waited)).1, Command.CallbackPc.Stored,
        Command.CallbackPc.Notified]
    rw [recorded.stored_iff] at unstored
    rw [recorded.runs]
    simpa using unstored
  · obtain ⟨entry', known', begun⟩ := logged reach.reachable i done mem
    obtain rfl := Option.some_inj.mp (known.symm.trans known')
    exact begun.2 (kept.timedOut (.inr waited)).1

/-- Answers that no part of these runs asks for. -/
def unusedAnswers : ConstructAnswers where
  createFile := .error ERROR_ACCESS_DENIED
  finalPath := .ok none
  finalPathError := ERROR_SUCCESS
  bufferSize := 0x10000
  allocates := true
  listen := { readDirectoryChanges := .ok (), attrib := FILE_ATTRIBUTE_DIRECTORY }

/-- The server is shut down, and a command that is scheduled afterwards times out. -/
def orderlyRun : List Label :=
  [.executeOnRunLoop .shutdownRunLoop, .execute 0, .execute 0, .execute 0,
    .executeOnRunLoopCallback 0, .work unusedAnswers (.ok ()), .executeInsideRunLoop,
    .executeInsideRunLoop, .executeInsideRunLoop, .wake 0 .notified, .execute 0, .leave,
    .executeOnRunLoop (.unregisterPaths [u16 "C:\\a"] true), .execute 1, .execute 1, .execute 1,
    .wake 1 .timeout, .execute 1]

theorem unused_of_orderly_timedOut :
    ∃ s entry, machine.ReachableWhere Orderly s ∧ s.commands[1]? = some entry ∧
      entry.state.caller = .ended .timedOut ∧ entry.state.runs = [] ∧
        ∀ done, (1, done) ∉ s.log := by
  have computed : (machine.execWhere Orderly machine.start orderlyRun).map
      (fun s => s.commands[1]?.map fun entry => entry.state.caller) =
        some (some (.ended .timedOut)) := by decide
  obtain ⟨s, reach, last⟩ := Machine.observe_of_execWhere computed
  obtain ⟨entry, known, waited⟩ := Option.map_eq_some_iff.mp last
  exact ⟨s, entry, reach, known, waited, (unused_of_orderly s reach 1 entry known).2 waited⟩

/-- The shutdown command times out before the run loop comes to it, and is carried out
afterwards. -/
def timedOutRun : List Label :=
  [.executeOnRunLoop .shutdownRunLoop, .execute 0, .execute 0, .execute 0, .wake 0 .timeout,
    .execute 0, .executeOnRunLoopCallback 0, .work unusedAnswers (.ok ())]

/-- A callback may run for a command whose `execute` has thrown, and do its work. -/
theorem not_forall_unused :
    ¬ ∀ s, machine.Reachable s → ∀ (i : ℕ) (entry : Entry), s.commands[i]? = some entry →
      (InProgress entry.state.callback → ∀ outcome, entry.state.caller ≠ .ended outcome) ∧
        (entry.state.caller = .ended .timedOut →
          entry.state.runs = [] ∧ ∀ done, (i, done) ∉ s.log) := by
  intro always
  have computed : (machine.exec machine.start timedOutRun).map (fun s => s.commands[0]?.map
      fun entry => (entry.state.callback, entry.state.caller)) =
        some (some (.stored, .ended .timedOut)) := by decide
  obtain ⟨s, reach, last⟩ := Machine.observe_of_exec computed
  obtain ⟨entry, known, same⟩ := Option.map_eq_some_iff.mp last
  obtain ⟨pc, waited⟩ := Prod.mk.inj same
  exact (always s reach 0 entry known).1 (.inr (.inl pc)) _ waited

/-- When a wait ends otherwise, `execute` ends with the next step of its thread, and then its
callback is running, or is through although the command timed out, or is still queued on a
run loop that has not ended. -/
theorem used_of_not_orderly (reach : machine.Reachable s) (unorderly : ¬ Orderly s label)
    (step : machine.next s label = some t) :
    ∃ i u entry outcome, machine.next t (.execute i) = some u ∧ u.commands[i]? = some entry ∧
      entry.state.caller = .ended outcome ∧
        (InProgress entry.state.callback ∨
          (outcome = .timedOut ∧ entry.state.callback = .finished) ∨
          (entry.state.callback = .queued ∧ u.ended = false)) := by
  obtain ⟨i, wake, rfl⟩ : ∃ i wake, label = .wake i wake := by
    cases label with
    | wake i wake => exact ⟨i, wake, rfl⟩
    | _ => exact absurd trivial unorderly
  obtain ⟨reason, unended⟩ := not_or.mp unorderly
  obtain ⟨entry, state, known, next, rfl⟩ := advance_spec step
  have reached := reachable_command reach i entry known
  have inside := (List.getElem?_eq_some_iff.mp known).1
  have queued_or : entry.state.callback = .queued → s.ended = false := fun queued => by
    by_contra gone
    exact unended ⟨by simpa using gone, entry, known, queued⟩
  cases Command.steps_of_next next with
  | @wake executionMutex wake pc resumed =>
    let c : Command.State := { entry.state with executionMutex, caller := .resumed wake }
    let c' : Command.State :=
      { c with executionMutex := c.executionMutex.release, caller := .ended (c.answer wake) }
    let commands := (s.commands.set i { entry with state := c }).set i { entry with state := c' }
    refine ⟨i, { s with commands }, { entry with state := c' }, c.answer wake, ?_, ?_, rfl, ?_⟩
    · simp [machine, State.next, State.advance, inside, commands, c, c', Command.State.next,
        Command.State.execute]
    · simp [inside, commands]
    · change InProgress entry.state.callback ∨ _
      cases callback : entry.state.callback with
      | unscheduled =>
        -- The caller waits, so it has scheduled the callback.
        have := Command.scheduled reached callback
        simp [pc] at this
      | queued => exact .inr (.inr ⟨rfl, queued_or callback⟩)
      | working => exact .inl (.inl rfl)
      | stored => exact .inl (.inr (.inl rfl))
      | locked => exact .inl (.inr (.inr (.inl rfl)))
      | notified => exact .inl (.inr (.inr (.inr rfl)))
      | finished =>
        refine .inr (.inl ⟨?_, rfl⟩)
        cases wake with
        | timeout => rfl
        | notified => exact absurd rfl reason
        | spurious =>
          -- After the notification nobody is left who could wake up for no reason.
          have unblocked := ((Command.waitInvariant reached).waited (.inr callback)).2
          exact absurd (Monitor.mem_waiting_of_spurious resumed) unblocked

end Orderly

end CommandQueue

end Windows

end FileEvents
