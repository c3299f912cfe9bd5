import Mathlib.Data.List.Basic

/-!
# Programs that make calls and throw exceptions

A program makes calls, one after the other, and goes on with what each of them answers. It
ends by returning a value or by throwing an exception, it is aborted where an exception
would leave a function that must not throw, or it has not come to its end because one of
its loops is still running.

A run of a program is the list of its calls with their answers and the outcome.

## Main definitions

* `Outcome`, `Program` — programs and how they end
* `Program.tryCatch`, `Program.noexcept`, `Program.onThrow` — what becomes of an exception
* `Program.Run` — the runs, for any answers
* `Program.exec` — the run against an environment that gives the answers
* `Program.Meets` — a condition on all runs

## Main results

* `run_andThen_iff` — the runs of a composition
* `run_exec` — every environment has a run
* `Meets.call`, `Meets.andThen`, `Meets.stop` — the rules for conditions on runs
-/

namespace Calls

/-- How a program ends. -/
inductive Outcome (ε α : Type)
  | returned (value : α)
  | threw (exception : ε)
  /-- An exception would have left a function that must not throw. -/
  | aborted
  /-- A loop is still running. -/
  | running
  deriving DecidableEq, Repr

/-- A program whose call `c` is answered by an element of `A c`. -/
inductive Program {C : Type} (A : C → Type) (ε α : Type)
  | done (outcome : Outcome ε α)
  | call (c : C) (next : A c → Program A ε α)

namespace Program

variable {C : Type} {A : C → Type} {ε α β : Type}

/-- Goes on with the outcome of a program, whatever it is. -/
def andThen : Program A ε α → (Outcome ε α → Program A ε β) → Program A ε β
  | done outcome, next => next outcome
  | call c answer, next => call c fun a => (answer a).andThen next

/-- Goes on with the value of a program. -/
def bind (p : Program A ε α) (next : α → Program A ε β) : Program A ε β :=
  p.andThen fun
    | .returned value => next value
    | .threw exception => done (.threw exception)
    | .aborted => done .aborted
    | .running => done .running

instance : Monad (Program A ε) where
  pure value := done (.returned value)
  bind := bind

/-- One call. -/
def ask (c : C) : Program A ε (A c) := call c fun a => done (.returned a)

/-- Throws an exception. -/
def raise (exception : ε) : Program A ε α := done (.threw exception)

/-- Catches every exception. -/
def tryCatch (p : Program A ε α) (handler : ε → Program A ε α) : Program A ε α :=
  p.andThen fun
    | .threw exception => handler exception
    | outcome => done outcome

/-- A function that must not throw. -/
def noexcept (p : Program A ε α) : Program A ε α :=
  p.andThen fun
    | .threw _ => done .aborted
    | outcome => done outcome

/-- Cleans up when an exception passes. -/
def onThrow (p : Program A ε α) (cleanup : Program A ε Unit) : Program A ε α :=
  p.tryCatch fun exception => cleanup.bind fun _ => raise exception

/-- `Run p trace outcome`: with the answers in `trace`, the program makes the calls in
`trace` and ends with `outcome`. -/
inductive Run : Program A ε α → List (Sigma A) → Outcome ε α → Prop
  | done (outcome : Outcome ε α) : Run (done outcome) [] outcome
  | call {c : C} {a : A c} {next : A c → Program A ε α} {trace : List (Sigma A)}
      {outcome : Outcome ε α} (rest : Run (next a) trace outcome) :
      Run (call c next) (⟨c, a⟩ :: trace) outcome

/-- The calls and the outcome of a program in an environment whose answer to a call may
depend on the calls before. -/
def exec (environment : List (Sigma A) → (c : C) → A c) :
    Program A ε α → List (Sigma A) → List (Sigma A) × Outcome ε α
  | done outcome, _ => ([], outcome)
  | call c next, earlier =>
    let step : Sigma A := ⟨c, environment earlier c⟩
    let rest := (next step.2).exec environment (earlier ++ [step])
    (step :: rest.1, rest.2)

/-- All runs of the program meet a condition. -/
def Meets (p : Program A ε α) (P : List (Sigma A) → Outcome ε α → Prop) : Prop :=
  ∀ trace outcome, Run p trace outcome → P trace outcome

variable {p : Program A ε α} {trace : List (Sigma A)}

/-- What an environment leads to is a run. -/
theorem run_exec (environment : List (Sigma A) → (c : C) → A c) (p : Program A ε α)
    (earlier : List (Sigma A)) :
    Run p (p.exec environment earlier).1 (p.exec environment earlier).2 := by
  induction p generalizing earlier with
  | done outcome => exact .done outcome
  | call c next ih => exact .call (ih _ _)

theorem run_done_iff {outcome outcome' : Outcome ε α} :
    Run (A := A) (done outcome) trace outcome' ↔ trace = [] ∧ outcome' = outcome := by
  constructor
  · rintro ⟨⟩
    exact ⟨rfl, rfl⟩
  · rintro ⟨rfl, rfl⟩
    exact .done _

/-- The runs of a composition are the runs of the first program followed by runs of the
second. -/
theorem run_andThen_iff {next : Outcome ε α → Program A ε β} {outcome : Outcome ε β} :
    Run (p.andThen next) trace outcome ↔ ∃ first middle rest, trace = first ++ rest ∧
      Run p first middle ∧ Run (next middle) rest outcome := by
  constructor
  · intro run
    induction p generalizing trace with
    | done middle => exact ⟨[], middle, trace, rfl, .done middle, run⟩
    | call c answer ih =>
      obtain _ | run := run
      obtain ⟨first, middle, rest, rfl, start, finish⟩ := ih _ run
      exact ⟨_ :: first, middle, rest, rfl, .call start, finish⟩
  · rintro ⟨first, middle, rest, rfl, start, finish⟩
    induction start with
    | done => exact finish
    | call _ ih => exact .call (ih finish)

namespace Meets

variable {P Q : List (Sigma A) → Outcome ε α → Prop}

theorem mono (meets : p.Meets P) (weaker : ∀ trace outcome, P trace outcome → Q trace outcome) :
    p.Meets Q := fun trace outcome run => weaker _ _ (meets trace outcome run)

theorem done {outcome : Outcome ε α} (h : P [] outcome) :
    (Program.done (A := A) outcome).Meets P := by
  intro trace outcome' run
  obtain ⟨rfl, rfl⟩ := run_done_iff.mp run
  exact h

/-- The rule for the end of a composition: what was reached stays. -/
theorem stop {before : List (Sigma A)} {outcome : Outcome ε α} (h : P before outcome) :
    (Program.done (A := A) outcome).Meets fun after outcome => P (before ++ after) outcome :=
  done ((List.append_nil before).symm ▸ h)

theorem ask {c : C} {R : List (Sigma A) → Outcome ε (A c) → Prop}
    (h : ∀ a, R [⟨c, a⟩] (.returned a)) : (Program.ask c).Meets R := by
  rintro _ _ (_ | ⟨⟨⟩⟩)
  exact h _

/-- The rule for a call: whatever the answer, what follows takes it up. -/
theorem call {c : C} {next : A c → Program A ε α}
    (h : ∀ a, (next a).Meets fun trace outcome => P (⟨c, a⟩ :: trace) outcome) :
    (Program.call c next).Meets P := by
  rintro _ _ (_ | rest)
  exact h _ _ _ rest

/-- The rule for compositions: what the first program leaves the second takes up. -/
theorem andThen {next : Outcome ε α → Program A ε β}
    {R : List (Sigma A) → Outcome ε β → Prop} (first : p.Meets P)
    (rest : ∀ before middle, P before middle →
      (next middle).Meets fun after outcome => R (before ++ after) outcome) :
    (p.andThen next).Meets R := by
  intro trace outcome run
  obtain ⟨before, middle, after, rfl, start, finish⟩ := run_andThen_iff.mp run
  exact rest before middle (first before middle start) after outcome finish

end Meets

end Program

end Calls
