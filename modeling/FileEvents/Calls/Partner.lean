import FileEvents.Calls.Program

/-!
# Programs against a partner that keeps a state

The calls of a program are answered by a partner. What it may answer depends on its state, and
so does the state it is in afterwards. The weakest precondition of a condition on the outcome
and on the last state of the partner is told by rules that follow the program.

## Main definitions

* `Partner` — how calls may be answered
* `Partner.Follows` — calls that are answered so
* `Program.Ensures` — a condition on all runs against the partner
* `Program.each` — a loop over a list

## Main results

* `ensures_call`, `ensures_bind`, `ensures_tryCatch` — the rules
* `Ensures.each` — the rule for a loop over a list
* `ensures_invariant` — what the partner keeps a program keeps
-/

namespace Calls

variable {C S : Type} {A : C → Type} {ε α β : Type}

/-- How a partner may answer a call in a state, and its state afterwards. -/
abbrev Partner (A : C → Type) (S : Type) := S → (c : C) → A c → S → Prop

/-- The calls are answered as the partner may answer them, one after the other. -/
inductive Partner.Follows (partner : Partner A S) : S → List (Sigma A) → S → Prop
  | nil (s : S) : Follows partner s [] s
  | cons {s t u : S} {c : C} {a : A c} {trace : List (Sigma A)} (answers : partner s c a t)
      (rest : Follows partner t trace u) : Follows partner s (⟨c, a⟩ :: trace) u

theorem Partner.follows_append_iff {partner : Partner A S} {s u : S}
    {first rest : List (Sigma A)} :
    partner.Follows s (first ++ rest) u ↔
      ∃ t, partner.Follows s first t ∧ partner.Follows t rest u := by
  induction first generalizing s with
  | nil =>
    constructor
    · exact fun follows => ⟨s, .nil s, follows⟩
    · rintro ⟨t, ⟨⟩, follows⟩
      exact follows
  | cons step first ih =>
    constructor
    · rintro (_ | ⟨answers, follows⟩)
      obtain ⟨t, start, finish⟩ := ih.mp follows
      exact ⟨t, .cons answers start, finish⟩
    · rintro ⟨t, _ | ⟨answers, start⟩, finish⟩
      exact .cons answers (ih.mpr ⟨t, start, finish⟩)

namespace Program

variable {partner : Partner A S} {s : S} {p : Program A ε α} {Q R : Outcome ε α → S → Prop}

/-- All runs of the program against the partner meet a condition. -/
def Ensures (p : Program A ε α) (partner : Partner A S) (s : S) (Q : Outcome ε α → S → Prop) :
    Prop :=
  ∀ trace outcome t, Run p trace outcome → partner.Follows s trace t → Q outcome t

theorem Ensures.mono (ensures : p.Ensures partner s Q)
    (weaker : ∀ outcome t, Q outcome t → R outcome t) : p.Ensures partner s R :=
  fun trace outcome t run follows => weaker _ _ (ensures trace outcome t run follows)

@[simp] theorem ensures_done {outcome : Outcome ε α} :
    (done outcome : Program A ε α).Ensures partner s Q ↔ Q outcome s := by
  constructor
  · exact fun ensures => ensures [] outcome s (.done outcome) (.nil s)
  · rintro meets _ _ _ ⟨⟩ ⟨⟩
    exact meets

theorem ensures_call {c : C} {next : A c → Program A ε α} :
    (call c next).Ensures partner s Q ↔
      ∀ a t, partner s c a t → (next a).Ensures partner t Q := by
  constructor
  · exact fun ensures a t answers trace outcome u run follows =>
      ensures _ outcome u (.call run) (.cons answers follows)
  · rintro ensures _ outcome u (_ | run) (_ | ⟨answers, follows⟩)
    exact ensures _ _ answers _ outcome u run follows

theorem ensures_ask {c : C} {Q : Outcome ε (A c) → S → Prop} :
    (ask c : Program A ε (A c)).Ensures partner s Q ↔
      ∀ a t, partner s c a t → Q (.returned a) t := by
  simp only [ask, ensures_call, ensures_done]

@[simp] theorem ensures_pure {value : α} :
    (pure value : Program A ε α).Ensures partner s Q ↔ Q (.returned value) s := ensures_done

@[simp] theorem ensures_raise {exception : ε} :
    (raise exception : Program A ε α).Ensures partner s Q ↔ Q (.threw exception) s :=
  ensures_done

theorem ensures_andThen {next : Outcome ε α → Program A ε β} {Q : Outcome ε β → S → Prop} :
    (p.andThen next).Ensures partner s Q ↔
      p.Ensures partner s fun outcome t => (next outcome).Ensures partner t Q := by
  constructor
  · intro ensures first middle t start begun rest outcome u finish ended
    exact ensures _ outcome u (run_andThen_iff.mpr ⟨first, middle, rest, rfl, start, finish⟩)
      (Partner.follows_append_iff.mpr ⟨t, begun, ended⟩)
  · intro ensures trace outcome u run follows
    obtain ⟨first, middle, rest, rfl, start, finish⟩ := run_andThen_iff.mp run
    obtain ⟨t, begun, ended⟩ := Partner.follows_append_iff.mp follows
    exact ensures first middle t start begun rest outcome u finish ended

/-- What a condition on the end asks of the value of the first program. -/
def afterwards (partner : Partner A S) (next : α → Program A ε β) (Q : Outcome ε β → S → Prop) :
    Outcome ε α → S → Prop
  | .returned value, t => (next value).Ensures partner t Q
  | .threw exception, t => Q (.threw exception) t
  | .aborted, t => Q .aborted t
  | .running, t => Q .running t

theorem ensures_bind {next : α → Program A ε β} {Q : Outcome ε β → S → Prop} :
    (p >>= next).Ensures partner s Q ↔ p.Ensures partner s (afterwards partner next Q) := by
  change (p.andThen _).Ensures partner s Q ↔ _
  rw [ensures_andThen]
  constructor <;> refine fun ensures => ensures.mono fun outcome t meets => ?_
  · cases outcome with
    | returned => exact meets
    | threw | aborted | running => simpa only [afterwards, ensures_done] using meets
  · cases outcome with
    | returned => exact meets
    | threw | aborted | running => simpa only [afterwards, ensures_done] using meets

/-- The rule for a call and what follows. -/
theorem ensures_ask_bind {c : C} {next : A c → Program A ε β} {Q : Outcome ε β → S → Prop} :
    (ask c >>= next).Ensures partner s Q ↔
      ∀ a t, partner s c a t → (next a).Ensures partner t Q := by
  simp only [ensures_bind, ensures_ask, afterwards]

theorem ensures_tryCatch {handler : ε → Program A ε α} :
    (p.tryCatch handler).Ensures partner s Q ↔
      p.Ensures partner s fun outcome t =>
        match outcome with
        | .threw exception => (handler exception).Ensures partner t Q
        | .returned _ | .aborted | .running => Q outcome t := by
  rw [tryCatch, ensures_andThen]
  constructor <;> refine fun ensures => ensures.mono fun outcome t meets => ?_
  · cases outcome with
    | threw => exact meets
    | returned | aborted | running => exact ensures_done.mp meets
  · cases outcome with
    | threw => exact meets
    | returned | aborted | running => exact ensures_done.mpr meets

/-- What the partner keeps a program keeps. -/
theorem ensures_invariant {I : S → Prop}
    (keeps : ∀ s c a t, I s → partner s c a t → I t) (holds : I s) (p : Program A ε α) :
    p.Ensures partner s fun _ t => I t := by
  intro trace outcome t run follows
  clear run
  induction follows with
  | nil => exact holds
  | cons answers _ ih => exact ih (keeps _ _ _ _ holds answers)

/-- Does the same with every element of a list. -/
def each (body : β → Program A ε Unit) : List β → Program A ε Unit
  | [] => pure ()
  | b :: l => body b >>= fun _ => each body l

/-- What a loop asks of its body: to keep the invariant, or to end as the condition allows. -/
def keeping (I : S → Prop) (Q : Outcome ε Unit → S → Prop) : Outcome ε Unit → S → Prop
  | .returned _, t => I t
  | .threw exception, t => Q (.threw exception) t
  | .aborted, t => Q .aborted t
  | .running, t => Q .running t

/-- The rule for a loop over a list. -/
theorem Ensures.each {body : β → Program A ε Unit} {Q : Outcome ε Unit → S → Prop} (I : S → Prop)
    {l : List β} (keeps : ∀ b ∈ l, ∀ s, I s → (body b).Ensures partner s (keeping I Q))
    (ends : ∀ t, I t → Q (.returned ()) t) (holds : I s) :
    (each body l).Ensures partner s Q := by
  induction l generalizing s with
  | nil => exact ensures_done.mpr (ends s holds)
  | cons b l ih =>
    obtain ⟨first, rest⟩ := List.forall_mem_cons.mp keeps
    refine ensures_bind.mpr ((first s holds).mono fun outcome t meets => ?_)
    cases outcome with
    | returned => exact ih rest meets
    | threw | aborted | running => exact meets

end Program

end Calls
