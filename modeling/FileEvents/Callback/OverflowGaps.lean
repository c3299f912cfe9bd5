import FileEvents.Callback.NativeFileWatcherCallback

/-!
# What the client can rely on when its queue overflows

A report that finds the queue full, and every overflow the operating system reports,
clears the client's queue and puts an overflow event in it. The clearing and the
offers around it are separate operations, and the consumer may take elements in
between. This file follows a report through its operations and shows that, at every
capacity of at least two, what reaches the client is the sequence of reports with
marked gaps, that the offers made after a clearing succeed, and that failure and
termination events are lost to later overflows only.

## Main definitions

* `FileWatchEvent.IsProtected` — the events queued with `deliverOnOverflow`
* `Ledger` — a delivery accounts for the events reported
* `Phase` — where a report stands, with what then holds

## Main results

* `Phase.of_reachable` — every reachable state is in one of the phases
* `delivered_sublist_marked_gaps` — order, marked gaps and successful offers
* `isProtected_lost_only_to_later_overflow` — what becomes of a failure event
-/

namespace FileEvents

open Transition Delivery FileWatchEvent

/-- The events that are reported with `deliverOnOverflow` set. -/
def FileWatchEvent.IsProtected : FileWatchEvent → Prop
  | failureEvent _ | terminationEvent => True
  | _ => False

namespace NativeFileWatcherCallback

variable {capacity : ℕ} {s t : State capacity} {log : List FileWatchEvent}
variable {delivered kept : List Stamped} {event : FileWatchEvent} {rest : List QueueOp}
variable {type : OverflowType} {path : Option U16String}

/-- `delivered` accounts for the events of `log`: what is missing lies in marked
gaps, and protected events were lost to a later report. -/
structure Ledger (log : List FileWatchEvent) (delivered : List Stamped) : Prop where
  /-- Reports arrive in order, and gaps are marked. -/
  faithful : Faithful IsOverflow log delivered
  /-- Protected reports are missing only where a later report caused a gap. -/
  accounted : Accounted IsOverflow IsProtected log delivered

namespace Ledger

theorem nil : Ledger [] [] := ⟨.nil, .nil⟩

theorem deliver (h : Ledger log delivered) (event : FileWatchEvent) :
    Ledger (log ++ [event]) (delivered ++ [(event, log.length)]) :=
  ⟨h.faithful.deliver event, h.accounted.deliver event⟩

theorem truncate (h : Ledger log delivered) (hkept : kept <+: delivered)
    (hevent : ¬ IsProtected event) :
    Ledger (log ++ [event]) (kept ++ [(overflowEvent type path, log.length)]) :=
  ⟨h.faithful.truncate hkept event trivial, .cut trivial fun hp => absurd hp hevent⟩

theorem truncate_deliver (h : Ledger log delivered) (hkept : kept <+: delivered) :
    Ledger (log ++ [event])
      (kept ++ [(overflowEvent type path, log.length), (event, log.length)]) :=
  ⟨h.faithful.truncate_deliver hkept event trivial, .cut trivial fun _ => by simp⟩

end Ledger

/-- What is left of a report behind its overflow event: the event itself where it is
delivered in spite of the overflow. -/
def Remainder (event : FileWatchEvent) (rest : List QueueOp) : Prop :=
  rest = forceQueueEvent event ∨ rest = [] ∧ ¬ IsProtected event

/-- Where the run-loop thread stands in a report. `before` is what had been
delivered when the report cleared the queue. -/
inductive Phase (s : State capacity) : Prop
  /-- Between two reports. -/
  | idle (pending : s.pending = []) (ledger : Ledger s.reported s.delivered)
  /-- About to offer the event. -/
  | offering {log : List FileWatchEvent} {event : FileWatchEvent} {deliverOnOverflow : Bool}
      (pending : s.pending = queueEvent event deliverOnOverflow)
      (protects : IsProtected event → deliverOnOverflow = true)
      (reported : s.reported = log ++ [event]) (ledger : Ledger log s.delivered)
  /-- About to clear the queue. -/
  | clearing {log : List FileWatchEvent} {event : FileWatchEvent} {type : OverflowType}
      {path : Option U16String} {rest : List QueueOp}
      (pending : s.pending = signalOverflow type path ++ rest)
      (remainder : Remainder event rest)
      (reported : s.reported = log ++ [event]) (ledger : Ledger log s.delivered)
      (cause : type = .eventQueue ∧ path = none ∨ type = .operatingSystem ∧ rest = [])
  /-- About to offer the overflow event to a queue that has been cleared. -/
  | marking {log : List FileWatchEvent} {event : FileWatchEvent} {type : OverflowType}
      {path : Option U16String} {rest : List QueueOp} {before : List Stamped}
      (pending : s.pending = forceQueueEvent (.overflowEvent type path) ++ rest)
      (remainder : Remainder event rest)
      (reported : s.reported = log ++ [event]) (ledger : Ledger log before)
      (taken : s.consumed <+: before) (cleared : s.eventQueue.toList = [])
  /-- About to offer the event behind the overflow event. -/
  | forcing {log : List FileWatchEvent} {event : FileWatchEvent} {type : OverflowType}
      {path : Option U16String} {before kept : List Stamped}
      (pending : s.pending = forceQueueEvent event)
      (reported : s.reported = log ++ [event]) (ledger : Ledger log before)
      (taken : kept <+: before)
      (marked : s.delivered = kept ++ [(.overflowEvent type path, log.length)])
      (room : s.eventQueue.toList.length ≤ 1)

/-! ## Consumer steps -/

theorem take_spec (h : next s .take = some t) :
    ∃ event, s.eventQueue.toList = event :: t.eventQueue.toList ∧
      t.consumed = s.consumed ++ [event] ∧ t.pending = s.pending ∧
      t.reported = s.reported ∧ t.logged = s.logged := by
  obtain ⟨⟨event, eventQueue⟩, hpoll, rfl⟩ := Option.map_eq_some_iff.mp h
  exact ⟨event, BoundedQueue.toList_poll hpoll, rfl, rfl, rfl, rfl⟩

/-- Taking the head moves it over to the consumed events. -/
theorem delivered_of_take (h : next s .take = some t) : t.delivered = s.delivered := by
  obtain ⟨event, hqueue, hconsumed, -⟩ := take_spec h
  simp [State.delivered, hqueue, hconsumed]

theorem Phase.take (h : Phase s) (step : next s .take = some t) : Phase t := by
  obtain ⟨head, hqueue, hconsumed, hpending, hreported, -⟩ := take_spec step
  have hdelivered := delivered_of_take step
  cases h with
  | idle pending ledger =>
    exact .idle (hpending.trans pending) (by rwa [hreported, hdelivered])
  | offering pending protects reported ledger =>
    exact .offering (hpending.trans pending) protects (hreported.trans reported)
      (by rwa [hdelivered])
  | clearing pending remainder reported ledger cause =>
    exact .clearing (hpending.trans pending) remainder (hreported.trans reported)
      (by rwa [hdelivered]) cause
  | marking _ _ _ _ _ cleared =>
    -- The queue was cleared, so there is nothing to take.
    rw [cleared] at hqueue
    exact absurd hqueue (List.cons_ne_nil _ _).symm
  | forcing pending reported ledger taken marked room =>
    refine .forcing (hpending.trans pending) (hreported.trans reported) ledger taken
      (hdelivered.trans marked) ?_
    rw [hqueue, List.length_cons] at room
    exact (Nat.le_succ _).trans room

/-! ## Entering a report -/

/-- A report starts by offering its event, or by clearing the queue when it is an
overflow itself. -/
theorem enter_cases {call : Report} {pending : List QueueOp}
    (h : enter call = some (event, pending)) :
    (∃ deliverOnOverflow, pending = queueEvent event deliverOnOverflow ∧
        (IsProtected event → deliverOnOverflow = true)) ∨
      ∃ path, pending = signalOverflow .operatingSystem path ∧ ¬ IsProtected event := by
  cases call with
  | reportChangeEvent typeIndex path =>
    obtain ⟨type, -, hop⟩ := Option.map_eq_some_iff.mp h
    obtain ⟨rfl, rfl⟩ := Prod.mk.inj hop
    exact Or.inl ⟨false, rfl, fun hp => hp.elim⟩
  | reportUnknownEvent path =>
    obtain ⟨rfl, rfl⟩ := Prod.mk.inj (Option.some_inj.mp h)
    exact Or.inl ⟨false, rfl, fun hp => hp.elim⟩
  | reportOverflow path =>
    obtain ⟨rfl, rfl⟩ := Prod.mk.inj (Option.some_inj.mp h)
    exact Or.inr ⟨path, rfl, id⟩
  | reportFailure ex =>
    obtain ⟨rfl, rfl⟩ := Prod.mk.inj (Option.some_inj.mp h)
    exact Or.inl ⟨true, rfl, fun _ => rfl⟩
  | reportTermination =>
    obtain ⟨rfl, rfl⟩ := Prod.mk.inj (Option.some_inj.mp h)
    exact Or.inl ⟨true, rfl, fun _ => rfl⟩

theorem report_spec {call : Report} (h : next s (.report call) = some t) :
    s.pending = [] ∧ (enter call = none ∧ t = s ∨
      ∃ event pending, enter call = some (event, pending) ∧
        t = { s with pending, reported := s.reported ++ [event] }) := by
  rw [next] at h
  split at h
  next hpending henter =>
    exact ⟨hpending, Or.inr ⟨_, _, henter, (Option.some_inj.mp h).symm⟩⟩
  next hpending henter =>
    exact ⟨hpending, Or.inl ⟨henter, (Option.some_inj.mp h).symm⟩⟩
  next => exact absurd h (by simp)

theorem Phase.report {call : Report} (h : Phase s)
    (step : next s (.report call) = some t) : Phase t := by
  obtain ⟨hpending, ⟨-, rfl⟩ | ⟨event, pending, henter, rfl⟩⟩ := report_spec step
  · exact h
  have hledger : Ledger s.reported s.delivered := by
    cases h with
    | idle _ ledger => exact ledger
    | offering pending | clearing pending | marking pending | forcing pending =>
      rw [hpending] at pending
      exact absurd pending (List.cons_ne_nil _ _).symm
  rcases enter_cases henter with ⟨deliverOnOverflow, rfl, hp⟩ | ⟨path, rfl, hp⟩
  · exact .offering rfl hp rfl hledger
  · exact .clearing (List.append_nil _).symm (Or.inr ⟨rfl, hp⟩) rfl hledger (Or.inr ⟨rfl, rfl⟩)

/-! ## Queue operations -/

theorem proceed_spec (h : next s .proceed = some t) :
    ∃ op rest, s.pending = op :: rest ∧ t = perform s rest op := by
  rw [next] at h
  split at h
  next => exact absurd h (by simp)
  next op rest hpending => exact ⟨op, rest, hpending, (Option.some_inj.mp h).symm⟩

theorem current_of_reported (h : s.reported = log ++ [event]) : s.current = log.length := by
  simp [State.current, h]

/-- The offer of `queueEvent` appends the event, stamped with the current report, or
finds the queue full. -/
theorem perform_queueEvent (s : State capacity) (rest : List QueueOp)
    (event : FileWatchEvent) (deliverOnOverflow : Bool) :
    (∃ eventQueue : BoundedQueue Stamped capacity,
      eventQueue.toList = s.eventQueue.toList ++ [(event, s.current)] ∧
      perform s rest (.queueEvent event deliverOnOverflow) =
        { s with eventQueue, pending := rest }) ∨
    capacity ≤ s.eventQueue.toList.length ∧
      perform s rest (.queueEvent event deliverOnOverflow) =
        { s with
          pending := queueEventFull event deliverOnOverflow ++ rest
          logged := s.logged ++ [.eventQueueOverflow] } := by
  cases hoffer : s.eventQueue.offer (event, s.current) with
  | some eventQueue =>
    exact Or.inl ⟨eventQueue, BoundedQueue.toList_offer hoffer, by simp [perform, hoffer]⟩
  | none =>
    exact Or.inr ⟨BoundedQueue.length_of_offer_eq_none hoffer, by simp [perform, hoffer]⟩

/-- An offer of `forceQueueEvent` that finds room appends the event. -/
theorem perform_forceQueueEvent (rest : List QueueOp) (event : FileWatchEvent)
    (room : s.eventQueue.toList.length < capacity) :
    ∃ eventQueue : BoundedQueue Stamped capacity,
      eventQueue.toList = s.eventQueue.toList ++ [(event, s.current)] ∧
      perform s rest (.forceQueueEvent event) = { s with eventQueue, pending := rest } := by
  obtain ⟨eventQueue, hoffer⟩ := BoundedQueue.exists_offer_eq_some room (event, s.current)
  exact ⟨eventQueue, BoundedQueue.toList_offer hoffer, by simp [perform, hoffer]⟩

theorem Phase.proceed (hcapacity : 2 ≤ capacity) (h : Phase s)
    (step : next s .proceed = some t) : Phase t := by
  obtain ⟨op, ops, hpending, rfl⟩ := proceed_spec step
  cases h with
  | idle pending => exact absurd (pending.symm.trans hpending) (List.cons_ne_nil _ _).symm
  | @offering log event deliverOnOverflow pending protects reported ledger =>
    obtain ⟨rfl, rfl⟩ := List.cons.inj (hpending.symm.trans pending)
    rcases perform_queueEvent s [] event deliverOnOverflow with
      ⟨eventQueue, hqueue, hperform⟩ | ⟨-, hperform⟩
    · refine hperform ▸ .idle rfl ?_
      have hdelivered : ({ s with eventQueue, pending := [] } : State capacity).delivered =
          s.delivered ++ [(event, log.length)] := by
        simp [State.delivered, hqueue, current_of_reported reported]
      rw [hdelivered]
      exact reported ▸ ledger.deliver event
    -- The offer has failed, so the queue is cleared for an overflow event.
    · have hfull : queueEventFull event deliverOnOverflow ++ [] = signalOverflow .eventQueue none ++
          if deliverOnOverflow then forceQueueEvent event else [] := List.append_nil _
      refine hperform ▸ .clearing hfull ?_ reported ledger (Or.inl ⟨rfl, rfl⟩)
      cases deliverOnOverflow with
      | false => exact Or.inr ⟨rfl, fun hp => Bool.false_ne_true (protects hp)⟩
      | true => exact Or.inl rfl
  | @clearing log event type path rest pending remainder reported ledger =>
    obtain ⟨rfl, rfl⟩ := List.cons.inj (hpending.symm.trans pending)
    -- What is left of the delivered events is what the consumer has taken.
    exact .marking rfl remainder reported ledger (List.prefix_append _ _) rfl
  | @marking log event type path rest before pending remainder reported ledger taken cleared =>
    obtain ⟨rfl, rfl⟩ := List.cons.inj (hpending.symm.trans pending)
    obtain ⟨eventQueue, hqueue, hperform⟩ := perform_forceQueueEvent ops
      (.overflowEvent type path) (by rw [cleared]; exact Nat.zero_lt_of_lt hcapacity)
    rw [cleared, List.nil_append, current_of_reported reported] at hqueue
    have hdelivered : ({ s with eventQueue, pending := ops } : State capacity).delivered =
        s.consumed ++ [(.overflowEvent type path, log.length)] := by
      simp [State.delivered, hqueue]
    rcases remainder with rfl | ⟨rfl, hp⟩
    · refine hperform ▸ .forcing rfl reported ledger taken hdelivered ?_
      simp [hqueue]
    · refine hperform ▸ .idle rfl ?_
      rw [hdelivered]
      exact reported ▸ ledger.truncate taken hp
  | @forcing log event type path before kept pending reported ledger taken marked room =>
    obtain ⟨rfl, rfl⟩ := List.cons.inj (hpending.symm.trans pending)
    obtain ⟨eventQueue, hqueue, hperform⟩ := perform_forceQueueEvent []
      event (room.trans_lt hcapacity)
    refine hperform ▸ .idle rfl ?_
    have hdelivered : ({ s with eventQueue, pending := [] } : State capacity).delivered =
        kept ++ [(.overflowEvent type path, log.length), (event, log.length)] := by
      rw [State.delivered] at marked ⊢
      rw [hqueue, ← List.append_assoc, marked, current_of_reported reported]
      simp
    rw [hdelivered]
    exact reported ▸ ledger.truncate_deliver taken

/-- Every reachable state of the callback stands in one of the phases. -/
theorem Phase.of_reachable (hcapacity : 2 ≤ capacity)
    (hs : (machine capacity).Reachable s) : Phase s := by
  refine hs.invariant (.idle rfl .nil) ?_
  intro s label t h step
  cases label with
  | report call => exact h.report step
  | proceed => exact h.proceed hcapacity step
  | take => exact h.take step

namespace Phase

/-- Between two reports everything reported is accounted for. -/
theorem ledger (h : Phase s) (idle : s.pending = []) : Ledger s.reported s.delivered := by
  cases h with
  | idle _ ledger => exact ledger
  | offering pending | clearing pending | marking pending | forcing pending =>
    rw [idle] at pending
    exact absurd pending (List.cons_ne_nil _ _).symm

/-- Also in the middle of a report the unmarked deliveries follow the reports. -/
theorem sublist (h : Phase s) :
    (s.delivered.filter fun x => ¬ IsOverflow x.1).Sublist s.reported.zipIdx := by
  cases h with
  | idle _ ledger => exact ledger.faithful.sublist
  | offering _ _ reported ledger | clearing _ _ reported ledger =>
    exact reported ▸ ledger.faithful.sublist.trans (zipIdx_sublist_concat _ _)
  | marking _ _ reported ledger taken cleared =>
    rw [State.delivered, cleared, List.append_nil, reported]
    exact ((taken.sublist.filter _).trans ledger.faithful.sublist).trans
      (zipIdx_sublist_concat _ _)
  | @forcing log event type path before kept _ reported ledger taken marked =>
    have hfilter : (s.delivered.filter fun x => ¬ IsOverflow x.1) =
        kept.filter fun x => ¬ IsOverflow x.1 := by
      simp [marked, List.filter_append, IsOverflow]
    rw [hfilter, reported]
    exact ((taken.sublist.filter _).trans ledger.faithful.sublist).trans
      (zipIdx_sublist_concat _ _)

/-- A forced offer meets a queue that holds at most the overflow event. -/
theorem room (hcapacity : 2 ≤ capacity) (h : Phase s)
    (pending : s.pending = .forceQueueEvent event :: rest) :
    s.eventQueue.toList.length < capacity := by
  cases h with
  | idle pending' | offering pending' | clearing pending' =>
    exact absurd (pending.symm.trans pending') (by simp [queueEvent, signalOverflow])
  | marking _ _ _ _ _ cleared =>
    rw [cleared]
    exact Nat.zero_lt_of_lt hcapacity
  | forcing _ _ _ _ _ room => exact room.trans_lt hcapacity

end Phase

/-- Order and marked gaps. At a capacity of at least two, in every reachable state:
the delivered events that are no overflow events are reported ones, in report order
and each once; between two reports an overflow event stands in every gap, behind what
was reported before the missing event and in front of what was reported after it; and
the offers of `forceQueueEvent` succeed. -/
theorem delivered_sublist_marked_gaps (hcapacity : 2 ≤ capacity)
    (hs : (machine capacity).Reachable s) :
    (s.delivered.filter fun x => ¬ IsOverflow x.1).Sublist s.reported.zipIdx ∧
    (s.pending = [] → ∀ x ∈ s.reported.zipIdx, x ∉ s.delivered →
      Marked IsOverflow s.delivered x.2) ∧
    ∀ event rest, s.pending = .forceQueueEvent event :: rest →
      (s.eventQueue.offer (event, s.current)).isSome := by
  have phase := Phase.of_reachable hcapacity hs
  refine ⟨phase.sublist, fun idle => (phase.ledger idle).faithful.marked, ?_⟩
  intro event rest pending
  obtain ⟨eventQueue, hoffer⟩ :=
    BoundedQueue.exists_offer_eq_some (phase.room hcapacity pending) (event, s.current)
  rw [hoffer, Option.isSome_some]

/-- Two change events fill a queue of two, the third makes room for an overflow event
only, and the fourth is delivered behind it. -/
theorem delivered_sublist_marked_gaps_fourth_change :
    ∃ s : State 2, (s.delivered.map Prod.snd = [2, 3] ∧ s.pending = []) ∧
    (s.delivered.filter fun x => ¬ IsOverflow x.1).Sublist s.reported.zipIdx ∧
    (s.pending = [] → ∀ x ∈ s.reported.zipIdx, x ∉ s.delivered →
      Marked IsOverflow s.delivered x.2) ∧
    ∀ event rest, s.pending = .forceQueueEvent event :: rest →
      (s.eventQueue.offer (event, s.current)).isSome := by
  have computed : ((machine 2).exec (machine 2).start
      [.report (.reportChangeEvent 0 (u16 "/a")), .proceed,
       .report (.reportChangeEvent 2 (u16 "/a")), .proceed,
       .report (.reportChangeEvent 0 (u16 "/b")), .proceed, .proceed, .proceed,
       .report (.reportChangeEvent 1 (u16 "/a")), .proceed]).map
      (fun s => (s.delivered.map Prod.snd, s.pending)) = some ([2, 3], []) := by decide
  obtain ⟨s, reach, last⟩ := Machine.observe_of_exec computed
  exact ⟨s, Prod.mk.inj last, delivered_sublist_marked_gaps le_rfl reach⟩

/-! ## Failure and termination events -/

/-- Elements leave the queue when the consumer takes them or when a report clears the
queue to put an overflow event in it. -/
theorem mem_eventQueue_of_next {label : Label} (step : next s label = some t)
    {x : Stamped} (hx : x ∈ s.eventQueue.toList) :
    x ∈ t.eventQueue.toList ∨ label = .take ∧ x ∈ t.consumed ∨
      label = .proceed ∧ ∃ rest, s.pending = .clear :: rest := by
  cases label with
  | report call =>
    obtain ⟨-, ⟨-, rfl⟩ | ⟨event, pending, -, rfl⟩⟩ := report_spec step <;> exact Or.inl hx
  | take =>
    -- The consumer takes the head.
    obtain ⟨head, hqueue, hconsumed, -⟩ := take_spec step
    rw [hqueue] at hx
    rcases List.mem_cons.mp hx with rfl | hx
    · exact Or.inr (Or.inl ⟨rfl, by simp [hconsumed]⟩)
    · exact Or.inl hx
  | proceed =>
    obtain ⟨op, rest, hpending, rfl⟩ := proceed_spec step
    cases op with
    | queueEvent event deliverOnOverflow =>
      refine Or.inl ?_
      rcases perform_queueEvent s rest event deliverOnOverflow with
        ⟨eventQueue, hqueue, hperform⟩ | ⟨-, hperform⟩
      · rw [hperform, hqueue]
        exact List.mem_append_left _ hx
      · rwa [hperform]
    | clear => exact Or.inr (Or.inr ⟨rfl, rest, hpending⟩)
    | forceQueueEvent event =>
      refine Or.inl ?_
      cases hoffer : s.eventQueue.offer (event, s.current) with
      | some eventQueue =>
        simp only [perform, hoffer, BoundedQueue.toList_offer hoffer]
        exact List.mem_append_left _ hx
      | none => simpa only [perform, hoffer] using hx

/-- The queue is cleared for an overflow event that is queued next, and everything in
it then was reported before the report in progress. -/
theorem Phase.clear_spec (h : Phase s) (pending : s.pending = .clear :: rest) :
    (∃ type path rest', s.pending = signalOverflow type path ++ rest') ∧
      ∀ x ∈ s.delivered, x.2 < s.current := by
  cases h with
  | idle pending' | offering pending' | marking pending' | forcing pending' =>
    exact absurd (pending.symm.trans pending') (by simp [queueEvent, forceQueueEvent])
  | clearing pending' _ reported ledger =>
    refine ⟨⟨_, _, _, pending'⟩, fun x hx => ?_⟩
    rw [current_of_reported reported]
    exact ledger.faithful.stamp_lt x hx

/-- The overflow event of a full queue names no path, and that of the operating system is
the last thing its report queues. -/
theorem Phase.cause {type : OverflowType} {path : Option U16String} (h : Phase s)
    (pending : s.pending = .clear :: .forceQueueEvent (.overflowEvent type path) :: rest) :
    type = .eventQueue ∧ path = none ∨ type = .operatingSystem ∧ rest = [] := by
  cases h with
  | idle pending' | offering pending' | marking pending' | forcing pending' =>
    exact absurd (pending.symm.trans pending') (by simp [queueEvent, forceQueueEvent])
  | clearing pending' _ _ _ cause =>
    have same := pending.symm.trans pending'
    simp only [signalOverflow, forceQueueEvent, List.cons_append, List.nil_append,
      List.cons.injEq, QueueOp.forceQueueEvent.injEq, FileWatchEvent.overflowEvent.injEq,
      true_and] at same
    obtain ⟨⟨rfl, rfl⟩, rfl⟩ := same
    exact cause

/-- What becomes of a failure or termination event, at a capacity of at least two.
Once the report that makes it has returned it is delivered. It leaves the queue by the
consumer taking it, or by the clearing that a later report makes in order to queue an
overflow event. Where it is missing, an overflow event of a later report is
delivered. -/
theorem isProtected_lost_only_to_later_overflow (hcapacity : 2 ≤ capacity)
    (hs : (machine capacity).Reachable s) :
    (s.pending = [] → ∀ event, s.reported.getLast? = some event → IsProtected event →
      (event, s.current) ∈ s.delivered) ∧
    (∀ label t, next s label = some t → ∀ x ∈ s.eventQueue.toList,
      IsProtected x.1 → x ∉ t.eventQueue.toList →
      label = .take ∧ x ∈ t.consumed ∨
      label = .proceed ∧ x.2 < s.current ∧
        ∃ type path rest, s.pending = signalOverflow type path ++ rest) ∧
    (s.pending = [] → ∀ x ∈ s.reported.zipIdx, IsProtected x.1 → x ∉ s.delivered →
      ∃ m ∈ s.delivered, IsOverflow m.1 ∧ x.2 < m.2) := by
  have phase := Phase.of_reachable hcapacity hs
  refine ⟨?_, ?_, fun idle => (phase.ledger idle).accounted⟩
  · intro idle event hlast hp
    obtain ⟨log, hlog⟩ := List.getLast?_eq_some_iff.mp hlast
    have ledger := phase.ledger idle
    by_contra hmissing
    have hmem : (event, s.current) ∈ s.reported.zipIdx := by
      rw [current_of_reported hlog, hlog, mem_zipIdx_concat]
      exact Or.inr rfl
    -- a marker of a later report would carry a number no report has yet
    obtain ⟨m, hm, -, hlater⟩ := ledger.accounted _ hmem hp hmissing
    have hbound := ledger.faithful.stamp_lt m hm
    rw [State.current] at hlater
    omega
  · intro label t step x hx _ hgone
    rcases mem_eventQueue_of_next step hx with hkept | htaken | ⟨rfl, rest, pending⟩
    · exact absurd hkept hgone
    · exact Or.inl htaken
    · obtain ⟨hsignal, hbefore⟩ := phase.clear_spec pending
      exact Or.inr ⟨rfl, hbefore x (List.mem_append_right _ hx), hsignal⟩

/-- A failure event waits in a queue of two when the second of two change events
overflows the queue. -/
theorem isProtected_lost_only_to_later_overflow_failure :
    ∃ s : State 2, (failureEvent "poll failed", 0) ∈ s.reported.zipIdx ∧
    (s.pending = [] → ∀ event, s.reported.getLast? = some event → IsProtected event →
      (event, s.current) ∈ s.delivered) ∧
    (∀ label t, next s label = some t → ∀ x ∈ s.eventQueue.toList,
      IsProtected x.1 → x ∉ t.eventQueue.toList →
      label = .take ∧ x ∈ t.consumed ∨
      label = .proceed ∧ x.2 < s.current ∧
        ∃ type path rest, s.pending = signalOverflow type path ++ rest) ∧
    (s.pending = [] → ∀ x ∈ s.reported.zipIdx, IsProtected x.1 → x ∉ s.delivered →
      ∃ m ∈ s.delivered, IsOverflow m.1 ∧ x.2 < m.2) := by
  have computed : ((machine 2).exec (machine 2).start
      [.report (.reportFailure "poll failed"), .proceed,
       .report (.reportChangeEvent 0 (u16 "/a")), .proceed,
       .report (.reportChangeEvent 0 (u16 "/b")), .proceed]).map
      (fun s => decide ((failureEvent "poll failed", 0) ∈ s.reported.zipIdx)) = some true := by
    decide
  obtain ⟨s, reach, reported⟩ := Machine.observe_of_exec computed
  exact ⟨s, of_decide_eq_true reported, isProtected_lost_only_to_later_overflow le_rfl reach⟩

/-- Failure events do not survive every later overflow: a queue of two takes a failure
event and a change event, and the next change event clears it. -/
theorem not_forall_isProtected_delivered :
    ¬ ∀ s : State 2, (machine 2).Reachable s → s.pending = [] →
      ∀ x ∈ s.reported.zipIdx, IsProtected x.1 → x ∈ s.delivered := by
  intro survives
  have computed : ((machine 2).exec (machine 2).start
      [.report (.reportFailure "poll failed"), .proceed,
       .report (.reportChangeEvent 0 (u16 "/a")), .proceed,
       .report (.reportChangeEvent 0 (u16 "/b")), .proceed, .proceed, .proceed]).map
      (fun s => (s.pending,
        decide ((failureEvent "poll failed", 0) ∈ s.reported.zipIdx),
        decide ((failureEvent "poll failed", 0) ∈ s.delivered))) =
      some ([], true, false) := by decide
  obtain ⟨s, reach, last⟩ := Machine.observe_of_exec computed
  simp only [Prod.mk.injEq, decide_eq_true_eq, decide_eq_false_iff_not] at last
  obtain ⟨settled, reported, undelivered⟩ := last
  exact undelivered (survives s reach settled _ reported trivial)

end NativeFileWatcherCallback

end FileEvents
