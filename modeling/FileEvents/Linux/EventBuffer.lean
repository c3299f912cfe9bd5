import FileEvents.Linux.Inotify
import FileEvents.Wire.Bytes

/-!
# The buffer of events

`handleEvents` reads events into a buffer of bytes and goes through it with an `int` index:
at the index it finds a `struct inotify_event`, which it hands to `handleEvent`, and then it
adds the size of the header and the length of the name.

The kernel lays out an event as a header of 16 bytes (descriptor, mask, cookie and length)
and, if the length is not 0, a name that is terminated and padded with NULs.

## Main definitions

* `RawEvent`, `RawEvent.encode` — events as the kernel lays them out
* `readEvent` — what `handleEvent` finds at an address
* `handleBuffer` — the loop

## Main results

* `readEvent_encode` — an event is read back
* `handleBuffer_encode` — over a buffer of events the loop hands each event to `handleEvent`,
  in order, until one throws
-/

namespace FileEvents

namespace Linux

open Wire

/-- `EVENT_BUFFER_SIZE`. -/
def EVENT_BUFFER_SIZE : ℕ := 16 * 1024

/-- `sizeof(struct inotify_event)`. -/
def sizeofInotifyEvent : ℕ := 16

/-! ## The kernel's layout -/

/-- An event as the kernel writes it. -/
structure RawEvent where
  wd : Int32
  mask : UInt32
  cookie : UInt32
  name : ByteString
  /-- The number of NULs behind the name. -/
  padding : ℕ
  clean : 0 ∉ name
  terminated : name ≠ [] → 0 < padding

namespace RawEvent

/-- `len`. -/
def len (event : RawEvent) : ℕ := event.name.length + event.padding

/-- The bytes of an event. -/
def encode (event : RawEvent) : List UInt8 :=
  toBytes 4 event.wd.toUInt32.toNat ++ (toBytes 4 event.mask.toNat ++
    (toBytes 4 event.cookie.toNat ++ (toBytes 4 event.len ++
      (event.name ++ List.replicate event.padding 0))))

/-- What `handleEvent` is to see of it. -/
def event (event : RawEvent) : InotifyEvent :=
  { wd := event.wd.toInt, mask := event.mask, name := event.name }

end RawEvent

/-- The bytes of some events. -/
def encodeAll (events : List RawEvent) : List UInt8 := events.flatMap RawEvent.encode

/-! ## The loop -/

/-- The event and its `len` at the beginning of these bytes, `none` where reading it would
leave the buffer. -/
def readEvent (bytes : List UInt8) : Option (InotifyEvent × UInt32) :=
  if sizeofInotifyEvent ≤ bytes.length then
    let wd := (word bytes).toInt32.toInt
    let mask := word (bytes.drop 4)
    let len := word (bytes.drop 12)
    -- The name is not looked at if there is none.
    if len = 0 then some ({ wd, mask, name := [] }, len)
    else (cString (bytes.drop sizeofInotifyEvent)).map fun name => ({ wd, mask, name }, len)
  else none

/-- Where the loop is. -/
structure Cursor (σ : Type) where
  index : Int32
  count : Int32
  /-- Where a header was read, in order. -/
  headers : List Int32
  /-- The events that `handleEvent` was called with, in order. -/
  calls : List InotifyEvent
  /-- The state that `handleEvent` works on. -/
  state : σ

namespace Cursor

variable {σ : Type}

/-- The loop begins. -/
def start (state : σ) : Cursor σ := { index := 0, count := 0, headers := [], calls := [], state }

/-- `handleEvent` is called. -/
def call (cursor : Cursor σ) (event : InotifyEvent) : Cursor σ :=
  { cursor with
    headers := cursor.headers ++ [cursor.index]
    calls := cursor.calls ++ [event] }

/-- The rest of an iteration. -/
def advance (cursor : Cursor σ) (len : UInt32) (state : σ) : Cursor σ :=
  { cursor with
    index := cursor.index + 16 + len.toInt32
    count := cursor.count + 1
    state }

end Cursor

/-- How the loop ends. -/
inductive LoopEnd (ε : Type)
  | finished
  /-- `handleEvent` has thrown. -/
  | thrown (ex : ε)
  /-- It reads outside of the buffer. -/
  | outOfBounds
  deriving DecidableEq

/-- The loop of `handleEvents` over the bytes that were read, `none` where the fuel does not
suffice. -/
def handleBuffer {ε σ : Type} (handleEvent : σ → InotifyEvent → Except ε σ)
    (buffer : List UInt8) (bytesRead : ℤ) : ℕ → Cursor σ → Option (LoopEnd ε × Cursor σ)
  | 0, _ => none
  | fuel + 1, cursor =>
    if cursor.index.toInt < bytesRead then
      match readEvent (buffer.drop cursor.index.toInt.toNat) with
      | none => some (.outOfBounds, cursor)
      | some (event, len) => match handleEvent cursor.state event with
        | .error ex => some (.thrown ex, cursor.call event)
        | .ok state =>
          handleBuffer handleEvent buffer bytesRead fuel ((cursor.call event).advance len state)
    else some (.finished, cursor)

/-- Some events are handled, until one throws. -/
def handleAll {ε σ : Type} (handleEvent : σ → InotifyEvent → Except ε σ) :
    σ → List InotifyEvent → LoopEnd ε × σ
  | state, [] => (.finished, state)
  | state, event :: events => match handleEvent state event with
    | .error ex => (.thrown ex, state)
    | .ok state => handleAll handleEvent state events

/-! ## Reading one event -/

section Read

variable {event : RawEvent} {events : List RawEvent} {rest : List UInt8}

@[simp] theorem length_encode : event.encode.length = sizeofInotifyEvent + event.len := by
  simp [RawEvent.encode, RawEvent.len, sizeofInotifyEvent]
  omega

@[simp] theorem encodeAll_nil : encodeAll [] = [] := rfl

@[simp] theorem encodeAll_cons : encodeAll (event :: events) = event.encode ++ encodeAll events :=
  List.flatMap_cons

/-- The name of an event that has one is read. -/
theorem cString_name (nonempty : event.len ≠ 0) :
    cString (event.name ++ List.replicate event.padding 0 ++ rest) = some event.name := by
  have padded : event.padding ≠ 0 := by
    intro none
    have noName : event.name = [] := by
      by_contra named
      exact Nat.ne_of_gt (event.terminated named) none
    exact nonempty (by simp [RawEvent.len, noName, none])
  obtain ⟨more, same⟩ := Nat.exists_eq_succ_of_ne_zero padded
  rw [same, List.replicate_succ, List.append_assoc, List.cons_append]
  exact cString_append event.clean

/-- An event is read back, whatever follows it. -/
theorem readEvent_encode (fits : event.len < UInt32.size) :
    readEvent (event.encode ++ rest) = some (event.event, UInt32.ofNat event.len) := by
  have room : sizeofInotifyEvent ≤ (event.encode ++ rest).length := by
    rw [List.length_append, length_encode]
    omega
  have len : (UInt32.ofNat event.len).toNat = event.len := UInt32.toNat_ofNat_of_lt' fits
  -- The buffer behind each of the four fields.
  let tail := event.name ++ List.replicate event.padding 0 ++ rest
  let third := toBytes 4 event.len ++ tail
  let second := toBytes 4 event.cookie.toNat ++ third
  let first := toBytes 4 event.mask.toNat ++ second
  have layout : event.encode ++ rest = toBytes 4 event.wd.toUInt32.toNat ++ first := by
    simp [RawEvent.encode, first, second, third, tail]
  have afterWd : (event.encode ++ rest).drop 4 = first := by rw [layout, drop_toBytes]
  have afterCookie : (event.encode ++ rest).drop 12 = third := by
    rw [← List.drop_drop (i := 8) (j := 4), afterWd, ← List.drop_drop (i := 4) (j := 4),
      drop_toBytes, drop_toBytes]
  have afterLen : (event.encode ++ rest).drop sizeofInotifyEvent = tail := by
    rw [sizeofInotifyEvent, ← List.drop_drop (i := 4) (j := 12), afterCookie, drop_toBytes]
  have wd : word (event.encode ++ rest) = event.wd.toUInt32 := by rw [layout, word_toBytes]
  have mask : word first = event.mask := word_toBytes _
  have size : word third = UInt32.ofNat event.len := word_toBytes_of_lt fits
  unfold readEvent
  rw [if_pos room]
  simp only [wd, afterWd, mask, afterCookie, size, afterLen, Int32.toInt32_toUInt32]
  by_cases empty : event.len = 0
  · have noName : event.name = [] :=
      List.length_eq_zero_iff.mp (Nat.eq_zero_of_add_eq_zero_right empty)
    simp [empty, RawEvent.event, noName]
  · have nonzero : UInt32.ofNat event.len ≠ 0 := by
      intro zero
      rw [zero] at len
      exact empty len.symm
    rw [if_neg nonzero, cString_name empty]
    rfl

end Read

/-! ## The whole buffer -/

/-- What the loop does over the events behind a cursor. -/
structure Decodes {ε σ : Type} (handleEvent : σ → InotifyEvent → Except ε σ) (bytesRead : ℕ)
    (events : List InotifyEvent) (cursor : Cursor σ) (last : LoopEnd ε) (final : Cursor σ) :
    Prop where
  /-- The loop ends behind the last event, unless `handleEvent` throws. -/
  ends : last = .finished ∨
    ∃ ex state, ∃ event ∈ events, handleEvent state event = .error ex ∧ last = .thrown ex
  /-- The events are handled in order, until one throws. -/
  result : (last, final.state) = handleAll handleEvent cursor.state events
  /-- `handleEvent` is called once per event, with all of them unless it throws. -/
  calls : ∃ called, final.calls = cursor.calls ++ called ∧ called <+: events ∧
    (last = .finished → called = events)
  /-- Every header that is read lies within the bytes that were read. -/
  headers : ∀ index ∈ final.headers, index ∈ cursor.headers ∨
    0 ≤ index.toInt ∧ index.toInt + sizeofInotifyEvent ≤ bytesRead
  index : last = .finished → final.index.toInt = bytesRead

section Loop

variable {ε σ : Type} {handleEvent : σ → InotifyEvent → Except ε σ} {event : RawEvent}
variable {done events : List RawEvent} {rest : List UInt8} {cursor : Cursor σ}

@[simp] theorem encodeAll_append {more : List RawEvent} :
    encodeAll (events ++ more) = encodeAll events ++ encodeAll more :=
  List.flatMap_append

/-- The index moves on to the next event. -/
theorem index_advance {n len : ℕ} (index : cursor.index = Int32.ofNat n) {call : InotifyEvent}
    {state : σ} : ((cursor.call call).advance (UInt32.ofNat len) state).index =
      Int32.ofNat (n + sizeofInotifyEvent + len) := by
  simp [Cursor.advance, Cursor.call, index, sizeofInotifyEvent]

/-- At the beginning of an event, that event is read. -/
theorem readEvent_at (rest : List UInt8)
    (fits : (encodeAll (done ++ event :: events)).length ≤ EVENT_BUFFER_SIZE)
    (index : cursor.index = Int32.ofNat (encodeAll done).length) :
    cursor.index.toInt = (encodeAll done).length ∧
      readEvent ((encodeAll (done ++ event :: events) ++ rest).drop cursor.index.toInt.toNat) =
        some (event.event, UInt32.ofNat event.len) := by
  have total : (encodeAll done).length + (sizeofInotifyEvent + event.len +
      (encodeAll events).length) ≤ 16384 := by
    simpa [EVENT_BUFFER_SIZE] using fits
  have here : cursor.index.toInt = (encodeAll done).length := by
    rw [index, Int32.toInt_ofNat_of_lt (by omega)]
  refine ⟨here, ?_⟩
  have behind : (encodeAll (done ++ event :: events) ++ rest).drop (encodeAll done).length =
      event.encode ++ (encodeAll events ++ rest) := by
    rw [encodeAll_append, List.append_assoc, List.drop_left, encodeAll_cons, List.append_assoc]
  rw [here, Int.toNat_natCast, behind]
  exact readEvent_encode (by change event.len < 4294967296; omega)

/-- The loop is left at an event whose handling throws. -/
theorem Decodes.thrown {bytesRead : ℕ} {event : InotifyEvent} {events : List InotifyEvent} {ex : ε}
    (thrown : handleEvent cursor.state event = .error ex)
    (within : 0 ≤ cursor.index.toInt ∧ cursor.index.toInt + sizeofInotifyEvent ≤ bytesRead) :
    Decodes handleEvent bytesRead (event :: events) cursor (.thrown ex) (cursor.call event) := by
  constructor
  case ends => exact .inr ⟨ex, _, event, List.mem_cons_self, thrown, rfl⟩
  case result => simp only [handleAll, thrown, Cursor.call]
  case calls => exact ⟨[event], rfl, by simp, by simp⟩
  case headers =>
    intro index mem
    rcases List.mem_append.mp mem with old | new
    · exact .inl old
    · exact .inr (List.mem_singleton.mp new ▸ within)
  case index => simp

/-- An event is handled, and the loop goes on behind it. -/
theorem Decodes.cons {bytesRead : ℕ} {event : InotifyEvent} {events : List InotifyEvent}
    {state : σ} {len : UInt32} {last : LoopEnd ε} {final : Cursor σ}
    (handled : handleEvent cursor.state event = .ok state)
    (within : 0 ≤ cursor.index.toInt ∧ cursor.index.toInt + sizeofInotifyEvent ≤ bytesRead)
    (decodes : Decodes handleEvent bytesRead events ((cursor.call event).advance len state)
      last final) :
    Decodes handleEvent bytesRead (event :: events) cursor last final := by
  constructor
  case ends =>
    refine decodes.ends.imp_right ?_
    rintro ⟨ex, state, event, mem, thrown⟩
    exact ⟨ex, state, event, List.mem_cons_of_mem _ mem, thrown⟩
  case result =>
    rw [decodes.result]
    simp only [handleAll, handled]
    rfl
  case calls =>
    obtain ⟨called, calls, part, all⟩ := decodes.calls
    refine ⟨event :: called, ?_, ?_, fun finished => ?_⟩
    · rw [calls]
      simp [Cursor.advance, Cursor.call]
    · exact (List.prefix_cons_inj _).mpr part
    · rw [all finished]
  case headers =>
    intro index mem
    -- A header was read in front of this event, for it or behind it.
    rcases decodes.headers index mem with old | new
    · rcases List.mem_append.mp old with old | new
      · exact .inl old
      · exact .inr (List.mem_singleton.mp new ▸ within)
    · exact .inr new
  case index => exact decodes.index

/-- From the beginning of an event on. The induction is on the events that are left. -/
theorem handleBuffer_from (done : List RawEvent)
    (fits : (encodeAll (done ++ events)).length ≤ EVENT_BUFFER_SIZE)
    (index : cursor.index = Int32.ofNat (encodeAll done).length) :
    ∃ last final, (∀ fuel, events.length < fuel →
        handleBuffer handleEvent (encodeAll (done ++ events) ++ rest)
          (encodeAll (done ++ events)).length fuel cursor = some (last, final)) ∧
      Decodes handleEvent (encodeAll (done ++ events)).length (events.map RawEvent.event) cursor
        last final := by
  induction events generalizing done cursor with
  | nil =>
    rw [List.append_nil] at fits ⊢
    have here : cursor.index.toInt = (encodeAll done).length := by
      rw [index, Int32.toInt_ofNat_of_lt]
      exact lt_of_le_of_lt fits (by decide)
    refine ⟨.finished, cursor, fun fuel enough => ?_, .inl rfl, rfl, ⟨[], ?_⟩, fun _ => .inl,
      fun _ => here⟩
    · obtain ⟨fuel, rfl⟩ := Nat.exists_eq_succ_of_ne_zero (Nat.ne_of_gt enough)
      simp [handleBuffer, here]
    · simp
  | cons event events ih =>
    -- There is an event at the index, and it lies within the bytes that were read.
    obtain ⟨here, read⟩ := readEvent_at rest fits index
    have size : (encodeAll (done ++ event :: events)).length =
        (encodeAll done).length + (sizeofInotifyEvent + event.len +
          (encodeAll events).length) := by simp
    have inside : cursor.index.toInt < (encodeAll (done ++ event :: events)).length := by
      rw [here, size, sizeofInotifyEvent]
      omega
    have within : 0 ≤ cursor.index.toInt ∧ cursor.index.toInt + sizeofInotifyEvent ≤
        (encodeAll (done ++ event :: events)).length := by
      rw [here, size]
      omega
    cases handled : handleEvent cursor.state event.event with
    | error ex =>
      refine ⟨.thrown ex, cursor.call event.event, fun fuel enough => ?_, .thrown handled within⟩
      obtain ⟨fuel, rfl⟩ := Nat.exists_eq_succ_of_ne_zero (Nat.ne_zero_of_lt enough)
      simp only [handleBuffer, if_pos inside, read, handled]
    | ok state =>
      -- The loop goes on behind the event, which is then among those that are done.
      let next := (cursor.call event.event).advance (UInt32.ofNat event.len) state
      have same : done ++ event :: events = (done ++ [event]) ++ events := by simp
      have nextIndex : next.index = Int32.ofNat (encodeAll (done ++ [event])).length := by
        rw [index_advance index]
        simp [Nat.add_assoc]
      obtain ⟨last, final, runs, decodes⟩ := ih (done ++ [event]) (same ▸ fits) nextIndex
      rw [← same] at runs decodes
      refine ⟨last, final, fun fuel enough => ?_, decodes.cons handled within⟩
      obtain ⟨fuel, rfl⟩ := Nat.exists_eq_succ_of_ne_zero (Nat.ne_zero_of_lt enough)
      simp only [handleBuffer, if_pos inside, read, handled]
      exact runs fuel (Nat.lt_of_succ_lt_succ enough)

/-- Over the bytes of events that fit in the buffer, whatever is behind them, the loop ends,
hands each event to `handleEvent` in order, unless one throws, and then has its index behind
the last byte that was read. -/
theorem handleBuffer_encode (handleEvent : σ → InotifyEvent → Except ε σ) (state : σ)
    (events : List RawEvent) (rest : List UInt8)
    (fits : (encodeAll events).length ≤ EVENT_BUFFER_SIZE) :
    ∃ last final, (∀ fuel, events.length < fuel →
        handleBuffer handleEvent (encodeAll events ++ rest) (encodeAll events).length fuel
          (.start state) = some (last, final)) ∧
      Decodes handleEvent (encodeAll events).length (events.map RawEvent.event) (.start state)
        last final :=
  handleBuffer_from [] fits rfl

end Loop

/-- A file is created in one directory, and the other one is deleted. -/
def twoEvents : List RawEvent :=
  [{ wd := 1, mask := IN_CREATE, cookie := 0, name := [0x66], padding := 15,
      clean := by decide, terminated := fun _ => by decide },
    { wd := 2, mask := IN_DELETE_SELF, cookie := 0, name := [], padding := 0,
      clean := by decide, terminated := by simp }]

/-- The events that `handleEvent` was called with. -/
def record (calls : List InotifyEvent) (event : InotifyEvent) :
    Except Empty (List InotifyEvent) :=
  .ok (calls ++ [event])

theorem handleBuffer_encode_twoEvents :
    ∃ final, handleBuffer record (encodeAll twoEvents ++ [0x2A]) 48 3 (.start []) =
        some (.finished, final) ∧
      Decodes record 48 (twoEvents.map RawEvent.event) (.start []) .finished final := by
  obtain ⟨last, final, runs, decodes⟩ :=
    handleBuffer_encode record [] twoEvents [0x2A] (by decide)
  have finished : last = .finished := by
    rcases decodes.ends with finished | ⟨ex, -⟩
    · exact finished
    · exact ex.elim
  subst finished
  exact ⟨final, runs 3 (by decide), decodes⟩

end Linux

end FileEvents
