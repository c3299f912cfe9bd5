import FileEvents.Delivery.ListedSet
import FileEvents.Native.CppException
import FileEvents.Native.UnorderedMap
import FileEvents.Ownership.Store

/-!
# The streams of the macOS server

`WatchPoint` and the watch points of `Server` in `apple_fsnotifier.cpp`, with the objects of
Core Foundation and FSEvents they create. A reference may be used and released only while it
is counted, an array retains its values, and a stream may be started only on a dispatch queue,
invalidated only while it is not started and released only when it is invalidated. A function
that uses an object against these rules has no result here.

What the operating system answers is an argument.

## Main definitions

* `World` — the objects that were created
* `createWatchPoint`, `destroyWatchPoint` — the constructor and the destructor
* `Server`, `registerPaths`, `unregisterPaths`, `shutdownRunLoop`, `destroy`
* `perform` — what a call does to the set of watched paths

## Main results

* `ownsStreams` — no object is misused, the streams that are alive are those of the watched paths,
  and every call has the outcome it has on the set
-/

namespace FileEvents

open Delivery Ownership

namespace Apple

namespace Streams

/-! ## The objects -/

/-- A `CFMutableArrayRef` of strings. -/
structure PathArray where
  references : ℕ
  values : List ℕ
  deriving DecidableEq, Repr

/-- What has become of an `FSEventStreamRef`. -/
inductive Phase
  | created
  /-- It has a dispatch queue. -/
  | scheduled
  | started
  | invalidated
  | released
  deriving DecidableEq, Repr

/-- The functions on an `FSEventStreamRef`. -/
inductive StreamCall
  | setDispatchQueue
  /-- An `FSEventStreamStart` that returns true. -/
  | start
  | stop
  | invalidate
  | release
  deriving DecidableEq, Repr

/-- What a function makes of a stream it may be called on. -/
def Phase.after : Phase → StreamCall → Option Phase
  | created, .setDispatchQueue => some scheduled
  | scheduled, .start => some started
  | started, .stop => some scheduled
  | scheduled, .invalidate => some invalidated
  | invalidated, .release => some released
  | _, _ => none

/-- All objects that were ever created. -/
structure World where
  /-- The reference counts of the `CFStringRef`s. -/
  strings : List ℕ
  arrays : List PathArray
  streams : List Phase
  deriving DecidableEq, Repr

namespace World

/-- `CFStringCreateWithCharacters`. -/
def createString (w : World) : ℕ × World :=
  (w.strings.length, { w with strings := w.strings ++ [1] })

/-- `CFArrayCreateMutable`. -/
def createArray (w : World) : ℕ × World :=
  (w.arrays.length, { w with arrays := w.arrays ++ [{ references := 1, values := [] }] })

/-- Retains a string. -/
def retainString (w : World) (i : ℕ) : Option World :=
  match w.strings[i]? with
  | some (references + 1) => some { w with strings := w.strings.set i (references + 2) }
  | _ => none

/-- `CFRelease` of a string. -/
def releaseString (w : World) (i : ℕ) : Option World :=
  match w.strings[i]? with
  | some (references + 1) => some { w with strings := w.strings.set i references }
  | _ => none

/-- `CFArrayAppendValue`. With `kCFTypeArrayCallBacks` the array retains its values. -/
def appendValue (w : World) (array value : ℕ) : Option World :=
  match w.arrays[array]? with
  | some { references := references + 1, values } =>
    ({ w with
      arrays := w.arrays.set array
        { references := references + 1, values := values ++ [value] } }).retainString value
  | _ => none

/-- `CFRelease` of an array. The last reference releases its values. -/
def releaseArray (w : World) (array : ℕ) : Option World :=
  match w.arrays[array]? with
  | some { references := 1, values } =>
    values.foldlM releaseString
      { w with arrays := w.arrays.set array { references := 0, values := [] } }
  | some { references := references + 2, values } =>
    some { w with arrays := w.arrays.set array { references := references + 1, values } }
  | _ => none

/-- `FSEventStreamCreate`, which copies the paths. -/
def createStream (w : World) (pathsToWatch : ℕ) : Option (ℕ × World) :=
  match w.arrays[pathsToWatch]? with
  | some { references := _ + 1, .. } =>
    some (w.streams.length, { w with streams := w.streams ++ [.created] })
  | _ => none

/-- A function on a stream. -/
def callStream (w : World) (i : ℕ) (call : StreamCall) : Option World :=
  (w.streams[i]?.bind fun phase => phase.after call).map fun phase =>
    { w with streams := w.streams.set i phase }

end World

/-! ## Watch points -/

/-- What the operating system answers to the constructor. -/
structure ConstructAnswers where
  /-- Whether `CFStringCreateWithCharacters` returns a string. -/
  createString : Bool
  /-- Whether `CFArrayCreateMutable` returns an array. -/
  createArray : Bool
  /-- Whether `FSEventStreamCreate` returns a stream. -/
  createStream : Bool
  /-- What `FSEventStreamStart` returns. -/
  start : Bool
  deriving DecidableEq, Repr

/-- The constructor of `WatchPoint`: its stream, or what it throws. -/
def createWatchPoint (w : World) (path : U16String) (answers : ConstructAnswers) :
    Option (Except CppException ℕ × World) := do
  if answers.createString = false then
    return (.error (fileWatcherException "Could not allocate CFString for path" path none), w)
  let (cfPath, w) := w.createString
  if answers.createArray = false then
    let w ← w.releaseString cfPath
    return (.error (fileWatcherException "Could not allocate array to store root to watch" path
      none), w)
  let (pathArray, w) := w.createArray
  let w ← w.appendValue pathArray cfPath
  if answers.createStream = false then
    let w ← w.releaseArray pathArray
    let w ← w.releaseString cfPath
    return (.error (fileWatcherException "Couldn't add watch" path none), w)
  let (watcherStream, w) ← w.createStream pathArray
  let w ← w.releaseArray pathArray
  let w ← w.releaseString cfPath
  let w ← w.callStream watcherStream .setDispatchQueue
  if answers.start = false then
    let w ← w.callStream watcherStream .invalidate
    let w ← w.callStream watcherStream .release
    return (.error (fileWatcherException "Could not start the FSEvents stream" path none), w)
  let w ← w.callStream watcherStream .start
  return (.ok watcherStream, w)

/-- `~WatchPoint`. -/
def destroyWatchPoint (w : World) (watcherStream : ℕ) : Option World := do
  let w ← w.callStream watcherStream .stop
  let w ← w.callStream watcherStream .invalidate
  w.callStream watcherStream .release

/-! ## The server -/

/-- `Server`, with all objects. The value of a watch point is its stream. -/
structure Server where
  watchPoints : AList fun _ : U16String => ℕ
  world : World

/-- `Server::registerPaths`. -/
def registerPaths (server : Server) :
    List (U16String × ConstructAnswers) → Option (Except CppException Unit × Server)
  | [] => some (.ok (), server)
  | (path, answers) :: paths =>
    if path ∈ server.watchPoints then
      some (.error (fileWatcherException "Already watching path" path none), server)
    else
      match createWatchPoint server.world path answers with
      | none => none
      | some (.error ex, world) => some (.error ex, { server with world })
      | some (.ok watcherStream, world) =>
        registerPaths
          { watchPoints := emplace server.watchPoints path watcherStream, world } paths

/-- The log message of `unregisterPaths`: the conversion of its path may throw, and so may
the logger. -/
def logFailure (path : U16String) (logger : Option CppException) : Option CppException :=
  if utf16ToUtf8String path = none then some toBytesError else logger

/-- `Server::unregisterPaths`. -/
def unregisterPaths (server : Server) :
    List (U16String × Option CppException) → Option (Except CppException Bool × Server)
  | [] => some (.ok true, server)
  | (path, logger) :: paths =>
    match server.watchPoints.lookup path with
    | some watcherStream =>
      match destroyWatchPoint server.world watcherStream with
      | none => none
      | some world =>
        unregisterPaths { watchPoints := server.watchPoints.erase path, world } paths
    | none =>
      match logFailure path logger with
      | some ex => some (.error ex, server)
      | none => (unregisterPaths server paths).map fun (result, server) =>
        (result.map fun _ => false, server)

/-- `watchPoints.clear()`, given the entries that are left. -/
def clear (w : World) : List (Sigma fun _ : U16String => ℕ) → Option World
  | [] => some w
  | ⟨_, watcherStream⟩ :: entries =>
    (destroyWatchPoint w watcherStream).bind fun w => clear w entries

/-- What `Server::shutdownRunLoop` does to the watch points. `~Server` does the same. -/
def shutdownRunLoop (server : Server) : Option Server :=
  (clear server.world server.watchPoints.entries).map fun world => { watchPoints := ∅, world }

/-! ## The set of watched paths -/

/-- The calls of a client. -/
inductive Call
  | registerPaths (paths : List (U16String × ConstructAnswers))
  | unregisterPaths (paths : List (U16String × Option CppException))
  | shutdownRunLoop

/-- Why a path cannot be watched. -/
def ConstructAnswers.failure (answers : ConstructAnswers) (path : U16String) :
    Option CppException :=
  if answers.createString = false then
    some (fileWatcherException "Could not allocate CFString for path" path none)
  else if answers.createArray = false then
    some (fileWatcherException "Could not allocate array to store root to watch" path none)
  else if answers.createStream = false then
    some (fileWatcherException "Couldn't add watch" path none)
  else if answers.start = false then
    some (fileWatcherException "Could not start the FSEvents stream" path none)
  else none

/-- The exception that ends `registerPaths` at a path. -/
def stopped (entry : U16String × Option CppException) : CppException :=
  entry.2.getD (fileWatcherException "Already watching path" entry.1 none)

/-- What a call does to the set of watched paths. -/
def perform (S : Finset U16String) : Call → Except CppException Bool × Finset U16String
  | .registerPaths paths =>
    match insertGranted S (paths.map fun entry => (entry.1, entry.2.failure entry.1)) with
    | (none, S) => (.ok true, S)
    | (some entry, S) => (.error (stopped entry), S)
  | .unregisterPaths paths =>
    eraseComplaining S (paths.map fun entry => (entry.1, logFailure entry.1 entry.2))
  | .shutdownRunLoop => (.ok true, ∅)

/-- What calls do to the set, one after the other. -/
def performAll (S : Finset U16String) :
    List Call → List (Except CppException Bool) × Finset U16String
  | [] => ([], S)
  | call :: calls =>
    ((perform S call).1 :: (performAll (perform S call).2 calls).1,
      (performAll (perform S call).2 calls).2)

/-- A call of a client. -/
def Server.call (server : Server) : Call → Option (Except CppException Bool × Server)
  | .registerPaths paths => (registerPaths server paths).map fun (result, server) =>
      (result.map fun _ => true, server)
  | .unregisterPaths paths => unregisterPaths server paths
  | .shutdownRunLoop => (Streams.shutdownRunLoop server).map fun server => (.ok true, server)

/-- The calls of a client, one after the other, with their outcomes. -/
def Server.callAll (server : Server) :
    List Call → Option (List (Except CppException Bool) × Server)
  | [] => some ([], server)
  | call :: calls => (server.call call).bind fun (outcome, server) =>
      (server.callAll calls).map fun (outcomes, server) => (outcome :: outcomes, server)

/-- A server that was just created. -/
def Server.start : Server where
  watchPoints := ∅
  world := { strings := [], arrays := [], streams := [] }

/-! ## No object is misused -/

/-- The streams that are alive are started and belong to the paths, and no string and no array
is referenced any more. -/
structure Tidy (w : World) (streamOf : U16String → Option ℕ) : Prop where
  strings : ∀ references ∈ w.strings, references = 0
  arrays : ∀ array ∈ w.arrays, array = { references := 0, values := [] }
  owns : Owns (· ≠ Phase.released) w.streams streamOf
  started : ∀ path i, streamOf path = some i → w.streams[i]? = some .started

section Tidy

variable {w : World} {streamOf : U16String → Option ℕ} {path : U16String}
variable {answers : ConstructAnswers}

/-- What the constructor leaves behind where it throws, and where it does not. -/
theorem createWatchPoint_cases (w : World) (path : U16String) (answers : ConstructAnswers) :
    (∃ ex strings arrays streams, answers.failure path = some ex ∧
        (∀ references ∈ strings, references = 0) ∧
        (∀ array ∈ arrays, array = { references := 0, values := [] }) ∧
        (streams = [] ∨ streams = [Phase.released]) ∧
        createWatchPoint w path answers =
          some (.error ex,
            { strings := w.strings ++ strings
              arrays := w.arrays ++ arrays
              streams := w.streams ++ streams })) ∨
      (answers.failure path = none ∧
        createWatchPoint w path answers =
          some (.ok w.streams.length,
            { strings := w.strings ++ [0]
              arrays := w.arrays ++ [{ references := 0, values := [] }]
              streams := w.streams ++ [.started] })) := by
  obtain ⟨_ | _, _ | _, _ | _, _ | _⟩ := answers
  case true.true.true.true =>
    right
    simp [ConstructAnswers.failure, createWatchPoint, World.createString, World.createArray,
      World.appendValue, World.retainString, World.createStream, World.releaseArray,
      World.releaseString, World.callStream, Phase.after]
  case true.true.true.false =>
    refine .inl ⟨_, [0], [{ references := 0, values := [] }], [.released], rfl, ?_⟩
    simp [createWatchPoint, World.createString, World.createArray,
      World.appendValue, World.retainString, World.createStream, World.releaseArray,
      World.releaseString, World.callStream, Phase.after]
  case true.true.false.true | true.true.false.false =>
    refine .inl ⟨_, [0], [{ references := 0, values := [] }], [], rfl, ?_⟩
    simp [createWatchPoint, World.createString, World.createArray,
      World.appendValue, World.retainString, World.releaseArray, World.releaseString]
  case true.false.true.true | true.false.true.false | true.false.false.true
      | true.false.false.false =>
    refine .inl ⟨_, [0], [], [], rfl, ?_⟩
    simp [createWatchPoint, World.createString, World.releaseString]
  all_goals
    refine .inl ⟨_, [], [], [], rfl, ?_⟩
    simp [createWatchPoint]

theorem forall_mem_append_of {α : Type} {P : α → Prop} {l m : List α} (old : ∀ a ∈ l, P a)
    (new : ∀ a ∈ m, P a) : ∀ a ∈ l ++ m, P a :=
  List.forall_mem_append.mpr ⟨old, new⟩

/-- A started stream stays where it is when a stream is created. -/
theorem Tidy.started_append (tidy : Tidy w streamOf) (streams : List Phase) {i : ℕ}
    (held : streamOf path = some i) : (w.streams ++ streams)[i]? = some .started := by
  have found := tidy.started path i held
  rw [List.getElem?_append_left (List.getElem?_eq_some_iff.mp found).1, found]

/-- The constructor throws where it has a reason to, and leaves nothing behind. -/
theorem Tidy.createWatchPoint_throws (tidy : Tidy w streamOf) {ex : CppException}
    (fails : answers.failure path = some ex) :
    ∃ w', createWatchPoint w path answers = some (.error ex, w') ∧ Tidy w' streamOf := by
  obtain ⟨ex', strings, arrays, streams, fails', stringsDead, arraysDead, streamsDead, created⟩ |
    ⟨succeeds, -⟩ := createWatchPoint_cases w path answers
  · obtain rfl := Option.some_inj.mp (fails.symm.trans fails')
    refine ⟨_, created, ?_⟩
    exact
      { strings := forall_mem_append_of tidy.strings stringsDead
        arrays := forall_mem_append_of tidy.arrays arraysDead
        owns := by
          obtain rfl | rfl := streamsDead
          · simpa using tidy.owns
          · exact tidy.owns.createDead (by simp)
        started := fun path i held => tidy.started_append streams held }
  · rw [succeeds] at fails
    cases fails

/-- Otherwise it returns a started stream, and that is all it leaves behind. -/
theorem Tidy.createWatchPoint_returns (tidy : Tidy w streamOf) (free : streamOf path = none)
    (succeeds : answers.failure path = none) :
    ∃ w', createWatchPoint w path answers = some (.ok w.streams.length, w') ∧
      Tidy w' (Function.update streamOf path (some w.streams.length)) := by
  obtain ⟨ex', strings, arrays, streams, fails, -⟩ | ⟨-, created⟩ :=
    createWatchPoint_cases w path answers
  · rw [fails] at succeeds
    cases succeeds
  · refine ⟨_, created, ?_⟩
    exact
      { strings := forall_mem_append_of tidy.strings (by simp)
        arrays := forall_mem_append_of tidy.arrays (by simp)
        owns := tidy.owns.create free (by simp)
        started := fun other i held => by
          by_cases same : other = path
          · subst same
            rw [Function.update_self, Option.some_inj] at held
            simp [← held]
          · rw [Function.update_of_ne same] at held
            exact tidy.started_append _ held }

/-- The destructor ends the life of the stream. -/
theorem Tidy.destroyWatchPoint (tidy : Tidy w streamOf) {i : ℕ}
    (held : streamOf path = some i) :
    ∃ w', Streams.destroyWatchPoint w i = some w' ∧
      Tidy w' (Function.update streamOf path none) := by
  have started := tidy.started path i held
  have changed (phase : Phase) : (w.streams.set i phase)[i]? = some phase :=
    List.getElem?_set_self (List.getElem?_eq_some_iff.mp started).1
  refine ⟨{ w with streams := w.streams.set i .released }, ?_, ?_⟩
  · simp [Streams.destroyWatchPoint, World.callStream, started, changed, Phase.after]
  · exact
      { strings := tidy.strings
        arrays := tidy.arrays
        owns := tidy.owns.kill held (by simp)
        started := fun other j held' => by
          rw [Function.update_apply] at held'
          split_ifs at held' with same
          have apart : i ≠ j := fun equal =>
            same (tidy.owns.once other path j held' (equal ▸ held))
          rw [List.getElem?_set_ne apart]
          exact tidy.started other j held' }

/-- Destroying all watch points leaves nothing alive. -/
theorem Tidy.clear {entries : List (Sigma fun _ : U16String => ℕ)} (distinct : entries.NodupKeys)
    (tidy : Tidy w fun path => entries.dlookup path) :
    ∃ w', Streams.clear w entries = some w' ∧ Tidy w' fun _ : U16String => none := by
  induction entries generalizing w with
  | nil => exact ⟨w, rfl, tidy⟩
  | cons entry entries ih =>
    obtain ⟨path, i⟩ := entry
    obtain ⟨absent, distinct⟩ := List.nodupKeys_cons.mp distinct
    obtain ⟨w', destroyed, tidy'⟩ := tidy.destroyWatchPoint (List.dlookup_cons_eq entries path i)
    have rest : (Function.update (fun other => List.dlookup other (⟨path, i⟩ :: entries)) path
        none) = fun other => entries.dlookup other := by
      funext other
      by_cases same : other = path
      · subst same
        rw [Function.update_self, List.dlookup_eq_none.mpr absent]
      · rw [Function.update_of_ne same, List.dlookup_cons_ne entries ⟨path, i⟩ same]
    obtain ⟨w'', cleared, tidy''⟩ := ih distinct (rest ▸ tidy')
    exact ⟨w'', by simp [Streams.clear, destroyed, cleared], tidy''⟩

end Tidy

/-! ## The server is a set of paths -/

/-- The server watches the paths of the set, each with a stream of its own. -/
structure Mirrors (server : Server) (S : Finset U16String) : Prop where
  tidy : Tidy server.world fun path => server.watchPoints.lookup path
  watched : ∀ path, path ∈ server.watchPoints ↔ path ∈ S

section Mirrors

variable {server : Server} {S : Finset U16String}

theorem Mirrors.insert (mirrors : Mirrors server S) {path : U16String} {i : ℕ} {w : World}
    (new : path ∉ server.watchPoints)
    (tidy : Tidy w (Function.update (fun path => server.watchPoints.lookup path) path (some i))) :
    Mirrors { watchPoints := emplace server.watchPoints path i, world := w } (insert path S) where
  tidy := by
    rw [emplace_of_not_mem new]
    convert tidy using 1
    funext other
    rw [lookup_insert_eq, Function.update_apply]
  watched := fun other => by
    rw [mem_emplace, Finset.mem_insert, mirrors.watched]

theorem Mirrors.erase (mirrors : Mirrors server S) {path : U16String} {w : World}
    (tidy : Tidy w (Function.update (fun path => server.watchPoints.lookup path) path none)) :
    Mirrors { watchPoints := server.watchPoints.erase path, world := w } (S.erase path) where
  tidy := by
    convert tidy using 1
    funext other
    rw [lookup_erase_eq, Function.update_apply]
  watched := fun other => by
    rw [AList.mem_erase, Finset.mem_erase, mirrors.watched]

theorem Mirrors.registerPaths (mirrors : Mirrors server S)
    (paths : List (U16String × ConstructAnswers)) :
    ∃ server', Mirrors server' (perform S (.registerPaths paths)).2 ∧
      server.call (.registerPaths paths) =
        some ((perform S (.registerPaths paths)).1, server') := by
  induction paths generalizing server S with
  | nil => exact ⟨server, mirrors, rfl⟩
  | cons entry paths ih =>
    obtain ⟨path, answers⟩ := entry
    simp only [perform, List.map_cons, insertGranted, Server.call, Streams.registerPaths]
    by_cases known : path ∈ server.watchPoints
    · rw [if_pos known, if_pos ((mirrors.watched path).mp known)]
      exact ⟨server, mirrors, rfl⟩
    · rw [if_neg known, if_neg fun mem => known ((mirrors.watched path).mpr mem)]
      cases fails : answers.failure path with
      | some ex =>
        obtain ⟨w, created, tidy⟩ := mirrors.tidy.createWatchPoint_throws fails
        rw [created]
        exact ⟨{ server with world := w }, ⟨tidy, mirrors.watched⟩, rfl⟩
      | none =>
        have free : server.watchPoints.lookup path = none := AList.lookup_eq_none.mpr known
        obtain ⟨w, created, tidy⟩ := mirrors.tidy.createWatchPoint_returns free fails
        rw [created]
        exact ih (mirrors.insert known tidy)

theorem Mirrors.unregisterPaths (mirrors : Mirrors server S)
    (paths : List (U16String × Option CppException)) :
    ∃ server', Mirrors server' (perform S (.unregisterPaths paths)).2 ∧
      Streams.unregisterPaths server paths =
        some ((perform S (.unregisterPaths paths)).1, server') := by
  induction paths generalizing server S with
  | nil => exact ⟨server, mirrors, rfl⟩
  | cons entry paths ih =>
    obtain ⟨path, logger⟩ := entry
    simp only [perform, List.map_cons, eraseComplaining, Streams.unregisterPaths]
    cases found : server.watchPoints.lookup path with
    | some i =>
      obtain ⟨w, destroyed, tidy⟩ := mirrors.tidy.destroyWatchPoint found
      have known : path ∈ server.watchPoints := mem_iff_lookup.mpr ⟨i, found⟩
      rw [if_pos ((mirrors.watched path).mp known)]
      simp only [destroyed]
      exact ih (mirrors.erase tidy)
    | none =>
      have unknown : path ∉ server.watchPoints := AList.lookup_eq_none.mp found
      rw [if_neg fun mem => unknown ((mirrors.watched path).mpr mem)]
      cases logFailure path logger with
      | some ex => exact ⟨server, mirrors, rfl⟩
      | none =>
        obtain ⟨server', mirrors', unregistered⟩ := ih mirrors
        exact ⟨server', mirrors', by simp [unregistered, perform]⟩

theorem Mirrors.shutdownRunLoop (mirrors : Mirrors server S) :
    ∃ server', Mirrors server' ∅ ∧ Streams.shutdownRunLoop server = some server' := by
  obtain ⟨w, cleared, tidy⟩ := mirrors.tidy.clear server.watchPoints.nodupKeys
  exact ⟨{ watchPoints := ∅, world := w }, ⟨tidy, by simp⟩,
    by simp [Streams.shutdownRunLoop, cleared]⟩

/-- A call does to the server what it does to the set. -/
theorem Mirrors.call (mirrors : Mirrors server S) (call : Call) :
    ∃ server', Mirrors server' (perform S call).2 ∧
      server.call call = some ((perform S call).1, server') := by
  cases call with
  | registerPaths paths => exact mirrors.registerPaths paths
  | unregisterPaths paths => exact mirrors.unregisterPaths paths
  | shutdownRunLoop =>
    obtain ⟨server', mirrors', ended⟩ := mirrors.shutdownRunLoop
    exact ⟨server', mirrors', by simp [Server.call, ended, perform]⟩

theorem Mirrors.callAll (mirrors : Mirrors server S) (calls : List Call) :
    ∃ server', Mirrors server' (performAll S calls).2 ∧
      server.callAll calls = some ((performAll S calls).1, server') := by
  induction calls generalizing server S with
  | nil => exact ⟨server, mirrors, rfl⟩
  | cons call calls ih =>
    obtain ⟨middle, mirrors', called⟩ := mirrors.call call
    obtain ⟨server', mirrors'', rest⟩ := ih mirrors'
    exact ⟨server', mirrors'', by simp [Server.callAll, called, rest, performAll]⟩

end Mirrors

theorem mirrors_start : Mirrors Server.start ∅ where
  tidy :=
    { strings := by simp [Server.start]
      arrays := by simp [Server.start]
      owns := Owns.empty
      started := nofun }
  watched := by simp [Server.start]

/-- Whatever a client calls and whatever the operating system answers, no string, array or
stream is used or released against its rules, every call has the outcome it has on the set of
watched paths, each path of the set has one started stream of its own, everything else is
released, and the destructor releases the rest. -/
theorem ownsStreams (calls : List Call) :
    ∃ server, Server.start.callAll calls = some ((performAll ∅ calls).1, server) ∧
      (∀ path, path ∈ (performAll ∅ calls).2 ↔
        ∃ i, server.watchPoints.lookup path = some i ∧
          server.world.streams[i]? = some .started) ∧
      Tidy server.world (fun path => server.watchPoints.lookup path) ∧
      ∃ ended, shutdownRunLoop server = some ended ∧
        ∀ phase ∈ ended.world.streams, phase = .released := by
  obtain ⟨server, mirrors, called⟩ := mirrors_start.callAll calls
  obtain ⟨ended, mirrors', destroyed⟩ := mirrors.shutdownRunLoop
  refine ⟨server, called, fun path => ?_, mirrors.tidy, ended, destroyed, fun phase mem => ?_⟩
  · rw [← mirrors.watched, mem_iff_lookup]
    exact exists_congr fun i => ⟨fun found => ⟨found, mirrors.tidy.started path i found⟩, And.left⟩
  · have unwatched (path : U16String) : ended.watchPoints.lookup path = none :=
      AList.lookup_eq_none.mpr fun mem =>
        Finset.notMem_empty path ((mirrors'.watched path).mp mem)
    exact not_not.mp (mirrors'.tidy.owns.dead_of_none unwatched mem)

end Streams

end Apple

end FileEvents
