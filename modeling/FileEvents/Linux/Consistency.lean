import FileEvents.Delivery.ClosedStream
import FileEvents.Linux.System

/-!
# The tables and the kernel agree

The invariant of the Linux server, whether or not events are lost and handlers throw. It
has two parts. `Consistent` relates the tables with one another and with the active and
retired descriptors of the kernel. `Streams` says where the events of a descriptor may
end: an active descriptor has no `IN_IGNORED` among its unhandled events, a retired one
has at most the last of them, and any other descriptor has no unhandled event at all.
-/

namespace FileEvents

namespace Linux

open Delivery

/-! ## The tables -/

/-- The two tables of watched paths are inverse to each other. -/
def Server.Inverse (server : Server) : Prop :=
  ∀ wd path, server.watchRoots.lookup wd = some path ↔
    ∃ watchPoint, server.watchPoints.lookup path = some watchPoint ∧
      watchPoint.watchDescriptor = wd

namespace Server.Inverse

variable {server : Server} {event : InotifyEvent} {order : List U16String}

/-- `handleEvent` throws only on the bad name of an event of a listening watch point. -/
theorem handleEvent_error (h : server.Inverse) {ex : CppException}
    (thrown : server.handleEvent event order = .error ex) :
    ex = fromBytesError ∧ server.listensOn event.wd = true ∧
      utf8ToUtf16String event.name = none := by
  unfold Server.handleEvent at thrown
  split at thrown
  · cases thrown
  split at thrown
  · cases thrown
  split at thrown
  next =>
    split at thrown
    · cases thrown
    · split at thrown <;> cases thrown
  next path root =>
    obtain ⟨watchPoint, found, same⟩ := (h _ _).mp root
    rw [found] at thrown
    dsimp only at thrown
    split_ifs at thrown with ends stopped
    split at thrown
    next bad =>
      have listens : server.listensOn event.wd = true := by
        simp [Server.listensOn, root, found, not_not.mp stopped]
      exact ⟨(Except.error.inj thrown).symm, listens, bad⟩
    next => cases thrown

/-- `watchPoints.at(path)` does not fail. -/
theorem at_succeeds (h : server.Inverse) (event : InotifyEvent) (order : List U16String) :
    server.handleEvent event order ≠ .error .outOfRange := by
  intro thrown
  obtain ⟨same, -⟩ := h.handleEvent_error thrown
  cases same

end Server.Inverse

/-- The tables of the server agree with one another and with the kernel, where
`registering` has a watch that the tables do not know yet. -/
structure Consistent (server : Server) (registering : Option WatchPoint) : Prop where
  /-- The two tables of watched paths are inverse to each other. -/
  roots : ∀ wd path, server.watchRoots.lookup wd = some path ↔
    ∃ watchPoint, server.watchPoints.lookup path = some watchPoint ∧
      watchPoint.watchDescriptor = wd
  paths : ∀ path watchPoint, server.watchPoints.lookup path = some watchPoint →
    watchPoint.path = path
  known : ∀ wd ∈ server.watchRoots, wd ∈ server.inotify.active ∨ wd ∈ server.inotify.retired
  recent : ∀ wd ∈ server.recentlyUnregisteredWatchRoots,
    wd ∈ server.inotify.retired ∧ wd ∉ server.watchRoots
  cancelled : ∀ path watchPoint, server.watchPoints.lookup path = some watchPoint →
    watchPoint.status = .cancelled → watchPoint.watchDescriptor ∉ server.inotify.active
  active : ∀ wd ∈ server.inotify.active, wd ∉ server.inotify.retired
  /-- Every active descriptor has a watch point that listens or is about to. -/
  listening : ∀ wd ∈ server.inotify.active,
    (∃ path watchPoint, server.watchPoints.lookup path = some watchPoint ∧
      watchPoint.status = .listening ∧ watchPoint.watchDescriptor = wd) ∨
    ∃ watchPoint, registering = some watchPoint ∧ watchPoint.watchDescriptor = wd
  entering : ∀ watchPoint, registering = some watchPoint →
    watchPoint.path ∉ server.watchPoints ∧ watchPoint.status = .listening ∧
      (watchPoint.watchDescriptor ∈ server.inotify.active ∨
        watchPoint.watchDescriptor ∈ server.inotify.retired) ∧
      watchPoint.watchDescriptor ∉ server.recentlyUnregisteredWatchRoots

namespace Consistent

variable {server server' : Server} {registering : Option WatchPoint} {watchPoint : WatchPoint}
variable {path : U16String} {wd : WatchDescriptor} {inotify : Inotify}

theorem root_of_watchPoint (h : Consistent server registering)
    (found : server.watchPoints.lookup path = some watchPoint) :
    server.watchRoots.lookup watchPoint.watchDescriptor = some path :=
  (h.roots _ _).mpr ⟨watchPoint, found, rfl⟩

/-- The descriptor of a watch point was granted and is not free to be granted again. -/
theorem granted_of_watchPoint (h : Consistent server registering)
    (found : server.watchPoints.lookup path = some watchPoint) :
    watchPoint.watchDescriptor ∈ server.inotify.active ∨
      watchPoint.watchDescriptor ∈ server.inotify.retired :=
  h.known _ (mem_iff_lookup.mpr ⟨path, h.root_of_watchPoint found⟩)

/-- A descriptor belongs to one path only. -/
theorem path_unique (h : Consistent server registering) {path' : U16String}
    {watchPoint' : WatchPoint} (found : server.watchPoints.lookup path = some watchPoint)
    (found' : server.watchPoints.lookup path' = some watchPoint')
    (same : watchPoint.watchDescriptor = watchPoint'.watchDescriptor) : path = path' := by
  have root := h.root_of_watchPoint found
  rw [same, h.root_of_watchPoint found'] at root
  exact (Option.some_inj.mp root).symm

/-- A descriptor that may be granted belongs to no watch point. -/
theorem ne_of_canGrant (h : Consistent server registering) {fresh : WatchDescriptor}
    (found : server.watchPoints.lookup path = some watchPoint)
    (granted : server.inotify.CanGrant fresh) : watchPoint.watchDescriptor ≠ fresh := by
  rintro rfl
  exact (h.granted_of_watchPoint found).elim granted.2.1 granted.2.2

/-- While nothing is registered, the tables know every active descriptor. -/
theorem root_of_active (h : Consistent server none) (active : wd ∈ server.inotify.active) :
    wd ∈ server.watchRoots := by
  obtain ⟨path, watchPoint, found, -, rfl⟩ | ⟨_, none, -⟩ := h.listening wd active
  · exact mem_iff_lookup.mpr ⟨path, h.root_of_watchPoint found⟩
  · cases none

/-- The watch points that are left once the end of a watch is handled were there before, and
it was not their watch. -/
theorem survives_finish (h : Consistent server registering)
    (found : (server.finish wd).watchPoints.lookup path = some watchPoint) :
    server.watchPoints.lookup path = some watchPoint ∧ wd ≠ watchPoint.watchDescriptor := by
  unfold Server.finish at found
  split at found
  next unwatched =>
    refine ⟨found, fun same => ?_⟩
    rw [same, h.root_of_watchPoint found] at unwatched
    cases unwatched
  next other watched =>
    simp only [lookup_erase_eq] at found
    split_ifs at found with different
    refine ⟨found, fun same => different ?_⟩
    rw [same, h.root_of_watchPoint found] at watched
    exact Option.some_inj.mp watched

/-- Handling the end of a watch removes no other watch point. -/
theorem eq_of_not_mem_finish (h : Consistent server registering)
    (found : server.watchPoints.lookup path = some watchPoint)
    (removed : path ∉ (server.finish wd).watchPoints) : watchPoint.watchDescriptor = wd := by
  by_contra different
  refine removed (mem_iff_lookup.mpr ⟨watchPoint, ?_⟩)
  unfold Server.finish
  split
  next => exact found
  next other root =>
    dsimp only
    rw [lookup_erase_eq, if_neg]
    · exact found
    · rintro rfl
      obtain ⟨other, found', same⟩ := (h.roots _ _).mp root
      obtain rfl := Option.some_inj.mp (found.symm.trans found')
      exact different same

/-- Of the kernel only the active and the retired descriptors matter, and neither the
buffer nor the termination flag does. -/
theorem congr (h : Consistent server registering) {buffer : List InotifyEvent}
    {shouldTerminate : Bool} (active : inotify.active = server.inotify.active)
    (retired : inotify.retired = server.inotify.retired) :
    Consistent { server with inotify, buffer, shouldTerminate } registering := by
  obtain ⟨roots, paths, known, recent, cancelled, disjoint, listening, entering⟩ := h
  constructor <;> simp only [active, retired] <;> assumption

/-- The removal of a watch by the kernel keeps the tables consistent. -/
theorem retire (h : Consistent server registering) (wd : WatchDescriptor) :
    Consistent { server with inotify := server.inotify.retire wd } registering := by
  have settled : ∀ other, other ∈ server.inotify.active ∨ other ∈ server.inotify.retired →
      other ∈ (server.inotify.retire wd).active ∨ other ∈ (server.inotify.retire wd).retired := by
    intro other
    simp only [Inotify.active_retire, Inotify.retired_retire, AList.mem_erase, List.mem_cons]
    tauto
  constructor
  case known => exact fun other mem => settled other (h.known other mem)
  case recent =>
    intro other mem
    exact ⟨List.mem_cons_of_mem _ (h.recent other mem).1, (h.recent other mem).2⟩
  case cancelled =>
    intro path watchPoint found status mem
    exact h.cancelled path watchPoint found status (AList.mem_erase.mp mem).2
  case active =>
    intro other mem retired
    obtain ⟨different, active⟩ := AList.mem_erase.mp mem
    rcases List.mem_cons.mp retired with same | retired
    · exact different same
    · exact h.active other active retired
  case listening => exact fun other mem => h.listening other (AList.mem_erase.mp mem).2
  case entering =>
    intro watchPoint entering
    obtain ⟨absent, status, granted, distinct⟩ := h.entering watchPoint entering
    exact ⟨absent, status, settled _ granted, distinct⟩
  case roots => exact h.roots
  case paths => exact h.paths

/-- A watch point whose watch is gone may be cancelled in place. -/
theorem cancel (h : Consistent server registering)
    (found : server.watchPoints.lookup path = some watchPoint)
    (gone : watchPoint.watchDescriptor ∉ server.inotify.active) :
    Consistent
      { server with
        watchPoints :=
          server.watchPoints.insert path { watchPoint with status := .cancelled } }
      registering := by
  obtain ⟨roots, paths, known, recent, cancelled, disjoint, listening, entering⟩ := h
  constructor <;> simp only [lookup_insert_eq, AList.mem_insert] <;> grind [mem_iff_lookup]

/-- A watch point whose watch is gone may be moved to the recently unregistered ones. -/
theorem forget (h : Consistent server none)
    (found : server.watchPoints.lookup path = some watchPoint)
    (gone : watchPoint.watchDescriptor ∉ server.inotify.active) :
    Consistent (server.forgetWatchPoint path watchPoint.watchDescriptor) none := by
  have root := h.root_of_watchPoint found
  have unique : ∀ path' watchPoint', server.watchPoints.lookup path' = some watchPoint' →
      watchPoint.watchDescriptor = watchPoint'.watchDescriptor → path = path' :=
    fun _ _ => h.path_unique found
  obtain ⟨roots, paths, known, recent, cancelled, disjoint, listening, -⟩ := h
  constructor <;>
    simp only [Server.forgetWatchPoint, lookup_erase_eq, AList.mem_erase, mem_emplace] <;>
    grind [mem_iff_lookup]

/-- Entering the watch point of a granted watch keeps the tables consistent. -/
theorem enter (h : Consistent server (some watchPoint))
    (entered : server.enterWatchPoint watchPoint = .ok server') : Consistent server' none := by
  obtain ⟨taken, rfl⟩ := Server.enterWatchPoint_spec entered
  obtain ⟨absent, status, granted, distinct⟩ := h.entering watchPoint rfl
  obtain ⟨roots, paths, known, recent, cancelled, disjoint, listening, -⟩ := h
  rw [emplace_of_not_mem absent]
  constructor <;> simp only [lookup_insert_eq, AList.mem_insert]
  case listening =>
    intro wd mem
    left
    -- The descriptor belongs to an entry that was there, or to the new one.
    rcases listening wd mem with ⟨path, other, found, rest⟩ | ⟨other, same, here⟩
    · have different : path ≠ watchPoint.path := fun same =>
        absent (mem_iff_lookup.mpr ⟨other, same ▸ found⟩)
      exact ⟨path, other, by rwa [if_neg different], rest⟩
    · obtain rfl := Option.some_inj.mp same
      exact ⟨_, _, if_pos rfl, status, here⟩
  all_goals grind [mem_iff_lookup]

/-- If the descriptor is in the tables already, its watch is another path's. -/
theorem enter_refused (h : Consistent server (some watchPoint))
    (refused : watchPoint.watchDescriptor ∈ server.watchRoots) : Consistent server none := by
  obtain ⟨path, root⟩ := mem_iff_lookup.mp refused
  obtain ⟨other, found, same⟩ := (h.roots _ _).mp root
  obtain ⟨roots, paths, known, recent, cancelled, disjoint, listening, -⟩ := h
  refine ⟨roots, paths, known, recent, cancelled, disjoint, fun wd mem => .inl ?_, by simp⟩
  -- The descriptor that was granted is that of the entry in the tables, which listens
  -- because its watch is active.
  rcases listening wd mem with listens | ⟨registered, entering, here⟩
  · exact listens
  · obtain rfl := Option.some_inj.mp entering
    refine ⟨path, other, found, ?_, same.trans here⟩
    cases status : other.status with
    | listening => rfl
    | cancelled => exact absurd (same.trans here ▸ mem) (cancelled path other found status)

/-- `inotify_add_watch` keeps the tables consistent with the watch point it was called
for. -/
theorem grant (h : Consistent server none) {answers : RegisterAnswers}
    (fresh : server.inotify.CanGrant answers.fresh)
    (begun : server.beginRegisterPath path answers = .ok (watchPoint, inotify)) :
    Consistent { server with inotify } (some watchPoint) := by
  obtain ⟨object, -, added, rfl, status, absent⟩ := Server.beginRegisterPath_spec begun
  obtain ⟨-, unused, unretired⟩ := fresh
  have held : ∀ path' watchPoint', server.watchPoints.lookup path' = some watchPoint' →
      watchPoint'.watchDescriptor ∈ server.inotify.active ∨
        watchPoint'.watchDescriptor ∈ server.inotify.retired :=
    fun _ _ => h.granted_of_watchPoint
  obtain ⟨roots, paths, known, recent, cancelled, disjoint, listening, -⟩ := h
  rcases Inotify.addWatch_spec added with ⟨active, rfl⟩ | ⟨-, granted, rfl⟩
  -- The directory is watched already: the kernel returns its descriptor.
  · constructor <;> grind [mem_iff_lookup]
  -- The descriptor is fresh, so no table mentions it.
  · constructor <;> simp only [AList.mem_insert] <;> grind [mem_iff_lookup]

/-- Once the end of a watch is handled, its descriptor is in no table and may be granted
again. -/
theorem finish (h : Consistent server none) (gone : wd ∉ server.inotify.active) :
    Consistent { server.finish wd with inotify := server.inotify.release wd } none := by
  unfold Server.finish
  cases root : server.watchRoots.lookup wd with
  | none =>
    obtain ⟨roots, paths, known, recent, cancelled, disjoint, listening, -⟩ := h
    constructor <;> simp only [AList.mem_erase, Inotify.active_release,
      Inotify.mem_retired_release] <;> grind [mem_iff_lookup]
  | some path =>
    -- The watch point leaves the tables together with its descriptor.
    obtain ⟨watchPoint, found, rfl⟩ := (h.roots _ _).mp root
    have unique : ∀ path' watchPoint', server.watchPoints.lookup path' = some watchPoint' →
        watchPoint.watchDescriptor = watchPoint'.watchDescriptor → path = path' :=
      fun _ _ => h.path_unique found
    obtain ⟨roots, paths, known, recent, cancelled, disjoint, listening, -⟩ := h
    constructor <;> simp only [lookup_erase_eq, AList.mem_erase, Inotify.active_release,
      Inotify.mem_retired_release] <;> grind [mem_iff_lookup]

theorem listensOn (h : Consistent server registering)
    (found : server.watchPoints.lookup path = some watchPoint)
    (listens : watchPoint.status = .listening) :
    server.listensOn watchPoint.watchDescriptor = true := by
  simp [Server.listensOn, h.root_of_watchPoint found, found, listens]

/-- `handleEvent` throws only on the bad name of an event of a listening watch point. -/
theorem handleEvent_error (h : Consistent server registering) {event : InotifyEvent}
    {order : List U16String} {ex : CppException}
    (thrown : server.handleEvent event order = .error ex) :
    ex = fromBytesError ∧ server.listensOn event.wd = true ∧
      utf8ToUtf16String event.name = none :=
  Server.Inverse.handleEvent_error h.roots thrown

end Consistent

/-! ## The streams of events -/

/-- The unhandled events of a descriptor, in order. -/
def Server.concerning (server : Server) (wd : WatchDescriptor) : List InotifyEvent :=
  (server.buffer ++ server.inotify.queue).filter fun event => event.Concerns wd

/-- Where the unhandled events of a descriptor end. -/
structure Streams (server : Server) : Prop where
  active : ∀ wd ∈ server.inotify.active, Open InotifyEvent.IsIgnored (server.concerning wd)
  retired : ∀ wd ∈ server.inotify.retired,
    ClosesAtEnd InotifyEvent.IsIgnored (server.concerning wd)
  gone : ∀ wd, wd ∉ server.inotify.active → wd ∉ server.inotify.retired →
    server.concerning wd = []

section Concerning

variable {server : Server} {wd other : WatchDescriptor} {event : InotifyEvent}

theorem concerning_push : { server with inotify := server.inotify.push event }.concerning wd =
    server.concerning wd ++ if event.Concerns wd then [event] else [] := by
  unfold Server.concerning
  split_ifs with concerns <;> simp [← List.append_assoc, List.filter_append, concerns]

theorem concerning_retire :
    { server with inotify := server.inotify.retire wd }.concerning other =
      server.concerning other ++ if other = wd then [.ignored wd] else [] := by
  have pushed : { server with inotify := server.inotify.push (.ignored wd) }.concerning other =
      _ := concerning_push
  simp only [InotifyEvent.concerns_ignored] at pushed
  exact pushed

end Concerning

namespace Streams

variable {server : Server} {wd : WatchDescriptor} {event : InotifyEvent} {inotify : Inotify}
variable {buffer : List InotifyEvent}

/-- Events may get lost. -/
theorem sublist (h : Streams server) (active : inotify.active = server.inotify.active)
    (retired : inotify.retired = server.inotify.retired)
    (sub : List.Sublist (buffer ++ inotify.queue) (server.buffer ++ server.inotify.queue)) :
    Streams { server with inotify, buffer } := by
  have part : ∀ wd, List.Sublist ({ server with inotify, buffer }.concerning wd)
      (server.concerning wd) := fun wd => sub.filter _
  constructor
  · intro wd mem
    exact (h.active wd (active ▸ mem)).sublist (part wd)
  · intro wd mem
    exact (h.retired wd (retired ▸ mem)).sublist (part wd)
  · intro wd inactive unretired
    have nothing := h.gone wd (active ▸ inactive) (retired ▸ unretired)
    exact List.sublist_nil.mp (nothing ▸ part wd)

/-- An active descriptor may receive any event but the last. -/
theorem push (h : Streams server) (stays : ¬ event.IsIgnored)
    (concerns : ∀ wd, event.Concerns wd → wd ∈ server.inotify.active) :
    Streams { server with inotify := server.inotify.push event } := by
  constructor
  · intro wd mem
    rw [concerning_push]
    split_ifs with here
    · exact (h.active wd mem).concat stays
    · simpa using h.active wd mem
  · intro wd mem
    rw [concerning_push]
    split_ifs with here
    · exact ((h.active wd (concerns wd here)).concat stays).closesAtEnd
    · simpa using h.retired wd mem
  · intro wd inactive unretired
    rw [concerning_push, if_neg fun here => inactive (concerns wd here), List.append_nil]
    exact h.gone wd inactive unretired

/-- The removal of a watch closes its stream. -/
theorem retire (h : Streams server) (mem : wd ∈ server.inotify.active) :
    Streams { server with inotify := server.inotify.retire wd } := by
  constructor
  · intro other active
    obtain ⟨different, active⟩ := AList.mem_erase.mp active
    rw [concerning_retire, if_neg different, List.append_nil]
    exact h.active other active
  · intro other retired
    rw [concerning_retire]
    split_ifs with same
    · exact (h.active other (same ▸ mem)).close
    · rw [List.append_nil]
      exact h.retired other ((List.mem_cons.mp retired).resolve_left same)
  · intro other inactive unretired
    obtain ⟨different, unretired⟩ := not_or.mp fun here => unretired (List.mem_cons.mpr here)
    rw [concerning_retire, if_neg different, List.append_nil]
    exact h.gone other (fun active => inactive (AList.mem_erase.mpr ⟨different, active⟩)) unretired

/-- A descriptor without unhandled events may be granted. -/
theorem grant (h : Streams server) {object : FileObject} {fresh : WatchDescriptor}
    (granted : server.inotify.CanGrant fresh)
    (added : server.inotify.addWatch object fresh = (wd, inotify)) :
    Streams { server with inotify } := by
  rcases Inotify.addWatch_spec added with ⟨-, rfl⟩ | ⟨-, rfl, rfl⟩
  · exact h
  · obtain ⟨-, unused, unretired⟩ := granted
    constructor
    · intro other mem
      change Open _ (server.concerning other)
      rcases (AList.mem_insert _).mp mem with rfl | mem
      · rw [h.gone other unused unretired]
        exact .nil
      · exact h.active other mem
    · exact h.retired
    · intro other inactive unretired
      exact h.gone other (fun mem => inactive ((AList.mem_insert _).mpr (.inr mem))) unretired

/-- The end of a watch is the last event of a descriptor that is retired. -/
theorem of_ignored (h : Streams server) (ends : event.IsIgnored) (concerns : event.Concerns wd)
    (next : server.buffer = event :: buffer) :
    wd ∈ server.inotify.retired ∧ wd ∉ server.inotify.active ∧
      { server with buffer }.concerning wd = [] := by
  have split : server.concerning wd = event :: { server with buffer }.concerning wd := by
    simp [Server.concerning, next, concerns]
  have inactive : wd ∉ server.inotify.active := fun active =>
    h.active wd active event (by simp [split]) ends
  have retired : wd ∈ server.inotify.retired := by
    by_contra unretired
    simpa [split] using h.gone wd inactive unretired
  have closes := h.retired wd retired
  rw [split] at closes
  exact ⟨retired, inactive, closes.eq_nil_of_closes ends⟩

/-- Once its last event is handled, a descriptor has no unhandled event. -/
theorem release (h : Streams { server with buffer })
    (done : { server with buffer }.concerning wd = []) :
    Streams { server with buffer, inotify := server.inotify.release wd } := by
  constructor
  · exact h.active
  · intro other mem
    exact h.retired other (Inotify.mem_retired_release.mp mem).2
  · intro other inactive unretired
    by_cases same : other = wd
    · exact same ▸ done
    · exact h.gone other inactive fun mem => unretired
        (Inotify.mem_retired_release.mpr ⟨same, mem⟩)

end Streams

end Linux

end FileEvents
