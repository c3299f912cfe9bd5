import Mathlib.Data.List.ReduceOption
import FileEvents.Windows.Server
import FileEvents.Wire.Bytes

/-!
# The buffer of notifications

`Server::handleEvents` goes through the event buffer with an `int` index: at the index it finds
a `FILE_NOTIFY_EXTENDED_INFORMATION`, which it hands to `handleEvent`, and then it adds
`NextEntryOffset`, until that is 0.

`ReadDirectoryChangesExW` lays out a record as a header of 84 bytes and a name that no NUL
terminates. `handleEvent` makes a string of it with `wstring(info->FileName, 0, length)`. This
constructor takes a string, of which it copies a part: the pointer is first made a string that
goes on to the next NUL, wherever that is.

## Main definitions

* `RawRecord`, `encodeChain` — records as they are laid out
* `readRecord` — what `handleEvent` finds at an address
* `handleRecords` — the loop
* `DecodesCompletely` — the chain is decoded, each record is reported, and the watch point
  listens again or is finished

## Main results

* `decodesCompletely_iff` — it is exactly if behind each name two NULs follow in the event buffer
-/

namespace FileEvents

namespace Windows

open Wire

/-- The offset of `FileName`. -/
def offsetofFileName : ℕ := 84

/-! ## The layout -/

/-- A record as the operating system writes it. -/
structure RawRecord where
  action : UInt32
  /-- Times and sizes. -/
  times : List UInt8
  fileAttributes : UInt32
  /-- The reparse point tag and the identifiers of the file and its directory. -/
  ids : List UInt8
  name : U16String
  /-- What aligns the next record. -/
  padding : List UInt8
  length_times : times.length = 48
  length_ids : ids.length = 20
  clean : 0 ∉ name

namespace RawRecord

/-- `FileNameLength`. -/
def fileNameLength (record : RawRecord) : ℕ := 2 * record.name.length

/-- The distance to the next record. -/
def size (record : RawRecord) : ℕ :=
  offsetofFileName + record.fileNameLength + record.padding.length

/-- The bytes of a record with this `NextEntryOffset`. -/
def encode (record : RawRecord) (nextEntryOffset : ℕ) : List UInt8 :=
  toBytes 4 nextEntryOffset ++ (toBytes 4 record.action.toNat ++ (record.times ++
    (toBytes 4 record.fileAttributes.toNat ++ (record.ids ++
      (toBytes 4 record.fileNameLength ++ (wideBytes record.name ++ record.padding))))))

/-- What `handleEvent` is to see of it. -/
def info (record : RawRecord) : NotifyRecord :=
  { action := record.action, fileAttributes := record.fileAttributes, fileName := record.name }

end RawRecord

/-- The bytes of a chain of records. -/
def encodeChain : List RawRecord → List UInt8
  | [] => []
  | record :: records =>
    record.encode (if records = [] then 0 else record.size) ++ encodeChain records

/-- Where the records begin. -/
def offsets : ℕ → List RawRecord → List ℕ
  | _, [] => []
  | start, record :: records => start :: offsets (start + record.size) records

/-! ## The loop -/

/-- The record and its `NextEntryOffset` at the beginning of these bytes, `none` where reading it
would leave the buffer. -/
def readRecord (bytes : List UInt8) : Option (NotifyRecord × UInt32) :=
  if offsetofFileName ≤ bytes.length then
    let nextEntryOffset := word bytes
    let action := word (bytes.drop 4)
    let fileAttributes := word (bytes.drop 56)
    let fileNameLength := word (bytes.drop 80)
    (wideCString (bytes.drop offsetofFileName)).map fun string =>
      ({ action, fileAttributes, fileName := string.take (fileNameLength.toNat / 2) },
        nextEntryOffset)
  else none

/-- Where the loop is. -/
structure Walk where
  index : Int32
  /-- Where a record was read, in order. -/
  visited : List Int32
  /-- The records that `handleEvent` was called with, in order. -/
  records : List NotifyRecord

/-- The loop begins. -/
def Walk.start : Walk := ⟨0, [], []⟩

/-- `handleEvent` is called. -/
def Walk.visit (walk : Walk) (info : NotifyRecord) : Walk :=
  { walk with
    visited := walk.visited ++ [walk.index]
    records := walk.records ++ [info] }

/-- `index += current->NextEntryOffset`. -/
def Walk.advance (walk : Walk) (nextEntryOffset : UInt32) : Walk :=
  { walk with index := walk.index + nextEntryOffset.toInt32 }

/-- How the loop ends. -/
inductive WalkEnd
  | finished
  /-- It reads outside of the event buffer. -/
  | outOfBounds
  deriving DecidableEq

/-- The loop of `handleEvents`, `none` where the fuel does not suffice. -/
def handleRecords (buffer : List UInt8) : ℕ → Walk → Option (WalkEnd × Walk)
  | 0, _ => none
  | fuel + 1, walk =>
    if walk.index.toInt < 0 then some (.outOfBounds, walk)
    else match readRecord (buffer.drop walk.index.toInt.toNat) with
      | none => some (.outOfBounds, walk)
      | some (info, nextEntryOffset) =>
        if nextEntryOffset = 0 then some (.finished, walk.visit info)
        else handleRecords buffer fuel ((walk.visit info).advance nextEntryOffset)

/-! ## What is to come of it -/

/-- The path of a record: the watched path, one backslash and the name. -/
def RawRecord.path (watchedPath : U16String) (record : RawRecord) : U16String :=
  if record.name = [] then watchedPath else watchedPath ++ [backslash] ++ record.name

/-- The kind of change, by the action. -/
def changeTypeOf (action : UInt32) : Option ChangeType :=
  if action = FILE_ACTION_ADDED ∨ action = FILE_ACTION_RENAMED_NEW_NAME then some .created
  else if action = FILE_ACTION_REMOVED ∨ action = FILE_ACTION_RENAMED_OLD_NAME then some .removed
  else if action = FILE_ACTION_MODIFIED then some .modified
  else none

/-- A directory is modified. -/
def RawRecord.IsModifiedDirectory (record : RawRecord) : Prop :=
  record.action = FILE_ACTION_MODIFIED ∧
    (record.fileAttributes &&& FILE_ATTRIBUTE_DIRECTORY) ≠ 0

instance (record : RawRecord) : Decidable record.IsModifiedDirectory :=
  inferInstanceAs (Decidable (record.action = FILE_ACTION_MODIFIED ∧
    (record.fileAttributes &&& FILE_ATTRIBUTE_DIRECTORY) ≠ 0))

/-- The report of a record. -/
def RawRecord.report (watchedPath : U16String) (record : RawRecord) : Report :=
  match changeTypeOf record.action with
  | some type => .reportChangeEvent type.index (record.path watchedPath)
  | none => .reportUnknownEvent (record.path watchedPath)

/-- The reports of the records: one for each, but none for a modified directory. -/
def reportsOf (watchedPath : U16String) (records : List RawRecord) : List Report :=
  (records.filter fun record => ¬ record.IsModifiedDirectory).map (RawRecord.report watchedPath)

/-- What happened behind the last record. -/
inductive Rearmed (watchedPath : U16String) : WatchPointStatus → List Report → Prop
  | listening : Rearmed watchedPath .listening []
  | removed : Rearmed watchedPath .finished
      [.reportChangeEvent ChangeType.removed.index watchedPath]
  | failed (ex : CppException) : Rearmed watchedPath .finished [.reportFailure ex.what]

/-- The completion has succeeded with these records, and is handled without an exception. -/
structure Completion.Delivers (completion : Completion) (server : Server)
    (watchPoint : WatchPoint) (records : List NotifyRecord) : Prop where
  success : completion.errorCode = ERROR_SUCCESS
  transferred : completion.bytesTransferred ≠ 0
  records : completion.records = records
  notMoved : completion.finalPath = .ok (some watchPoint.registeredFinalPath)
  running : server.shouldTerminate = false
  quiet : completion.throwsAt = none

/-- The chain at the beginning of the event buffer is decoded completely. -/
structure DecodesCompletely (records : List RawRecord) (rest : List UInt8) (walk : Walk) :
    Prop where
  /-- The loop ends. -/
  ends : ∀ fuel, records.length ≤ fuel →
    handleRecords (encodeChain records ++ rest) fuel .start = some (.finished, walk)
  /-- It reads where the records begin. -/
  visited : walk.visited = (offsets 0 records).map Int32.ofNat
  /-- It does not leave the chain. -/
  within : ∀ index ∈ walk.visited,
    0 ≤ index.toInt ∧ index.toInt + offsetofFileName ≤ (encodeChain records).length
  /-- Each record is reported, and then the watch point listens again or is finished. -/
  reported : ∀ (server : Server) (watchPoint : WatchPoint) (completion : Completion),
    completion.Delivers server watchPoint walk.records →
    ∃ last, (server.handleEvents watchPoint completion).2 =
        reportsOf watchPoint.registeredPath records ++ last ∧
      Rearmed watchPoint.registeredPath (server.handleEvents watchPoint completion).1.status last

/-- Behind each name, two NULs follow in the event buffer. -/
def NamesEnd : List RawRecord → List UInt8 → Prop
  | [], _ => True
  | record :: records, rest =>
    NulFollows (record.padding ++ (encodeChain records ++ rest)) ∧ NamesEnd records rest

/-! ## Reading one record -/

section Read

variable {record : RawRecord} {records : List RawRecord} {rest : List UInt8} {next : ℕ}

@[simp] theorem length_encode : (record.encode next).length = record.size := by
  simp [RawRecord.encode, RawRecord.size, RawRecord.fileNameLength, offsetofFileName,
    record.length_times, record.length_ids]
  omega

theorem size_pos : 0 < record.size := by
  unfold RawRecord.size offsetofFileName
  omega

/-- A name is read up to its length if it ends at all, and else the read leaves the buffer. -/
theorem wideCString_name :
    (wideCString (wideBytes record.name ++ rest)).map (List.take record.name.length) =
      if NulFollows rest then some record.name else none := by
  rw [wideCString_append record.clean, Option.map_map]
  split_ifs with follows
  · obtain ⟨string, read⟩ := Option.isSome_iff_exists.mp (isSome_wideCString_iff.mpr follows)
    rw [read, Option.map_some, Function.comp_apply, List.take_left]
  · rw [← isSome_wideCString_iff, Option.not_isSome_iff_eq_none] at follows
    rw [follows, Option.map_none]

/-- A record is read back if behind its name two NULs follow, and else the read leaves the
buffer. -/
theorem readRecord_encode (nextFits : next < UInt32.size)
    (nameFits : record.fileNameLength < UInt32.size) :
    readRecord (record.encode next ++ rest) =
      if NulFollows (record.padding ++ rest) then some (record.info, UInt32.ofNat next)
      else none := by
  have room : offsetofFileName ≤ (record.encode next ++ rest).length := by
    rw [List.length_append, length_encode, RawRecord.size]
    omega
  -- The buffer behind each of the fields.
  let names := wideBytes record.name ++ (record.padding ++ rest)
  let lengths := toBytes 4 record.fileNameLength ++ names
  let attributes := toBytes 4 record.fileAttributes.toNat ++ (record.ids ++ lengths)
  let actions := toBytes 4 record.action.toNat ++ (record.times ++ attributes)
  have layout : record.encode next ++ rest = toBytes 4 next ++ actions := by
    simp [RawRecord.encode, actions, attributes, lengths, names]
  have atAction : (record.encode next ++ rest).drop 4 = actions := by rw [layout, drop_toBytes]
  have atAttributes : (record.encode next ++ rest).drop 56 = attributes := by
    rw [← List.drop_drop (i := 52) (j := 4), atAction, ← List.drop_drop (i := 48) (j := 4),
      drop_toBytes, List.drop_left' record.length_times]
  have atLength : (record.encode next ++ rest).drop 80 = lengths := by
    rw [← List.drop_drop (i := 24) (j := 56), atAttributes, ← List.drop_drop (i := 20) (j := 4),
      drop_toBytes, List.drop_left' record.length_ids]
  have atName : (record.encode next ++ rest).drop offsetofFileName = names := by
    rw [offsetofFileName, ← List.drop_drop (i := 4) (j := 80), atLength, drop_toBytes]
  have nextEntryOffset : word (record.encode next ++ rest) = UInt32.ofNat next := by
    rw [layout, word_toBytes_of_lt nextFits]
  have action : word actions = record.action := word_toBytes _
  have fileAttributes : word attributes = record.fileAttributes := word_toBytes _
  have length : (word lengths).toNat / 2 = record.name.length := by
    rw [word_toBytes_of_lt nameFits, UInt32.toNat_ofNat_of_lt' nameFits, RawRecord.fileNameLength]
    omega
  have name := @wideCString_name record (record.padding ++ rest)
  unfold readRecord
  rw [if_pos room]
  simp only [nextEntryOffset, atAction, action, atAttributes, fileAttributes, atLength, length,
    atName]
  change (wideCString names).map _ = _ at name
  split_ifs at name ⊢ with follows
  · obtain ⟨string, read, same⟩ := Option.map_eq_some_iff.mp name
    rw [read, Option.map_some, same]
    rfl
  · rw [Option.map_eq_none_iff.mp name, Option.map_none]

end Read

/-! ## The whole chain -/

section Chain

variable {record : RawRecord} {records : List RawRecord} {rest : List UInt8} {walk : Walk}

theorem length_encodeChain_cons : (encodeChain (record :: records)).length =
    record.size + (encodeChain records).length := by
  rw [encodeChain, List.length_append, length_encode]

/-- The index moves on to the next record. -/
theorem index_advance {n next : ℕ} {info : NotifyRecord} (index : walk.index = Int32.ofNat n) :
    ((walk.visit info).advance (UInt32.ofNat next)).index = Int32.ofNat (n + next) := by
  simp [Walk.advance, Walk.visit, index]

/-- One iteration, at the beginning of a record. -/
theorem handleRecords_succ {before : List UInt8} {fuel : ℕ}
    (fits : (before ++ (encodeChain (record :: records) ++ rest)).length < 2 ^ 31)
    (index : walk.index = Int32.ofNat before.length) :
    handleRecords (before ++ (encodeChain (record :: records) ++ rest)) (fuel + 1) walk =
      if NulFollows (record.padding ++ (encodeChain records ++ rest)) then
        if records = [] then some (.finished, walk.visit record.info)
        else handleRecords (before ++ (encodeChain (record :: records) ++ rest)) fuel
          ((walk.visit record.info).advance (UInt32.ofNat record.size))
      else some (.outOfBounds, walk) := by
  have total : before.length + (record.size + (encodeChain records).length + rest.length) <
      2147483648 := by
    simpa [length_encodeChain_cons] using fits
  have here : walk.index.toInt = before.length := by
    rw [index, Int32.toInt_ofNat_of_lt (by omega)]
  have nameFits : record.fileNameLength < UInt32.size := by
    change record.fileNameLength < 4294967296
    unfold RawRecord.size at total
    omega
  have nextFits : (if records = [] then 0 else record.size) < UInt32.size := by
    change _ < 4294967296
    split_ifs
    · decide
    · omega
  -- What is read at the index is the record, with all that is behind it.
  rw [handleRecords, if_neg (by omega), here, Int.toNat_natCast, List.drop_left, encodeChain,
    List.append_assoc, readRecord_encode nextFits nameFits]
  by_cases follows : NulFollows (record.padding ++ (encodeChain records ++ rest))
  · rw [if_pos follows, if_pos follows]
    by_cases last : records = []
    · rw [if_pos last, if_pos last]
      rfl
    · have nonzero : UInt32.ofNat record.size ≠ 0 := by
        intro zero
        have same := congrArg UInt32.toNat zero
        rw [UInt32.toNat_ofNat_of_lt' (by change _ < 4294967296; omega)] at same
        exact Nat.ne_of_gt size_pos same
      rw [if_neg last, if_neg last]
      exact if_neg nonzero
  · rw [if_neg follows, if_neg follows]

/-- From the beginning of a record on. The induction is on the records that are left. -/
theorem handleRecords_from (before : List UInt8) (nonempty : records ≠ [])
    (fits : (before ++ (encodeChain records ++ rest)).length < 2 ^ 31)
    (index : walk.index = Int32.ofNat before.length) :
    ∃ last final, (∀ fuel, records.length ≤ fuel →
        handleRecords (before ++ (encodeChain records ++ rest)) fuel walk =
          some (last, final)) ∧
      (last = .finished ↔ NamesEnd records rest) ∧
      (last = .finished →
        final.visited = walk.visited ++ (offsets before.length records).map Int32.ofNat ∧
          final.records = walk.records ++ records.map RawRecord.info) := by
  induction records generalizing before walk with
  | nil => exact absurd rfl nonempty
  | cons record records ih =>
    by_cases follows : NulFollows (record.padding ++ (encodeChain records ++ rest))
    · cases records with
      | nil =>
        refine ⟨.finished, walk.visit record.info, fun fuel enough => ?_, ?_, fun _ => ?_⟩
        · obtain ⟨fuel, rfl⟩ := Nat.exists_eq_succ_of_ne_zero (Nat.ne_zero_of_lt enough)
          rw [handleRecords_succ fits index, if_pos follows, if_pos rfl]
        · exact iff_of_true rfl ⟨follows, trivial⟩
        · exact ⟨by rw [Walk.visit, index]; rfl, rfl⟩
      | cons second records =>
        -- The next record lies behind all the bytes of this one.
        have same : before ++ (encodeChain (record :: second :: records) ++ rest) =
            (before ++ record.encode record.size) ++ (encodeChain (second :: records) ++ rest) := by
          rw [encodeChain, if_neg (List.cons_ne_nil _ _), List.append_assoc, List.append_assoc]
        have nextIndex : ((walk.visit record.info).advance (UInt32.ofNat record.size)).index =
            Int32.ofNat (before ++ record.encode record.size).length := by
          rw [index_advance index, List.length_append, length_encode]
        obtain ⟨last, final, runs, finishes, decoded⟩ :=
          ih (before ++ record.encode record.size) (List.cons_ne_nil _ _) (same ▸ fits) nextIndex
        refine ⟨last, final, fun fuel enough => ?_, ?_, fun finished => ?_⟩
        · obtain ⟨fuel, rfl⟩ := Nat.exists_eq_succ_of_ne_zero (Nat.ne_zero_of_lt enough)
          rw [handleRecords_succ fits index, if_pos follows, if_neg (List.cons_ne_nil _ _), same]
          exact runs fuel (Nat.le_of_succ_le_succ enough)
        · rw [finishes]
          exact ⟨fun rest => ⟨follows, rest⟩, fun all => all.2⟩
        · obtain ⟨visited, records⟩ := decoded finished
          rw [visited, records]
          rw [List.length_append, length_encode]
          simp only [Walk.advance, Walk.visit, index, List.append_assoc, List.singleton_append]
          exact ⟨rfl, rfl⟩
    · refine ⟨.outOfBounds, walk, fun fuel enough => ?_, ?_, fun finished => nomatch finished⟩
      · obtain ⟨fuel, rfl⟩ := Nat.exists_eq_succ_of_ne_zero (Nat.ne_zero_of_lt enough)
        rw [handleRecords_succ fits index, if_neg follows]
      · exact iff_of_false (fun finished => nomatch finished) fun all => follows all.1

/-- Every record begins within the chain, with all of its header. -/
theorem offset_le {start offset : ℕ} (mem : offset ∈ offsets start records) :
    start ≤ offset ∧ offset + offsetofFileName ≤ start + (encodeChain records).length := by
  induction records generalizing start with
  | nil => cases mem
  | cons record records ih =>
    have header : offsetofFileName ≤ record.size := by
      unfold RawRecord.size
      omega
    rw [length_encodeChain_cons]
    rcases List.mem_cons.mp mem with rfl | mem
    · omega
    · have bounds := ih mem
      omega

end Chain

/-! ## The reports -/

section Reports

variable {record : RawRecord} {records : List RawRecord} {path : U16String}

theorem changedPath_eq_path : changedPath path record.name = record.path path := by
  unfold changedPath RawRecord.path
  split_ifs
  · exact List.append_nil _
  · rw [List.append_assoc]
    rfl

/-- A record is reported, unless it is about a modified directory. -/
theorem handleEvent_info : handleEvent path record.info =
    if record.IsModifiedDirectory then none else some (record.report path) := by
  have modified : record.IsModifiedDirectory → record.action = FILE_ACTION_MODIFIED := And.left
  have action : record.info.action = record.action := rfl
  have fileAttributes : record.info.fileAttributes = record.fileAttributes := rfl
  have changed : changedPath path record.info.fileName = record.path path := changedPath_eq_path
  unfold handleEvent RawRecord.report changeTypeOf
  rw [action, fileAttributes, changed]
  -- The actions are told apart in the order of the source.
  by_cases created : record.action = FILE_ACTION_ADDED ∨
      record.action = FILE_ACTION_RENAMED_NEW_NAME
  · have other : ¬ record.IsModifiedDirectory := by
      intro directory
      rw [modified directory] at created
      exact absurd created (by decide)
    rw [if_pos created, if_pos created, if_neg other]
  · rw [if_neg created, if_neg created]
    by_cases removed : record.action = FILE_ACTION_REMOVED ∨
        record.action = FILE_ACTION_RENAMED_OLD_NAME
    · have other : ¬ record.IsModifiedDirectory := by
        intro directory
        rw [modified directory] at removed
        exact absurd removed (by decide)
      rw [if_pos removed, if_pos removed, if_neg other]
    · rw [if_neg removed, if_neg removed]
      by_cases written : record.action = FILE_ACTION_MODIFIED
      · rw [if_pos written, if_pos written]
        by_cases directory : (record.fileAttributes &&& FILE_ATTRIBUTE_DIRECTORY) = 0
        · rw [if_neg (by simpa using directory),
            if_neg fun both => both.2 directory]
        · rw [if_pos (by simpa using directory), if_pos ⟨written, directory⟩]
      · rw [if_neg written, if_neg written, if_neg (mt modified written)]

/-- The reports of the records. -/
theorem reduceOption_handleEvent :
    ((records.map RawRecord.info).map (handleEvent path)).reduceOption =
      reportsOf path records := by
  induction records with
  | nil => rfl
  | cons record records ih =>
    rw [List.map_cons, List.map_cons, handleEvent_info, reportsOf]
    by_cases directory : record.IsModifiedDirectory
    · rw [if_pos directory, List.reduceOption_cons_of_none, ih,
        List.filter_cons_of_neg (by simpa using directory)]
      rfl
    · rw [if_neg directory, List.reduceOption_cons_of_some, ih,
        List.filter_cons_of_pos (by simpa using directory)]
      rfl

/-- Behind the last record the watch point listens again, or is reported as removed or failed. -/
theorem reported_of_delivers {server : Server} {watchPoint : WatchPoint}
    {completion : Completion}
    (delivers : completion.Delivers server watchPoint (records.map RawRecord.info)) :
    ∃ last, (server.handleEvents watchPoint completion).2 =
        reportsOf watchPoint.registeredPath records ++ last ∧
      Rearmed watchPoint.registeredPath
        (server.handleEvents watchPoint completion).1.status last := by
  obtain ⟨success, transferred, decoded, notMoved, running, quiet⟩ := delivers
  have events : completion.reportEvents watchPoint.registeredPath =
      (reportsOf watchPoint.registeredPath records, .ok ()) := by
    rw [Completion.reportEvents, if_neg transferred, decoded, quiet, deliver,
      reduceOption_handleEvent]
  unfold Server.handleEvents Server.tryHandleEvents
  rw [if_neg (not_not.mpr success), notMoved]
  dsimp only
  rw [if_neg (not_not.mpr rfl), running, if_neg Bool.false_ne_true, events]
  unfold WatchPoint.listen
  -- Listening again succeeds, or closes the watch point.
  cases completion.listen.readDirectoryChanges with
  | ok _ => exact ⟨[], (List.append_nil _).symm, .listening⟩
  | error listenError =>
    dsimp only
    split_ifs
    · refine ⟨_, rfl, ?_⟩
      rw [WatchPoint.registeredPath_close, WatchPoint.status_close]
      exact .removed
    · refine ⟨_, rfl, ?_⟩
      rw [WatchPoint.status_close]
      exact .failed _

end Reports

/-! ## What is decoded -/

section Decoded

variable {record last : RawRecord} {records : List RawRecord} {rest : List UInt8}

/-- If it aligns the records behind it, a record in front of others is no obstacle. -/
theorem NamesEnd.cons (aligned : record.padding.length % 2 = 0) (nonempty : records ≠ [])
    (ends : NamesEnd records rest) : NamesEnd (record :: records) rest := by
  refine ⟨.append aligned ?_, ends⟩
  cases records with
  | nil => exact absurd rfl nonempty
  | cons second records =>
    obtain ⟨follows, -⟩ := ends
    -- The NULs behind the second name are behind the first one, too.
    let next := if records = [] then 0 else second.size
    let header := toBytes 4 next ++ (toBytes 4 second.action.toNat ++ (second.times ++
      (toBytes 4 second.fileAttributes.toNat ++ (second.ids ++
        (toBytes 4 second.fileNameLength ++ wideBytes second.name)))))
    have layout : encodeChain (second :: records) ++ rest =
        header ++ (second.padding ++ (encodeChain records ++ rest)) := by
      simp [encodeChain, RawRecord.encode, header, next]
    have even : header.length % 2 = 0 := by
      simp [header, second.length_times, second.length_ids]
      omega
    rw [layout]
    exact follows.append even

/-- Where all records are aligned, it is the last one that matters. -/
theorem namesEnd_iff_of_aligned (aligned : ∀ record ∈ records, record.padding.length % 2 = 0) :
    NamesEnd (records ++ [last]) rest ↔ NulFollows (last.padding ++ rest) := by
  induction records with
  | nil => exact and_iff_left trivial
  | cons record records ih =>
    rw [List.forall_mem_cons] at aligned
    rw [← ih aligned.2]
    exact ⟨And.right, fun ends => ends.cons aligned.1 (by simp)⟩

/-- For each chain of records at the beginning of an event buffer, the loop ends after it has
handed each record to `handleEvent`, in order, each record is reported, and the watch point
listens again or is finished, exactly if behind the name of each record, at an even distance, two
NULs follow in the event buffer. -/
theorem decodesCompletely_iff (records : List RawRecord) (rest : List UInt8)
    (nonempty : records ≠ []) (fits : (encodeChain records ++ rest).length < 2 ^ 31) :
    (∃ walk, DecodesCompletely records rest walk) ↔ NamesEnd records rest := by
  obtain ⟨last, walk, runs, finishes, decoded⟩ :=
    @handleRecords_from _ _ .start [] nonempty fits rfl
  constructor
  · rintro ⟨walk, complete⟩
    -- A run ends in one way only.
    have ends := (runs _ (Nat.le_refl _)).symm.trans (complete.ends _ (Nat.le_refl _))
    exact finishes.mp (Prod.mk.inj (Option.some_inj.mp ends)).1
  · intro ends
    have finished := finishes.mpr ends
    subst finished
    obtain ⟨visited, same⟩ := decoded rfl
    rw [Walk.start, List.nil_append, List.length_nil] at visited
    rw [Walk.start, List.nil_append] at same
    refine ⟨walk, runs, visited, fun index mem => ?_, fun server watchPoint completion => ?_⟩
    · rw [visited] at mem
      obtain ⟨offset, begins, rfl⟩ := List.mem_map.mp mem
      have bounds := offset_le begins
      rw [List.length_append] at fits
      rw [Int32.toInt_ofNat_of_lt (by omega)]
      omega
    · rw [same]
      exact reported_of_delivers

/-- A file `a` is created, and nothing is behind its name. -/
def createdRecord : RawRecord where
  action := FILE_ACTION_ADDED
  times := List.replicate 48 0
  fileAttributes := 0
  ids := List.replicate 20 0
  name := [0x61]
  padding := []
  length_times := rfl
  length_ids := rfl
  clean := by decide

theorem decodesCompletely_iff_createdRecord :
    [createdRecord] ≠ [] ∧ (encodeChain [createdRecord] ++ [0, 0]).length < 2 ^ 31 ∧
      ((∃ walk, DecodesCompletely [createdRecord] [0, 0] walk) ↔
        NamesEnd [createdRecord] [0, 0]) :=
  ⟨by decide, by decide, decodesCompletely_iff [createdRecord] [0, 0] (by decide) (by decide)⟩

/-- A name that ends with the event buffer is read beyond it. -/
theorem not_forall_decodesCompletely :
    ¬ ∀ (records : List RawRecord) (rest : List UInt8), records ≠ [] →
      (encodeChain records ++ rest).length < 2 ^ 31 →
        ∃ walk, DecodesCompletely records rest walk := by
  intro always
  obtain ⟨walk, complete⟩ := always [createdRecord] [] (by decide) (by decide)
  have beyond : handleRecords (encodeChain [createdRecord] ++ []) 1 .start =
      some (.outOfBounds, .start) := rfl
  cases beyond.symm.trans (complete.ends 1 (Nat.le_refl _))

/-- With two NULs behind it, the same record is decoded. -/
example : handleRecords (encodeChain [createdRecord] ++ [0, 0]) 1 .start =
    some (.finished, ⟨0, [0], [createdRecord.info]⟩) := rfl

end Decoded

end Windows

end FileEvents
