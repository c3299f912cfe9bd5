import FileEvents.Apple.Server
import FileEvents.Wire.Masks

/-!
# How macOS events are classified

FSEvents merges what happened to a path into one event, so any flags may arrive together.
`IGNORED_FLAGS` and the chain of tests in `handleEvent` are separate lists of flags. Together
they hide nothing: a flag that is not ignored leads to a report, what is ignored changes none,
and the flags for metadata and unknown flags give way to the others.

## Main definitions

* `namedFlags`, `RELEVANT_FLAGS`, `METADATA_FLAGS`, `CONTENT_FLAGS` — kinds of flags
* `Classifies` — what the reports of an event say about its flags

## Main results

* `handleEvent_classifies` — `handleEvent` classifies the flags of every event, unless its path
  is not well formed
-/

namespace FileEvents

namespace Apple

open Linux (isSet)
open Wire

/-! ## Kinds of flags -/

/-- The flags that the source names. -/
def namedFlags : List UInt32 :=
  [kFSEventStreamEventFlagMustScanSubDirs, kFSEventStreamEventFlagUserDropped,
    kFSEventStreamEventFlagKernelDropped, kFSEventStreamEventFlagEventIdsWrapped,
    kFSEventStreamEventFlagHistoryDone, kFSEventStreamEventFlagRootChanged,
    kFSEventStreamEventFlagMount, kFSEventStreamEventFlagUnmount,
    kFSEventStreamEventFlagItemCreated, kFSEventStreamEventFlagItemRemoved,
    kFSEventStreamEventFlagItemInodeMetaMod, kFSEventStreamEventFlagItemRenamed,
    kFSEventStreamEventFlagItemModified, kFSEventStreamEventFlagItemFinderInfoMod,
    kFSEventStreamEventFlagItemChangeOwner, kFSEventStreamEventFlagItemXattrMod,
    kFSEventStreamEventFlagItemIsFile, kFSEventStreamEventFlagItemIsDir,
    kFSEventStreamEventFlagItemIsSymlink, kFSEventStreamEventFlagOwnEvent,
    kFSEventStreamEventFlagItemIsHardlink, kFSEventStreamEventFlagItemIsLastHardlink,
    kFSEventStreamEventFlagItemCloned]

/-- They are different bits. -/
example : namedFlags.Pairwise (fun flag other => flag &&& other = 0) ∧
    namedFlags.all fun flag =>
      (List.range 32).any fun bit => flag == 1 <<< UInt32.ofNat bit := by decide

/-- All of them. -/
def NAMED_FLAGS : UInt32 := namedFlags.foldr (· ||| ·) 0

/-- Those that are not ignored. -/
def RELEVANT_FLAGS : UInt32 := NAMED_FLAGS &&& ~~~ IGNORED_FLAGS

/-- The flags for changes of metadata. -/
def METADATA_FLAGS : UInt32 :=
  kFSEventStreamEventFlagItemInodeMetaMod ||| kFSEventStreamEventFlagItemFinderInfoMod |||
    kFSEventStreamEventFlagItemChangeOwner ||| kFSEventStreamEventFlagItemXattrMod

/-- The flags that metadata must not hide. -/
def CONTENT_FLAGS : UInt32 :=
  kFSEventStreamEventFlagMustScanSubDirs ||| kFSEventStreamEventFlagRootChanged |||
    kFSEventStreamEventFlagMount ||| kFSEventStreamEventFlagUnmount |||
    kFSEventStreamEventFlagItemRenamed ||| kFSEventStreamEventFlagItemModified |||
    kFSEventStreamEventFlagItemRemoved

/-- What the reports for a path say about the flags. -/
structure Classifies (path : U16String)
    (report : UInt32 → Except CppException (Option Report)) : Prop where
  /-- Nothing is reported only for ignored flags. -/
  none_iff : ∀ flags, report flags = .ok none ↔ flags &&& ~~~ IGNORED_FLAGS = 0
  /-- For others one report is made. -/
  one : ∀ flags, flags &&& ~~~ IGNORED_FLAGS ≠ 0 → ∃ made, report flags = .ok (some made)
  /-- Ignored flags change nothing. -/
  ignored : ∀ flags, report flags = report (flags &&& ~~~ IGNORED_FLAGS)
  /-- Metadata does not hide what happened to the content. -/
  metadata_hidden : ∀ flags metadata, metadata &&& ~~~ METADATA_FLAGS = 0 →
    isSet flags CONTENT_FLAGS = true → report (flags ||| metadata) = report flags
  /-- Without that it is a modification. -/
  metadata_modified : ∀ flags metadata, metadata &&& ~~~ METADATA_FLAGS = 0 → metadata ≠ 0 →
    isSet flags CONTENT_FLAGS = false →
    report (flags ||| metadata) = .ok (some (.reportChangeEvent ChangeType.modified.index path))
  /-- Flags that the source does not name change nothing where it knows a relevant one. -/
  unnamed_hidden : ∀ flags unnamed, unnamed &&& NAMED_FLAGS = 0 →
    isSet flags RELEVANT_FLAGS = true → report (flags ||| unnamed) = report flags
  /-- Without that the event is unknown. -/
  unnamed_unknown : ∀ flags unnamed, unnamed &&& NAMED_FLAGS = 0 → unnamed ≠ 0 →
    isSet flags RELEVANT_FLAGS = false →
    report (flags ||| unnamed) = .ok (some (.reportUnknownEvent path))

/-! ## Tests -/

section Tests

variable {flags more mask other : UInt32}

theorem isSet_eq_meets : isSet flags mask = meets flags.toBitVec mask.toBitVec := by
  rw [Bool.eq_iff_iff]
  simp only [isSet, meets, bne_iff_ne, ne_eq, ← UInt32.toBitVec_inj, UInt32.toBitVec_and]
  rfl

theorem isSet_or_left : isSet (flags ||| more) mask = (isSet flags mask || isSet more mask) := by
  simp only [isSet_eq_meets, UInt32.toBitVec_or]
  exact meets_or_left

theorem isSet_or_right :
    isSet flags (mask ||| other) = (isSet flags mask || isSet flags other) := by
  simp only [isSet_eq_meets, UInt32.toBitVec_or]
  exact meets_or_right

theorem isSet_eq_false_iff : isSet flags mask = false ↔ flags &&& mask = 0 := by
  rw [isSet, bne_eq_false_iff_eq]

theorem toBitVec_and_eq_zero (apart : flags &&& mask = 0) :
    flags.toBitVec &&& mask.toBitVec = 0#32 := by
  rw [← UInt32.toBitVec_and, apart]
  rfl

theorem within_toBitVec (within : flags &&& ~~~ mask = 0) :
    Within flags.toBitVec mask.toBitVec :=
  within_iff.mpr (toBitVec_and_eq_zero within)

/-- Flags that a test does not look at may be cleared before. -/
theorem isSet_and (looks : mask &&& ~~~ other = 0) :
    isSet (flags &&& other) mask = isSet flags mask := by
  simp only [isSet_eq_meets, UInt32.toBitVec_and]
  exact meets_and (within_toBitVec looks)

/-- Flags of one kind fail the tests of another. -/
theorem isSet_of_within (within : flags &&& ~~~ mask = 0) (apart : mask &&& other = 0) :
    isSet flags other = false := by
  rw [isSet_eq_meets]
  exact meets_eq_false_of_within (within_toBitVec within) (toBitVec_and_eq_zero apart)

/-- A test passes if one that looks at fewer flags does. -/
theorem isSet_of_isSet (fewer : mask &&& ~~~ other = 0) (passes : isSet flags mask = true) :
    isSet flags other = true := by
  rw [isSet_eq_meets] at passes ⊢
  exact meets_of_meets (within_toBitVec fewer) passes

/-- Flags within a mask pass its test, unless there are none. -/
theorem isSet_self (within : flags &&& ~~~ mask = 0) (some : flags ≠ 0) :
    isSet flags mask = true := by
  rw [isSet_eq_meets]
  exact meets_eq_true_of_within (within_toBitVec within)
    fun none => some (UInt32.toBitVec_inj.mp none)

end Tests

/-! ## The classification -/

section Classification

variable {eventPath : ByteString} {path : U16String} {flags more metadata unnamed : UInt32}

/-- The flags that are not ignored, as a mask to test for. -/
theorem isSet_not_ignored : isSet flags (~~~ IGNORED_FLAGS) = false ↔
    flags &&& ~~~ IGNORED_FLAGS = kFSEventStreamCreateFlagNone :=
  isSet_eq_false_iff

/-- The tests of `handleEvent`, in their order. -/
def tests : List UInt32 :=
  [~~~ IGNORED_FLAGS, kFSEventStreamEventFlagMustScanSubDirs,
    kFSEventStreamEventFlagRootChanged ||| kFSEventStreamEventFlagMount |||
      kFSEventStreamEventFlagUnmount,
    kFSEventStreamEventFlagItemRenamed, kFSEventStreamEventFlagItemCreated,
    kFSEventStreamEventFlagItemModified, kFSEventStreamEventFlagItemRemoved, METADATA_FLAGS]

/-- `handleEvent` sees nothing of the flags but the results of its tests. -/
theorem handleEvent_congr
    (same : ∀ test ∈ tests, isSet more test = isSet flags test) :
    handleEvent ⟨eventPath, more⟩ = handleEvent ⟨eventPath, flags⟩ := by
  simp only [tests, METADATA_FLAGS, List.forall_mem_cons] at same
  obtain ⟨ignored, must, root, renamed, created, modified, removed, metadata, -⟩ := same
  unfold handleEvent changeType
  simp only [← isSet_not_ignored, ignored, must, root, renamed, created, modified, removed,
    metadata]

/-- The report made for flags that are not all ignored. -/
def reportOf (flags : UInt32) (path : U16String) : Report :=
  if isSet flags kFSEventStreamEventFlagMustScanSubDirs then .reportOverflow (some path)
  else match changeType flags with
    | some type => .reportChangeEvent type.index path
    | none => .reportUnknownEvent path

/-- What is reported for a path that is well formed. -/
theorem handleEvent_of_decoded (decoded : utf8ToUtf16String eventPath = some path) :
    handleEvent ⟨eventPath, flags⟩ =
      if flags &&& ~~~ IGNORED_FLAGS = 0 then .ok none else .ok (some (reportOf flags path)) := by
  have zero : kFSEventStreamCreateFlagNone = 0 := rfl
  unfold handleEvent reportOf
  simp only [decoded, zero]
  split_ifs with ignored overflown
  · rfl
  · rfl
  · cases changeType flags with
    | none => rfl
    | some type => rfl

/-- Nothing is reported exactly if all flags are ignored. -/
theorem handleEvent_eq_none_iff (decoded : utf8ToUtf16String eventPath = some path) :
    handleEvent ⟨eventPath, flags⟩ = .ok none ↔ flags &&& ~~~ IGNORED_FLAGS = 0 := by
  rw [handleEvent_of_decoded decoded]
  split_ifs with ignored
  · exact iff_of_true rfl ignored
  · exact iff_of_false (by simp) ignored

/-- Otherwise there is one report. -/
theorem exists_report (decoded : utf8ToUtf16String eventPath = some path)
    (relevant : flags &&& ~~~ IGNORED_FLAGS ≠ 0) :
    ∃ made, handleEvent ⟨eventPath, flags⟩ = .ok (some made) := by
  rw [handleEvent_of_decoded decoded, if_neg relevant]
  exact ⟨_, rfl⟩

/-- Flags within a mask of flags that are not ignored are not ignored either, whatever is set
besides. -/
theorem not_ignored {mask : UInt32} (within : more &&& ~~~ mask = 0) (some : more ≠ 0)
    (seen : mask &&& ~~~ (~~~ IGNORED_FLAGS) = 0) :
    (flags ||| more) &&& ~~~ IGNORED_FLAGS ≠ 0 := by
  intro ignored
  have found : isSet more (~~~ IGNORED_FLAGS) = true := isSet_of_isSet seen (isSet_self within some)
  rw [← isSet_eq_false_iff, isSet_or_left, found, Bool.or_true] at ignored
  cases ignored

/-- What holds of the tests is computed over their list, not over all flags. -/
theorem forall_tests {p : UInt32 → Prop} [DecidablePred p] (all : tests.all fun test => p test) :
    ∀ test ∈ tests, p test :=
  fun test mem => of_decide_eq_true (List.all_eq_true.mp all test mem)

/-- No test looks at an ignored flag. -/
theorem handleEvent_ignored :
    handleEvent ⟨eventPath, flags⟩ = handleEvent ⟨eventPath, flags &&& ~~~ IGNORED_FLAGS⟩ := by
  have looks : ∀ test ∈ tests, test &&& ~~~ (~~~ IGNORED_FLAGS) = 0 := forall_tests (by decide)
  exact (handleEvent_congr fun test mem => isSet_and (looks test mem)).symm

/-- Metadata meets only the test of its own. -/
theorem isSet_metadata (within : metadata &&& ~~~ METADATA_FLAGS = 0) :
    ∀ test ∈ tests, test ≠ ~~~ IGNORED_FLAGS → test ≠ METADATA_FLAGS →
      isSet (flags ||| metadata) test = isSet flags test := by
  have apart : ∀ test ∈ tests, test ≠ ~~~ IGNORED_FLAGS → test ≠ METADATA_FLAGS →
      METADATA_FLAGS &&& test = 0 := forall_tests (by decide)
  intro test mem other another
  rw [isSet_or_left, isSet_of_within within (apart test mem other another), Bool.or_false]

/-- The tests for the content. -/
theorem isSet_content : isSet flags CONTENT_FLAGS = true ↔
    isSet flags kFSEventStreamEventFlagMustScanSubDirs = true ∨
      isSet flags (kFSEventStreamEventFlagRootChanged ||| kFSEventStreamEventFlagMount |||
        kFSEventStreamEventFlagUnmount) = true ∨
      isSet flags kFSEventStreamEventFlagItemRenamed = true ∨
      isSet flags kFSEventStreamEventFlagItemModified = true ∨
      isSet flags kFSEventStreamEventFlagItemRemoved = true := by
  simp only [CONTENT_FLAGS, isSet_or_right, Bool.or_eq_true, or_assoc]

/-- Flags for the content are tested before those for metadata. -/
theorem reportOf_metadata_hidden (within : metadata &&& ~~~ METADATA_FLAGS = 0)
    (content : isSet flags CONTENT_FLAGS = true) :
    reportOf (flags ||| metadata) path = reportOf flags path := by
  have same := @isSet_metadata flags _ within
  simp only [tests, List.forall_mem_cons] at same
  obtain ⟨-, must, root, renamed, created, modified, removed, -⟩ := same
  unfold reportOf changeType
  rw [must (by decide) (by decide), root (by decide) (by decide),
    renamed (by decide) (by decide), created (by decide) (by decide),
    modified (by decide) (by decide), removed (by decide) (by decide)]
  -- Whichever test it is, the one for metadata comes behind it.
  rcases isSet_content.mp content with h | h | h | h | h
  all_goals simp only [h, if_true]

/-- Flags for the content are not ignored, with or without metadata. -/
theorem handleEvent_metadata_hidden (within : metadata &&& ~~~ METADATA_FLAGS = 0)
    (content : isSet flags CONTENT_FLAGS = true) :
    handleEvent ⟨eventPath, flags ||| metadata⟩ = handleEvent ⟨eventPath, flags⟩ := by
  have relevant : isSet flags (~~~ IGNORED_FLAGS) = true := isSet_of_isSet (by decide) content
  have still : isSet (flags ||| metadata) (~~~ IGNORED_FLAGS) = true := by
    rw [isSet_or_left, relevant, Bool.true_or]
  cases decoded : utf8ToUtf16String eventPath with
  | none => simp only [handleEvent, decoded]
  | some path =>
    rw [handleEvent_of_decoded decoded, handleEvent_of_decoded decoded,
      reportOf_metadata_hidden within content]
    rw [← Bool.not_eq_false, isSet_eq_false_iff] at relevant still
    rw [if_neg relevant, if_neg still]

/-- Without a flag for the content, metadata makes a modification. -/
theorem reportOf_metadata_modified (within : metadata &&& ~~~ METADATA_FLAGS = 0)
    (some : metadata ≠ 0) (content : isSet flags CONTENT_FLAGS = false) :
    reportOf (flags ||| metadata) path =
      .reportChangeEvent ChangeType.modified.index path := by
  have same := @isSet_metadata flags _ within
  simp only [tests, List.forall_mem_cons] at same
  obtain ⟨-, must, root, renamed, created, modified, removed, -⟩ := same
  have found : isSet (flags ||| metadata) METADATA_FLAGS = true := by
    rw [isSet_or_left, isSet_self within some, Bool.or_true]
  have silent := mt isSet_content.mpr (ne_true_of_eq_false content)
  simp only [not_or] at silent
  obtain ⟨noMust, noRoot, noRenamed, noModified, noRemoved⟩ := silent
  unfold reportOf changeType
  rw [must (by decide) (by decide), root (by decide) (by decide),
    renamed (by decide) (by decide), created (by decide) (by decide),
    modified (by decide) (by decide), removed (by decide) (by decide)]
  rw [METADATA_FLAGS] at found
  simp only [noMust, noRoot, noRenamed, noModified, noRemoved, found, Bool.false_eq_true,
    if_false, if_true]

/-- Flags that the source does not name meet only the test for those that are not ignored. -/
theorem isSet_unnamed (outside : unnamed &&& NAMED_FLAGS = 0) :
    ∀ test ∈ tests, test ≠ ~~~ IGNORED_FLAGS →
      isSet (flags ||| unnamed) test = isSet flags test := by
  have apart : ∀ test ∈ tests, test ≠ ~~~ IGNORED_FLAGS → ~~~ NAMED_FLAGS &&& test = 0 :=
    forall_tests (by decide)
  have within : unnamed &&& ~~~ (~~~ NAMED_FLAGS) = 0 := by rw [UInt32.not_not, outside]
  intro test mem other
  rw [isSet_or_left, isSet_of_within within (apart test mem other), Bool.or_false]

/-- Beside a relevant flag, flags that the source does not name change no test. -/
theorem handleEvent_unnamed_hidden (outside : unnamed &&& NAMED_FLAGS = 0)
    (relevant : isSet flags RELEVANT_FLAGS = true) :
    handleEvent ⟨eventPath, flags ||| unnamed⟩ = handleEvent ⟨eventPath, flags⟩ := by
  have seen : isSet flags (~~~ IGNORED_FLAGS) = true := isSet_of_isSet (by decide) relevant
  refine handleEvent_congr fun test mem => ?_
  by_cases first : test = ~~~ IGNORED_FLAGS
  · rw [first, isSet_or_left, seen, Bool.true_or]
  · exact isSet_unnamed outside test mem first

/-- Without a relevant flag, no type of change fits. -/
theorem reportOf_unnamed_unknown (outside : unnamed &&& NAMED_FLAGS = 0)
    (irrelevant : isSet flags RELEVANT_FLAGS = false) :
    reportOf (flags ||| unnamed) path = .reportUnknownEvent path := by
  have fewer : ∀ test ∈ tests, test ≠ ~~~ IGNORED_FLAGS → test &&& ~~~ RELEVANT_FLAGS = 0 :=
    forall_tests (by decide)
  have silent : ∀ test ∈ tests, test ≠ ~~~ IGNORED_FLAGS →
      isSet (flags ||| unnamed) test = false := by
    intro test mem other
    rw [isSet_unnamed outside test mem other]
    by_contra passes
    rw [Bool.not_eq_false] at passes
    rw [isSet_of_isSet (fewer test mem other) passes] at irrelevant
    cases irrelevant
  simp only [tests, METADATA_FLAGS, List.forall_mem_cons] at silent
  obtain ⟨-, must, root, renamed, created, modified, removed, metadata, -⟩ := silent
  unfold reportOf changeType
  simp only [must (by decide), root (by decide), renamed (by decide), created (by decide),
    modified (by decide), removed (by decide), metadata (by decide), Bool.false_eq_true, if_false]

/-- An event with a well formed path gets one report, unless all of its flags are ignored, and
no report if they are. Ignored flags never change it. Flags for metadata change nothing beside
one for the content, and make a modification otherwise. Flags that the source does not name
change nothing beside a relevant one, and make an unknown event otherwise. Without a well
formed path, no flags lead to a report. -/
theorem handleEvent_classifies (eventPath : ByteString) :
    (∃ path, utf8ToUtf16String eventPath = some path ∧
        Classifies path fun flags => handleEvent ⟨eventPath, flags⟩) ∨
      (utf8ToUtf16String eventPath = none ∧
        ∀ flags, handleEvent ⟨eventPath, flags⟩ = .error fromBytesError) := by
  cases decoded : utf8ToUtf16String eventPath with
  | none => exact .inr ⟨rfl, fun flags => by simp only [handleEvent, decoded]⟩
  | some path =>
    refine .inl ⟨path, rfl, ?_⟩
    constructor
    case none_iff => exact fun flags => handleEvent_eq_none_iff decoded
    case one => exact fun flags => exists_report decoded
    case ignored => exact fun flags => handleEvent_ignored
    case metadata_hidden =>
      intro flags metadata within content
      exact handleEvent_metadata_hidden within content
    case metadata_modified =>
      intro flags metadata within some content
      rw [handleEvent_of_decoded decoded, if_neg (not_ignored within some (by decide)),
        reportOf_metadata_modified within some content]
    case unnamed_hidden =>
      intro flags unnamed outside relevant
      exact handleEvent_unnamed_hidden outside relevant
    case unnamed_unknown =>
      intro flags unnamed outside some irrelevant
      have within : unnamed &&& ~~~ (~~~ NAMED_FLAGS) = 0 := by rw [UInt32.not_not, outside]
      rw [handleEvent_of_decoded decoded, if_neg (not_ignored within some (by decide)),
        reportOf_unnamed_unknown outside irrelevant]

end Classification

end Apple

end FileEvents
