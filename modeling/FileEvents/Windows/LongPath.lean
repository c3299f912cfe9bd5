import FileEvents.Text

/-!
# Long paths

`convertToLongPathIfNeeded` of `win_fsnotifier.cpp`, which puts the prefix `\\?\` in front of
an absolute path of more than 240 units, or replaces the two backslashes of a UNC path by
`\\?\UNC\`. A prefixed path begins with two backslashes itself.

## Main definitions

* `convertToLongPathIfNeeded` — the conversion, with the tests it makes
* `NeedsLongPath` — the paths it is for
* `withoutPrefix` — what takes the prefix off again

## Main results

* `convertToLongPathIfNeeded_cases` — the three things the conversion does
* `lossless_convertToLongPathIfNeeded` — it is idempotent and loses nothing
-/

namespace FileEvents

namespace Windows

/-! ## The tests -/

/-- `isAbsoluteLocalPath`. -/
def isAbsoluteLocalPath : U16String → Bool
  | drive :: colon :: slash :: _ =>
    ((0x61 ≤ drive && drive ≤ 0x7A) || (0x41 ≤ drive && drive ≤ 0x5A)) &&
      colon == 0x3A && slash == 0x5C
  | _ => false

/-- `isAbsoluteUncPath`. -/
def isAbsoluteUncPath : U16String → Bool
  | first :: second :: _ :: _ => first == 0x5C && second == 0x5C
  | _ => false

/-- `isLongPath`. -/
def isLongPath (path : U16String) : Bool :=
  4 ≤ path.length && path.take 4 == u16 "\\\\?\\"

/-- `isUncLongPath`. -/
def isUncLongPath (path : U16String) : Bool :=
  8 ≤ path.length && path.take 8 == u16 "\\\\?\\UNC\\"

/-! ## The conversion -/

/-- `convertToLongPathIfNeeded`. -/
def convertToLongPathIfNeeded (path : U16String) : U16String :=
  if path.length ≤ 240 then path
  else if isLongPath path then path
  else if isAbsoluteLocalPath path then u16 "\\\\?\\" ++ path
  else if isAbsoluteUncPath path then u16 "\\\\?\\UNC\\" ++ path.drop 2
  else path

/-- The path begins with a drive letter, a colon and a backslash. -/
def BeginsWithDrive (path : U16String) : Prop :=
  ∃ drive rest, path = drive :: u16 ":\\" ++ rest ∧
    ((0x61 ≤ drive ∧ drive ≤ 0x7A) ∨ (0x41 ≤ drive ∧ drive ≤ 0x5A))

/-- The path is long, has no prefix yet, and begins with a drive or with two backslashes. -/
def NeedsLongPath (path : U16String) : Prop :=
  240 < path.length ∧ ¬ u16 "\\\\?\\" <+: path ∧
    (BeginsWithDrive path ∨ u16 "\\\\" <+: path)

/-- Takes the prefix off. -/
def withoutPrefix (path : U16String) : U16String :=
  if isUncLongPath path then u16 "\\\\" ++ path.drop 8
  else if isLongPath path then path.drop 4
  else path

section Tests

variable {path : U16String}

/-- A test of length and first units is a test for a prefix. -/
theorem startsWith_iff {string : U16String} {length : ℕ} (same : string.length = length) :
    (length ≤ path.length && path.take length == string) = true ↔ string <+: path := by
  rw [List.prefix_iff_eq_take, same, Bool.and_eq_true, decide_eq_true_iff, beq_iff_eq]
  constructor
  · rintro ⟨-, taken⟩
    exact taken.symm
  · intro taken
    have enough := congrArg List.length taken
    rw [same, List.length_take] at enough
    exact ⟨by omega, taken.symm⟩

theorem isLongPath_iff : isLongPath path = true ↔ u16 "\\\\?\\" <+: path :=
  startsWith_iff (by decide)

theorem isUncLongPath_iff : isUncLongPath path = true ↔ u16 "\\\\?\\UNC\\" <+: path :=
  startsWith_iff (by decide)

/-- The prefix of a long UNC path begins with that of a long path. -/
theorem isLongPath_of_isUncLongPath (long : isUncLongPath path = true) :
    isLongPath path = true := by
  have begins : u16 "\\\\?\\" <+: u16 "\\\\?\\UNC\\" := by decide
  exact isLongPath_iff.mpr (begins.trans (isUncLongPath_iff.mp long))

theorem isAbsoluteLocalPath_iff : isAbsoluteLocalPath path = true ↔ BeginsWithDrive path := by
  constructor
  · intro absolute
    unfold isAbsoluteLocalPath at absolute
    split at absolute
    · rename_i drive colon slash rest
      simp only [Bool.and_eq_true, Bool.or_eq_true, decide_eq_true_iff, beq_iff_eq] at absolute
      obtain ⟨⟨letter, rfl⟩, rfl⟩ := absolute
      exact ⟨drive, rest, rfl, letter⟩
    · cases absolute
  · rintro ⟨drive, rest, rfl, letter⟩
    have second : u16 ":\\" = [0x3A, 0x5C] := by decide
    simp only [isAbsoluteLocalPath, second, List.cons_append, Bool.and_eq_true,
      Bool.or_eq_true, decide_eq_true_iff]
    exact ⟨⟨letter, rfl⟩, rfl⟩

/-- Three units or more are a UNC path if the first two are backslashes. -/
theorem isAbsoluteUncPath_iff (long : 2 < path.length) :
    isAbsoluteUncPath path = true ↔ u16 "\\\\" <+: path := by
  obtain ⟨first, second, third, rest, rfl⟩ : ∃ first second third rest,
      path = first :: second :: third :: rest := by
    match path, long with
    | first :: second :: third :: rest, _ => exact ⟨first, second, third, rest, rfl⟩
  have slashes : u16 "\\\\" = [0x5C, 0x5C] := by decide
  rw [slashes, List.cons_prefix_cons, List.cons_prefix_cons]
  simp only [isAbsoluteUncPath, Bool.and_eq_true, beq_iff_eq, List.nil_prefix, and_true]
  exact ⟨fun ⟨a, b⟩ => ⟨a.symm, b.symm⟩, fun ⟨a, b⟩ => ⟨a.symm, b.symm⟩⟩

/-- A drive letter is not a backslash. -/
theorem not_unc_of_beginsWithDrive (drive : BeginsWithDrive path) : ¬ u16 "\\\\" <+: path := by
  rintro ⟨rest, rfl⟩
  obtain ⟨letter, rest', same, range⟩ := drive
  have slashes : u16 "\\\\" = [0x5C, 0x5C] := by decide
  rw [slashes, List.cons_append, List.cons_append] at same
  obtain ⟨rfl, -⟩ := List.cons.inj same
  rcases range with ⟨low, -⟩ | ⟨-, high⟩
  · exact absurd low (by decide)
  · exact absurd high (by decide)

end Tests

/-! ## What the conversion does -/

section Conversion

variable {path : U16String}

/-- A path stays as it is, or it gets the prefix for its kind. -/
theorem convertToLongPathIfNeeded_cases (path : U16String) :
    (¬ NeedsLongPath path ∧ convertToLongPathIfNeeded path = path) ∨
    (NeedsLongPath path ∧ BeginsWithDrive path ∧
      convertToLongPathIfNeeded path = u16 "\\\\?\\" ++ path) ∨
    (NeedsLongPath path ∧ ∃ rest, path = u16 "\\\\" ++ rest ∧
      convertToLongPathIfNeeded path = u16 "\\\\?\\UNC\\" ++ rest) := by
  unfold convertToLongPathIfNeeded
  split_ifs with short long drive unc
  · exact .inl ⟨fun needs => absurd needs.1 (by omega), rfl⟩
  · exact .inl ⟨fun needs => needs.2.1 (isLongPath_iff.mp long), rfl⟩
  · have begins := isAbsoluteLocalPath_iff.mp drive
    exact .inr (.inl ⟨⟨by omega, mt isLongPath_iff.mpr long, .inl begins⟩, begins, rfl⟩)
  · have begins := (isAbsoluteUncPath_iff (by omega)).mp unc
    refine .inr (.inr ⟨⟨by omega, mt isLongPath_iff.mpr long, .inr begins⟩, ?_⟩)
    obtain ⟨rest, rfl⟩ := begins
    exact ⟨rest, rfl, by rw [List.drop_left' (by decide)]⟩
  · refine .inl ⟨fun needs => ?_, rfl⟩
    rcases needs.2.2 with begins | begins
    · exact drive (isAbsoluteLocalPath_iff.mpr begins)
    · exact unc ((isAbsoluteUncPath_iff (by omega)).mpr begins)

/-- Where the conversion does something, it puts a prefix in front. -/
theorem isLongPath_convertToLongPathIfNeeded (needs : NeedsLongPath path) :
    isLongPath (convertToLongPathIfNeeded path) = true := by
  rcases convertToLongPathIfNeeded_cases path with ⟨kept, -⟩ | ⟨-, -, same⟩ | ⟨-, rest, -, same⟩
  · exact absurd needs kept
  · rw [same]
    exact isLongPath_iff.mpr (List.prefix_append _ _)
  · rw [same]
    exact isLongPath_of_isUncLongPath (isUncLongPath_iff.mpr (List.prefix_append _ _))

/-- The UNC prefix is for UNC paths. -/
theorem isUncLongPath_convertToLongPathIfNeeded (needs : NeedsLongPath path) :
    isUncLongPath (convertToLongPathIfNeeded path) = true ↔ u16 "\\\\" <+: path := by
  rcases convertToLongPathIfNeeded_cases path with
    ⟨kept, -⟩ | ⟨-, drive, same⟩ | ⟨-, rest, rfl, same⟩
  · exact absurd needs kept
  · refine iff_of_false (fun unc => ?_) (not_unc_of_beginsWithDrive drive)
    rw [isUncLongPath_iff, same] at unc
    -- The unit behind the prefix would be both `U` and the drive letter, the next one `N`.
    obtain ⟨letter, rest, rfl, -⟩ := drive
    have apart : ¬ u16 "UNC\\" <+: letter :: u16 ":\\" ++ rest := by
      rw [show u16 "UNC\\" = [0x55, 0x4E, 0x43, 0x5C] by decide,
        show u16 ":\\" = [0x3A, 0x5C] by decide]
      simp
    exact apart ((List.prefix_append_right_inj (u16 "\\\\?\\")).mp unc)
  · rw [same]
    exact iff_of_true (isUncLongPath_iff.mpr (List.prefix_append _ _)) (List.prefix_append _ _)

/-- Taking the prefix off restores the path. -/
theorem withoutPrefix_convertToLongPathIfNeeded (needs : NeedsLongPath path) :
    withoutPrefix (convertToLongPathIfNeeded path) = path := by
  have long := isLongPath_convertToLongPathIfNeeded needs
  have unc := isUncLongPath_convertToLongPathIfNeeded needs
  unfold withoutPrefix
  rcases convertToLongPathIfNeeded_cases path with
    ⟨kept, -⟩ | ⟨-, drive, same⟩ | ⟨-, rest, rfl, same⟩
  · exact absurd needs kept
  · rw [if_neg (mt unc.mp (not_unc_of_beginsWithDrive drive)), if_pos long, same,
      List.drop_left' (by decide)]
  · rw [if_pos (unc.mpr (List.prefix_append _ _)), same, List.drop_left' (by decide)]

/-- A long path is not converted again. -/
theorem convertToLongPathIfNeeded_idem (path : U16String) :
    convertToLongPathIfNeeded (convertToLongPathIfNeeded path) =
      convertToLongPathIfNeeded path := by
  by_cases needs : NeedsLongPath path
  · have long := isLongPath_convertToLongPathIfNeeded needs
    rcases convertToLongPathIfNeeded_cases (convertToLongPathIfNeeded path) with
      ⟨-, same⟩ | ⟨again, -⟩ | ⟨again, -⟩
    · exact same
    · exact absurd (isLongPath_iff.mp long) again.2.1
    · exact absurd (isLongPath_iff.mp long) again.2.1
  · rcases convertToLongPathIfNeeded_cases path with ⟨-, same⟩ | ⟨again, -⟩ | ⟨again, -⟩
    · rw [same, same]
    · exact absurd again needs
    · exact absurd again needs

theorem convertToLongPathIfNeeded_eq_self (kept : ¬ NeedsLongPath path) :
    convertToLongPathIfNeeded path = path := by
  rcases convertToLongPathIfNeeded_cases path with ⟨-, same⟩ | ⟨needs, -⟩ | ⟨needs, -⟩
  · exact same
  · exact absurd needs kept
  · exact absurd needs kept

/-- Taking the prefix off restores every path that had none. -/
theorem withoutPrefix_of_unprefixed (unprefixed : ¬ u16 "\\\\?\\" <+: path) :
    withoutPrefix (convertToLongPathIfNeeded path) = path := by
  by_cases needs : NeedsLongPath path
  · exact withoutPrefix_convertToLongPathIfNeeded needs
  · have plain : isLongPath path = false := by
      rw [Bool.eq_false_iff]
      exact mt isLongPath_iff.mp unprefixed
    have plainUnc : isUncLongPath path = false := by
      rw [Bool.eq_false_iff]
      intro unc
      rw [isLongPath_of_isUncLongPath unc] at plain
      cases plain
    rw [convertToLongPathIfNeeded_eq_self needs, withoutPrefix, plainUnc, plain]
    rfl

/-- The conversion is idempotent. It leaves a path alone that is short, prefixed or neither
begins with a drive nor with two backslashes; to any other path it adds the prefix of its
kind, and taking that off restores the path. So it takes no two unprefixed paths to one. -/
theorem lossless_convertToLongPathIfNeeded (path : U16String) :
    convertToLongPathIfNeeded (convertToLongPathIfNeeded path) =
        convertToLongPathIfNeeded path ∧
      (path.length ≤ 240 ∨ u16 "\\\\?\\" <+: path ∨
          ¬ (BeginsWithDrive path ∨ u16 "\\\\" <+: path) →
        convertToLongPathIfNeeded path = path) ∧
      (¬ (path.length ≤ 240 ∨ u16 "\\\\?\\" <+: path ∨
          ¬ (BeginsWithDrive path ∨ u16 "\\\\" <+: path)) →
        u16 "\\\\?\\" <+: convertToLongPathIfNeeded path ∧
          (u16 "\\\\?\\UNC\\" <+: convertToLongPathIfNeeded path ↔ u16 "\\\\" <+: path) ∧
          withoutPrefix (convertToLongPathIfNeeded path) = path) ∧
      (¬ u16 "\\\\?\\" <+: path → ∀ other : U16String, ¬ u16 "\\\\?\\" <+: other →
        convertToLongPathIfNeeded path = convertToLongPathIfNeeded other → path = other) := by
  refine ⟨convertToLongPathIfNeeded_idem path, fun kept => ?_, fun converted => ?_,
    fun unprefixed other unprefixed' same => ?_⟩
  · refine convertToLongPathIfNeeded_eq_self fun needs => ?_
    rcases kept with short | long | neither
    · exact absurd needs.1 (by omega)
    · exact needs.2.1 long
    · exact neither needs.2.2
  · -- Whatever is none of these is converted.
    have needs : NeedsLongPath path := by
      obtain ⟨long, others⟩ := not_or.mp converted
      obtain ⟨unprefixed, absolute⟩ := not_or.mp others
      exact ⟨by omega, unprefixed, not_not.mp absolute⟩
    exact ⟨isLongPath_iff.mp (isLongPath_convertToLongPathIfNeeded needs),
      isUncLongPath_iff.symm.trans (isUncLongPath_convertToLongPathIfNeeded needs),
      withoutPrefix_convertToLongPathIfNeeded needs⟩
  · -- Taking the prefix off is a left inverse on unprefixed paths.
    calc path = withoutPrefix (convertToLongPathIfNeeded path) :=
        (withoutPrefix_of_unprefixed unprefixed).symm
      _ = withoutPrefix (convertToLongPathIfNeeded other) := by rw [same]
      _ = other := withoutPrefix_of_unprefixed unprefixed'

/-- A UNC path that imitates the prefix is converted like any other. -/
example : convertToLongPathIfNeeded (u16 "\\\\UNC\\" ++ List.replicate 240 0x61) =
    u16 "\\\\?\\UNC\\UNC\\" ++ List.replicate 240 0x61 := by decide +kernel

end Conversion

end Windows

end FileEvents
