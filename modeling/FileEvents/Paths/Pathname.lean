import Mathlib.Data.List.Basic

/-!
# Pathnames

An absolute pathname is a root and the names that lead from it to a file. Written out, the root
ends with a separator of its own, and there is one separator between two names.

## Main definitions

* `Name`, `join` — a name without separators, and names written out
* `Pathname`, `Pathname.toList` — an absolute pathname, and how it is written
* `Pathname.resolve` — the pathname of a file inside a directory
* `Pathname.SeparatedOnce` — one separator stands between a directory and what is inside

## Main results

* `Pathname.toList_append_eq_iff` — a separator and the names may be appended, except to a root
-/

namespace Paths

variable {α : Type} {separator : α}

/-- A name in a path. -/
structure Name (separator : α) where
  chars : List α
  nonempty : chars ≠ []
  clean : separator ∉ chars

/-- Names, written out. -/
def join (names : List (Name separator)) : List α :=
  [separator].intercalate (names.map Name.chars)

section Join

variable {name : Name separator} {names more : List (Name separator)}

@[simp] theorem join_nil : join ([] : List (Name separator)) = [] := rfl

theorem join_singleton : join [name] = name.chars := List.intercalate_singleton

theorem join_cons (some : names ≠ []) :
    join (name :: names) = name.chars ++ separator :: join names := by
  rw [join, List.map_cons, List.intercalate_cons_of_ne_nil (by simpa using some)]
  simp [join]

theorem join_eq_nil_iff : join names = [] ↔ names = [] := by
  cases names with
  | nil => simp
  | cons name names =>
    have begins : name.chars <+: join (name :: names) := by
      by_cases last : names = []
      · have same : join (name :: names) = name.chars := by rw [last, join_singleton]
        exact same ▸ List.prefix_rfl
      · rw [join_cons last]
        exact List.prefix_append _ _
    refine iff_of_false (fun none => name.nonempty ?_) (List.cons_ne_nil _ _)
    rw [none] at begins
    exact List.prefix_nil.mp begins

/-- Names behind names are separated from them. -/
theorem join_append (some : names ≠ []) (others : more ≠ []) :
    join (names ++ more) = join names ++ separator :: join more := by
  induction names with
  | nil => exact absurd rfl some
  | cons name names ih =>
    by_cases last : names = []
    · rw [last, List.cons_append, List.nil_append, join_cons others, join_singleton]
    · rw [List.cons_append, join_cons (by simp [others]), join_cons last, ih last,
        List.append_assoc, List.cons_append]

/-- Names do not end with a separator. -/
theorem not_separator_suffix_join (some : names ≠ []) : ¬ [separator] <:+ join names := by
  induction names with
  | nil => exact absurd rfl some
  | cons name names ih =>
    by_cases last : names = []
    · rw [last, join_singleton]
      exact fun ends => name.clean (ends.subset List.mem_cons_self)
    · -- The list ends as the names behind the first one end.
      rw [join_cons last]
      intro ends
      have behind : join names <:+ name.chars ++ separator :: join names :=
        (List.suffix_cons _ _).trans (List.suffix_append _ _)
      have long : 0 < (join names).length :=
        List.length_pos_of_ne_nil (mt join_eq_nil_iff.mp last)
      exact ih last (List.suffix_of_suffix_length_le ends behind long)

end Join

/-- An absolute pathname. -/
structure Pathname (separator : α) where
  root : List α
  names : List (Name separator)
  closed : [separator] <:+ root

namespace Pathname

variable (path : Pathname separator) (names : List (Name separator))

/-- The pathname is that of a root. -/
def IsRoot : Prop := path.names = []

/-- The pathname, written out. -/
def toList : List α := path.root ++ join path.names

/-- The pathname of something inside. -/
def resolve : Pathname separator := { path with names := path.names ++ names }

/-- One separator stands between a directory and the names of something inside. -/
def SeparatedOnce (inside : List α) : Prop :=
  ∃ stem, ¬ [separator] <:+ stem ∧
    (path.toList = stem ∨ path.toList = stem ++ [separator]) ∧
    inside = stem ++ separator :: join names

section Append

variable {path : Pathname separator} {names : List (Name separator)}

/-- Inside of a root, the names follow its own separator. -/
theorem toList_resolve_of_isRoot (root : path.IsRoot) :
    (path.resolve names).toList = path.toList ++ join names := by
  rw [IsRoot] at root
  simp [toList, resolve, root]

/-- Inside of any other directory, a separator is put in between. -/
theorem toList_resolve (inner : ¬ path.IsRoot) (some : names ≠ []) :
    (path.resolve names).toList = path.toList ++ separator :: join names := by
  simp only [toList, resolve, join_append inner some, List.append_assoc]

/-- Only a root ends with a separator. -/
theorem not_separator_suffix (inner : ¬ path.IsRoot) : ¬ [separator] <:+ path.toList := by
  intro ends
  have long : 0 < (join path.names).length :=
    List.length_pos_of_ne_nil (mt join_eq_nil_iff.mp inner)
  exact not_separator_suffix_join inner
    (List.suffix_of_suffix_length_le ends (List.suffix_append _ _) long)

/-- A separator and names may be appended to a directory, unless it is a root. -/
theorem toList_append_eq_iff (some : names ≠ []) :
    path.toList ++ separator :: join names = (path.resolve names).toList ↔ ¬ path.IsRoot := by
  constructor
  · intro same root
    rw [toList_resolve_of_isRoot root, List.append_cancel_left_eq] at same
    exact List.cons_ne_self _ _ same
  · intro inner
    exact (toList_resolve inner some).symm

theorem separatedOnce_resolve (inner : ¬ path.IsRoot) (some : names ≠ []) :
    path.SeparatedOnce names (path.resolve names).toList :=
  ⟨path.toList, not_separator_suffix inner, .inl rfl, toList_resolve inner some⟩

end Append

end Pathname

end Paths
