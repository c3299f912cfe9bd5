import Mathlib.Data.List.Basic

/-!
# Walking along a path

A path is walked component by component, from directory to directory. Other directories may be
mounted on the directories found, and symbolic links on the way are followed: the walk goes on
along the target of the link, and only so many links may be followed. A link at the very end of
the path is followed or not, as the walker chooses.

## Main definitions

* `FileSystem` — the objects and what is found where
* `FileSystem.walk` — a walk from a directory along components
* `FileSystem.find` — the object a route leads to

## Main results

* `FileSystem.find_follow` — if a route leads to something other than a link, it does so whether
  or not a link at its end is followed
-/

namespace Paths

/-- One step of a path. -/
inductive Component (ν : Type*)
  /-- The directory itself, `.`. -/
  | here
  /-- The directory above, `..`. -/
  | up
  | name (name : ν)

/-- Where to begin and which steps to take from there. -/
structure Route (ν : Type*) where
  /-- Whether to begin at the root. -/
  absolute : Bool
  components : List (Component ν)

/-- What an object is. -/
inductive Node (ν ο : Type*)
  | directory (entries : ν → Option ο)
  | link (target : Route ν)
  | file

/-- A file system as a process sees it. -/
structure FileSystem (ν ο : Type*) where
  root : ο
  /-- The working directory of the process. -/
  working : ο
  node : ο → Node ν ο
  /-- The directory above a directory, across the places where it is mounted. -/
  parent : ο → ο
  /-- The root of what is mounted on an object, the object itself if nothing is. -/
  mounted : ο → ο

namespace FileSystem

variable {ν ο : Type*}

/-- The object is a symbolic link. -/
def isLink (fs : FileSystem ν ο) (object : ο) : Bool :=
  match fs.node object with
  | .link _ => true
  | .directory _ | .file => false

/-- The object is a directory. -/
def isDirectory (fs : FileSystem ν ο) (object : ο) : Bool :=
  match fs.node object with
  | .directory _ => true
  | .link _ | .file => false

/-- What one step leads to, nothing unless it is taken from a directory. -/
def lookup (fs : FileSystem ν ο) (dir : ο) (component : Component ν) : Option ο :=
  match fs.node dir with
  | .directory entries =>
    match component with
    | .here => some dir
    | .up => some (fs.parent dir)
    | .name name => (entries name).map fs.mounted
  | .link _ | .file => none

/-- Where a route begins if it is met in this directory. -/
def origin (fs : FileSystem ν ο) (dir : ο) (route : Route ν) : ο :=
  if route.absolute then fs.root else dir

/-- A walk that goes on with `jump` at a link: from the directory the link was found in, along
its target and the rest of the way. -/
def walkWith (fs : FileSystem ν ο) (jump : ο → Route ν → List (Component ν) → Option ο)
    (follow : Bool) : ο → List (Component ν) → Option ο
  | object, [] => some object
  | dir, component :: rest =>
    (fs.lookup dir component).bind fun object =>
      match fs.node object with
      | .link target => if rest.isEmpty && !follow then some object else jump dir target rest
      | .directory _ | .file => fs.walkWith jump follow object rest

/-- The walk along the components that follows at most `links` links, and one at the end only if
`follow` says so. -/
def walk (fs : FileSystem ν ο) (follow : Bool) : ℕ → ο → List (Component ν) → Option ο
  | 0 => fs.walkWith (fun _ _ _ => none) follow
  | links + 1 => fs.walkWith (fun dir target rest =>
      fs.walk follow links (fs.origin dir target) (target.components ++ rest)) follow

/-- The object that a route leads to. -/
def find (fs : FileSystem ν ο) (follow : Bool) (links : ℕ) (route : Route ν) : Option ο :=
  fs.walk follow links (fs.origin fs.working route) route.components

section Follow

variable {fs : FileSystem ν ο} {jump jump' : ο → Route ν → List (Component ν) → Option ο}
variable {dir object : ο} {components : List (Component ν)} {links : ℕ} {route : Route ν}

theorem walkWith_follow (direct : fs.isLink object = false)
    (jumps : ∀ dir target rest, jump dir target rest = some object →
      jump' dir target rest = some object)
    (walked : fs.walkWith jump false dir components = some object) :
    fs.walkWith jump' true dir components = some object := by
  induction components generalizing dir with
  | nil => exact walked
  | cons component rest ih =>
    obtain ⟨next, stepped, walked⟩ := Option.bind_eq_some_iff.mp walked
    simp only [walkWith, stepped, Option.bind_some]
    cases kind : fs.node next with
    | link target =>
      simp only [kind] at walked
      split_ifs at walked with last
      · -- The walk has ended on this link.
        obtain rfl := Option.some_inj.mp walked
        simp [isLink, kind] at direct
      · simpa using jumps dir target rest walked
    | directory entries =>
      simp only [kind] at walked
      exact ih walked
    | file =>
      simp only [kind] at walked
      exact ih walked

theorem walk_follow (direct : fs.isLink object = false)
    (walked : fs.walk false links dir components = some object) :
    fs.walk true links dir components = some object := by
  induction links generalizing dir components with
  | zero => exact walkWith_follow direct (by simp) walked
  | succ links ih => exact walkWith_follow direct (fun dir target rest => ih) walked

/-- If a route leads to something other than a link, it does so whether or not a link at its end
is followed. -/
theorem find_follow (direct : fs.isLink object = false)
    (found : fs.find false links route = some object) :
    fs.find true links route = some object :=
  walk_follow direct found

end Follow

end FileSystem

end Paths
