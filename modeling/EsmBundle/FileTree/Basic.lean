import EsmBundle.OrderedMap
import EsmBundle.Text.Utf8

/-!
Trees of files and directories.

A location is the list of the names from the root, and a tree says what is at
which location. The root itself is always a directory. A directory that was
removed while it is in use has no name any more: its place is kept under the empty
one, which no path can write.
-/

namespace EsmBundle

/-- A place in a tree: the names of the directories from the root on, and a last name. -/
abbrev Location := List String

/-- A location at or below a directory that was removed while in use. -/
def isUnlinked (location : Location) : Bool :=
  location.contains ""

/-- What is at a location. -/
inductive Entry where
  | directory
  | file (contents : Bytes)
deriving DecidableEq, Repr

/-- A tree of files and directories: what is at its root, and the trees below by their names. -/
inductive FileTree where
  | node (entry : Option Entry) (branches : List (String × FileTree))

namespace FileTree

/-! ### Locations -/

/-- The tree with nothing in it. -/
def empty : FileTree := node none []

/-- What is at the root of a tree. -/
def top : FileTree → Option Entry
  | node entry _ => entry

/-- The trees below the root of a tree. -/
def branches : FileTree → List (String × FileTree)
  | node _ branches => branches

/-- The tree below a name. -/
def child (tree : FileTree) (name : String) : FileTree :=
  (findEntry name tree.branches).getD empty

/-- What a tree holds at a location. -/
def find? (tree : FileTree) : Location → Option Entry
  | [] => tree.top
  | name :: rest => (tree.child name).find? rest

/-- What is at a location: a directory at the root, and elsewhere what the tree holds. -/
def get? (tree : FileTree) (location : Location) : Option Entry :=
  if location = [] then some .directory else tree.find? location

/-- The tree with an entry at a location. -/
def put (tree : FileTree) : Location → Entry → FileTree
  | [], entry => node (some entry) tree.branches
  | name :: rest, entry =>
    node tree.top (putEntry name ((tree.child name).put rest entry) tree.branches)

/-- A tree below a name is put at that name only. -/
theorem child_node_putEntry {entry : Option Entry} {tree new : FileTree} {name other : String} :
    (node entry (putEntry name new tree.branches)).child other =
      if other = name then new else tree.child other := by
  by_cases same : other = name <;> simp [child, branches, findEntry_putEntry, same]

/-- An entry is held at its own location only. -/
theorem find?_put {tree : FileTree} {location other : Location} {entry : Entry} :
    (tree.put location entry).find? other =
      if other = location then some entry else tree.find? other := by
  induction location generalizing tree other with
  | nil => cases other <;> simp [put, find?, top, child, branches]
  | cons name rest ih =>
    cases other with
    | nil => simp [put, find?, top]
    | cons step steps =>
      by_cases same : step = name <;> simp [put, find?, child_node_putEntry, same, ih]

/-- An entry is put at its own location only. -/
theorem get?_put {tree : FileTree} {location other : Location} {entry : Entry}
    (notRoot : location ≠ []) :
    (tree.put location entry).get? other =
      if other = location then some entry else tree.get? other := by
  by_cases root : other = []
  · subst root
    simp [get?, Ne.symm notRoot]
  · simp [get?, find?_put, root]

/-- The tree with directories at every location on the way to the given one, where
nothing is yet. -/
def putAncestors (tree : FileTree) (location : Location) : FileTree :=
  (List.range (location.length - 1)).foldl
    (fun tree n =>
      let ancestor := location.take (n + 1)
      if (tree.get? ancestor).isSome then tree else tree.put ancestor .directory)
    tree

/-- The tree with an entry and the directories that lead to it. -/
def plant (tree : FileTree) (location : Location) (entry : Entry) : FileTree :=
  (tree.putAncestors location).put location entry

/-- The tree without a location and all that is below it. -/
def prune (tree : FileTree) : Location → FileTree
  | [] => empty
  | [name] => node tree.top (tree.branches.filter fun item => item.1 ≠ name)
  | name :: rest => node tree.top (putEntry name ((tree.child name).prune rest) tree.branches)

/-- The tree with nothing in it holds nothing anywhere. -/
theorem find?_empty (location : Location) : empty.find? location = none := by
  induction location with
  | nil => rfl
  | cons name rest ih => exact ih

/-- Pruning takes away what is at the location or below it, and nothing else. -/
theorem find?_prune {tree : FileTree} {location other : Location} :
    (tree.prune location).find? other =
      if location.isPrefixOf other then none else tree.find? other := by
  induction location generalizing tree other with
  | nil => simp [prune, find?_empty]
  | cons name rest ih =>
    cases other with
    | nil => cases rest <;> simp [prune, find?, top]
    | cons step steps =>
      cases rest with
      | nil =>
        rw [prune, find?, child, branches, findEntry_filter_ne]
        by_cases same : step = name
        · simp [same, find?_empty]
        · simp [same, Ne.symm same, find?, child]
      | cons next rest =>
        by_cases same : step = name
        · simp [prune, find?, child_node_putEntry, same, ih]
        · simp [prune, find?, child_node_putEntry, same, Ne.symm same]

/-- Pruning takes away what is at the location or below it, and nothing else; the root stays. -/
theorem get?_prune {tree : FileTree} {location other : Location} (notRoot : other ≠ []) :
    (tree.prune location).get? other =
      if location.isPrefixOf other then none else tree.get? other := by
  simp [get?, notRoot, find?_prune]

/-- The tree at a location. -/
def subtree (tree : FileTree) : Location → FileTree
  | [] => tree
  | name :: rest => (tree.child name).subtree rest

/-! ### Contents -/

mutual

/-- What a tree holds, with the names that lead to it; a directory comes before what is in it. -/
def entries : FileTree → List (Location × Entry)
  | node entry branches => (entry.map fun entry => ([], entry)).toList ++ entriesBelow branches

/-- What trees hold, each below its name. -/
def entriesBelow : List (String × FileTree) → List (Location × Entry)
  | [] => []
  | (name, tree) :: rest =>
    tree.entries.map (fun item => (name :: item.1, item.2)) ++ entriesBelow rest

end

mutual

/-- The files and the empty directories of a tree, with the names that lead to them. What has no
name counts as not there. -/
def tips : FileTree → List (Location × Entry)
  | node entry branches =>
    match entry, tipsBelow branches with
    | some .directory, [] => [([], .directory)]
    | some (.file contents), tips => ([], .file contents) :: tips
    | _, tips => tips

/-- The files and the empty directories of trees, each below its name. -/
def tipsBelow : List (String × FileTree) → List (Location × Entry)
  | [] => []
  | (name, tree) :: rest =>
    if name = "" then tipsBelow rest
    else tree.tips.map (fun item => (name :: item.1, item.2)) ++ tipsBelow rest

end

mutual

/-- The most names that lead to anything in a tree. -/
def depth : FileTree → Nat
  | node _ branches => depthBelow branches

/-- The most names that lead to anything in trees, each below its name. -/
def depthBelow : List (String × FileTree) → Nat
  | [] => 0
  | (_, tree) :: rest => max (tree.depth + 1) (depthBelow rest)

end

/-- The files and the empty directories below a location, each with the names
that lead to it from there; the location itself is not among them. -/
def leaves (tree : FileTree) (location : Location) : List (Location × Entry) :=
  tipsBelow (tree.subtree location).branches

end FileTree

end EsmBundle
