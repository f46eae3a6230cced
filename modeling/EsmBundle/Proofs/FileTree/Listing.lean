import EsmBundle.Proofs.FileTree.Walk
import EsmBundle.Proofs.FirstPlaces
import Mathlib.Data.List.Nodup

/-!
Walks that list the files of a tree.

A walk comes to the names in a directory in an order of its own and lists the files below each of
them; a directory whose path is too long is passed over. Whatever the orders are, a walk lists the
files that are reached through directories with a path that is short enough, and each of
them once.

* `FileTree.Walks` — the walks through a tree at a path.
* `FileTree.walks_listing` — the listing of a tree is one.
* `FileTree.Walks.mem_iff`, `FileTree.Walks.nodup` — what a walk lists.
* `FileTree.Walks.perm` — two walks differ in the order only.
-/

namespace EsmBundle

namespace FileTree

variable {tree : FileTree} {path name : String} {names : Location} {contents : Bytes}

/-! ### Parts of a tree -/

theorem find?_append (tree : FileTree) (location names : Location) :
    tree.find? (location ++ names) = (tree.subtree location).find? names := by
  induction location generalizing tree with
  | nil => rfl
  | cons name rest ih => exact ih (tree.child name)

theorem depth_lt_depthBelow {branches : List (String × FileTree)}
    (found : findEntry name branches = some tree) : tree.depth < depthBelow branches := by
  induction branches with
  | nil => cases found
  | cons branch rest ih =>
    obtain ⟨other, first⟩ := branch
    rw [findEntry] at found
    rw [depthBelow]
    split at found
    · obtain rfl := Option.some.inj found
      exact Nat.lt_of_succ_le (Nat.le_max_left _ _)
    · exact Nat.lt_of_lt_of_le (ih found) (Nat.le_max_right _ _)

/-- What has a top is found below its name. -/
theorem findEntry_of_top_child (there : (tree.child name).top ≠ none) :
    findEntry name tree.branches = some (tree.child name) := by
  rw [child] at there ⊢
  cases found : findEntry name tree.branches with
  | none =>
    rw [found] at there
    exact absurd rfl there
  | some below => rfl

theorem depth_child_lt (there : (tree.child name).top ≠ none) :
    (tree.child name).depth < tree.depth := by
  have below := depth_lt_depthBelow (findEntry_of_top_child there)
  cases tree
  rwa [depth]

/-- The names of a tree that lead to something. -/
theorem mem_keys_of_top_child (there : (tree.child name).top ≠ none) :
    name ∈ tree.branches.map Prod.fst := by
  have found := findEntry_of_top_child there
  by_contra absent
  rw [findEntry_eq_none_iff.mpr absent] at found
  cases found

/-- A tree is as deep as the names are many that lead to something. -/
theorem length_le_depth (there : tree.find? names ≠ none) : names.length ≤ tree.depth := by
  induction names generalizing tree with
  | nil => exact Nat.zero_le _
  | cons name rest ih =>
    rw [find?] at there
    have below := ih there
    cases found : findEntry name tree.branches with
    | none =>
      rw [child, found, Option.getD_none, find?_empty] at there
      exact absurd rfl there
    | some part =>
      rw [child, found, Option.getD_some] at below
      have less := depth_lt_depthBelow found
      cases tree
      rw [depth]
      exact Nat.lt_of_le_of_lt below less

/-! ### Walks -/

/-- A walk through a tree at a path lists its files with the names that lead to them: in a directory
the files below every name that is there, in whatever order it comes to the names, and none if the
path of the directory is too long. -/
inductive Walks : String → FileTree → List (Location × Bytes) → Prop
  | file {path : String} {tree : FileTree} {contents : Bytes}
      (top : tree.top = some (.file contents)) : Walks path tree [([], contents)]
  | passed {path : String} {tree : FileTree} (top : tree.top = some .directory)
      (long : isLongPath path = true) : Walks path tree []
  | directory {path : String} {tree : FileTree} {names : List String}
      {below : String → List (Location × Bytes)}
      (top : tree.top = some .directory) (short : isLongPath path = false)
      (distinct : names.Nodup) (complete : ∀ name, name ∈ names ↔ (tree.child name).top ≠ none)
      (walked : ∀ name ∈ names, Walks (Path.join path name) (tree.child name) (below name)) :
      Walks path tree
        (names.flatMap fun name => (below name).map fun file => (name :: file.1, file.2))

/-- A file to which names lead from a path, through directories that have no path too long to be
looked into. -/
def Reaches (path : String) (tree : FileTree) (names : Location) (contents : Bytes) : Prop :=
  tree.find? names = some (.file contents) ∧
    ∀ above name below, names = above ++ name :: below →
      tree.find? above = some .directory ∧ isLongPath (above.foldl Path.join path) = false

theorem reaches_nil_iff : tree.Reaches path [] contents ↔ tree.top = some (.file contents) := by
  refine ⟨And.left, fun top => ⟨top, ?_⟩⟩
  intro above name below split
  simp at split

theorem reaches_cons_iff :
    tree.Reaches path (name :: names) contents ↔
      (tree.top = some .directory ∧ isLongPath path = false) ∧
        (tree.child name).Reaches (Path.join path name) names contents := by
  constructor
  · rintro ⟨found, directories⟩
    refine ⟨directories [] name names rfl, found, ?_⟩
    rintro above other below rfl
    exact directories (name :: above) other below rfl
  · rintro ⟨here, found, directories⟩
    refine ⟨found, ?_⟩
    intro above other below split
    cases above with
    | nil => exact here
    | cons first above =>
      obtain ⟨rfl, rest⟩ := List.cons.inj split
      exact directories above other below rest

/-- Something is at the top of what reaches a file. -/
theorem Reaches.top (reaches : tree.Reaches path names contents) : tree.top ≠ none := by
  cases names with
  | nil =>
    rw [reaches_nil_iff.mp reaches]
    exact Option.some_ne_none _
  | cons name names =>
    rw [(reaches_cons_iff.mp reaches).1.1]
    exact Option.some_ne_none _

/-- Names that are not there list nothing. -/
theorem listing_eq_nil (path : String) (absent : tree.top = none) : tree.listing path = [] := by
  cases tree with
  | node entry branches =>
    rw [top] at absent
    rw [absent, listing]

/-- Elements with nothing in them can be left out. -/
theorem flatMap_filter {α β : Type} {p : α → Bool} {parts : α → List β} {xs : List α}
    (none : ∀ x, p x = false → parts x = []) : (xs.filter p).flatMap parts = xs.flatMap parts := by
  induction xs with
  | nil => rfl
  | cons x rest ih =>
    cases kept : p x with
    | true => rw [List.filter_cons_of_pos kept, List.flatMap_cons, List.flatMap_cons, ih]
    | false =>
      rw [List.filter_cons_of_neg (by simp [kept]), List.flatMap_cons, none x kept, List.nil_append,
        ih]

/-- The listing of a directory comes to every name once, but for those that are done. -/
theorem exists_listingBelow (path : String) (done : List String)
    (branches : List (String × FileTree)) :
    ∃ names : List String, names.Nodup ∧
      (∀ name, name ∈ names ↔ name ∉ done ∧ name ∈ branches.map Prod.fst) ∧
      listingBelow path done branches = names.flatMap fun name =>
        (((findEntry name branches).getD empty).listing (Path.join path name)).map
          fun file => (name :: file.1, file.2) := by
  induction branches generalizing done with
  | nil => exact ⟨[], List.nodup_nil, by simp, rfl⟩
  | cons branch rest ih =>
    obtain ⟨name, tree⟩ := branch
    rw [listingBelow]
    split
    · rename_i old
      obtain ⟨names, distinct, complete, listed⟩ := ih done
      refine ⟨names, distinct, ?_, listed.trans ?_⟩
      · intro other
        rw [complete, List.map_cons, List.mem_cons]
        refine and_congr_right fun new => ?_
        rw [or_iff_right]
        rintro rfl
        exact new old
      · refine List.flatMap_congr fun other mem => ?_
        have apart : name ≠ other := by
          rintro rfl
          exact ((complete name).mp mem).1 old
        rw [findEntry, if_neg apart]
    · rename_i new
      obtain ⟨names, distinct, complete, listed⟩ := ih (name :: done)
      have fresh : name ∉ names := fun mem => ((complete name).mp mem).1 List.mem_cons_self
      refine ⟨name :: names, List.nodup_cons.mpr ⟨fresh, distinct⟩, ?_, ?_⟩
      · intro other
        rw [List.mem_cons, complete, List.map_cons, List.mem_cons, List.mem_cons, not_or]
        by_cases same : other = name
        · simp [same, new]
        · simp [same]
      · rw [List.flatMap_cons, findEntry, if_pos rfl, Option.getD_some, listed]
        refine congrArg _ (List.flatMap_congr fun other mem => ?_)
        have apart : name ≠ other := by
          rintro rfl
          exact fresh mem
        rw [findEntry, if_neg apart]

/-- **The listing of a directory** comes to every name that is there once. -/
theorem exists_listing_directory (path : String) (tree : FileTree) :
    ∃ names : List String, names.Nodup ∧ (∀ name, name ∈ names ↔ (tree.child name).top ≠ none) ∧
      listingBelow path [] tree.branches = names.flatMap fun name =>
        ((tree.child name).listing (Path.join path name)).map
          fun file => (name :: file.1, file.2) := by
  obtain ⟨names, distinct, complete, listed⟩ := exists_listingBelow path [] tree.branches
  -- Names that lead to nothing can stand among the branches; below them nothing is listed.
  refine ⟨names.filter fun name => (tree.child name).top.isSome, distinct.filter _, ?_, ?_⟩
  · intro name
    rw [List.mem_filter, Option.isSome_iff_ne_none, and_iff_right_iff_imp]
    exact fun there => (complete name).mpr ⟨List.not_mem_nil, mem_keys_of_top_child there⟩
  · refine listed.trans (flatMap_filter fun name absent => ?_).symm
    have none : (tree.child name).top = none := by simpa using absent
    exact congrArg (List.map _) (listing_eq_nil (Path.join path name) none)

/-- **The listing of a tree is a walk.** -/
theorem walks_listing (path : String) {tree : FileTree} (there : tree.top ≠ none) :
    tree.Walks path (tree.listing path) := by
  induction depth : tree.depth using Nat.strongRecOn generalizing path tree with
  | ind levels ih =>
    subst depth
    obtain ⟨entry, branches⟩ := tree
    rcases entry with _ | _ | contents
    · exact absurd rfl there
    · rw [listing]
      obtain ⟨names, distinct, complete, listed⟩ :=
        exists_listing_directory path (node (some .directory) branches)
      cases long : isLongPath path with
      | true => exact .passed rfl long
      | false =>
        have listed : listingBelow path [] branches = _ := listed
        rw [if_neg Bool.false_ne_true, listed]
        refine .directory rfl long distinct complete fun name mem => ?_
        have there := (complete name).mp mem
        exact ih _ (depth_child_lt there) _ there rfl
    · rw [listing]
      exact .file rfl

namespace Walks

variable {found others : List (Location × Bytes)}

/-- **A walk lists the files that are reached.** -/
theorem mem_iff (walks : tree.Walks path found) :
    (names, contents) ∈ found ↔ tree.Reaches path names contents := by
  induction walks generalizing names contents with
  | file top =>
    cases names with
    | nil => rw [reaches_nil_iff, top]; simp [eq_comm]
    | cons name names => rw [reaches_cons_iff, top]; simp
  | passed top long =>
    cases names with
    | nil => rw [reaches_nil_iff, top]; simp
    | cons name names => rw [reaches_cons_iff, long]; simp
  | @directory path tree present below top short distinct complete walked ih =>
    cases names with
    | nil => rw [reaches_nil_iff, top]; simp
    | cons name names =>
      rw [reaches_cons_iff, List.mem_flatMap]
      constructor
      · rintro ⟨other, mem, listed⟩
        obtain ⟨⟨rest, same⟩, below, joined⟩ := List.mem_map.mp listed
        obtain ⟨split, rfl⟩ := Prod.mk.inj joined
        obtain ⟨rfl, rfl⟩ := List.cons.inj split
        exact ⟨⟨top, short⟩, (ih other mem).mp below⟩
      · rintro ⟨-, reaches⟩
        have mem := (complete name).mpr reaches.top
        exact ⟨name, mem, List.mem_map.mpr ⟨(names, contents), (ih name mem).mpr reaches, rfl⟩⟩

/-- **A walk lists nothing twice.** -/
theorem nodup (walks : tree.Walks path found) : (found.map Prod.fst).Nodup := by
  induction walks with
  | file top => exact List.nodup_singleton _
  | passed top long => exact List.nodup_nil
  | @directory path tree present below top short distinct complete walked ih =>
    rw [List.map_flatMap, List.nodup_flatMap]
    constructor
    · intro name mem
      have tails := (ih name mem).map (@List.cons_injective _ name)
      rwa [List.map_map] at tails ⊢
    · refine distinct.imp ?_
      intro first second apart names inFirst inSecond
      simp only [List.map_map, List.mem_map, Function.comp_apply] at inFirst inSecond
      obtain ⟨file, -, rfl⟩ := inFirst
      obtain ⟨other, -, same⟩ := inSecond
      exact apart (List.cons.inj same).1.symm

/-- **Two walks differ in the order only.** -/
theorem perm (walks : tree.Walks path found) (again : tree.Walks path others) :
    found.Perm others := by
  rw [List.perm_ext_iff_of_nodup walks.nodup.of_map again.nodup.of_map]
  rintro ⟨names, contents⟩
  rw [walks.mem_iff, again.mem_iff]

end Walks

end FileTree

end EsmBundle
