import EsmBundle.Proofs.Emission
import EsmBundle.Proofs.FileTree.Listing
import EsmBundle.Proofs.FileTree.PathLength

/-!
The private directory of the tool, filled with what the tool emits.

The directory is new: nothing was there before. So every file in it was emitted, under a path that
was short enough to be made, and a walk through the directory comes to each of them.

* `IsNewDirectory` — what the choice of a private directory promises.
* `FillsDirectory.makes` — what filling the directory does to the files.
* `FillsDirectory.reaches_iff` — every file in the directory is reached by a walk.
* `FillsDirectory.isListing`, `FillsDirectory.mem_listing_iff` — the listing of the directory holds
  all of its files: the last contents that were emitted to every place in it.
* `FileSystem.mergeSort_eq_listing` — sorted, the files of every walk are the listing.
-/

namespace EsmBundle

/-! ### Listings -/

/-- Names that lead down and nowhere else. -/
def AreProper (names : List String) : Prop :=
  ∀ name ∈ names, Path.IsName name ∧ FileSystem.isDots name = false

theorem AreProper.areNames {names : List String} (proper : AreProper names) :
    ∀ name ∈ names, Path.IsName name :=
  fun name mem => (proper name mem).1

/-- A path of proper names below a root leads to these names below where the root leads. -/
theorem target_join (fs : FileSystem) (root : String) {names : List String}
    (proper : AreProper names) :
    fs.target (Path.join root ("/".intercalate names)) = fs.target root ++ names := by
  obtain ⟨absolute, steps⟩ := Path.ofString_join root (Path.head?_intercalate_ne proper.areNames)
  have parts : (Path.ofString ("/".intercalate names)).steps = names :=
    Path.names_intercalate proper.areNames
  have start : fs.start (Path.ofString (Path.join root ("/".intercalate names))) =
      fs.start (Path.ofString root) := by
    rw [FileSystem.start, FileSystem.start, absolute]
  rw [FileSystem.target, steps, parts, start, followAll_append]
  exact followAll_of_plain _ fun name mem => (proper name mem).2

/-- What a directory of a tree holds, in the order of the paths: every file below it, under the
names that lead to it joined by slashes. -/
structure IsListing (tree : FileTree) (directory : Location)
    (listing : List (String × Bytes)) : Prop where
  sorted : listing.Pairwise fun a b => a.1 < b.1
  mem_iff : ∀ path contents, (path, contents) ∈ listing ↔
    ∃ names, path = "/".intercalate names ∧
      tree.fileAt (directory ++ names) = some contents

/-- Files of different paths, sorted, have increasing paths. -/
theorem pairwise_mergeSort {files : List (String × Bytes)}
    (distinct : (files.map Prod.fst).Nodup) :
    (files.mergeSort fun a b => a.1 ≤ b.1).Pairwise fun a b => a.1 < b.1 := by
  have sorted : (files.mergeSort fun a b => a.1 ≤ b.1).Pairwise fun a b =>
      decide (a.1 ≤ b.1) = true := by
    refine List.pairwise_mergeSort (fun a b c first second => ?_) (fun a b => ?_) files
    · simp only [decide_eq_true_eq] at first second ⊢
      exact String.le_trans first second
    · simpa using String.le_total a.1 b.1
  have apart : (files.mergeSort fun a b => a.1 ≤ b.1).Pairwise fun a b => a.1 ≠ b.1 := by
    have perm := List.mergeSort_perm files fun a b => decide (a.1 ≤ b.1)
    exact List.pairwise_map.mp ((perm.map Prod.fst).nodup_iff.mpr distinct)
  refine (sorted.and apart).imp ?_
  intro a b both
  obtain ⟨le, ne⟩ := both
  refine String.not_le.mp fun ge => ne (String.le_antisymm (of_decide_eq_true le) ge)

/-- Files in the order of their paths are determined by which they are. -/
theorem eq_of_sorted {listing others : List (String × Bytes)}
    (sorted : listing.Pairwise fun a b => a.1 < b.1)
    (othersSorted : others.Pairwise fun a b => a.1 < b.1)
    (same : ∀ file, file ∈ listing ↔ file ∈ others) : listing = others := by
  have unique {files : List (String × Bytes)} (sorted : files.Pairwise fun a b => a.1 < b.1) :
      files.Nodup := by
    refine sorted.imp ?_
    rintro a b less rfl
    exact String.lt_irrefl _ less
  refine List.Perm.eq_of_pairwise ?_ sorted othersSorted
    ((List.perm_ext_iff_of_nodup (unique sorted) (unique othersSorted)).mpr same)
  intro a b _ _ less greater
  exact absurd (String.lt_trans less greater) (String.lt_irrefl _)

/-- A directory has one listing. -/
theorem IsListing.unique {tree : FileTree} {directory : Location}
    {listing others : List (String × Bytes)} (isListing : IsListing tree directory listing)
    (again : IsListing tree directory others) : listing = others :=
  eq_of_sorted isListing.sorted again.sorted fun file =>
    (isListing.mem_iff file.1 file.2).trans (again.mem_iff file.1 file.2).symm

/-! ### Walks in the order of the paths -/

/-- A walk through a tree shows that something is there. -/
theorem FileTree.Walks.top {path : String} {tree : FileTree} {found : List (Location × Bytes)}
    (walks : tree.Walks path found) : tree.top ≠ none := by
  cases walks with
  | file top | passed top | directory top =>
    rw [top]
    exact Option.some_ne_none _

/-- Files that are reached by names have different paths. -/
theorem nodup_intercalate {found : List (Location × Bytes)}
    (distinct : (found.map Prod.fst).Nodup)
    (areNames : ∀ file ∈ found, ∀ name ∈ file.1, Path.IsName name) :
    ((found.map fun file => ("/".intercalate file.1, file.2)).map Prod.fst).Nodup := by
  rw [List.map_map]
  refine List.pairwise_map.mpr ((List.pairwise_map.mp distinct).imp_of_mem ?_)
  intro file other mem otherMem apart same
  have same : "/".intercalate file.1 = "/".intercalate other.1 := same
  refine apart ?_
  rw [← Path.names_intercalate (areNames file mem), same,
    Path.names_intercalate (areNames other otherMem)]

/-- **Sorted, the files of every walk are the listing**, whatever order the walk comes to them in,
if the names on the way are names. -/
theorem FileSystem.mergeSort_eq_listing {fs : FileSystem} {scratch : String}
    {found listed : List (Location × Bytes)} (walks : (fs.held scratch).Walks scratch found)
    (areNames : ∀ file ∈ found, ∀ name ∈ file.1, Path.IsName name) (perm : listed.Perm found) :
    ((listed.map fun file => ("/".intercalate file.1, file.2)).mergeSort fun a b => a.1 ≤ b.1) =
      fs.listing scratch := by
  have again := FileTree.walks_listing scratch walks.top
  have same : listed.Perm ((fs.held scratch).listing scratch) := perm.trans (walks.perm again)
  have distinct {files : List (Location × Bytes)} (perm : files.Perm found) :
      ((files.map fun file => ("/".intercalate file.1, file.2)).map Prod.fst).Nodup :=
    nodup_intercalate ((perm.map Prod.fst).nodup_iff.mpr walks.nodup)
      fun file mem => areNames file (perm.mem_iff.mp mem)
  refine eq_of_sorted (pairwise_mergeSort (distinct perm))
    (pairwise_mergeSort (distinct (again.perm walks))) ?_
  intro file
  rw [List.mem_mergeSort, FileSystem.listing, List.mem_mergeSort]
  exact (same.map _).mem_iff

/-! ### A new directory -/

/-- The location of the file that is made for an emitted one. -/
def FileSystem.emissionTarget (fs : FileSystem) (scratch : String) (file : String × Bytes) :
    Option Location :=
  { fs with cwd := fs.temporary }.itemTarget scratch file

/-- **A new private directory**: nothing is at or below it, and its path has no dots and no slashes
that it does not need. -/
structure IsNewDirectory (files : FileSystem) (scratch : String) : Prop where
  plain : ∀ step ∈ (Path.ofString scratch).steps, FileSystem.isDots step = false
  tight : Path.IsTight scratch
  vacant : ∀ below, files.tree.get? (files.scratchLocation scratch ++ below) = none

/-- **The filled private directory**: it is new, and the tool emitted into it. -/
structure FillsDirectory (files : FileSystem) (scratch : String)
    (emitted : List (String × Bytes)) (filled : FileSystem) : Prop where
  isNew : IsNewDirectory files scratch
  fills : ∃ opened, files.openScratch scratch = .ok opened ∧
    opened.fillScratch scratch emitted = filled

variable {files opened filled : FileSystem} {scratch : String} {emitted : List (String × Bytes)}
  {names : List String} {contents : Bytes}

/-- Making the private directory adds a directory. -/
theorem openScratch_spec
    (vacant : ∀ below, files.tree.get? (files.scratchLocation scratch ++ below) = none)
    (isOpen : files.openScratch scratch = .ok opened) :
    FileSystem.AddsDirectories files opened := by
  have here := vacant []
  rw [List.append_nil] at here
  unfold FileSystem.openScratch at isOpen
  split at isOpen
  · obtain rfl := Except.ok.inj isOpen
    refine FileSystem.addsDirectories_put ?_ here
    intro root
    rw [root] at here
    cases here
  · cases isOpen
  · cases isOpen

theorem FileSystem.Grows.scratchLocation_eq {fs after : FileSystem} (grows : Grows fs after)
    (scratch : String) : after.scratchLocation scratch = fs.scratchLocation scratch := by
  simp only [scratchLocation, start, grows.temporary]

/-- The path of a private directory leads to its place. -/
theorem target_scratch (files : FileSystem)
    (plain : ∀ step ∈ (Path.ofString scratch).steps, FileSystem.isDots step = false) :
    { files with cwd := files.temporary }.target scratch = files.scratchLocation scratch :=
  followAll_of_plain _ plain

namespace FillsDirectory

/-! ### What filling does -/

/-- **Filling the private directory** makes the first of the emitted files, and changes no other
file. -/
theorem makes (fills : FillsDirectory files scratch emitted filled) :
    ∃ made, made <+: emitted ∧
      FileSystem.MakesAll { files with cwd := files.temporary } scratch made
        { filled with cwd := files.temporary } := by
  obtain ⟨opened, isOpen, rfl⟩ := fills.fills
  have adds := openScratch_spec fills.isNew.vacant isOpen
  have start : FileSystem.Grows { files with cwd := files.temporary }
      { opened with cwd := opened.temporary } :=
    ⟨adds.toGrows.temporary, adds.toGrows.temporary, adds.toGrows.directories⟩
  obtain ⟨made, begins, makes, -⟩ :=
    FileSystem.exists_made { opened with cwd := opened.temporary } scratch emitted
  refine ⟨made, begins, ⟨rfl, ?_, ?_⟩, ?_, ?_⟩
  · exact makes.toGrows.temporary.trans adds.toGrows.temporary
  · exact fun location found => makes.directories _ (start.directories _ found)
  · intro location
    rw [← start.itemTarget_eq, ← adds.files]
    exact makes.files location
  · intro item mem location target
    rw [← start.itemTarget_eq] at target
    obtain ⟨middle, contents, before, after, stat⟩ := makes.stat item mem location target
    exact ⟨middle, contents, start.trans before,
      ⟨(before.cwd.trans adds.toGrows.temporary).symm, after.temporary, after.directories⟩, stat⟩

theorem grows (fills : FillsDirectory files scratch emitted filled) :
    FileSystem.Grows files filled := by
  obtain ⟨opened, isOpen, rfl⟩ := fills.fills
  obtain ⟨made, -, makes⟩ := fills.makes
  have adds := openScratch_spec fills.isNew.vacant isOpen
  exact ⟨adds.toGrows.cwd, makes.toGrows.temporary, makes.toGrows.directories⟩

/-- The private directory is where it was made. -/
theorem scratchLocation_eq (fills : FillsDirectory files scratch emitted filled) :
    filled.scratchLocation scratch = files.scratchLocation scratch :=
  fills.grows.scratchLocation_eq scratch

theorem scratchLocation_ne_nil (fills : FillsDirectory files scratch emitted filled) :
    files.scratchLocation scratch ≠ [] := by
  intro root
  have here := fills.isNew.vacant []
  rw [root] at here
  cases here

/-- What the private directory holds is what the tree has below its place. -/
theorem find?_held (fills : FillsDirectory files scratch emitted filled) (names : List String) :
    (filled.held scratch).find? names =
      filled.tree.get? (files.scratchLocation scratch ++ names) := by
  rw [FileSystem.held, fills.scratchLocation_eq, ← FileTree.find?_append, FileTree.get?, if_neg]
  simp [fills.scratchLocation_ne_nil]

theorem top_held (fills : FillsDirectory files scratch emitted filled) :
    (filled.held scratch).top = some .directory := by
  have notRoot := fills.scratchLocation_ne_nil
  have top : (filled.held scratch).find? [] = (filled.held scratch).top := rfl
  rw [← top, fills.find?_held, List.append_nil]
  obtain ⟨opened, isOpen, rfl⟩ := fills.fills
  obtain ⟨grows, -⟩ :=
    FileSystem.createAllIn_changes { opened with cwd := opened.temporary } scratch emitted
  refine grows.directories _ ?_
  unfold FileSystem.openScratch at isOpen
  split at isOpen
  · obtain rfl := Except.ok.inj isOpen
    dsimp only
    rw [FileTree.get?_put notRoot, if_pos rfl]
  · cases isOpen
  · cases isOpen

/-! ### Files in the directory -/

/-- **A file in the private directory was emitted** under a path that leads to it, and that was
looked up when it was made. -/
theorem exists_item (fills : FillsDirectory files scratch emitted filled)
    (found : filled.tree.fileAt (files.scratchLocation scratch ++ names) = some contents) :
    ∃ item ∈ emitted, { files with cwd := files.temporary }.target (Path.join scratch item.1) =
        files.scratchLocation scratch ++ names ∧
      ∃ (middle : FileSystem) (entry : Entry), middle.cwd = files.temporary ∧
        (∀ location, middle.tree.get? location = some .directory →
          filled.tree.get? location = some .directory) ∧
        middle.stat (Path.join scratch item.1) =
          .ok (files.scratchLocation scratch ++ names, entry) := by
  obtain ⟨made, begins, makes⟩ := fills.makes
  have last := makes.files (files.scratchLocation scratch ++ names)
  dsimp only at last
  rw [found, FileTree.fileAt, fills.isNew.vacant] at last
  obtain ⟨item, mem, target⟩ := exists_of_lastValue_eq_some last.symm
  obtain ⟨middle, contents', before, after, stat⟩ := makes.stat item mem _ target
  refine ⟨item, begins.subset mem, ?_, middle, _, before.cwd, after.directories, stat⟩
  rw [FileSystem.itemTarget] at target
  split at target
  · cases target
  · exact Option.some.inj target

/-- The names of a file in the directory were written in its path. -/
theorem areProper (fills : FillsDirectory files scratch emitted filled)
    (found : filled.tree.fileAt (files.scratchLocation scratch ++ names) = some contents) :
    AreProper names := by
  obtain ⟨item, -, leads, -⟩ := fills.exists_item found
  rw [← target_scratch files fills.isNew.plain] at leads
  intro name mem
  have written := List.mem_filter.mp ((FileSystem.sublist_of_target_join leads).1.subset mem)
  exact ⟨Path.isName_of_mem_names written.1, by simpa using written.2⟩

/-- A file of the private directory is below it. -/
theorem ne_nil_of_fileAt (fills : FillsDirectory files scratch emitted filled)
    (found : filled.tree.fileAt (files.scratchLocation scratch ++ names) = some contents) :
    names ≠ [] := by
  rintro rfl
  have file : (filled.held scratch).find? [] = some (.file contents) :=
    (fills.find?_held []).trans (FileTree.fileAt_eq_some_iff.mp found)
  rw [FileTree.find?, fills.top_held] at file
  cases file

/-- The path of a file in the directory is not too long. -/
theorem isLongPath_foldl_join (fills : FillsDirectory files scratch emitted filled)
    (found : filled.tree.fileAt (files.scratchLocation scratch ++ names) = some contents) :
    isLongPath (names.foldl Path.join scratch) = false := by
  obtain ⟨item, -, leads, middle, entry, -, -, stat⟩ := fills.exists_item found
  obtain ⟨fault, -, -⟩ := FileSystem.stat_eq_ok_iff.mp stat
  obtain ⟨-, -, short⟩ := FileSystem.textFault?_eq_none_iff.mp fault
  rw [← target_scratch files fills.isNew.plain] at leads
  have size := FileSystem.size_foldl_join_le fills.isNew.plain fills.isNew.tight leads
    (fills.ne_nil_of_fileAt found)
  rw [isLongPath, decide_eq_false_iff_not] at short ⊢
  omega

/-- A path below the private directory starts at the directory or above it. -/
theorem length_start_le (files : FileSystem) (scratch name : String) :
    ({ files with cwd := files.temporary }.start
        (Path.ofString (Path.join scratch name))).length ≤
      (files.scratchLocation scratch).length := by
  rw [FileSystem.start]
  split
  · exact Nat.zero_le _
  · rename_i relative
    have first : name.toList.head? ≠ some '/' := by
      intro slash
      rw [Path.join, if_pos slash] at relative
      simp [Path.ofString, slash] at relative
    rw [(Path.ofString_join scratch first).1] at relative
    rw [FileSystem.scratchLocation, FileSystem.start, if_neg relative, List.length_append]
    exact Nat.le_add_right _ _

/-- The directories above a file in the private directory are there. -/
theorem directory_above (fills : FillsDirectory files scratch emitted filled)
    {above below : Location} {name : String}
    (found : filled.tree.fileAt (files.scratchLocation scratch ++ (above ++ name :: below)) =
      some contents) :
    filled.tree.get? (files.scratchLocation scratch ++ above) = some .directory := by
  obtain ⟨item, -, -, middle, entry, cwd, directories, stat⟩ := fills.exists_item found
  obtain ⟨-, walked, -⟩ := FileSystem.stat_eq_ok_iff.mp stat
  have start : middle.start (Path.ofString (Path.join scratch item.1)) =
      { files with cwd := files.temporary }.start (Path.ofString (Path.join scratch item.1)) := by
    simp only [FileSystem.start, cwd]
  rw [start] at walked
  rcases FileTree.directory_of_walk walked (List.append_assoc _ _ _).symm with
    ⟨step, more, further⟩ | directory
  · -- The walk cannot have started below the directory.
    have lengths := congrArg List.length further
    have near := length_start_le files scratch item.1
    simp only [List.length_append, List.length_cons] at lengths
    omega
  · exact directories _ directory

/-- **Every file of the private directory is reached**: a walk comes to it through directories that
it can look into. -/
theorem reaches_iff (fills : FillsDirectory files scratch emitted filled) :
    (filled.held scratch).Reaches scratch names contents ↔
      filled.tree.fileAt (files.scratchLocation scratch ++ names) = some contents := by
  rw [FileTree.Reaches, fills.find?_held, FileTree.fileAt_eq_some_iff]
  refine ⟨And.left, fun there => ⟨there, ?_⟩⟩
  have found := FileTree.fileAt_eq_some_iff.mpr there
  have areNames := (fills.areProper found).areNames
  have short := fills.isLongPath_foldl_join found
  rintro above name below rfl
  rw [fills.find?_held]
  refine ⟨fills.directory_above found, ?_⟩
  have size := Path.size_le_foldl_join (above.foldl Path.join scratch)
    fun other mem => areNames other (List.mem_append_right above mem)
  rw [List.foldl_append] at short
  rw [isLongPath, decide_eq_false_iff_not] at short ⊢
  omega

/-! ### The listing of the directory -/

/-- The listing of the directory is that of a walk. -/
theorem walks_listing (fills : FillsDirectory files scratch emitted filled) :
    (filled.held scratch).Walks scratch ((filled.held scratch).listing scratch) := by
  refine FileTree.walks_listing scratch ?_
  rw [fills.top_held]
  exact Option.some_ne_none _

/-- The names on a walk are names. -/
theorem areNames_of_walks (fills : FillsDirectory files scratch emitted filled)
    {found : List (Location × Bytes)} (walks : (filled.held scratch).Walks scratch found) :
    ∀ file ∈ found, ∀ name ∈ file.1, Path.IsName name :=
  fun _ mem => (fills.areProper (fills.reaches_iff.mp (walks.mem_iff.mp mem))).areNames

/-- **The listing of the private directory** holds all of its files, each with the names that lead
to it joined by slashes, in the order of their paths. -/
theorem isListing (fills : FillsDirectory files scratch emitted filled) :
    IsListing filled.tree (files.scratchLocation scratch) (filled.listing scratch) := by
  have walks := fills.walks_listing
  refine ⟨pairwise_mergeSort (nodup_intercalate walks.nodup (fills.areNames_of_walks walks)), ?_⟩
  intro path contents
  rw [FileSystem.listing, List.mem_mergeSort, List.mem_map]
  constructor
  · rintro ⟨file, mem, same⟩
    obtain ⟨rfl, rfl⟩ := Prod.mk.inj same
    exact ⟨file.1, rfl, fills.reaches_iff.mp (walks.mem_iff.mp mem)⟩
  · rintro ⟨names, rfl, found⟩
    exact ⟨(names, contents), walks.mem_iff.mpr (fills.reaches_iff.mpr found), rfl⟩

/-- **The files of the listing were emitted**: of the first items, those that can be made, the last
contents at every place in the directory. -/
theorem mem_listing_iff (fills : FillsDirectory files scratch emitted filled) :
    ∃ made, made <+: emitted ∧ ∀ path contents, (path, contents) ∈ filled.listing scratch ↔
      ∃ names, path = "/".intercalate names ∧
        lastValue (files.emissionTarget scratch) Prod.snd
          (files.scratchLocation scratch ++ names) made none = some contents := by
  obtain ⟨made, begins, makes⟩ := fills.makes
  refine ⟨made, begins, fun path contents => (fills.isListing.mem_iff path contents).trans ?_⟩
  have last (names : List String) :
      filled.tree.fileAt (files.scratchLocation scratch ++ names) =
        lastValue (files.emissionTarget scratch) Prod.snd
          (files.scratchLocation scratch ++ names) made none := by
    have none : files.tree.fileAt (files.scratchLocation scratch ++ names) = none := by
      rw [FileTree.fileAt, fills.isNew.vacant]
    exact none ▸ makes.files (files.scratchLocation scratch ++ names)
  simp only [last]

/-- What is listed is below the directory, under a path of proper names that is not too long. -/
theorem exists_names_of_listing (fills : FillsDirectory files scratch emitted filled)
    {file : String × Bytes} (mem : file ∈ filled.listing scratch) :
    ∃ names, names ≠ [] ∧ AreProper names ∧ file.1 = "/".intercalate names ∧
      isLongPath (Path.join scratch file.1) = false := by
  obtain ⟨names, same, found⟩ := (fills.isListing.mem_iff _ _).mp mem
  have proper := fills.areProper found
  have some := fills.ne_nil_of_fileAt found
  have short := fills.isLongPath_foldl_join found
  rw [Path.foldl_join scratch some proper.areNames, ← same] at short
  exact ⟨names, some, proper, same, short⟩

/-- Listed files have different places below any root. -/
theorem target_join_listing (fills : FillsDirectory files scratch emitted filled)
    (fs : FileSystem) (root : String) :
    (filled.listing scratch).Pairwise fun a b =>
      fs.target (Path.join root a.1) ≠ fs.target (Path.join root b.1) := by
  refine fills.isListing.sorted.imp_of_mem ?_
  intro a b memA memB less same
  obtain ⟨names, -, properA, isA, -⟩ := fills.exists_names_of_listing memA
  obtain ⟨names', -, properB, isB, -⟩ := fills.exists_names_of_listing memB
  rw [isA, isB, target_join fs root properA, target_join fs root properB,
    List.append_cancel_left_eq] at same
  rw [isA, isB, same] at less
  exact String.lt_irrefl _ less

end FillsDirectory

end EsmBundle
