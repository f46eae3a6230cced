import EsmBundle.Proofs.Bundling
import EsmBundle.Proofs.FileTree.Nesting
import EsmBundle.Proofs.PrivateDirectory

/-!
Reading back what the tool emitted.

The bundler walks through its private directory, sorts the paths of the files that it comes to, and
reads one after another. The result is the same for every walk, since the files that the directory
holds are those that a walk comes to, and no two of them have the same path.

* `Emits` — a run of the tool that fills its private directory.
* `readBack` — what is read back after a walk.
* `collect_eq_readBack` — whatever the directory holds, what is collected is what is read back after
  any walk through it.
* `ReadsBack` — one artifact for each file, or the first decoding error.
* `bundle_readsBack` — what a bundle reads back.
-/

namespace EsmBundle

/-! ### Filling the directory -/

/-- **A run that fills its private directory**: the directory is new, the tool emits into it, and
its process exits with status zero. -/
structure Emits (files : FileSystem) (scratch : String) (processes : Processes)
    (filled : FileSystem) : Prop
    extends FillsDirectory files scratch processes.next.emitted filled where
  exits : ∃ stdout stderr, processes.next = .exited 0 stdout stderr processes.next.emitted

/-- A private directory with not too many levels to be listed and to be removed. -/
structure FileSystem.IsShallow (filled : FileSystem) (scratch : String) : Prop where
  listed : (filled.held scratch).depth ≤ Bounds.listedLevels
  removed : (filled.held scratch).depth ≤ Bounds.removedLevels

instance (filled : FileSystem) (scratch : String) : Decidable (filled.IsShallow scratch) :=
  decidable_of_iff
    ((filled.held scratch).depth ≤ Bounds.listedLevels ∧
      (filled.held scratch).depth ≤ Bounds.removedLevels)
    ⟨fun shallow => ⟨shallow.1, shallow.2⟩, fun shallow => ⟨shallow.listed, shallow.removed⟩⟩

/-! ### Reading back -/

/-- What is read back after a walk: the files in the order of their paths, one after another. -/
def readBack (scratch destination : String) (listed : List (Location × Bytes)) :
    Except BundleError (List Artifact) :=
  ((listed.map fun file => ("/".intercalate file.1, file.2)).mergeSort fun a b => a.1 ≤ b.1).mapM
    (Artifact.ofFile scratch destination)

/-- **What is collected is what is read back after any walk** through the private directory, in
whatever order the files are listed then. -/
theorem collect_eq_readBack {filled : FileSystem} {scratch : String}
    {listed found : List (Location × Bytes)}
    (shallow : (filled.held scratch).depth ≤ Bounds.listedLevels)
    (walks : (filled.held scratch).Walks scratch found)
    (areNames : ∀ file ∈ found, ∀ name ∈ file.1, Path.IsName name) (perm : listed.Perm found)
    (destination : String) :
    collect scratch destination filled = readBack scratch destination listed := by
  rw [collect, if_neg (Nat.not_lt.mpr shallow), readBack,
    FileSystem.mergeSort_eq_listing walks areNames perm]

/-- **What becomes of listed files that are read back below a root.** When all of them are texts,
there is an artifact for each of them in their order, under its own path below the root; and else
the error is that of the first one that is none. No path leads out of the root. -/
structure ReadsBack (root : String) (listing : List (String × Bytes))
    (result : Except BundleError (List Artifact)) : Prop where
  inside : ∀ file ∈ listing, ∃ names, names ≠ [] ∧ AreProper names ∧ file.1 = "/".intercalate names
  distinct : (listing.map fun file => Path.join root file.1).Nodup
  texts : (∀ file ∈ listing, ∃ cs, Utf8.decode file.2 = .ok cs) →
    result = .ok (listing.map fun file => ⟨Path.join root file.1, decodedText file.2⟩)
  error : ∀ before file after error, listing = before ++ file :: after →
    (∀ earlier ∈ before, ∃ cs, Utf8.decode earlier.2 = .ok cs) →
    Utf8.decode file.2 = .error error → result = .error (.encoding error)

/-- Reading depends on the files that are read only. -/
theorem mapM_eq_of_forall_mem {α β ε : Type} {f g : α → Except ε β} {xs : List α}
    (same : ∀ x ∈ xs, f x = g x) : xs.mapM f = xs.mapM g := by
  induction xs with
  | nil => rfl
  | cons x rest ih =>
    obtain ⟨first, others⟩ := List.forall_mem_cons.mp same
    rw [List.mapM_cons, List.mapM_cons, first, ih others]

namespace Emits

variable {files filled : FileSystem} {scratch : String} {processes : Processes}

/-- What is listed after a run is read back. -/
theorem readsBack (emits : Emits files scratch processes filled)
    (shallow : (filled.held scratch).depth ≤ Bounds.listedLevels) (root : String) :
    ReadsBack root (filled.listing scratch) (collect scratch root filled) := by
  have collected : collect scratch root filled = _ := if_neg (Nat.not_lt.mpr shallow)
  have short {file : String × Bytes} (mem : file ∈ filled.listing scratch) :
      isLongPath (Path.join scratch file.1) = false := by
    obtain ⟨names, -, -, -, short⟩ := emits.exists_names_of_listing mem
    exact short
  rw [collected]
  refine ⟨?_, ?_, ?_, ?_⟩
  · intro file mem
    obtain ⟨names, some, proper, same, -⟩ := emits.exists_names_of_listing mem
    exact ⟨names, some, proper, same⟩
  · exact List.pairwise_map.mpr ((emits.target_join_listing files root).imp fun apart same =>
      apart (congrArg _ same))
  · intro decodable
    have read := @mapM_ofFile_append scratch root _
      (fun file mem => ⟨short mem, decodable file mem⟩) []
    rw [List.append_nil, List.mapM_nil] at read
    exact read.trans (congrArg Except.ok (List.append_nil _))
  · intro before file after error split decodable fails
    rw [split] at short ⊢
    rw [mapM_ofFile_append fun earlier mem =>
        ⟨short (List.mem_append_left _ mem), decodable earlier mem⟩,
      List.mapM_cons, Artifact.ofFile_eq (short (by simp)), fails]
    rfl

/-- What a run with a private directory comes to. -/
theorem result_bundle (emits : Emits files scratch processes filled) (tool : Tool)
    (request : BundleRequest) :
    (tool.bundle scratch request files processes).result =
      if (filled.held scratch).depth > Bounds.removedLevels then
        .error (.scratch ⟨.tooDeep, scratch⟩)
      else collect scratch request.destination filled := by
  obtain ⟨stdout, stderr, exits⟩ := emits.exits
  obtain ⟨opened, isOpen, rfl⟩ := emits.fills
  have ran : (tool.run (request.arguments scratch) processes).1 = .ok (outputText stdout) :=
    Tool.result_eq_ok_iff.mpr ⟨stdout, stderr, _, exits, rfl⟩
  have result := (tool.bundle_of_openScratch request processes isOpen).1
  rw [ran] at result
  exact result

/-- **A run in a shallow directory** reads back what that holds. -/
theorem result_of_isShallow (emits : Emits files scratch processes filled)
    (shallow : filled.IsShallow scratch) (tool : Tool) (request : BundleRequest) :
    (tool.bundle scratch request files processes).result =
      collect scratch request.destination filled :=
  (emits.result_bundle tool request).trans (if_neg (Nat.not_lt.mpr shallow.removed))

/-- A run in a directory that is not shallow fails. -/
theorem result_of_not_isShallow (emits : Emits files scratch processes filled)
    (deep : ¬ filled.IsShallow scratch) (tool : Tool) (request : BundleRequest) :
    (tool.bundle scratch request files processes).result =
      .error (.scratch ⟨.tooDeep, scratch⟩) := by
  rw [emits.result_bundle]
  split
  · rfl
  · rename_i removed
    refine if_pos (Nat.lt_of_not_le fun listed => deep ⟨listed, Nat.not_lt.mp removed⟩)

/-- What is collected depends on the files of the directory only. -/
theorem collect_congr {files' filled' : FileSystem} {scratch' : String} {processes' : Processes}
    (emits : Emits files scratch processes filled)
    (emits' : Emits files' scratch' processes' filled')
    (shallow : filled.IsShallow scratch) (shallow' : filled'.IsShallow scratch')
    (same : ∀ names, filled'.tree.fileAt (files'.scratchLocation scratch' ++ names) =
      filled.tree.fileAt (files.scratchLocation scratch ++ names)) (destination : String) :
    collect scratch' destination filled' = collect scratch destination filled := by
  have listing : filled'.listing scratch' = filled.listing scratch := by
    refine eq_of_sorted emits'.isListing.sorted emits.isListing.sorted ?_
    rintro ⟨path, contents⟩
    rw [emits'.isListing.mem_iff, emits.isListing.mem_iff]
    simp only [same]
  rw [collect, if_neg (Nat.not_lt.mpr shallow'.listed), collect,
    if_neg (Nat.not_lt.mpr shallow.listed), listing]
  refine mapM_eq_of_forall_mem fun file mem => ?_
  obtain ⟨-, -, -, -, short⟩ := emits.exists_names_of_listing mem
  obtain ⟨-, -, -, -, short'⟩ := emits'.exists_names_of_listing (listing ▸ mem)
  rw [Artifact.ofFile_eq short, Artifact.ofFile_eq short']

end Emits

/-! ### Emissions into an empty directory -/

/-- The blank file system with an empty private directory, in the directory for temporary files. -/
def FileSystem.blankScratch : FileSystem :=
  { FileSystem.blank with
    tree := FileSystem.blank.tree.put ["tmp", "<TMP>"] .directory, cwd := ["tmp"] }

/-- The blank file system with a private directory and what is emitted into it. -/
def FileSystem.blankFilled (emitted : List (String × Bytes)) : FileSystem :=
  { (blankScratch.createAllIn "<TMP>" emitted).2 with cwd := ["work"] }

theorem scratchLocation_blank : FileSystem.blank.scratchLocation "<TMP>" = ["tmp", "<TMP>"] := rfl

/-- An emission into an empty directory. -/
theorem emits_blank (emitted : List (String × Bytes)) :
    Emits .blank "<TMP>" ⟨[.exited 0 [] [] emitted], []⟩ (.blankFilled emitted) where
  isNew := isPrivateDirectory_blank.isNew (by decide +kernel)
  fills := ⟨_, rfl, rfl⟩
  exits := ⟨[], [], rfl⟩

/-- The names of directories below each other, and of a file in the last of them. -/
def deepName (count : Nat) : String :=
  String.ofList (Path.nested ['a'] ['a'] count ++ (List.replicate 1 '/' ++ ['m']))

theorem isPlainName_a : FileSystem.IsPlainName ['a'] where
  named := ⟨[], 'a', rfl, by decide⟩
  noSlash := by decide
  clean := by decide
  plain := by decide
  short := by decide

theorem isPlainName_m : FileSystem.IsPlainName ['m'] where
  named := ⟨[], 'm', rfl, by decide⟩
  noSlash := by decide
  clean := by decide
  plain := by decide
  short := by decide

/-- A private directory holds no directories below each other at first. -/
theorem hasNested_blankScratch :
    FileSystem.HasNested .blankScratch "<TMP>".toList ['a'] ['m'] 0 := by
  have target : FileSystem.blankScratch.target (String.ofList "<TMP>".toList) =
      ["tmp", "<TMP>"] := rfl
  have empty (below : Location) (some : below ≠ []) :
      FileSystem.blankScratch.tree.get? (["tmp", "<TMP>"] ++ below) = none := by
    have vacant := isPrivateDirectory_blank.vacant below
    rw [scratchLocation_blank] at vacant
    rw [FileSystem.blankScratch, FileTree.get?_put (by decide), if_neg (by simpa using some),
      vacant]
  refine ⟨rfl, rfl, ?_, ?_⟩
  · intro n
    rw [target]
    cases n with
    | zero => rfl
    | succ n => rw [FileTree.fileAt, empty _ (by simp)]
  · intro n _
    rw [target, List.append_assoc, empty _ (by simp)]

/-- **Directories below each other** make the private directory as deep as they are many. -/
theorem le_depth_of_hasNested {emitted : List (String × Bytes)} {filled : FileSystem} {count : Nat}
    (created : FileSystem.blankScratch.createAllIn "<TMP>" emitted = (.ok (), filled))
    (has : filled.HasNested "<TMP>".toList ['a'] ['m'] count) :
    count ≤ ((FileSystem.blankFilled emitted).held "<TMP>").depth := by
  have ends : Path.EndsInName "<TMP>".toList := ⟨['<', 'T', 'M', 'P'], '>', rfl, by decide⟩
  have place : filled.target (String.ofList "<TMP>".toList) =
      FileSystem.blank.scratchLocation "<TMP>" := by
    have grows := (FileSystem.createAllIn_changes FileSystem.blankScratch "<TMP>" emitted).1
    rw [created] at grows
    rw [grows.target_eq]
    rfl
  have tree : filled.tree = (FileSystem.blankFilled emitted).tree := by
    rw [FileSystem.blankFilled, created]
  have there := (FileSystem.get?_of_stat (FileSystem.isDirectory_iff.mp has.found)).2
  rw [FileSystem.target_nested filled ends isPlainName_a, place, tree,
    ← (emits_blank emitted).find?_held] at there
  have length := FileTree.length_le_depth (there ▸ Option.some_ne_none _)
  rwa [List.length_replicate] at length

/-! ### The result of a bundle -/

/-- **Reading back is exact.** A run that fills its private directory fails only if that gets too
deep or holds a file that is no text. Its artifacts are the files that the directory holds,
whatever walk lists them and whatever order they were emitted in. In a directory that was filled in
any other way, they are the files that a walk comes to. -/
theorem bundle_readsBack {files filled : FileSystem} {scratch : String} {processes : Processes}
    (emits : Emits files scratch processes filled) (tool : Tool) (request : BundleRequest) :
    let result := (tool.bundle scratch request files processes).result
    (¬ filled.IsShallow scratch → result = .error (.scratch ⟨.tooDeep, scratch⟩)) ∧
    (filled.IsShallow scratch →
      (∃ listing, IsListing filled.tree (files.scratchLocation scratch) listing ∧
        ReadsBack request.destination listing result) ∧
      (∃ found, (filled.held scratch).Walks scratch found) ∧
      (∀ found listed, (filled.held scratch).Walks scratch found → listed.Perm found →
        result = readBack scratch request.destination listed) ∧
      ∀ (other : Tool) (scratch' : String) (request' : BundleRequest) (files' filled' : FileSystem)
          (processes' : Processes), Emits files' scratch' processes' filled' →
        filled'.IsShallow scratch' → request'.destination = request.destination →
        (∀ names, filled'.tree.fileAt (files'.scratchLocation scratch' ++ names) =
          filled.tree.fileAt (files.scratchLocation scratch ++ names)) →
        (other.bundle scratch' request' files' processes').result = result) ∧
    ∀ (fs : FileSystem) (found listed : List (Location × Bytes)),
      (fs.held scratch).Walks scratch found →
      (∀ file ∈ found, ∀ name ∈ file.1, Path.IsName name) → listed.Perm found →
      (fs.held scratch).depth ≤ Bounds.listedLevels →
      collect scratch request.destination fs = readBack scratch request.destination listed := by
  intro result
  refine ⟨fun deep => emits.result_of_not_isShallow deep tool request, ?_, ?_⟩
  · intro shallow
    have ends : result = _ := emits.result_of_isShallow shallow tool request
    rw [ends]
    refine ⟨⟨_, emits.isListing, emits.readsBack shallow.listed _⟩, ⟨_, emits.walks_listing⟩,
      ?_, ?_⟩
    · intro found listed walks perm
      exact collect_eq_readBack shallow.listed walks (emits.areNames_of_walks walks) perm _
    · intro other scratch' request' files' filled' processes' emits' shallow' destination same
      rw [emits'.result_of_isShallow shallow', destination]
      exact emits.collect_congr emits' shallow shallow' same _
  · intro fs found listed walks areNames perm shallow
    exact collect_eq_readBack shallow walks areNames perm _

/-- Files that are emitted in another order than that of their paths. -/
theorem bundle_readsBack_of_emission :
    let contents (text : String) : Bytes := Utf8.encode text.toList
    let emitted := [("ab.js", contents "3"), ("a/b.js", contents "2"), ("c/", []),
      ("a.js", contents "1\r\n")]
    let processes : Processes := ⟨[.exited 0 [] [] emitted], []⟩
    let tool : Tool := ⟨"deno", none⟩
    let request : BundleRequest := ⟨["main.ts"], [], "bundle", some "dist", none, true⟩
    (tool.bundle "<TMP>" request .blank processes).result =
      .ok [⟨"dist/a.js", "1\n"⟩, ⟨"dist/a/b.js", "2"⟩, ⟨"dist/ab.js", "3"⟩] := by
  intro contents emitted processes tool request
  have emits : Emits .blank "<TMP>" processes (.blankFilled emitted) := emits_blank emitted
  have shallow : (FileSystem.blankFilled emitted).IsShallow "<TMP>" := by decide +kernel
  obtain ⟨⟨listing, isListing, reads⟩, -⟩ := (bundle_readsBack emits tool request).2.1 shallow
  have listed : (FileSystem.blankFilled emitted).listing "<TMP>" =
      [("a.js", contents "1\r\n"), ("a/b.js", contents "2"), ("ab.js", contents "3")] := by
    refine eq_of_sorted emits.isListing.sorted (by decide +kernel) ?_
    intro file
    have walk : ((FileSystem.blankFilled emitted).held "<TMP>").listing "<TMP>" =
        [(["ab.js"], contents "3"), (["a", "b.js"], contents "2"),
          (["a.js"], contents "1\r\n")] := by
      decide +kernel
    rw [FileSystem.listing, List.mem_mergeSort, walk, ← List.mem_reverse]
    rfl
  rw [isListing.unique emits.isListing, listed] at reads
  have decodable : ∀ file ∈ [("a.js", contents "1\r\n"), ("a/b.js", contents "2"),
      ("ab.js", contents "3")], (Utf8.decode file.2).isOk = true := by decide +kernel
  have artifacts : [("a.js", contents "1\r\n"), ("a/b.js", contents "2"),
      ("ab.js", contents "3")].map (fun file =>
        (⟨Path.join request.destination file.1, decodedText file.2⟩ : Artifact)) =
      [⟨"dist/a.js", "1\n"⟩, ⟨"dist/a/b.js", "2"⟩, ⟨"dist/ab.js", "3"⟩] := by decide +kernel
  rw [← artifacts]
  refine reads.texts fun file mem => ?_
  cases decoded : Utf8.decode file.2 with
  | ok cs => exact ⟨cs, rfl⟩
  | error error =>
    have isOk := decodable file mem
    rw [decoded] at isOk
    cases isOk

/-- Directories that are made one below the other in two goes get too deep to be read back. -/
theorem bundle_tooDeep :
    let emitted := [(deepName 599, Utf8.encode ['x']), (deepName 1099, Utf8.encode ['y'])]
    let processes : Processes := ⟨[.exited 0 [] [] emitted], []⟩
    let tool : Tool := ⟨"deno", none⟩
    let request : BundleRequest := ⟨["main.ts"], [], "bundle", some "dist", none, true⟩
    (∃ filled, Emits .blank "<TMP>" processes filled) ∧
      (∀ file ∈ emitted, ∃ cs, Utf8.decode file.2 = .ok cs) ∧
      (tool.bundle "<TMP>" request .blank processes).result =
        .error (.scratch ⟨.tooDeep, "<TMP>"⟩) := by
  intro emitted processes tool request
  have ends : Path.EndsInName "<TMP>".toList := ⟨['<', 'T', 'M', 'P'], '>', rfl, by decide⟩
  obtain ⟨middle, first, hasFirst⟩ := hasNested_blankScratch.createIn ends isPlainName_a
    isPlainName_m (by decide) (Nat.zero_le 599) (by decide) (by decide) (Utf8.encode ['x'])
  obtain ⟨filled, second, has⟩ := hasFirst.createIn ends isPlainName_a isPlainName_m
    (by decide) (show 600 ≤ 1099 by decide) (by decide) (by decide) (Utf8.encode ['y'])
  rw [String.ofList_toList] at first second
  have created : FileSystem.blankScratch.createAllIn "<TMP>" emitted = (.ok (), filled) := by
    rw [FileSystem.createAllIn, deepName, first]
    dsimp only
    rw [FileSystem.createAllIn, deepName, second]
    rfl
  have emits : Emits .blank "<TMP>" processes (.blankFilled emitted) := emits_blank emitted
  refine ⟨⟨_, emits⟩, ?_, ?_⟩
  · intro file mem
    rcases List.mem_pair.mp mem with rfl | rfl
    · exact ⟨['x'], rfl⟩
    · exact ⟨['y'], rfl⟩
  · refine emits.result_of_not_isShallow (fun shallow => ?_) tool request
    exact absurd (Nat.le_trans (le_depth_of_hasNested created has) shallow.listed) (by decide)

end EsmBundle
