import EsmBundle.Proofs.Bundling
import EsmBundle.Proofs.FileTree.Footprint

/-!
What the private directory of the tool leaves behind.

The directory is made where nothing was, filled, and removed with all that is in it. So
bundling changes nothing around it, whatever becomes of the run, unless the tool emits
something under a name that leads out of the directory.

* `IsPrivateDirectory` — where the directory can be made.
* `FileSystem.IsStray` — the places outside that an emitted name passes.
* `Tool.get?_bundle` — every entry that is not at such a place is as before.
-/

namespace EsmBundle

/-! ### Names that stay inside -/

/-- The names that lead to where a further step leads, none when it leaves the directory that they
start from. -/
def follow? (names : List String) (step : String) : Option (List String) :=
  if step = "." then some names
  else if step = ".." then if names.isEmpty then none else some names.dropLast
  else some (names ++ [step])

/-- A step that stays below a location leads to where its names say. -/
theorem followStep_of_follow? {names next : List String} {step : String}
    (inside : follow? names step = some next) (location : Location) :
    followStep (location ++ names) step = location ++ next := by
  unfold follow? at inside
  unfold followStep
  split at inside
  · obtain rfl := Option.some.inj inside
    rw [if_pos ‹_›]
  · rw [if_neg ‹_›]
    split at inside
    · rw [if_pos ‹_›]
      split at inside
      · cases inside
      · rename_i below
        obtain rfl := Option.some.inj inside
        exact List.dropLast_append_of_ne_nil (by simpa using below)
    · rw [if_neg ‹_›]
      obtain rfl := Option.some.inj inside
      exact List.append_assoc location names [step]

/-- Steps that stay below a location lead to where their names say. -/
theorem followAll_of_follow? {steps names ends : List String}
    (inside : steps.foldlM follow? names = some ends) (location : Location) :
    followAll (location ++ names) steps = location ++ ends := by
  induction steps generalizing names with
  | nil =>
    obtain rfl := Option.some.inj inside
    rfl
  | cons step rest ih =>
    rw [List.foldlM_cons] at inside
    obtain ⟨next, first, inside⟩ := Option.bind_eq_some_iff.mp inside
    rw [followAll, List.foldl_cons, followStep_of_follow? first]
    exact ih inside

/-- A name that never leads out of the directory that it starts from. -/
def StaysInside (name : String) : Prop :=
  (Path.ofString name).absolute = false ∧
    ((Path.ofString name).steps.foldlM follow? []).isSome = true

instance (name : String) : Decidable (StaysInside name) :=
  inferInstanceAs (Decidable (_ ∧ _))

/-- A place that the tool may change outside its private directory: an emitted name leads out of the
directory, and passes the place or ends there. -/
def FileSystem.IsStray (files : FileSystem) (scratch : String) (emitted : List (String × Bytes))
    (location : Location) : Prop :=
  ∃ file ∈ emitted, ¬ StaysInside file.1 ∧
    { files with cwd := files.temporary }.OnWay (Path.join scratch file.1) location

/-- Steps that stay inside stay inside from the first one on. -/
theorem exists_follow?_of_append {steps rest names ends : List String}
    (inside : (steps ++ rest).foldlM follow? names = some ends) :
    ∃ middle, steps.foldlM follow? names = some middle := by
  rw [List.foldlM_append] at inside
  obtain ⟨middle, first, -⟩ := Option.bind_eq_some_iff.mp inside
  exact ⟨middle, first⟩

/-- A file system in which a private directory can be made: nothing is at its place or below it, and
its parents are there if the directory for temporary files is. -/
structure IsPrivateDirectory (files : FileSystem) (scratch : String) : Prop where
  plain : ∀ step ∈ (Path.ofString scratch).steps, FileSystem.isDots step = false
  vacant : ∀ below, files.tree.get? (files.scratchLocation scratch ++ below) = none
  parents : files.tree.get? files.temporary = some .directory →
    ∀ above name below, files.scratchLocation scratch = above ++ name :: below →
      files.tree.get? above = some .directory

variable {files opened : FileSystem} {scratch : String} {emitted : List (String × Bytes)}
  {location : Location}

/-- Names that stay inside pass no place outside. -/
theorem FileSystem.not_isStray (inside : ∀ file ∈ emitted, StaysInside file.1)
    (location : Location) : ¬ files.IsStray scratch emitted location := by
  rintro ⟨file, mem, leaves, -⟩
  exact leaves (inside file mem)

/-- A private directory is new when its path has no slashes that it does not need. -/
theorem IsPrivateDirectory.isNew (isPrivate : IsPrivateDirectory files scratch)
    (tight : Path.IsTight scratch) : IsNewDirectory files scratch :=
  ⟨isPrivate.plain, tight, isPrivate.vacant⟩

/-- An empty working directory beside an empty home and an empty directory for temporary files. -/
def FileSystem.blank : FileSystem :=
  ⟨((FileTree.empty.plant ["work"] .directory).plant ["home"] .directory).plant ["tmp"] .directory,
    ["work"], ["home"], ["tmp"]⟩

/-- A private directory can be made where the directory for temporary files does not have its
name. -/
theorem isPrivateDirectory_of_vacant (temporary : files.temporary = ["tmp"])
    (vacant : (findEntry "<TMP>" (files.tree.child "tmp").branches).isNone = true) :
    IsPrivateDirectory files "<TMP>" := by
  have relative : (Path.ofString "<TMP>").absolute = false := by decide +kernel
  have steps : (Path.ofString "<TMP>").steps = ["<TMP>"] := by decide +kernel
  have place : files.scratchLocation "<TMP>" = ["tmp", "<TMP>"] := by
    rw [FileSystem.scratchLocation, FileSystem.start, relative, steps]
    exact congrArg (· ++ ["<TMP>"]) temporary
  refine ⟨by decide +kernel, ?_, ?_⟩
  · intro below
    rw [place]
    change ((files.tree.child "tmp").child "<TMP>").find? below = none
    rw [FileTree.child, Option.isNone_iff_eq_none.mp vacant]
    exact FileTree.find?_empty below
  · intro directory above name below split
    rw [place] at split
    rcases above with _ | ⟨first, _ | ⟨second, rest⟩⟩
    · rfl
    · obtain rfl := (List.cons.inj split).1
      exact temporary ▸ directory
    · simp at split

theorem isPrivateDirectory_blank : IsPrivateDirectory .blank "<TMP>" :=
  isPrivateDirectory_of_vacant rfl (by decide +kernel)

/-- A name that stays inside passes the parents of the private directory and what is at or below
it. -/
theorem onWay_of_staysInside
    (plain : ∀ step ∈ (Path.ofString scratch).steps, FileSystem.isDots step = false)
    {name : String} (inside : StaysInside name)
    (onWay : { files with cwd := files.temporary }.OnWay (Path.join scratch name) location) :
    (∃ step below, files.scratchLocation scratch = location ++ step :: below) ∨
      files.scratchLocation scratch <+: location := by
  obtain ⟨relative, stays⟩ := inside
  obtain ⟨ends, stays⟩ := Option.isSome_iff_exists.mp stays
  have first : name.toList.head? ≠ some '/' := by simpa [Path.ofString] using relative
  obtain ⟨absolute, steps⟩ := Path.ofString_join scratch first
  have start :
      { files with cwd := files.temporary }.start (Path.ofString (Path.join scratch name)) =
      { files with cwd := files.temporary }.start (Path.ofString scratch) := by
    rw [FileSystem.start, FileSystem.start, absolute]
  obtain ⟨taken, rest, split, rfl⟩ := onWay
  rw [steps, List.append_eq_append_iff] at split
  rw [start, FileSystem.scratchLocation]
  rcases split with ⟨more, rfl, nameSteps⟩ | ⟨more, scratchSteps, -⟩
  · refine Or.inr ?_
    rw [nameSteps] at stays
    obtain ⟨middle, follows⟩ := exists_follow?_of_append stays
    have below := followAll_of_follow? follows (files.scratchLocation scratch)
    rw [List.append_nil] at below
    rw [followAll_append, followAll_of_plain _ plain]
    exact ⟨middle, below.symm⟩
  · rw [scratchSteps] at plain ⊢
    rw [followAll_of_plain _ fun step mem => plain step (List.mem_append_left _ mem)]
    cases more with
    | nil => exact Or.inr (List.append_nil _ ▸ List.prefix_rfl)
    | cons step below => exact Or.inl ⟨step, below, by rw [List.append_assoc]⟩

/-! ### The whole run -/

/-- Filling a private directory loses no directory and changes only what is on the way of an emitted
file. -/
theorem FileSystem.fillScratch_changes (opened : FileSystem) (scratch : String)
    (emitted : List (String × Bytes)) :
    Grows opened (opened.fillScratch scratch emitted) ∧ ∀ location,
      (opened.fillScratch scratch emitted).tree.get? location = opened.tree.get? location ∨
        ∃ file ∈ emitted,
          { opened with cwd := opened.temporary }.OnWay (Path.join scratch file.1) location := by
  obtain ⟨grows, changes⟩ :=
    createAllIn_changes { opened with cwd := opened.temporary } scratch emitted
  exact ⟨⟨rfl, grows.temporary, grows.directories⟩, changes⟩

/-- Making the private directory changes no other place. -/
theorem get?_openScratch (isPrivate : IsPrivateDirectory files scratch)
    (isOpen : files.openScratch scratch = .ok opened)
    (apart : location ≠ files.scratchLocation scratch) :
    opened.tree.get? location = files.tree.get? location := by
  have notRoot : files.scratchLocation scratch ≠ [] := by
    intro root
    have here := isPrivate.vacant []
    rw [root] at here
    cases here
  unfold FileSystem.openScratch at isOpen
  split at isOpen
  · obtain rfl := Except.ok.inj isOpen
    dsimp only
    rw [FileTree.get?_put notRoot, if_neg apart]
  · cases isOpen
  · cases isOpen

/-- The private directory is made only below a directory for temporary files. -/
theorem temporary_of_openScratch (isOpen : files.openScratch scratch = .ok opened) :
    files.tree.get? files.temporary = some .directory := by
  unfold FileSystem.openScratch at isOpen
  split at isOpen
  · assumption
  · cases isOpen
  · cases isOpen

/-- Around the private directory nothing is changed when it is filled, save where a name leads out
of it. -/
theorem get?_fillScratch (isPrivate : IsPrivateDirectory files scratch)
    (isOpen : files.openScratch scratch = .ok opened)
    (notStray : ¬ files.IsStray scratch emitted location)
    (apart : ¬ files.scratchLocation scratch <+: location) :
    (opened.fillScratch scratch emitted).tree.get? location = files.tree.get? location := by
  have adds := openScratch_spec isPrivate.vacant isOpen
  obtain ⟨grows, changes⟩ := FileSystem.fillScratch_changes opened scratch emitted
  have before : opened.tree.get? location = files.tree.get? location :=
    get?_openScratch isPrivate isOpen fun here => apart (here ▸ List.prefix_rfl)
  rcases changes location with unchanged | ⟨file, mem, onWay⟩
  · exact unchanged.trans before
  · have onWay : { files with cwd := files.temporary }.OnWay (Path.join scratch file.1)
        location := by
      simpa only [FileSystem.OnWay, FileSystem.start, adds.toGrows.temporary] using onWay
    by_cases inside : StaysInside file.1
    · -- What an emitted file passes around the directory are its parents, which were there.
      rcases onWay_of_staysInside isPrivate.plain inside onWay with ⟨step, below, split⟩ | below
      · have parent := isPrivate.parents (temporary_of_openScratch isOpen) _ _ _ split
        rw [parent]
        exact grows.directories location (adds.toGrows.directories location parent)
      · exact absurd below apart
    · exact absurd ⟨file, mem, inside, onWay⟩ notStray

/-- **Bundling changes nothing around its private directory**, whatever becomes of it: every entry
is as before, unless the tool emitted something under a name that leads out of the directory and
passes there. The directory itself is gone, unless it has too many levels. -/
theorem Tool.get?_bundle {tool : Tool} {request : BundleRequest} {processes : Processes}
    (isPrivate : IsPrivateDirectory files scratch)
    (notStray : ¬ files.IsStray scratch processes.next.emitted location)
    (gone : files.scratchLocation scratch <+: location → ∀ path,
      (tool.bundle scratch request files processes).result ≠
        .error (.scratch ⟨.tooDeep, path⟩)) :
    (tool.bundle scratch request files processes).files.tree.get? location =
      files.tree.get? location := by
  cases isOpen : files.openScratch scratch with
  | error error => rw [bundle_of_openScratch_error isOpen]
  | ok opened =>
    obtain ⟨result, left⟩ := bundle_of_openScratch tool request processes isOpen
    have adds := openScratch_spec isPrivate.vacant isOpen
    obtain ⟨grows, -⟩ := FileSystem.fillScratch_changes opened scratch processes.next.emitted
    have directory := (adds.toGrows.trans grows).scratchLocation_eq scratch
    rw [left, FileSystem.closeScratch_eq]
    by_cases below : files.scratchLocation scratch <+: location
    · split
      · rename_i deep
        rw [if_pos deep] at result
        exact absurd result (gone below scratch)
      · obtain ⟨names, rfl⟩ := below
        have here := isPrivate.vacant names
        have notRoot : files.scratchLocation scratch ++ names ≠ [] := by
          intro root
          rw [root] at here
          cases here
        rw [directory, FileTree.get?_prune notRoot, if_pos, here]
        exact List.isPrefixOf_iff_prefix.mpr (List.prefix_append _ _)
    · have around := get?_fillScratch isPrivate isOpen notStray below
      split
      · exact around
      · by_cases root : location = []
        · subst root
          rfl
        · rw [directory, FileTree.get?_prune root, if_neg, around]
          exact mt List.isPrefixOf_iff_prefix.mp below

/-- Bundling stays in the working directory. -/
theorem Tool.cwd_bundle (tool : Tool) (scratch : String) (request : BundleRequest)
    (files : FileSystem) (processes : Processes) :
    (tool.bundle scratch request files processes).files.cwd = files.cwd := by
  cases isOpen : files.openScratch scratch with
  | error error => rw [bundle_of_openScratch_error isOpen]
  | ok opened =>
    rw [(bundle_of_openScratch tool request processes isOpen).2, FileSystem.closeScratch_eq]
    have same : opened.cwd = files.cwd := by
      unfold FileSystem.openScratch at isOpen
      split at isOpen
      · obtain rfl := Except.ok.inj isOpen
        rfl
      · cases isOpen
      · cases isOpen
    split <;> exact same

end EsmBundle
