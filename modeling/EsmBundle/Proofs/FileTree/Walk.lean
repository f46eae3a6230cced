import EsmBundle.FileTree.System

/-!
Where paths lead.

A walk through a tree depends on the tree only in that its steps can be taken: where it
ends can be read off the steps. So a path that could be taken once leads to the same place
as long as no directory is taken away.

* `followAll`, `FileSystem.target`, `FileSystem.OnWay` — where steps and paths lead, and what
  they pass, by their names alone.
* `FileTree.walk_eq_ok` — a walk ends there.
* `FileTree.walk_of_directories` — a walk can be taken again in a tree with the same
  directories.
-/

namespace EsmBundle

/-! ### Where steps lead -/

/-- Where a step leads from a location if it can be taken. -/
def followStep (location : Location) (step : String) : Location :=
  if step = "." then location
  else if step = ".." then location.dropLast
  else location ++ [step]

/-- Where steps lead from a location if all of them can be taken. -/
def followAll (location : Location) (steps : List String) : Location :=
  steps.foldl followStep location

/-- Where a path leads if all its steps can be taken. -/
def FileSystem.target (fs : FileSystem) (text : String) : Location :=
  followAll (fs.start (Path.ofString text)) (Path.ofString text).steps

/-- A path passes a location, or ends there, if all its steps can be taken. -/
def FileSystem.OnWay (fs : FileSystem) (text : String) (location : Location) : Prop :=
  ∃ steps rest, (Path.ofString text).steps = steps ++ rest ∧
    location = followAll (fs.start (Path.ofString text)) steps

/-- A path ends where it leads. -/
theorem FileSystem.onWay_target (fs : FileSystem) (text : String) :
    fs.OnWay text (fs.target text) :=
  ⟨(Path.ofString text).steps, [], (List.append_nil _).symm, rfl⟩

/-- A path passes what its beginning passes. -/
theorem FileSystem.OnWay.of_beginning {fs : FileSystem} {text whole : String} {location : Location}
    (onWay : fs.OnWay text location)
    (absolute : (Path.ofString text).absolute = (Path.ofString whole).absolute)
    (begins : (Path.ofString text).steps <+: (Path.ofString whole).steps) :
    fs.OnWay whole location := by
  obtain ⟨steps, rest, split, rfl⟩ := onWay
  obtain ⟨more, all⟩ := begins
  refine ⟨steps, rest ++ more, by rw [← all, split, List.append_assoc], ?_⟩
  rw [FileSystem.start, FileSystem.start, absolute]

theorem followStep_of_plain (location : Location) {step : String}
    (plain : FileSystem.isDots step = false) : followStep location step = location ++ [step] := by
  simp only [FileSystem.isDots, Bool.or_eq_false_iff, decide_eq_false_iff_not] at plain
  simp [followStep, plain]

theorem followAll_append (location : Location) (steps more : List String) :
    followAll location (steps ++ more) = followAll (followAll location steps) more :=
  List.foldl_append

/-- Steps without dots lead down by their names. -/
theorem followAll_of_plain {steps : List String} (location : Location)
    (plain : ∀ step ∈ steps, FileSystem.isDots step = false) :
    followAll location steps = location ++ steps := by
  induction steps generalizing location with
  | nil => simp [followAll]
  | cons step rest ih =>
    obtain ⟨first, others⟩ := List.forall_mem_cons.mp plain
    rw [followAll, List.foldl_cons, followStep_of_plain _ first]
    exact (ih _ others).trans (by simp)

namespace FileTree

variable {tree after : FileTree} {location target : Location} {steps : List String}
  {entry : Entry}

/-- A walk takes its first step from a directory, and a name only below one that is linked. -/
theorem walk_cons_eq_ok_iff {step : String} {found : Location × Entry} :
    tree.walk location (step :: steps) = .ok found ↔
      tree.get? location = some .directory ∧
        (FileSystem.isDots step = true ∨ isUnlinked location = false ∧ isLongName step = false) ∧
        tree.walk (followStep location step) steps = .ok found := by
  rw [walk_cons]
  cases tree.get? location with
  | none => simp
  | some entry =>
    cases entry with
    | file contents => simp
    | directory =>
      simp only [true_and, followStep, FileSystem.isDots, Bool.or_eq_true, decide_eq_true_eq]
      by_cases here : step = "."
      · simp [here]
      · by_cases up : step = ".."
        · simp [up]
        · cases isUnlinked location <;> cases isLongName step <;> simp [here, up]

/-- A step that can be taken is taken. -/
theorem walk_cons_of_passable {step : String} (here : tree.get? location = some .directory)
    (passable : FileSystem.isDots step = true ∨ isUnlinked location = false ∧
      isLongName step = false) :
    tree.walk location (step :: steps) = tree.walk (followStep location step) steps := by
  rw [walk_cons, here]
  simp only [FileSystem.isDots, Bool.or_eq_true, decide_eq_true_eq] at passable
  unfold followStep
  by_cases stays : step = "."
  · simp [stays]
  · by_cases up : step = ".."
    · simp [up]
    · obtain ⟨linked, short⟩ := passable.resolve_left (by simp [stays, up])
      simp [stays, up, linked, short]

/-- **A walk that succeeds can be taken further.** -/
theorem walk_append {more : List String}
    (walked : tree.walk location steps = .ok (target, entry)) :
    tree.walk location (steps ++ more) = tree.walk target more := by
  induction steps generalizing location with
  | nil =>
    rw [walk_nil] at walked
    split at walked
    · obtain ⟨rfl, -⟩ := Prod.mk.inj (Except.ok.inj walked)
      rfl
    · cases walked
  | cons step rest ih =>
    obtain ⟨here, passable, later⟩ := walk_cons_eq_ok_iff.mp walked
    rw [List.cons_append, walk_cons_of_passable here passable]
    exact ih later

/-- The beginning of a walk that succeeds leads to a directory. -/
theorem exists_walk_of_append {step : String} {rest : List String} {found : Location × Entry}
    (walked : tree.walk location (steps ++ step :: rest) = .ok found) :
    ∃ middle, tree.walk location steps = .ok (middle, .directory) ∧
      tree.walk middle (step :: rest) = .ok found := by
  induction steps generalizing location with
  | nil =>
    refine ⟨location, ?_, walked⟩
    rw [walk_nil, (walk_cons_eq_ok_iff.mp walked).1]
  | cons first others ih =>
    obtain ⟨here, passable, later⟩ := walk_cons_eq_ok_iff.mp walked
    obtain ⟨middle, begins, ends⟩ := ih later
    exact ⟨middle, walk_cons_eq_ok_iff.mpr ⟨here, passable, begins⟩, ends⟩

/-- No walk ends because something is there. -/
theorem walk_ne_fileExists : tree.walk location steps ≠ .error .fileExists := by
  induction steps generalizing location with
  | nil =>
    rw [walk_nil]
    split <;> simp
  | cons step rest ih =>
    rw [walk_cons]
    split
    · simp
    · simp
    · split
      · exact ih
      · split
        · exact ih
        · split
          · simp
          · split
            · simp
            · exact ih

/-- A walk ends where its steps lead, with what is there. -/
theorem walk_eq_ok (walked : tree.walk location steps = .ok (target, entry)) :
    target = followAll location steps ∧ tree.get? target = some entry := by
  induction steps generalizing location with
  | nil =>
    rw [walk_nil] at walked
    split at walked
    · rename_i found
      obtain ⟨rfl, rfl⟩ := Prod.mk.inj (Except.ok.inj walked)
      exact ⟨rfl, found⟩
    · cases walked
  | cons step rest ih =>
    obtain ⟨-, -, later⟩ := walk_cons_eq_ok_iff.mp walked
    exact ih later

/-- A walk can be taken again when its directories are still there. -/
theorem walk_of_directories (walked : tree.walk location steps = .ok (target, entry))
    (directories : ∀ location, tree.get? location = some .directory →
      after.get? location = some .directory)
    {entry' : Entry} (there : after.get? target = some entry') :
    after.walk location steps = .ok (target, entry') := by
  induction steps generalizing location with
  | nil =>
    obtain ⟨rfl, -⟩ := walk_eq_ok walked
    rw [walk_nil]
    simp only [there]
  | cons step rest ih =>
    obtain ⟨here, passable, later⟩ := walk_cons_eq_ok_iff.mp walked
    exact walk_cons_eq_ok_iff.mpr ⟨directories location here, passable, ih later⟩

/-- A walk can be extended by a name that is there. -/
theorem walk_append_name {name : String}
    (walked : tree.walk location steps = .ok (target, .directory))
    (plain : FileSystem.isDots name = false) (linked : isUnlinked target = false)
    (short : isLongName name = false) (there : tree.get? (target ++ [name]) = some entry) :
    tree.walk location (steps ++ [name]) = .ok (target ++ [name], entry) := by
  have directory := (walk_eq_ok walked).2
  rw [walk_append walked, walk_cons_of_passable directory (Or.inr ⟨linked, short⟩),
    followStep_of_plain _ plain, walk_nil]
  simp only [there]

/-- Where a walk ends, directories lead to it from where it starts. -/
theorem directory_of_walk (walked : tree.walk location steps = .ok (target, entry))
    {above below : Location} {name : String} (split : target = above ++ name :: below) :
    (∃ step more, location = above ++ step :: more) ∨ tree.get? above = some .directory := by
  induction steps generalizing location with
  | nil =>
    obtain ⟨rfl, -⟩ := walk_eq_ok walked
    exact Or.inl ⟨name, below, split⟩
  | cons step rest ih =>
    obtain ⟨here, -, later⟩ := walk_cons_eq_ok_iff.mp walked
    rcases ih later with ⟨next, more, same⟩ | directory
    · unfold followStep at same
      split at same
      · exact Or.inl ⟨next, more, same⟩
      · split at same
        · have nonempty : location ≠ [] := by
            rintro rfl
            simp at same
          have whole := (List.dropLast_concat_getLast nonempty).symm
          rw [same, List.append_assoc] at whole
          exact Or.inl ⟨next, _, whole⟩
        · rcases List.eq_nil_or_concat more with rfl | ⟨others, last, rfl⟩
          · obtain ⟨rfl, -⟩ := List.append_inj' same rfl
            exact Or.inr here
          · refine Or.inl ⟨next, others, ?_⟩
            rw [List.concat_eq_append, ← List.cons_append, ← List.append_assoc] at same
            exact (List.append_inj' same rfl).1
    · exact Or.inr directory

/-- The contents of the file at a location. -/
def fileAt (tree : FileTree) (location : Location) : Option Bytes :=
  match tree.get? location with
  | some (.file contents) => some contents
  | _ => none

theorem fileAt_eq_some_iff {contents : Bytes} :
    tree.fileAt location = some contents ↔ tree.get? location = some (.file contents) := by
  unfold fileAt
  split <;> simp_all

theorem fileAt_put_file {contents : Bytes} (notRoot : location ≠ []) (other : Location) :
    (tree.put location (.file contents)).fileAt other =
      if other = location then some contents else tree.fileAt other := by
  simp only [fileAt, get?_put notRoot]
  by_cases same : other = location <;> simp [same]

theorem fileAt_put_directory (notRoot : location ≠ []) (other : Location) :
    (tree.put location .directory).fileAt other =
      if other = location then none else tree.fileAt other := by
  simp only [fileAt, get?_put notRoot]
  by_cases same : other = location <;> simp [same]

theorem fileAt_prune (tree : FileTree) (location other : Location) :
    (tree.prune location).fileAt other =
      if location.isPrefixOf other then none else tree.fileAt other := by
  by_cases root : other = []
  · subst root
    simp [fileAt, get?]
  · simp only [fileAt, get?_prune root]
    split <;> simp_all

end FileTree

/-! ### What is at the end of a path -/

namespace FileSystem

variable {fs : FileSystem} {text : String} {location : Location} {entry : Entry}

theorem textFault?_eq_none_iff :
    textFault? text = none ↔
      '\x00' ∉ text.toList ∧ text.isEmpty = false ∧ isLongPath text = false := by
  unfold textFault?
  by_cases nul : '\x00' ∈ text.toList
  · simp [nul]
  · cases text.isEmpty <;> cases isLongPath text <;> simp [nul]

/-- A path leads to what a walk leads to, unless it is not well written or a file's path ends in a
slash. -/
theorem stat_eq (fs : FileSystem) (text : String) :
    fs.stat text =
      match textFault? text, fs.tree.walk (fs.start (Path.ofString text)) (Path.ofString text).steps
      with
      | some fault, _ => .error fault
      | none, .error fault => .error fault
      | none, .ok (location, .directory) => .ok (location, .directory)
      | none, .ok (location, .file contents) =>
        if (Path.ofString text).slashAtEnd then .error .notDirectory
        else .ok (location, .file contents) := by
  unfold stat
  cases textFault? text with
  | some fault => rfl
  | none =>
    dsimp only
    cases fs.tree.walk (fs.start (Path.ofString text)) (Path.ofString text).steps with
    | error fault => rfl
    | ok found =>
      obtain ⟨location, entry⟩ := found
      cases entry with
      | directory => rfl
      | file contents => rfl

theorem stat_eq_ok_iff :
    fs.stat text = .ok (location, entry) ↔
      textFault? text = none ∧
        fs.tree.walk (fs.start (Path.ofString text)) (Path.ofString text).steps =
          .ok (location, entry) ∧
        (entry ≠ .directory → (Path.ofString text).slashAtEnd = false) := by
  rw [stat_eq]
  cases textFault? text with
  | some fault => simp
  | none =>
    cases fs.tree.walk (fs.start (Path.ofString text)) (Path.ofString text).steps with
    | error fault => simp
    | ok found =>
      obtain ⟨target, found⟩ := found
      cases found with
      | directory =>
        simp only [Except.ok.injEq, Prod.mk.injEq, true_and]
        constructor
        · rintro ⟨rfl, rfl⟩
          simp
        · rintro ⟨same, -⟩
          exact same
      | file contents =>
        simp only [Except.ok.injEq, Prod.mk.injEq, true_and]
        cases (Path.ofString text).slashAtEnd with
        | false => simp
        | true =>
          simp only [if_true, reduceCtorEq, false_iff]
          rintro ⟨⟨rfl, rfl⟩, isFile⟩
          simp at isFile

/-- What is found at a path is where it leads. -/
theorem get?_of_stat (found : fs.stat text = .ok (location, entry)) :
    location = fs.target text ∧ fs.tree.get? (fs.target text) = some entry := by
  obtain ⟨-, walked, -⟩ := stat_eq_ok_iff.mp found
  obtain ⟨rfl, there⟩ := FileTree.walk_eq_ok walked
  exact ⟨rfl, there⟩

theorem isThere_iff : fs.isThere text = true ↔ ∃ found, fs.stat text = .ok found := by
  unfold isThere
  cases fs.stat text <;> simp

theorem isDirectory_iff :
    fs.isDirectory text = true ↔ fs.stat text = .ok (fs.target text, .directory) := by
  unfold isDirectory
  constructor
  · intro isDirectory
    split at isDirectory
    · rename_i location found
      rw [found, (get?_of_stat found).1]
    · cases isDirectory
  · intro found
    rw [found]

end FileSystem

end EsmBundle
