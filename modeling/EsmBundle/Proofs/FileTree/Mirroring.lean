import EsmBundle.Proofs.FileTree.Making

/-!
The same file written in two file systems.

One file system has all that the other has on the way to a place, and perhaps some of the
directories that would be made there. Writing a file at the place, after making the directories
that lead to it, then ends in the same way in both and changes both in the same way: where
directories are made in one, they are made or already there in the other.

Two things stand in the way of this. A path may need too many new directories in one file
system and fewer in the other; and a dot that is passed over when its head was just made is
looked at when its head was there, which is an error in a path that is too long.

* `FileSystem.Mirrors` — the changes of one file system are those of the other.
* `FileSystem.makeDirectoriesWithin_mirrors`, `FileSystem.write_mirrors` — the steps.
* `FileSystem.writeBelow_mirrors` — the whole.
-/

namespace EsmBundle

namespace FileSystem

variable {fs after last more moreAfter moreLast : FileSystem} {location : Location}

/-! ### Changes in two file systems -/

/-- **What changes in one file system changes in the other**: a place is as before in both, or it
is the same in both afterwards. Only the given location changes, and directories are made where
nothing was on the way to it. -/
structure Mirrors (fs after more moreAfter : FileSystem) (location : Location) : Prop where
  cwd : after.cwd = fs.cwd
  moreCwd : moreAfter.cwd = more.cwd
  entries : ∀ place,
    after.tree.get? place = fs.tree.get? place ∧
      moreAfter.tree.get? place = more.tree.get? place ∨
    moreAfter.tree.get? place = after.tree.get? place ∧
      (place = location ∨ place <+: location ∧ fs.tree.get? place = none ∧
        after.tree.get? place = some .directory)

theorem Mirrors.refl (fs more : FileSystem) (location : Location) :
    Mirrors fs fs more more location :=
  ⟨rfl, rfl, fun _ => Or.inl ⟨rfl, rfl⟩⟩

theorem Mirrors.trans (first : Mirrors fs after more moreAfter location)
    (second : Mirrors after last moreAfter moreLast location) :
    Mirrors fs last more moreLast location := by
  refine ⟨second.cwd.trans first.cwd, second.moreCwd.trans first.moreCwd, ?_⟩
  intro place
  rcases second.entries place with ⟨same, moreSame⟩ | ⟨agree, change⟩
  · rw [same, moreSame]
    exact first.entries place
  · refine Or.inr ⟨agree, ?_⟩
    rcases change with here | ⟨onWay, vacant, made⟩
    · exact Or.inl here
    · rcases first.entries place with ⟨same, -⟩ | ⟨-, here | ⟨-, -, already⟩⟩
      · exact Or.inr ⟨onWay, same ▸ vacant, made⟩
      · exact Or.inl here
      · rw [already] at vacant
        cases vacant

/-- A file system still covers the other after the same changes. -/
theorem Mirrors.covers (mirrors : Mirrors fs after more moreAfter location)
    (covers : fs.Covers more location) : after.Covers moreAfter location := by
  refine ⟨mirrors.moreCwd.trans (covers.cwd.trans mirrors.cwd.symm), ?_⟩
  intro place onWay
  rcases mirrors.entries place with ⟨same, moreSame⟩ | ⟨agree, -⟩
  · rw [same, moreSame]
    exact covers.entries place onWay
  · exact Or.inl agree

/-! ### Directories -/

variable {text : String} {cs : List Char}

/-- A directory that is made in one file system is there in the other, whether it is made there or
not. -/
theorem mirrors_of_made {place : Location} (notRoot : place ≠ []) (onWay : place <+: location)
    (vacant : fs.tree.get? place = none) (cwd : moreAfter.cwd = more.cwd)
    (made : ∀ other, moreAfter.tree.get? other =
      if other = place then some .directory else more.tree.get? other) :
    Mirrors fs { fs with tree := fs.tree.put place .directory } more moreAfter location := by
  refine ⟨rfl, cwd, ?_⟩
  intro other
  dsimp only
  rw [made, FileTree.get?_put notRoot]
  by_cases same : other = place
  · subst same
    rw [if_pos rfl, if_pos rfl]
    exact Or.inr ⟨rfl, Or.inr ⟨onWay, vacant, rfl⟩⟩
  · rw [if_neg same, if_neg same]
    exact Or.inl ⟨rfl, rfl⟩

/-- **One directory** is made in both, or is there in one of them. -/
theorem ensureDirectory_mirrors (sound : fs.IsSound) (moreSound : more.IsSound)
    (covers : fs.Covers more location) (descends : Descends (Path.ofString text).steps)
    (onWay : fs.target text <+: location) (settled : fs.tree.Settled (fs.parentTarget text)) :
    (more.ensureDirectory text).1 = (fs.ensureDirectory text).1 ∧
      Mirrors fs (fs.ensureDirectory text).2 more (more.ensureDirectory text).2 location := by
  have parents := covers.parent_eq sound descends onWay settled
  cases isParent : fs.parent text with
  | error fault =>
    rw [ensureDirectory_of_parent_error isParent,
      ensureDirectory_of_parent_error (parents.trans isParent)]
    exact ⟨rfl, .refl fs more location⟩
  | ok found =>
    obtain ⟨place, last⟩ := found
    have moreParent := parents.trans isParent
    have here (stays : last = none ∨ last = some ".") :
        (more.ensureDirectory text).1 = (fs.ensureDirectory text).1 ∧
          Mirrors fs (fs.ensureDirectory text).2 more (more.ensureDirectory text).2 location := by
      rw [(ensureDirectory_of_here sound isParent stays).1,
        (ensureDirectory_of_here moreSound moreParent stays).1]
      exact ⟨rfl, .refl fs more location⟩
    cases last with
    | none => exact here (Or.inl rfl)
    | some last =>
      rcases plain_or_dot_of_parent descends isParent with plain | rfl
      · rw [ensureDirectory_of_parent isParent plain, ensureDirectory_of_parent moreParent plain]
        rw [target_of_parent isParent plain] at onWay
        split
        · exact ⟨rfl, .refl fs more location⟩
        · split
          · exact ⟨rfl, .refl fs more location⟩
          · cases there : fs.tree.get? (place ++ [last]) with
            | some entry =>
              rw [covers.get?_eq onWay there]
              cases entry <;> exact ⟨rfl, .refl fs more location⟩
            | none =>
              rcases covers.entries _ onWay with same | ⟨-, already, -⟩
              · rw [same, there]
                refine ⟨rfl, mirrors_of_made (by simp) onWay there rfl ?_⟩
                exact fun other => FileTree.get?_put (by simp)
              · rw [already]
                dsimp only
                refine ⟨rfl, mirrors_of_made (by simp) onWay there rfl ?_⟩
                intro other
                split
                · rename_i same
                  rw [same, already]
                · rfl
      · exact here (Or.inr rfl)

/-- The head of a path that never leads up is on the way. -/
theorem target_head_begins (fs : FileSystem) (descends : Descends (Path.names cs))
    (last : (splitPath cs).2 ≠ []) :
    fs.target (String.ofList (splitPath cs).1) <+: fs.target (String.ofList cs) := by
  rw [target_splitPath fs last]
  refine begins_followStep _ (descends _ ?_)
  rw [← names_splitPath, names_tail_splitPath last]
  simp

/-- What begins a path has no dot either, if that is needed for its being too long. -/
theorem dotless_of_begins {head : List Char} {rest : List String} (begins : head <+: cs)
    (names : Path.names head ++ rest = Path.names cs)
    (dotless : isLongPath (String.ofList cs) = true → "." ∉ Path.names cs)
    (long : isLongPath (String.ofList head) = true) : "." ∉ Path.names head :=
  fun dot => dotless (isLongPath_of_begins begins long) (names ▸ List.mem_append_left rest dot)

/-- A head that is there in one file system is there in the other. -/
theorem Covers.headIsMissing (covers : fs.Covers more location) (sound : fs.IsSound)
    (descends : Descends (Path.names cs)) (onWay : fs.target (String.ofList cs) <+: location)
    (there : fs.headIsMissing cs = false) : more.headIsMissing cs = false := by
  cases moreMissing : more.headIsMissing cs with
  | false => rfl
  | true =>
    obtain ⟨head, last, absent⟩ := headIsMissing_iff.mp moreMissing
    have headOnWay := (target_head_begins fs descends last).trans onWay
    have headSteps : Descends (Path.ofString (String.ofList (splitPath cs).1)).steps := by
      simpa [Path.ofString] using (names_splitPath cs ▸ descends).left
    cases found : fs.isThere (String.ofList (splitPath cs).1) with
    | false =>
      rw [headIsMissing_iff.mpr ⟨head, last, found⟩] at there
      cases there
    | true =>
      rw [covers.isThere sound headSteps headOnWay found] at absent
      cases absent

/-- **One directory below its head**, after the head was made in one file system, and was made or
there in the other. -/
theorem ensureDirectory_mirrors_below_head {levels : Nat} {moreMiddle : FileSystem}
    (sound : fs.IsSound) (middleSound : moreMiddle.IsSound) (covers : fs.Covers more location)
    (descends : Descends (Path.names cs)) (onWay : fs.target (String.ofList cs) <+: location)
    (last : (splitPath cs).2 ≠ [])
    (goes : goesOn (fs.makeDirectoriesWithin levels (splitPath cs).1).1 = true)
    (mirrors : Mirrors fs (fs.makeDirectoriesWithin levels (splitPath cs).1).2 more moreMiddle
      location) :
    (moreMiddle.ensureDirectory (String.ofList cs)).1 =
        ((fs.makeDirectoriesWithin levels (splitPath cs).1).2.ensureDirectory
          (String.ofList cs)).1 ∧
      Mirrors fs ((fs.makeDirectoriesWithin levels (splitPath cs).1).2.ensureDirectory
          (String.ofList cs)).2
        more (moreMiddle.ensureDirectory (String.ofList cs)).2 location := by
  have steps : Descends (Path.ofString (String.ofList cs)).steps := by
    simpa [Path.ofString] using descends
  have settled := makeDirectoriesWithin_settles sound levels
    (names_splitPath cs ▸ descends).left goes
  rw [← target_of_cwd mirrors.cwd] at settled onWay
  rw [← parentTarget_eq _ last] at settled
  obtain ⟨same, later⟩ := ensureDirectory_mirrors
    (sound.makeDirectoriesWithin levels (splitPath cs).1) middleSound (mirrors.covers covers) steps
    onWay settled
  exact ⟨same, mirrors.trans later⟩

/-- One level where both have to make the head first. -/
theorem makeDirectoriesWithin_mirrors_of_missing {levels : Nat} (sound : fs.IsSound)
    (moreSound : more.IsSound) (covers : fs.Covers more location)
    (descends : Descends (Path.names cs)) (onWay : fs.target (String.ofList cs) <+: location)
    (missing : fs.headIsMissing cs = true) (moreMissing : more.headIsMissing cs = true)
    (same : (more.makeDirectoriesWithin levels (splitPath cs).1).1 =
      (fs.makeDirectoriesWithin levels (splitPath cs).1).1)
    (mirrors : Mirrors fs (fs.makeDirectoriesWithin levels (splitPath cs).1).2 more
      (more.makeDirectoriesWithin levels (splitPath cs).1).2 location) :
    (more.makeDirectoriesWithin (levels + 1) cs).1 =
        (fs.makeDirectoriesWithin (levels + 1) cs).1 ∧
      Mirrors fs (fs.makeDirectoriesWithin (levels + 1) cs).2 more
        (more.makeDirectoriesWithin (levels + 1) cs).2 location := by
  obtain ⟨-, last, -⟩ := headIsMissing_iff.mp missing
  rw [makeDirectoriesWithin_succ, makeDirectoriesWithin_succ, missing, moreMissing, if_pos rfl,
    if_pos rfl, same]
  split
  · rename_i goes
    split
    · exact ⟨rfl, mirrors⟩
    · exact ensureDirectory_mirrors_below_head sound
        (moreSound.makeDirectoriesWithin levels (splitPath cs).1) covers descends onWay last goes
        mirrors
  · exact ⟨same, mirrors⟩

/-- One level where one makes the head, and the other has it. A last dot is passed over in the one
and looked at in the other, which finds the directory before it. -/
theorem makeDirectoriesWithin_mirrors_of_there {levels : Nat} (sound : fs.IsSound)
    (moreSound : more.IsSound) (covers : fs.Covers more location)
    (descends : Descends (Path.names cs)) (onWay : fs.target (String.ofList cs) <+: location)
    (dotless : isLongPath (String.ofList cs) = true → "." ∉ Path.names cs)
    (missing : fs.headIsMissing cs = true) (moreThere : more.headIsMissing cs = false)
    (isDirectory : more.isDirectory (String.ofList (splitPath cs).1) = true)
    (goes : goesOn (fs.makeDirectoriesWithin levels (splitPath cs).1).1 = true)
    (mirrors : Mirrors fs (fs.makeDirectoriesWithin levels (splitPath cs).1).2 more more location) :
    (more.makeDirectoriesWithin (levels + 1) cs).1 =
        (fs.makeDirectoriesWithin (levels + 1) cs).1 ∧
      Mirrors fs (fs.makeDirectoriesWithin (levels + 1) cs).2 more
        (more.makeDirectoriesWithin (levels + 1) cs).2 location := by
  obtain ⟨head, last, -⟩ := headIsMissing_iff.mp missing
  rw [makeDirectoriesWithin_succ, makeDirectoriesWithin_succ, missing, moreThere, if_pos rfl,
    if_neg Bool.false_ne_true, if_pos goes]
  split
  · rename_i dot
    have mem : "." ∈ Path.names cs := by
      rw [← names_splitPath, names_tail_splitPath last, dot]
      exact List.mem_append_right _ (List.mem_singleton.mpr rfl)
    have short : isLongPath (String.ofList cs) = false :=
      Bool.eq_false_iff.mpr fun long => dotless long mem
    rw [ensureDirectory_of_isDirectory (isDirectory_of_dot dot head short isDirectory)]
    exact ⟨rfl, mirrors⟩
  · exact ensureDirectory_mirrors_below_head sound moreSound covers descends onWay last goes mirrors

/-- What needs no more levels than there are needs no more for its head. -/
theorem head_ne_tooDeep {levels : Nat} (missing : fs.headIsMissing cs = true)
    (shallow : ∀ path, (fs.makeDirectoriesWithin (levels + 1) cs).1 ≠ .error ⟨.tooDeep, path⟩)
    (path : String) :
    (fs.makeDirectoriesWithin levels (splitPath cs).1).1 ≠ .error ⟨.tooDeep, path⟩ := by
  intro failed
  refine shallow path ?_
  rw [makeDirectoriesWithin_succ, if_pos missing, failed, if_neg (by simp [goesOn])]
  exact failed

/-- **Making directories**, if not too many of them are missing, ends in the same way in both. -/
theorem makeDirectoriesWithin_mirrors (sound : fs.IsSound) (moreSound : more.IsSound)
    (covers : fs.Covers more location) (levels : Nat) (descends : Descends (Path.names cs))
    (onWay : fs.target (String.ofList cs) <+: location)
    (dotless : isLongPath (String.ofList cs) = true → "." ∉ Path.names cs)
    (shallow : ∀ path, (fs.makeDirectoriesWithin levels cs).1 ≠ .error ⟨.tooDeep, path⟩) :
    (more.makeDirectoriesWithin levels cs).1 = (fs.makeDirectoriesWithin levels cs).1 ∧
      Mirrors fs (fs.makeDirectoriesWithin levels cs).2 more
        (more.makeDirectoriesWithin levels cs).2 location := by
  induction levels generalizing cs with
  | zero => exact absurd rfl (shallow _)
  | succ levels ih =>
    cases missing : fs.headIsMissing cs with
    | false =>
      -- A head that is there in one is there in the other, and both make one directory.
      have moreThere := covers.headIsMissing sound descends onWay missing
      have steps : Descends (Path.ofString (String.ofList cs)).steps := by
        simpa [Path.ofString] using descends
      rw [makeDirectoriesWithin_succ, makeDirectoriesWithin_succ, missing, moreThere,
        if_neg Bool.false_ne_true, if_neg Bool.false_ne_true]
      exact ensureDirectory_mirrors sound moreSound covers steps onWay
        (settled_parentTarget sound missing)
    | true =>
      obtain ⟨head, last, absent⟩ := headIsMissing_iff.mp missing
      have headDescends : Descends (Path.names (splitPath cs).1) :=
        (names_splitPath cs ▸ descends).left
      have headOnWay := (target_head_begins fs descends last).trans onWay
      have headShallow := head_ne_tooDeep missing shallow
      obtain ⟨same, mirrors⟩ := ih headDescends headOnWay
        (dotless_of_begins (splitPath_begins cs) (names_splitPath cs) dotless) headShallow
      cases moreMissing : more.headIsMissing cs with
      | true =>
        exact makeDirectoriesWithin_mirrors_of_missing sound moreSound covers descends onWay missing
          moreMissing same mirrors
      | false =>
        -- The other has the head, which the one makes now.
        have found : more.isThere (String.ofList (splitPath cs).1) = true :=
          Bool.of_not_eq_false fun lost => by
            rw [headIsMissing_iff.mpr ⟨head, last, lost⟩] at moreMissing
            cases moreMissing
        have headSteps : Descends (Path.ofString (String.ofList (splitPath cs).1)).steps := by
          simpa [Path.ofString] using headDescends
        have isDirectory := covers.isDirectory_of_new sound headSteps headOnWay absent found
        cases levels with
        | zero => exact absurd rfl (headShallow _)
        | succ levels =>
          rw [makeDirectoriesWithin_of_isDirectory levels isDirectory] at same mirrors
          exact makeDirectoriesWithin_mirrors_of_there sound moreSound covers descends onWay dotless
            missing moreMissing isDirectory (same ▸ rfl) mirrors

/-! ### Files -/

/-- **Writing a file** below a parent that is there ends in the same way in both. -/
theorem write_mirrors (sound : fs.IsSound) (covers : fs.Covers more (fs.target text))
    (descends : Descends (Path.ofString text).steps)
    (settled : fs.tree.Settled (fs.parentTarget text)) (contents : Bytes) :
    (more.write text contents).1 = (fs.write text contents).1 ∧
      Mirrors fs (fs.write text contents).2 more (more.write text contents).2
        (fs.target text) := by
  have parents := covers.parent_eq sound descends List.prefix_rfl settled
  have same : more.newFile text = fs.newFile text := by
    rw [newFile_eq, newFile_eq, parents]
    cases isParent : fs.parent text with
    | error fault => rfl
    | ok found =>
      obtain ⟨place, last⟩ := found
      cases last with
      | none => rfl
      | some last =>
        rcases plain_or_dot_of_parent descends isParent with plain | rfl
        · have here := covers.get?_self
          rw [target_of_parent isParent plain] at here
          simp only [here]
        · simp [isDots]
  unfold FileSystem.write
  rw [same]
  cases made : fs.newFile text with
  | error fault => exact ⟨rfl, .refl fs more _⟩
  | ok location =>
    obtain ⟨directory, last, rfl, isParent, plain, -⟩ := newFile_eq_ok made
    refine ⟨rfl, rfl, rfl, ?_⟩
    intro place
    dsimp only
    rw [FileTree.get?_put (by simp), FileTree.get?_put (by simp)]
    by_cases here : place = directory ++ [last]
    · rw [if_pos here, if_pos here]
      exact Or.inr ⟨rfl, Or.inl (here.trans (target_of_parent isParent plain).symm)⟩
    · rw [if_neg here, if_neg here]
      exact Or.inl ⟨rfl, rfl⟩

/-- The directory part of a path is on the way. -/
theorem target_directoryOf_begins (fs : FileSystem)
    (descends : Descends (Path.ofString text).steps) :
    fs.target (Path.directoryOf text) <+: fs.target text := by
  obtain ⟨absolute, last, whole⟩ := Path.ofString_directoryOf text
  rw [← whole] at descends
  rw [target, target, ← whole, FileSystem.start, FileSystem.start, absolute]
  exact descends.begins_append _

/-- What is before the last step of a path leads to somewhere if its directory part does. -/
theorem settled_parentTarget_of_directoryOf (sound : fs.IsSound)
    (descends : Descends (Path.ofString text).steps)
    (settled : fs.tree.Settled (fs.target (Path.directoryOf text))) :
    fs.tree.Settled (fs.parentTarget text) := by
  refine sound.tree.settled_above settled ?_
  have names := Path.names_directory_append text.toList
  have start : fs.start (Path.ofString (Path.directoryOf text)) =
      fs.start (Path.ofString text) := by
    rw [FileSystem.start, FileSystem.start, (Path.ofString_directoryOf text).1]
  have directory : (Path.ofString (Path.directoryOf text)).steps =
      Path.names (Path.directory text.toList) := by
    simp [Path.ofString, Path.directoryOf]
  have steps : (Path.ofString text).steps = Path.names text.toList := rfl
  -- Only a path that ends in a slash has its last step in the directory part.
  have before : (Path.names text.toList).dropLast <+: Path.names (Path.directory text.toList) := by
    rw [← names]
    by_cases last : Path.lastName text.toList = []
    · rw [last, Path.names_nil, List.append_nil]
      exact List.dropLast_prefix _
    · exact ⟨[], by rw [Path.names_lastName last, List.dropLast_concat, List.append_nil]⟩
  obtain ⟨rest, whole⟩ := before
  rw [steps, ← names, ← whole] at descends
  have begins := descends.left.begins_append (fs.start (Path.ofString text))
  rwa [parentTarget, target, start, directory, steps, ← whole]

/-- A file behind no directory is written where its path says. -/
theorem writeBelow_of_no_directory (none : Path.directoryOf text = "") (contents : Bytes) :
    fs.writeBelow text contents = fs.write text contents := by
  simp [writeBelow, none]

/-- What needs no more levels than there are needs no more for its directory part. -/
theorem makeDirectoriesWithin_ne_tooDeep {contents : Bytes}
    (directory : Path.directoryOf text = String.ofList cs) (nonempty : cs ≠ [])
    (shallow : ∀ path, (fs.writeBelow text contents).1 ≠ .error ⟨.tooDeep, path⟩) (path : String) :
    (fs.makeDirectoriesWithin Bounds.madeLevels cs).1 ≠ .error ⟨.tooDeep, path⟩ := by
  intro failed
  refine shallow path ?_
  rw [writeBelow_of_directory directory nonempty]
  cases attempt : fs.makeDirectoriesWithin Bounds.madeLevels cs with
  | mk result after =>
    rw [attempt] at failed
    obtain rfl : result = _ := failed
    rfl

/-- **A file and the directories that lead to it** are written in the same way in both. -/
theorem writeBelow_mirrors (sound : fs.IsSound) (moreSound : more.IsSound)
    (covers : fs.Covers more (fs.target text)) (descends : Descends (Path.ofString text).steps)
    (dotless : isLongPath text = true → "." ∉ (Path.ofString text).steps) (contents : Bytes)
    (shallow : ∀ path, (fs.writeBelow text contents).1 ≠ .error ⟨.tooDeep, path⟩) :
    (more.writeBelow text contents).1 = (fs.writeBelow text contents).1 ∧
      Mirrors fs (fs.writeBelow text contents).2 more (more.writeBelow text contents).2
        (fs.target text) := by
  have directory : Path.directoryOf text = String.ofList (Path.directory text.toList) := rfl
  by_cases nonempty : Path.directory text.toList = []
  · have empty : Path.directoryOf text = "" := by rw [directory, nonempty]
    have settled : fs.tree.Settled (fs.target (Path.directoryOf text)) := by
      rw [empty]
      exact FileTree.settled_of_there sound.cwd
    rw [writeBelow_of_no_directory empty, writeBelow_of_no_directory empty]
    exact write_mirrors sound covers descends
      (settled_parentTarget_of_directoryOf sound descends settled) contents
  · have names := Path.names_directory_append text.toList
    have steps : (Path.ofString text).steps = Path.names text.toList := rfl
    have partDescends : Descends (Path.names (Path.directory text.toList)) :=
      ((names.trans steps.symm) ▸ descends).left
    have partDotless := dotless_of_begins (Path.directory_begins text.toList) names
      (by rwa [String.ofList_toList])
    obtain ⟨same, mirrors⟩ := makeDirectoriesWithin_mirrors sound moreSound covers Bounds.madeLevels
      partDescends (target_directoryOf_begins fs descends) partDotless
      (makeDirectoriesWithin_ne_tooDeep directory nonempty shallow)
    have middleSound := sound.makeDirectoriesWithin Bounds.madeLevels (Path.directory text.toList)
    have settles := makeDirectoriesWithin_settles sound Bounds.madeLevels partDescends
    rw [writeBelow_of_directory directory nonempty, writeBelow_of_directory directory nonempty]
    cases attempt : fs.makeDirectoriesWithin Bounds.madeLevels (Path.directory text.toList) with
    | mk result middle =>
      cases moreAttempt : more.makeDirectoriesWithin Bounds.madeLevels
          (Path.directory text.toList) with
      | mk moreResult moreMiddle =>
        rw [attempt, moreAttempt] at same mirrors
        rw [attempt] at middleSound settles
        obtain rfl : moreResult = result := same
        cases moreResult with
        | error error => exact ⟨rfl, mirrors⟩
        | ok done =>
          have targets : middle.target text = fs.target text := target_of_cwd mirrors.cwd text
          have settled : middle.tree.Settled (middle.target (Path.directoryOf text)) := by
            rw [target_of_cwd mirrors.cwd]
            exact settles rfl
          have middleCovers : middle.Covers moreMiddle (middle.target text) := by
            rw [targets]
            exact mirrors.covers covers
          obtain ⟨sameLast, lastMirrors⟩ := write_mirrors middleSound middleCovers descends
            (settled_parentTarget_of_directoryOf middleSound descends settled) contents
          rw [targets] at lastMirrors
          exact ⟨sameLast, mirrors.trans lastMirrors⟩

theorem writeText_mirrors {contents : String} (sound : fs.IsSound) (moreSound : more.IsSound)
    (covers : fs.Covers more (fs.target text)) (descends : Descends (Path.ofString text).steps)
    (dotless : isLongPath text = true → "." ∉ (Path.ofString text).steps)
    (shallow : ∀ path, (fs.writeText text contents).1 ≠ .error ⟨.tooDeep, path⟩) :
    (more.writeText text contents).1 = (fs.writeText text contents).1 ∧
      Mirrors fs (fs.writeText text contents).2 more (more.writeText text contents).2
        (fs.target text) :=
  writeBelow_mirrors sound moreSound covers descends dotless (Utf8.encode contents.toList) shallow

end FileSystem

end EsmBundle
