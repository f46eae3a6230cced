import EsmBundle.Proofs.FileTree.Descent

/-!
Making the directories that lead to a place, one after another.

Making directories goes up to the first that is there and makes the others from there on down.
What is left is a sound tree; and if nothing but an existing entry was met, what the path leads
to is there afterwards, or a file on the way to it.

* `FileSystem.makeDirectoriesWithin_succ` — one level: first the head of the path if it is
  missing, then the directory itself.
* `FileSystem.makeDirectoriesWithin_settles` — what is there afterwards.
* `FileSystem.makeDirectoriesWithin_of_isDirectory` — nothing is made where a directory is.
-/

namespace EsmBundle

namespace FileSystem

variable {fs after : FileSystem} {text : String} {cs : List Char} {location : Location}

/-! ### Heads of paths -/

theorem splitPath_begins (cs : List Char) : (splitPath cs).1 <+: cs := by
  unfold splitPath
  dsimp only
  split
  · exact (Path.directory_begins _).trans (Path.directory_begins cs)
  · exact Path.directory_begins cs

/-- The last name of a path is a name. -/
theorem names_tail_splitPath (last : (splitPath cs).2 ≠ []) :
    Path.names (splitPath cs).2 = [String.ofList (splitPath cs).2] := by
  unfold splitPath at *
  dsimp only at *
  split at last
  · rename_i slash
    rw [if_pos slash]
    exact Path.names_lastName last
  · rename_i noSlash
    rw [if_neg noSlash]
    exact Path.names_lastName last

/-- A path has no last name only if it has no names. -/
theorem names_of_tail_eq_nil (none : (splitPath cs).2 = []) : Path.names cs = [] := by
  unfold splitPath at none
  dsimp only at none
  split at none
  · rename_i slash
    have part := Path.names_of_lastName_stripSlashes none
    rw [← Path.names_directory_append cs, List.isEmpty_iff.mp slash, Path.names_nil,
      List.append_nil, Path.directory, Path.names_stripSlashes, part]
  · rename_i noSlash
    exact absurd (List.isEmpty_iff.mpr none) noSlash

/-- A path is made of its head, slashes, and its last name. -/
theorem mem_splitPath {c : Char} (mem : c ∈ cs) :
    c ∈ (splitPath cs).1 ∨ c = '/' ∨ c ∈ (splitPath cs).2 := by
  unfold splitPath
  dsimp only
  split
  · rename_i slash
    rcases Path.mem_directory mem with part | isSlash | last
    · exact Path.mem_directory part
    · exact Or.inr (Or.inl isSlash)
    · rw [List.isEmpty_iff.mp slash] at last
      cases last
  · exact Path.mem_directory mem

/-! ### One level -/

/-- Makes the directory at a path unless it is there. -/
def ensureDirectory (fs : FileSystem) (text : String) : Except PathError Unit × FileSystem :=
  match fs.makeDirectory text with
  | (.error error, fs) => (if fs.isDirectory text then .ok () else .error error, fs)
  | done => done

theorem ensureDirectory_eq (fs : FileSystem) (text : String) :
    fs.ensureDirectory text =
      match fs.newDirectory text with
      | .ok location => (.ok (), { fs with tree := fs.tree.put location .directory })
      | .error fault => (if fs.isDirectory text then .ok () else .error ⟨fault, text⟩, fs) := by
  unfold ensureDirectory makeDirectory
  cases fs.newDirectory text <;> rfl

/-- A path that leads somewhere has a parent. -/
theorem exists_parent_of_stat {found : Location × Entry} (stat : fs.stat text = .ok found) :
    ∃ parent, fs.parent text = .ok parent := by
  obtain ⟨fault, walked, -⟩ := stat_eq_ok_iff.mp stat
  rw [parent_eq, fault]
  cases last : (Path.ofString text).steps.getLast? with
  | none => exact ⟨_, rfl⟩
  | some step =>
    obtain ⟨steps, split⟩ := List.getLast?_eq_some_iff.mp last
    rw [split] at walked
    obtain ⟨middle, begins, -⟩ := FileTree.exists_walk_of_append walked
    rw [split, List.dropLast_concat, begins]
    exact ⟨_, rfl⟩

/-- What has no parent cannot be made and is not there. -/
theorem ensureDirectory_of_parent_error {fault : PathFault}
    (failed : fs.parent text = .error fault) :
    fs.ensureDirectory text = (.error ⟨fault, text⟩, fs) := by
  have absent : fs.isDirectory text = false := by
    cases found : fs.isDirectory text with
    | false => rfl
    | true =>
      obtain ⟨parent, isParent⟩ := exists_parent_of_stat (isDirectory_iff.mp found)
      rw [failed] at isParent
      cases isParent
  rw [ensureDirectory_eq, newDirectory_eq, failed]
  simp [absent]

/-- The root and the place of a last dot are there already. -/
theorem ensureDirectory_of_here {last : Option String} (sound : fs.IsSound)
    (isParent : fs.parent text = .ok (location, last)) (here : last = none ∨ last = some ".") :
    fs.ensureDirectory text = (.ok (), fs) ∧
      fs.tree.get? (fs.target text) = some .directory := by
  have walks : ∃ target, textFault? text = none ∧
      fs.tree.walk (fs.start (Path.ofString text)) (Path.ofString text).steps =
        .ok (target, .directory) := by
    rcases here with rfl | rfl
    · rw [parent_eq] at isParent
      cases fault : textFault? text with
      | some fault' =>
        rw [fault] at isParent
        cases isParent
      | none =>
        rw [fault] at isParent
        cases lastStep : (Path.ofString text).steps.getLast? with
        | none =>
          refine ⟨fs.start (Path.ofString text), rfl, ?_⟩
          rw [List.getLast?_eq_none_iff.mp lastStep, FileTree.walk_nil, sound.start]
        | some step =>
          rw [lastStep] at isParent
          dsimp only at isParent
          split at isParent <;> cases isParent
    · obtain ⟨fault, steps, split, walked⟩ := parent_eq_ok isParent
      have directory := (FileTree.walk_eq_ok walked).2
      refine ⟨location, fault, ?_⟩
      rw [split, FileTree.walk_append walked,
        FileTree.walk_cons_of_passable directory (Or.inl rfl), followStep, if_pos rfl,
        FileTree.walk_nil, directory]
  obtain ⟨target, fault, walked⟩ := walks
  obtain ⟨rfl, there⟩ := FileTree.walk_eq_ok walked
  have found : fs.isDirectory text = true :=
    isDirectory_iff.mpr (stat_eq_ok_iff.mpr ⟨fault, walked, fun isFile => absurd rfl isFile⟩)
  refine ⟨?_, there⟩
  rw [ensureDirectory_eq, newDirectory_eq, isParent]
  rcases here with rfl | rfl <;> simp [found, isDots]

/-- **A directory below its parent** is made where nothing is, if its name can be. -/
theorem ensureDirectory_of_parent {last : String}
    (isParent : fs.parent text = .ok (location, some last)) (plain : isDots last = false) :
    fs.ensureDirectory text =
      if isUnlinked location then (.error ⟨.notFound, text⟩, fs)
      else if isLongName last then (.error ⟨.nameTooLong, text⟩, fs)
      else
        match fs.tree.get? (location ++ [last]) with
        | none => (.ok (), { fs with tree := fs.tree.put (location ++ [last]) .directory })
        | some .directory => (.ok (), fs)
        | some (.file _) => (.error ⟨.fileExists, text⟩, fs) := by
  obtain ⟨fault, steps, split, walked⟩ := parent_eq_ok isParent
  have directory := (FileTree.walk_eq_ok walked).2
  have isDirectory : fs.isDirectory text = true ↔ isUnlinked location = false ∧
      isLongName last = false ∧ fs.tree.get? (location ++ [last]) = some .directory := by
    rw [isDirectory_iff, stat_eq_ok_iff, split, FileTree.walk_append walked,
      FileTree.walk_cons_eq_ok_iff, target_of_parent isParent plain,
      followStep_of_plain location plain, FileTree.walk_nil]
    simp only [fault, directory, plain, true_and, Bool.false_eq_true, false_or]
    cases fs.tree.get? (location ++ [last]) <;> simp [and_assoc]
  rw [ensureDirectory_eq, newDirectory_eq, isParent]
  dsimp only
  rw [plain, if_neg Bool.false_ne_true]
  cases linked : isUnlinked location with
  | true => simp [isDirectory, linked]
  | false =>
    cases short : isLongName last with
    | true => simp [isDirectory, short]
    | false =>
      rcases there : fs.tree.get? (location ++ [last]) with _ | _ | contents
      · simp
      · simp [isDirectory, linked, short, there]
      · simp [isDirectory, there]

/-- A path has a head, and nothing is there. -/
def headIsMissing (fs : FileSystem) (cs : List Char) : Bool :=
  !(splitPath cs).1.isEmpty && !(splitPath cs).2.isEmpty &&
    !fs.isThere (String.ofList (splitPath cs).1)

theorem headIsMissing_iff :
    fs.headIsMissing cs = true ↔
      (splitPath cs).1 ≠ [] ∧ (splitPath cs).2 ≠ [] ∧
        fs.isThere (String.ofList (splitPath cs).1) = false := by
  simp [headIsMissing, and_assoc]

/-- Whether making a directory goes on after its head was made. -/
def goesOn : Except PathError Unit → Bool
  | .ok () => true
  | .error error => error.fault = .fileExists

/-- **One level of making directories**: first the head of the path if it is missing, and then the
directory itself, save that nothing is left to make below the head by a last dot. -/
theorem makeDirectoriesWithin_succ (levels : Nat) (fs : FileSystem) (cs : List Char) :
    makeDirectoriesWithin (levels + 1) fs cs =
      if fs.headIsMissing cs then
        if goesOn (makeDirectoriesWithin levels fs (splitPath cs).1).1 then
          if (splitPath cs).2 = ['.'] then
            (.ok (), (makeDirectoriesWithin levels fs (splitPath cs).1).2)
          else
            (makeDirectoriesWithin levels fs (splitPath cs).1).2.ensureDirectory (String.ofList cs)
        else makeDirectoriesWithin levels fs (splitPath cs).1
      else fs.ensureDirectory (String.ofList cs) := by
  rw [makeDirectoriesWithin]
  dsimp only
  by_cases missing : fs.headIsMissing cs = true
  · rw [if_pos missing]
    unfold headIsMissing at missing
    rw [if_pos missing]
    cases makeDirectoriesWithin levels fs (splitPath cs).1 with
    | mk result after =>
      cases result with
      | ok done => rfl
      | error error =>
        simp only [goesOn, decide_eq_true_eq]
        rfl
  · rw [if_neg missing]
    unfold headIsMissing at missing
    rw [if_neg missing]
    rfl

/-! ### What is left -/

/-- The last step of a path that never leads up is no dots, or a single dot. -/
theorem plain_or_dot_of_parent {last : String} (descends : Descends (Path.ofString text).steps)
    (isParent : fs.parent text = .ok (location, some last)) : isDots last = false ∨ last = "." := by
  obtain ⟨-, steps, split, -⟩ := parent_eq_ok isParent
  have down : last ≠ ".." := descends last (by rw [split]; simp)
  by_cases stays : last = "."
  · exact Or.inr stays
  · exact Or.inl (by simp [isDots, stays, down])

/-- A new directory leaves the tree sound. -/
theorem IsSound.newDirectory (sound : fs.IsSound) (made : fs.newDirectory text = .ok location) :
    IsSound { fs with tree := fs.tree.put location .directory } := by
  obtain ⟨directory, last, rfl, isParent, -⟩ := newDirectory_eq_ok made
  obtain ⟨-, steps, -, walked⟩ := parent_eq_ok isParent
  refine ⟨sound.tree.put (FileTree.walk_eq_ok walked).2 (by simp), ?_⟩
  dsimp only
  rw [FileTree.get?_put (by simp)]
  split
  · rfl
  · exact sound.cwd

theorem IsSound.ensureDirectory (sound : fs.IsSound) (text : String) :
    (fs.ensureDirectory text).2.IsSound := by
  rw [ensureDirectory_eq]
  cases made : fs.newDirectory text with
  | error fault => exact sound
  | ok location => exact sound.newDirectory made

/-- Making directories leaves the tree sound. -/
theorem IsSound.makeDirectoriesWithin (sound : fs.IsSound) (levels : Nat) (cs : List Char) :
    (fs.makeDirectoriesWithin levels cs).2.IsSound := by
  induction levels generalizing cs with
  | zero => exact sound
  | succ levels ih =>
    have outer := ih (splitPath cs).1
    rw [makeDirectoriesWithin_succ]
    split
    · split
      · split
        · exact outer
        · exact outer.ensureDirectory _
      · exact outer
    · exact sound.ensureDirectory _

/-- A written file leaves the tree sound. -/
theorem IsSound.write (sound : fs.IsSound) (text : String) (contents : Bytes) :
    (fs.write text contents).2.IsSound := by
  unfold FileSystem.write
  cases made : fs.newFile text with
  | error fault => exact sound
  | ok location =>
    obtain ⟨directory, last, rfl, isParent, -, -, -, -, free⟩ := newFile_eq_ok made
    obtain ⟨-, steps, -, walked⟩ := parent_eq_ok isParent
    refine ⟨sound.tree.put (FileTree.walk_eq_ok walked).2 fun _ => free, ?_⟩
    dsimp only
    rw [FileTree.get?_put (by simp), if_neg, sound.cwd]
    rintro same
    exact free (same ▸ sound.cwd)

theorem IsSound.writeBelow (sound : fs.IsSound) (text : String) (contents : Bytes) :
    (fs.writeBelow text contents).2.IsSound := by
  have made := sound.makeDirectoriesWithin Bounds.madeLevels (Path.directoryOf text).toList
  unfold FileSystem.writeBelow makeDirectories
  dsimp only
  split
  · exact sound.write _ _
  · split
    · rename_i failed
      rwa [failed] at made
    · rename_i succeeded
      rw [succeeded] at made
      exact made.write _ _

theorem IsSound.writeText (sound : fs.IsSound) (path text : String) :
    (fs.writeText path text).2.IsSound :=
  sound.writeBelow path (Utf8.encode text.toList)

/-- That something is there keeps no path from having a parent. -/
theorem parent_ne_fileExists : fs.parent text ≠ .error .fileExists := by
  have faults : textFault? text ≠ some .fileExists := by
    unfold textFault?
    split
    · simp
    · split
      · simp
      · split <;> simp
  rw [parent_eq]
  split
  · rename_i fault _ same
    intro isParent
    exact faults (same ▸ congrArg some (Except.error.inj isParent))
  · simp
  · split
    · rename_i fault walked
      intro isParent
      exact FileTree.walk_ne_fileExists (Except.error.inj isParent ▸ walked)
    · simp
    · simp

/-- **What goes on is there**: after a directory was made, and where something else is instead,
walks to its place do not end for want of an entry. -/
theorem ensureDirectory_settles (sound : fs.IsSound)
    (descends : Descends (Path.ofString text).steps)
    (passes : goesOn (fs.ensureDirectory text).1 = true) :
    (fs.ensureDirectory text).2.tree.Settled (fs.target text) := by
  cases isParent : fs.parent text with
  | error fault =>
    rw [ensureDirectory_of_parent_error isParent] at passes
    obtain rfl : fault = .fileExists := of_decide_eq_true passes
    exact absurd isParent parent_ne_fileExists
  | ok found =>
    obtain ⟨location, last⟩ := found
    have here (stays : last = none ∨ last = some ".") :
        (fs.ensureDirectory text).2.tree.Settled (fs.target text) := by
      obtain ⟨same, there⟩ := ensureDirectory_of_here sound isParent stays
      rw [same]
      exact FileTree.settled_of_there there
    cases last with
    | none => exact here (Or.inl rfl)
    | some last =>
      rcases plain_or_dot_of_parent descends isParent with plain | rfl
      · rw [target_of_parent isParent plain]
        rw [ensureDirectory_of_parent isParent plain] at passes ⊢
        split at passes
        · cases passes
        · split at passes
          · cases passes
          · rename_i linked short
            rw [if_neg linked, if_neg short]
            rcases there : fs.tree.get? (location ++ [last]) with _ | entry
            · have made : (fs.tree.put (location ++ [last]) .directory).get?
                  (location ++ [last]) = some .directory := by
                rw [FileTree.get?_put (by simp), if_pos rfl]
              exact FileTree.settled_of_there made
            · cases entry <;> exact FileTree.settled_of_there there
      · exact here (Or.inr rfl)

/-- The names of a path are those of its head, and its last name. -/
theorem names_splitPath (cs : List Char) :
    Path.names (splitPath cs).1 ++ Path.names (splitPath cs).2 = Path.names cs := by
  simpa [Path.ofString] using (head_splitPath cs).2

/-- A path leads one step further than its head. -/
theorem target_splitPath (fs : FileSystem) (last : (splitPath cs).2 ≠ []) :
    fs.target (String.ofList cs) =
      followStep (fs.target (String.ofList (splitPath cs).1)) (String.ofList (splitPath cs).2) := by
  obtain ⟨absolute, steps⟩ := head_splitPath cs
  rw [target, target, ← steps, names_tail_splitPath last, followAll_append, FileSystem.start,
    FileSystem.start, absolute]
  rfl

/-- A path with a dot for its last name leads where its head does. -/
theorem target_of_dot (fs : FileSystem) (dot : (splitPath cs).2 = ['.']) :
    fs.target (String.ofList cs) = fs.target (String.ofList (splitPath cs).1) := by
  rw [target_splitPath fs (by simp [dot]), dot]
  rfl

/-- What is before the last name of a path leads to where its head does. -/
theorem parentTarget_eq (fs : FileSystem) (last : (splitPath cs).2 ≠ []) :
    fs.parentTarget (String.ofList cs) = fs.target (String.ofList (splitPath cs).1) := by
  obtain ⟨absolute, steps⟩ := head_splitPath cs
  rw [parentTarget, target, ← steps, names_tail_splitPath last, List.dropLast_concat,
    FileSystem.start, FileSystem.start, absolute]

/-- What is before the last name leads to somewhere if the head of the path is not missing. -/
theorem settled_parentTarget (sound : fs.IsSound) (there : fs.headIsMissing cs = false) :
    fs.tree.Settled (fs.parentTarget (String.ofList cs)) := by
  by_cases last : (splitPath cs).2 = []
  · have none : (Path.ofString (String.ofList cs)).steps = [] := by
      simpa [Path.ofString] using names_of_tail_eq_nil last
    rw [parentTarget, none]
    exact FileTree.settled_of_there (sound.start _)
  · rw [parentTarget_eq fs last]
    by_cases head : (splitPath cs).1 = []
    · rw [head]
      exact FileTree.settled_of_there sound.cwd
    · simp only [headIsMissing, Bool.and_eq_false_iff, Bool.not_eq_false'] at there
      have found : fs.isThere (String.ofList (splitPath cs).1) = true := by
        rcases there with (first | second) | found
        · exact absurd (List.isEmpty_iff.mp first) head
        · exact absurd (List.isEmpty_iff.mp second) last
        · exact found
      obtain ⟨⟨place, entry⟩, found⟩ := isThere_iff.mp found
      exact FileTree.settled_of_there (get?_of_stat found).2

theorem makeDirectoriesWithin_settles (sound : fs.IsSound) (levels : Nat)
    (descends : Descends (Path.names cs))
    (passes : goesOn (fs.makeDirectoriesWithin levels cs).1 = true) :
    (fs.makeDirectoriesWithin levels cs).2.tree.Settled (fs.target (String.ofList cs)) := by
  induction levels generalizing cs with
  | zero => cases passes
  | succ levels ih =>
    have steps : Descends (Path.ofString (String.ofList cs)).steps := by
      simpa [Path.ofString] using descends
    rw [makeDirectoriesWithin_succ] at passes ⊢
    split at passes
    · rename_i missing
      rw [if_pos missing]
      split at passes
      · rename_i outerPasses
        rw [if_pos outerPasses]
        split at passes
        · rename_i dot
          rw [if_pos dot, target_of_dot fs dot]
          exact ih (names_splitPath cs ▸ descends).left outerPasses
        · rename_i name
          have outer := makeDirectoriesWithin_spec levels fs (splitPath cs).1
          rw [if_neg name, ← outer.toGrows.target_eq]
          exact ensureDirectory_settles (sound.makeDirectoriesWithin levels _) steps passes
      · rename_i outerFails
        exact absurd passes outerFails
    · rename_i there
      rw [if_neg there]
      exact ensureDirectory_settles sound steps passes

/-! ### Where a directory is already -/

/-- A path that is too long as it begins is too long. -/
theorem isLongPath_of_begins {head : List Char} (begins : head <+: cs)
    (long : isLongPath (String.ofList head) = true) : isLongPath (String.ofList cs) = true := by
  obtain ⟨rest, rfl⟩ := begins
  unfold isLongPath at *
  rw [decide_eq_true_eq] at *
  rw [String.ofList_append, String.utf8ByteSize_append]
  exact Nat.lt_of_lt_of_le long (Nat.le_add_right _ _)

/-- What begins a path that is not too long is not too long. -/
theorem isLongPath_eq_false_of_begins {head : List Char} (begins : head <+: cs)
    (short : isLongPath (String.ofList cs) = false) : isLongPath (String.ofList head) = false :=
  Bool.eq_false_iff.mpr fun long => by
    rw [isLongPath_of_begins begins long] at short
    cases short

/-- A well written path has a well written beginning, unless that is empty. -/
theorem textFault?_of_begins {head : List Char} (fault : textFault? (String.ofList cs) = none)
    (begins : head <+: cs) (nonempty : head ≠ []) : textFault? (String.ofList head) = none := by
  rw [textFault?_eq_none_iff, String.toList_ofList] at *
  obtain ⟨clean, -, short⟩ := fault
  exact ⟨fun nul => clean (begins.subset nul), by simpa using nonempty,
    isLongPath_eq_false_of_begins begins short⟩

/-- A directory that is there is not made. -/
theorem ensureDirectory_of_isDirectory (found : fs.isDirectory text = true) :
    fs.ensureDirectory text = (.ok (), fs) := by
  rw [ensureDirectory_eq]
  cases made : fs.newDirectory text with
  | error error =>
    dsimp only
    rw [if_pos found]
  | ok location =>
    obtain ⟨directory, last, rfl, isParent, plain, -, -, vacant⟩ := newDirectory_eq_ok made
    rw [← target_of_parent isParent plain, (get?_of_stat (isDirectory_iff.mp found)).2] at vacant
    cases vacant

/-- **Nothing is made where a directory is.** -/
theorem makeDirectoriesWithin_of_isDirectory (levels : Nat)
    (found : fs.isDirectory (String.ofList cs) = true) :
    fs.makeDirectoriesWithin (levels + 1) cs = (.ok (), fs) := by
  obtain ⟨fault, walked, -⟩ := stat_eq_ok_iff.mp (isDirectory_iff.mp found)
  have there : fs.headIsMissing cs = false := by
    by_cases head : (splitPath cs).1 = []
    · simp [headIsMissing, head]
    · by_cases last : (splitPath cs).2 = []
      · simp [headIsMissing, last]
      · obtain ⟨absolute, steps⟩ := head_splitPath cs
        rw [← steps, names_tail_splitPath last] at walked
        obtain ⟨middle, begins, -⟩ := FileTree.exists_walk_of_append walked
        have start : fs.start (Path.ofString (String.ofList (splitPath cs).1)) =
            fs.start (Path.ofString (String.ofList cs)) := by
          rw [FileSystem.start, FileSystem.start, absolute]
        rw [← start] at begins
        have headFault := textFault?_of_begins fault (splitPath_begins cs) head
        have isThere : fs.isThere (String.ofList (splitPath cs).1) = true :=
          isThere_iff.mpr ⟨_, stat_eq_ok_iff.mpr
            ⟨headFault, begins, fun isFile => absurd rfl isFile⟩⟩
        simp [headIsMissing, isThere]
  rw [makeDirectoriesWithin_succ, there, if_neg Bool.false_ne_true,
    ensureDirectory_of_isDirectory found]

/-- A path whose head leads to a directory has that for its parent, unless it gets too long. -/
theorem parent_of_head (head : (splitPath cs).1 ≠ []) (last : (splitPath cs).2 ≠ [])
    (clean : '\x00' ∉ (splitPath cs).2) (short : isLongPath (String.ofList cs) = false)
    (found : fs.isDirectory (String.ofList (splitPath cs).1) = true) :
    fs.parent (String.ofList cs) =
      .ok (fs.target (String.ofList (splitPath cs).1),
        some (String.ofList (splitPath cs).2)) := by
  obtain ⟨headFault, walked, -⟩ := stat_eq_ok_iff.mp (isDirectory_iff.mp found)
  have fault : textFault? (String.ofList cs) = none := by
    obtain ⟨headClean, -, -⟩ := textFault?_eq_none_iff.mp headFault
    rw [String.toList_ofList] at headClean
    have nonempty : cs ≠ [] := by
      rintro rfl
      exact head (List.prefix_nil.mp (splitPath_begins []))
    refine textFault?_eq_none_iff.mpr ⟨?_, by simpa using nonempty, short⟩
    rw [String.toList_ofList]
    intro nul
    rcases mem_splitPath nul with inHead | isSlash | inTail
    · exact headClean inHead
    · cases isSlash
    · exact clean inTail
  obtain ⟨absolute, steps⟩ := head_splitPath cs
  have start : fs.start (Path.ofString (String.ofList (splitPath cs).1)) =
      fs.start (Path.ofString (String.ofList cs)) := by
    rw [FileSystem.start, FileSystem.start, absolute]
  rw [parent_eq, fault, ← steps, names_tail_splitPath last, List.getLast?_concat,
    List.dropLast_concat, ← start, walked]

/-- A dot behind a directory is that directory, unless the path gets too long. -/
theorem isDirectory_of_dot (dot : (splitPath cs).2 = ['.']) (head : (splitPath cs).1 ≠ [])
    (short : isLongPath (String.ofList cs) = false)
    (found : fs.isDirectory (String.ofList (splitPath cs).1) = true) :
    fs.isDirectory (String.ofList cs) = true := by
  have isParent := parent_of_head head (by simp [dot]) (by simp [dot]) short found
  rw [dot] at isParent
  obtain ⟨fault, steps, split, walked⟩ := parent_eq_ok isParent
  have directory := (FileTree.walk_eq_ok walked).2
  refine isDirectory_iff.mpr (stat_eq_ok_iff.mpr ⟨fault, ?_, fun isFile => absurd rfl isFile⟩)
  rw [split, FileTree.walk_append walked,
    FileTree.walk_cons_of_passable directory (Or.inl rfl), followStep, if_pos rfl,
    FileTree.walk_nil, directory, target_of_dot fs dot]

/-! ### Files below directories -/

/-- A file that is put into a directory is written after that was made. -/
theorem writeBelow_of_directory (directory : Path.directoryOf text = String.ofList cs)
    (nonempty : cs ≠ []) (contents : Bytes) :
    fs.writeBelow text contents =
      match fs.makeDirectoriesWithin Bounds.madeLevels cs with
      | (.error error, after) => (.error error, after)
      | (.ok (), after) => after.write text contents := by
  have visible : (String.ofList cs).isEmpty = false := by simpa using nonempty
  cases made : fs.makeDirectoriesWithin Bounds.madeLevels cs with
  | mk result after =>
    cases result <;>
      simp only [writeBelow, makeDirectories, directory, visible, String.toList_ofList, made,
        Bool.false_eq_true, if_false]

end FileSystem

end EsmBundle
