import EsmBundle.Proofs.FileTree.PathText
import EsmBundle.Proofs.FileTree.Walk
import EsmBundle.Proofs.Success

/-!
What making directories and writing files does to the files of a tree.

* `FileSystem.Grows` — the relation that all of it keeps: directories stay directories, and
  paths start where they did.
* `FileSystem.makeDirectories_spec` — making directories changes no file, and makes nothing
  that is not on the way, even where it fails.
* `FileSystem.writeBelow_spec` — writing puts the contents where the path leads, and
  changes no other file.
-/

namespace EsmBundle

namespace FileSystem

variable {fs after : FileSystem} {text : String} {location : Location}

/-! ### Growing -/

/-- All directories are still there, and paths start where they did. -/
structure Grows (fs after : FileSystem) : Prop where
  cwd : after.cwd = fs.cwd
  temporary : after.temporary = fs.temporary
  directories : ∀ location, fs.tree.get? location = some .directory →
    after.tree.get? location = some .directory

theorem Grows.refl (fs : FileSystem) : Grows fs fs :=
  ⟨rfl, rfl, fun _ found => found⟩

theorem Grows.trans {last : FileSystem} (first : Grows fs after) (second : Grows after last) :
    Grows fs last :=
  ⟨second.cwd.trans first.cwd, second.temporary.trans first.temporary,
    fun location found => second.directories location (first.directories location found)⟩

/-- A path leads to where it did. -/
theorem Grows.target_eq (grows : Grows fs after) (text : String) :
    after.target text = fs.target text := by
  simp only [target, start, grows.cwd]

/-- A path passes what it did. -/
theorem Grows.onWay_iff (grows : Grows fs after) (text : String) (location : Location) :
    after.OnWay text location ↔ fs.OnWay text location := by
  simp only [OnWay, start, grows.cwd]

/-! ### Places for new entries -/

/-- Where a new entry goes: below what a walk along all steps but the last leads to, if that is a
directory. -/
theorem parent_eq (fs : FileSystem) (text : String) :
    fs.parent text =
      match textFault? text, (Path.ofString text).steps.getLast? with
      | some fault, _ => .error fault
      | none, none => .ok ([], none)
      | none, some last =>
        match fs.tree.walk (fs.start (Path.ofString text)) (Path.ofString text).steps.dropLast with
        | .error fault => .error fault
        | .ok (_, .file _) => .error .notDirectory
        | .ok (location, .directory) => .ok (location, some last) := by
  unfold parent
  cases textFault? text with
  | some fault => rfl
  | none =>
    dsimp only
    cases (Path.ofString text).steps.getLast? with
    | none => rfl
    | some last =>
      dsimp only
      cases fs.tree.walk (fs.start (Path.ofString text)) (Path.ofString text).steps.dropLast with
      | error fault => rfl
      | ok found =>
        obtain ⟨location, entry⟩ := found
        cases entry <;> rfl

/-- Where a new directory goes, by its parent. -/
theorem newDirectory_eq (fs : FileSystem) (text : String) :
    fs.newDirectory text =
      match fs.parent text with
      | .error fault => .error fault
      | .ok (_, none) => .error .fileExists
      | .ok (location, some last) =>
        if isDots last then .error .fileExists
        else if isUnlinked location then .error .notFound
        else if isLongName last then .error .nameTooLong
        else if (fs.tree.get? (location ++ [last])).isSome then .error .fileExists
        else .ok (location ++ [last]) := by
  unfold newDirectory
  cases fs.parent text with
  | error fault => rfl
  | ok found =>
    obtain ⟨location, last⟩ := found
    cases last with
    | none => rfl
    | some last =>
      simp only [bind, Except.bind, throw, throwThe, MonadExceptOf.throw, pure, Except.pure]

/-- Where a file goes, by its parent. -/
theorem newFile_eq (fs : FileSystem) (text : String) :
    fs.newFile text =
      match fs.parent text with
      | .error fault => .error fault
      | .ok (_, none) => .error .isDirectory
      | .ok (location, some last) =>
        if isDots last || (Path.ofString text).slashAtEnd then .error .isDirectory
        else if isUnlinked location then .error .notFound
        else if isLongName last then .error .nameTooLong
        else if fs.tree.get? (location ++ [last]) = some .directory then .error .isDirectory
        else .ok (location ++ [last]) := by
  unfold newFile
  cases fs.parent text with
  | error fault => rfl
  | ok found =>
    obtain ⟨location, last⟩ := found
    cases last with
    | none => rfl
    | some last =>
      simp only [bind, Except.bind, throw, throwThe, MonadExceptOf.throw, pure, Except.pure]
      rcases fs.tree.get? (location ++ [last]) with _ | _ | _ <;> simp

/-- The parent of a path is a directory, at the end of all steps but the last. -/
theorem parent_eq_ok {last : String} (found : fs.parent text = .ok (location, some last)) :
    textFault? text = none ∧ ∃ steps, (Path.ofString text).steps = steps ++ [last] ∧
      fs.tree.walk (fs.start (Path.ofString text)) steps = .ok (location, .directory) := by
  unfold parent at found
  cases fault : textFault? text with
  | some fault' =>
    rw [fault] at found
    cases found
  | none =>
    rw [fault] at found
    dsimp only at found
    cases lastStep : (Path.ofString text).steps.getLast? with
    | none =>
      simp only [lastStep] at found
      cases found
    | some step =>
      simp only [lastStep] at found
      obtain ⟨⟨end', entry⟩, walked, found⟩ := exists_of_bind_eq_ok found
      cases entry with
      | file contents => cases found
      | directory =>
        obtain ⟨rfl, same⟩ := Prod.mk.inj (Except.ok.inj found)
        obtain rfl := Option.some.inj same
        obtain ⟨steps, split⟩ := List.getLast?_eq_some_iff.mp lastStep
        rw [split, List.dropLast_concat] at walked
        exact ⟨rfl, steps, split, walked⟩

/-- The last step of a path leads below its parent, unless it is dots. -/
theorem target_of_parent {last : String} (found : fs.parent text = .ok (location, some last))
    (plain : isDots last = false) : fs.target text = location ++ [last] := by
  obtain ⟨-, steps, split, walked⟩ := parent_eq_ok found
  rw [target, split, followAll_append, ← (FileTree.walk_eq_ok walked).1]
  exact followStep_of_plain location plain

/-- A new directory goes below a linked directory, where nothing is. -/
theorem newDirectory_eq_ok (found : fs.newDirectory text = .ok location) :
    ∃ directory last, location = directory ++ [last] ∧
      fs.parent text = .ok (directory, some last) ∧ isDots last = false ∧
      isUnlinked directory = false ∧ isLongName last = false ∧
      fs.tree.get? location = none := by
  unfold newDirectory at found
  obtain ⟨⟨directory, last⟩, isParent, found⟩ := exists_of_bind_eq_ok found
  cases last with
  | none => cases found
  | some last =>
    dsimp only at found
    split at found
    · cases found
    · rename_i plain
      split at found
      · cases found
      · rename_i linked
        split at found
        · cases found
        · rename_i short
          split at found
          · cases found
          · rename_i vacant
            obtain rfl := Except.ok.inj found
            exact ⟨directory, last, rfl, isParent, by simpa using plain, by simpa using linked,
              by simpa using short, by simpa using vacant⟩

/-- A new file goes below a linked directory, where no directory is. -/
theorem newFile_eq_ok (found : fs.newFile text = .ok location) :
    ∃ directory last, location = directory ++ [last] ∧
      fs.parent text = .ok (directory, some last) ∧
      isDots last = false ∧ (Path.ofString text).slashAtEnd = false ∧
      isUnlinked directory = false ∧ isLongName last = false ∧
      fs.tree.get? location ≠ some .directory := by
  unfold newFile at found
  obtain ⟨⟨directory, last⟩, isParent, found⟩ := exists_of_bind_eq_ok found
  cases last with
  | none => cases found
  | some last =>
    dsimp only at found
    split at found
    · cases found
    · rename_i isFile
      split at found
      · cases found
      · rename_i linked
        split at found
        · cases found
        · rename_i short
          split at found
          · cases found
          · rename_i free
            obtain rfl := Except.ok.inj found
            simp only [Bool.or_eq_true, not_or, Bool.not_eq_true] at isFile
            exact ⟨directory, last, rfl, isParent, isFile.1, isFile.2, by simpa using linked,
              by simpa using short, free⟩

/-! ### Directories -/

/-- What comes after grows out of what was before, with the same files. -/
structure AddsDirectories (fs after : FileSystem) : Prop extends Grows fs after where
  files : ∀ location, after.tree.fileAt location = fs.tree.fileAt location

theorem AddsDirectories.refl (fs : FileSystem) : AddsDirectories fs fs :=
  ⟨Grows.refl fs, fun _ => rfl⟩

theorem AddsDirectories.trans {last : FileSystem} (first : AddsDirectories fs after)
    (second : AddsDirectories after last) : AddsDirectories fs last :=
  ⟨first.toGrows.trans second.toGrows,
    fun location => (second.files location).trans (first.files location)⟩

/-- A directory put where nothing was adds to the directories. -/
theorem addsDirectories_put (notRoot : location ≠ []) (vacant : fs.tree.get? location = none) :
    AddsDirectories fs { fs with tree := fs.tree.put location .directory } where
  cwd := rfl
  temporary := rfl
  directories other found := by
    rw [FileTree.get?_put notRoot]
    split
    · rfl
    · exact found
  files other := by
    rw [FileTree.fileAt_put_directory notRoot]
    split
    · rename_i same
      rw [same, FileTree.fileAt, vacant]
    · rfl

/-- What comes after has the directories and files that were there, and new directories only where
nothing was on the way of a path. -/
structure MakesOnWay (fs : FileSystem) (text : String) (after : FileSystem) : Prop
    extends AddsDirectories fs after where
  made : ∀ location, after.tree.get? location = fs.tree.get? location ∨
    fs.tree.get? location = none ∧ after.tree.get? location = some .directory ∧
      fs.OnWay text location

theorem MakesOnWay.refl (fs : FileSystem) (text : String) : MakesOnWay fs text fs :=
  ⟨AddsDirectories.refl fs, fun _ => Or.inl rfl⟩

theorem MakesOnWay.trans {last : FileSystem} (first : MakesOnWay fs text after)
    (second : MakesOnWay after text last) : MakesOnWay fs text last := by
  refine ⟨first.toAddsDirectories.trans second.toAddsDirectories, ?_⟩
  intro location
  rcases second.made location with same | ⟨vacant, made, onWay⟩
  · rw [same]
    exact first.made location
  · rcases first.made location with same | ⟨-, already, -⟩
    · exact Or.inr ⟨same ▸ vacant, made, (first.toGrows.onWay_iff text location).mp onWay⟩
    · rw [already] at vacant
      cases vacant

/-- A path passes what its beginning passes. -/
theorem MakesOnWay.of_beginning {whole : String} (makes : MakesOnWay fs text after)
    (absolute : (Path.ofString text).absolute = (Path.ofString whole).absolute)
    (begins : (Path.ofString text).steps <+: (Path.ofString whole).steps) :
    MakesOnWay fs whole after :=
  ⟨makes.toAddsDirectories, fun location => (makes.made location).imp_right fun ⟨vacant, made,
    onWay⟩ => ⟨vacant, made, onWay.of_beginning absolute begins⟩⟩

theorem makeDirectory_spec (fs : FileSystem) (text : String) :
    MakesOnWay fs text (fs.makeDirectory text).2 := by
  unfold makeDirectory
  cases made : fs.newDirectory text with
  | error fault => exact MakesOnWay.refl fs text
  | ok location =>
    obtain ⟨directory, last, rfl, isParent, plain, -, -, vacant⟩ := newDirectory_eq_ok made
    have notRoot : directory ++ [last] ≠ [] := by simp
    refine ⟨addsDirectories_put notRoot vacant, ?_⟩
    intro other
    dsimp only
    rw [FileTree.get?_put notRoot]
    split
    · rename_i same
      rw [same, ← target_of_parent isParent plain]
      exact Or.inr ⟨target_of_parent isParent plain ▸ vacant, rfl, fs.onWay_target text⟩
    · exact Or.inl rfl

/-- A path and its head start at the same place, and the path begins with the steps of its head. -/
theorem head_splitPath (cs : List Char) :
    (Path.ofString (String.ofList (splitPath cs).1)).absolute =
        (Path.ofString (String.ofList cs)).absolute ∧
      (Path.ofString (String.ofList (splitPath cs).1)).steps ++ Path.names (splitPath cs).2 =
        (Path.ofString (String.ofList cs)).steps := by
  simp only [Path.ofString, String.toList_ofList, decide_eq_decide]
  unfold splitPath
  dsimp only
  split
  · rename_i slash
    have none : Path.names (Path.lastName cs) = [] := by
      rw [List.isEmpty_iff.mp slash, Path.names_nil]
    refine ⟨(Path.absolute_directory _).trans (Path.absolute_directory cs), ?_⟩
    rw [Path.names_directory_append, ← Path.names_directory_append cs, none, List.append_nil]
  · exact ⟨Path.absolute_directory cs, Path.names_directory_append cs⟩

/-- Making directories makes what is missing on the way, whether it fails or not. -/
theorem makeDirectoriesWithin_spec (levels : Nat) (fs : FileSystem) (cs : List Char) :
    MakesOnWay fs (String.ofList cs) (makeDirectoriesWithin levels fs cs).2 := by
  induction levels generalizing fs cs with
  | zero => exact MakesOnWay.refl fs _
  | succ levels ih =>
    -- The directory itself is made last, whatever becomes of the error about it.
    have last {fs : FileSystem} {made : Except PathError Unit × FileSystem}
        (same : made.2 = (fs.makeDirectory (String.ofList cs)).2) :
        MakesOnWay fs (String.ofList cs) made.2 := by
      rw [same]
      exact makeDirectory_spec fs (String.ofList cs)
    obtain ⟨absolute, steps⟩ := head_splitPath cs
    have outer := (ih fs (splitPath cs).1).of_beginning absolute ⟨_, steps⟩
    rw [makeDirectoriesWithin]
    dsimp only
    split
    · split
      · rename_i error after made
        rw [made] at outer
        split
        · split
          · exact outer
          · exact outer.trans (last (by split <;> simp [*]))
        · exact outer
      · rename_i after made
        rw [made] at outer
        split
        · exact outer
        · exact outer.trans (last (by split <;> simp [*]))
    · exact last (by split <;> simp [*])

theorem makeDirectories_spec (fs : FileSystem) (text : String) :
    MakesOnWay fs text (fs.makeDirectories text).2 := by
  have makes := makeDirectoriesWithin_spec Bounds.madeLevels fs text.toList
  rwa [String.ofList_toList] at makes

/-! ### Files -/

/-- What comes after a file was written: the contents are where the path leads, every other file is
as it was, and the path can be taken. -/
structure Writes (fs : FileSystem) (text : String) (contents : Bytes) (after : FileSystem) : Prop
    extends Grows fs after where
  files : ∀ location, after.tree.fileAt location =
    if location = fs.target text then some contents else fs.tree.fileAt location
  stat : after.stat text = .ok (fs.target text, .file contents)

/-- A file is at a path when the path is well written, leads to the file, and does not end in a
slash. -/
theorem stat_eq_ok_file_iff {contents : Bytes} :
    fs.stat text = .ok (location, .file contents) ↔
      textFault? text = none ∧
        fs.tree.walk (fs.start (Path.ofString text)) (Path.ofString text).steps =
          .ok (location, .file contents) ∧
        (Path.ofString text).slashAtEnd = false := by
  rw [stat_eq_ok_iff]
  simp

theorem write_spec {contents : Bytes} (written : fs.write text contents = (.ok (), after)) :
    Writes fs text contents after := by
  unfold write at written
  cases made : fs.newFile text with
  | error fault =>
    rw [made] at written
    cases written
  | ok location =>
    rw [made] at written
    obtain rfl := (Prod.mk.inj written).2
    obtain ⟨directory, last, rfl, isParent, plain, noSlash, linked, short, free⟩ :=
      newFile_eq_ok made
    obtain ⟨fault, steps, split, walked⟩ := parent_eq_ok isParent
    have notRoot : directory ++ [last] ≠ [] := by simp
    have leads : fs.target text = directory ++ [last] := target_of_parent isParent plain
    have directories : ∀ location, fs.tree.get? location = some .directory →
        (fs.tree.put (directory ++ [last]) (.file contents)).get? location = some .directory := by
      intro location found
      rw [FileTree.get?_put notRoot, if_neg, found]
      rintro rfl
      exact free found
    refine ⟨⟨rfl, rfl, directories⟩, ?_, ?_⟩
    · intro location
      rw [leads]
      exact FileTree.fileAt_put_file notRoot location
    · have below := FileTree.walk_of_directories walked directories
        (directories directory (FileTree.walk_eq_ok walked).2)
      have there : (fs.tree.put (directory ++ [last]) (.file contents)).get? (directory ++ [last]) =
          some (.file contents) := by
        rw [FileTree.get?_put notRoot, if_pos rfl]
      have path := FileTree.walk_append_name below plain linked short there
      rw [← split] at path
      rw [leads]
      exact stat_eq_ok_file_iff.mpr ⟨fault, path, noSlash⟩

/-- **A file that is written below new directories** is where its path leads. -/
theorem writeBelow_spec {contents : Bytes}
    (written : fs.writeBelow text contents = (.ok (), after)) : Writes fs text contents after := by
  unfold writeBelow at written
  dsimp only at written
  split at written
  · exact write_spec written
  · have spec := makeDirectories_spec fs (Path.directoryOf text)
    split at written
    · cases written
    · rename_i made
      rw [made] at spec
      obtain ⟨grows, files, stat⟩ := write_spec written
      refine ⟨spec.toGrows.trans grows, ?_, ?_⟩
      · intro location
        rw [files, spec.toGrows.target_eq, spec.files]
      · rw [stat, spec.toGrows.target_eq]

/-- A path that leads to a file goes on leading there, to whatever file is there by now. -/
theorem Grows.stat_eq_ok {contents contents' : Bytes} (grows : Grows fs after)
    (stat : fs.stat text = .ok (location, .file contents))
    (there : after.tree.fileAt location = some contents') :
    after.stat text = .ok (location, .file contents') := by
  obtain ⟨fault, walked, noSlash⟩ := stat_eq_ok_file_iff.mp stat
  have again := FileTree.walk_of_directories walked grows.directories
    (FileTree.fileAt_eq_some_iff.mp there)
  have start : after.start (Path.ofString text) = fs.start (Path.ofString text) := by
    rw [FileSystem.start, FileSystem.start, grows.cwd]
  refine stat_eq_ok_file_iff.mpr ⟨fault, ?_, noSlash⟩
  rw [start]
  exact again

theorem read_eq_ok_of_stat {contents : Bytes}
    (stat : fs.stat text = .ok (location, .file contents)) : fs.read text = .ok contents := by
  rw [read, stat]

end FileSystem

end EsmBundle
