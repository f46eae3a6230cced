import EsmBundle.Proofs.FileTree.Dots
import EsmBundle.Proofs.FileTree.Footprint

/-!
Directories in directories.

As many directories can be made at once as there are levels, and from there on as many again. So
a tree can get deeper than what is made at once.

* `Path.nested` — a path with a name behind it, again and again.
* `FileSystem.makeDirectoriesWithin_nested` — directories below one that is there.
* `FileSystem.HasNested.createIn` — a file below more of them, and then there are more.
-/

namespace EsmBundle

namespace Path

/-- A path with a name behind it, again and again. -/
def nested (cs name : List Char) : Nat → List Char
  | 0 => cs
  | count + 1 => nested cs name count ++ (List.replicate 1 '/' ++ name)

variable {cs name : List Char}

/-- What stands before a path stands before it with names behind it. -/
theorem append_nested (before cs name : List Char) (count : Nat) :
    before ++ nested cs name count = nested (before ++ cs) name count := by
  induction count with
  | zero => rfl
  | succ count ih => rw [nested, nested, ← ih, List.append_assoc]

theorem nested_succ (cs name : List Char) (count : Nat) :
    nested cs name (count + 1) = nested (cs ++ (List.replicate 1 '/' ++ name)) name count := by
  induction count with
  | zero => rfl
  | succ count ih => rw [nested, ih, nested]

theorem EndsInName.nested (ends : EndsInName cs) (named : EndsInName name) (count : Nat) :
    EndsInName (nested cs name count) := by
  cases count with
  | zero => exact ends
  | succ count =>
    obtain ⟨before, c, rfl, other⟩ := named
    exact ⟨Path.nested cs (before ++ [c]) count ++ (List.replicate 1 '/' ++ before), c,
      by simp [Path.nested], other⟩

theorem nested_begins (cs name : List Char) (count more : Nat) :
    nested cs name count <+: nested cs name (count + more) := by
  induction more with
  | zero => exact List.prefix_rfl
  | succ more ih => exact ih.trans (List.prefix_append _ _)

/-- The size of a path with names behind it. -/
theorem size_nested (cs name : List Char) (count : Nat) :
    (String.ofList (nested cs name count)).utf8ByteSize =
      (String.ofList cs).utf8ByteSize +
        (1 + (String.ofList name).utf8ByteSize) * count := by
  have one : (String.ofList ['/']).utf8ByteSize = 1 := rfl
  induction count with
  | zero => rfl
  | succ count ih =>
    rw [nested, String.ofList_append, String.utf8ByteSize_append, ih, String.ofList_append,
      String.utf8ByteSize_append, List.replicate_one, one, Nat.mul_succ, Nat.add_assoc]

/-- Names below a path are a name, and the others behind it. -/
theorem nested_eq_append (cs name : List Char) (count : Nat) :
    nested cs name (count + 1) = cs ++ (List.replicate 1 '/' ++ nested name name count) := by
  rw [nested_succ, ← append_nested, ← append_nested]

end Path

namespace FileSystem

variable {fs after : FileSystem} {text : String} {location : Location} {cs name : List Char}

/-- A directory below the parent of a path is at that path. -/
theorem isDirectory_of_parent {last : String}
    (isParent : fs.parent text = .ok (location, some last)) (plain : isDots last = false)
    (linked : isUnlinked location = false) (short : isLongName last = false)
    (grows : Grows fs after) (there : after.tree.get? (location ++ [last]) = some .directory) :
    after.isDirectory text = true := by
  obtain ⟨fault, steps, split, walked⟩ := parent_eq_ok isParent
  have again := FileTree.walk_of_directories walked grows.directories
    (grows.directories location (FileTree.walk_eq_ok walked).2)
  have start : after.start (Path.ofString text) = fs.start (Path.ofString text) := by
    rw [FileSystem.start, FileSystem.start, grows.cwd]
  have path := FileTree.walk_append_name again plain linked short there
  rw [← split, ← start] at path
  have found := stat_eq_ok_iff.mpr ⟨fault, path, fun isFile => absurd rfl isFile⟩
  rw [isDirectory_iff, ← (get?_of_stat found).1]
  exact found

/-- A name that a directory can be made under. -/
structure IsPlainName (name : List Char) : Prop where
  named : Path.EndsInName name
  noSlash : '/' ∉ name
  clean : '\x00' ∉ name
  plain : isDots (String.ofList name) = false
  short : isLongName (String.ofList name) = false

/-- A name with others behind it does not begin with a slash. -/
theorem IsPlainName.head?_nested (plainName : IsPlainName name) (count : Nat) (rest : List Char) :
    (Path.nested name name count ++ rest).head? ≠ some '/' := by
  obtain ⟨others, whole⟩ := Path.nested_begins name name 0 count
  rw [Nat.zero_add] at whole
  rw [← whole, Path.nested]
  cases chars : name with
  | nil => exact absurd chars plainName.named.ne_nil
  | cons c cs =>
    intro first
    obtain rfl : c = '/' := by simpa using first
    exact plainName.noSlash (chars ▸ List.mem_cons_self)

/-- Where no file is, there is a directory after one was made. -/
theorem ensureDirectory_append_slash (ends : Path.EndsInName cs) (plainName : IsPlainName name)
    (found : fs.isDirectory (String.ofList cs) = true)
    (linked : isUnlinked (fs.target (String.ofList cs)) = false)
    (short : isLongPath (String.ofList (cs ++ (List.replicate 1 '/' ++ name))) = false)
    (free : fs.tree.fileAt (fs.target (String.ofList cs) ++ [String.ofList name]) = none) :
    ∃ after, fs.ensureDirectory (String.ofList (cs ++ (List.replicate 1 '/' ++ name))) =
        (.ok (), after) ∧
      after.isDirectory (String.ofList (cs ++ (List.replicate 1 '/' ++ name))) = true ∧
      ∀ location, location ≠ fs.target (String.ofList cs) ++ [String.ofList name] →
        after.tree.get? location = fs.tree.get? location := by
  have split := splitPath_append_slashes ends 0 plainName.noSlash plainName.named.ne_nil
  have isParent := parent_of_head (by rw [split]; exact ends.ne_nil)
    (by rw [split]; exact plainName.named.ne_nil) (by rw [split]; exact plainName.clean) short
    (by rw [split]; exact found)
  rw [split] at isParent
  have made := ensureDirectory_of_parent isParent plainName.plain
  rw [linked, plainName.short, if_neg Bool.false_ne_true, if_neg Bool.false_ne_true] at made
  rcases there : fs.tree.get? (fs.target (String.ofList cs) ++ [String.ofList name]) with
    _ | _ | contents
  · rw [there] at made
    refine ⟨_, made, isDirectory_of_parent isParent plainName.plain linked plainName.short
      (addsDirectories_put (by simp) there).toGrows ?_, ?_⟩
    · dsimp only
      rw [FileTree.get?_put (by simp), if_pos rfl]
    · intro location elsewhere
      dsimp only
      rw [FileTree.get?_put (by simp), if_neg elsewhere]
  · rw [there] at made
    exact ⟨fs, made, isDirectory_of_parent isParent plainName.plain linked plainName.short
      (Grows.refl fs) there, fun _ _ => rfl⟩
  · rw [FileTree.fileAt_eq_some_iff.mpr there] at free
    cases free

/-- Names below a path lead on from where the path leads. -/
theorem target_nested (fs : FileSystem) (ends : Path.EndsInName cs) (plainName : IsPlainName name)
    (count : Nat) :
    fs.target (String.ofList (Path.nested cs name count)) =
      fs.target (String.ofList cs) ++ List.replicate count (String.ofList name) := by
  induction count with
  | zero => rw [Path.nested, List.replicate_zero, List.append_nil]
  | succ count ih =>
    rw [Path.nested, target_append_slash fs (ends.nested plainName.named count) plainName.noSlash
      plainName.named.ne_nil, ih, followStep_of_plain _ plainName.plain, List.append_assoc,
      List.replicate_succ']

/-- Names below a linked directory are linked. -/
theorem isUnlinked_append_replicate (plainName : IsPlainName name)
    (linked : isUnlinked location = false) (count : Nat) :
    isUnlinked (location ++ List.replicate count (String.ofList name)) = false := by
  have visible : String.ofList name ≠ "" := by
    intro empty
    rw [← String.toList_eq_nil_iff, String.toList_ofList] at empty
    exact plainName.named.ne_nil empty
  unfold isUnlinked at *
  rw [Bool.eq_false_iff, Ne, List.contains_iff_mem] at *
  intro mem
  rcases List.mem_append.mp mem with above | below
  · exact linked above
  · exact visible (List.eq_of_mem_replicate below).symm

/-- **Directories below one that is there** can be made when there are as many levels, unless the
path gets too long or meets a file. -/
theorem makeDirectoriesWithin_nested {levels present missing : Nat} (ends : Path.EndsInName cs)
    (plainName : IsPlainName name)
    (found : fs.isDirectory (String.ofList (Path.nested cs name present)) = true)
    (linked : isUnlinked (fs.target (String.ofList cs)) = false)
    (free : ∀ count, fs.tree.fileAt
      (fs.target (String.ofList cs) ++ List.replicate count (String.ofList name)) = none)
    (few : missing ≤ levels)
    (short : isLongPath (String.ofList (Path.nested cs name (present + missing))) = false) :
    ∃ after, fs.makeDirectoriesWithin (levels + 1) (Path.nested cs name (present + missing)) =
        (.ok (), after) ∧
      after.isDirectory (String.ofList (Path.nested cs name (present + missing))) = true ∧
      ∀ location, (∀ count, location ≠
          fs.target (String.ofList cs) ++ List.replicate count (String.ofList name)) →
        after.tree.get? location = fs.tree.get? location := by
  induction levels generalizing missing with
  | zero =>
    obtain rfl := Nat.le_zero.mp few
    exact ⟨fs, makeDirectoriesWithin_of_isDirectory 0 found, found, fun _ _ => rfl⟩
  | succ levels ih =>
    cases missing with
    | zero => exact ⟨fs, makeDirectoriesWithin_of_isDirectory _ found, found, fun _ _ => rfl⟩
    | succ missing =>
      have split : splitPath (Path.nested cs name (present + missing + 1)) =
          (Path.nested cs name (present + missing), name) :=
        splitPath_append_slashes (ends.nested plainName.named _) 0 plainName.noSlash
          plainName.named.ne_nil
      have shortHead := isLongPath_eq_false_of_begins
        (Path.nested_begins cs name (present + missing) 1) short
      -- The directory itself is made below its head, whatever else was made before.
      have last {middle : FileSystem} (adds : AddsDirectories fs middle)
          (head : middle.isDirectory (String.ofList (Path.nested cs name (present + missing))) =
            true)
          (frame : ∀ location, (∀ count, location ≠
              fs.target (String.ofList cs) ++ List.replicate count (String.ofList name)) →
            middle.tree.get? location = fs.tree.get? location) :
          ∃ after, middle.ensureDirectory
                (String.ofList (Path.nested cs name (present + missing + 1))) = (.ok (), after) ∧
            after.isDirectory (String.ofList (Path.nested cs name (present + missing + 1))) = true ∧
            ∀ location, (∀ count, location ≠
                fs.target (String.ofList cs) ++ List.replicate count (String.ofList name)) →
              after.tree.get? location = fs.tree.get? location := by
        have place : middle.target (String.ofList (Path.nested cs name (present + missing))) ++
              [String.ofList name] = fs.target (String.ofList cs) ++
                List.replicate (present + missing + 1) (String.ofList name) := by
          rw [adds.toGrows.target_eq, target_nested fs ends plainName, List.append_assoc,
            ← List.replicate_succ']
        have linkedHead : isUnlinked
            (middle.target (String.ofList (Path.nested cs name (present + missing)))) = false := by
          rw [adds.toGrows.target_eq, target_nested fs ends plainName]
          exact isUnlinked_append_replicate plainName linked _
        obtain ⟨after, made, there, same⟩ := ensureDirectory_append_slash
          (ends.nested plainName.named (present + missing)) plainName head linkedHead short
          (by rw [adds.files, place]; exact free _)
        refine ⟨after, made, there, ?_⟩
        intro location elsewhere
        exact (same location (place ▸ elsewhere _)).trans (frame location elsewhere)
      rw [← Nat.add_assoc, makeDirectoriesWithin_succ, split]
      dsimp only
      by_cases isMissing : fs.headIsMissing (Path.nested cs name (present + missing + 1)) = true
      · obtain ⟨middle, made, head, frame⟩ := ih (Nat.le_of_succ_le_succ few) shortHead
        have adds := (makeDirectoriesWithin_spec (levels + 1) fs
          (Path.nested cs name (present + missing))).toAddsDirectories
        have other : name ≠ ['.'] := by
          rintro rfl
          exact absurd plainName.plain (by decide)
        rw [made] at adds
        have goes : goesOn (.ok ()) = true := rfl
        rw [if_pos isMissing, made, if_pos goes, if_neg other]
        exact last adds head frame
      · rw [if_neg isMissing]
        refine last (AddsDirectories.refl fs) ?_ fun _ _ => rfl
        have isThere : fs.isThere (String.ofList (Path.nested cs name (present + missing))) =
            true := by
          cases absent : fs.isThere (String.ofList (Path.nested cs name (present + missing))) with
          | true => rfl
          | false =>
            refine absurd (headIsMissing_iff.mpr ?_) isMissing
            rw [split]
            exact ⟨(ends.nested plainName.named _).ne_nil, plainName.named.ne_nil, absent⟩
        obtain ⟨⟨place, entry⟩, stat⟩ := isThere_iff.mp isThere
        obtain ⟨rfl, there⟩ := get?_of_stat stat
        cases entry with
        | directory => exact isDirectory_iff.mpr stat
        | file contents =>
          have none := free (present + missing)
          rw [← target_nested fs ends plainName, FileTree.fileAt_eq_some_iff.mpr there] at none
          cases none

/-- A directory that is there stays there. -/
theorem Grows.isDirectory (grows : Grows fs after) (found : fs.isDirectory text = true) :
    after.isDirectory text = true := by
  obtain ⟨fault, walked, slash⟩ := stat_eq_ok_iff.mp (isDirectory_iff.mp found)
  have there := grows.directories _ (get?_of_stat (isDirectory_iff.mp found)).2
  have start : after.start (Path.ofString text) = fs.start (Path.ofString text) := by
    rw [FileSystem.start, FileSystem.start, grows.cwd]
  rw [isDirectory_iff, grows.target_eq, stat_eq_ok_iff, start]
  exact ⟨fault, FileTree.walk_of_directories walked grows.directories there, slash⟩

/-- Directories of one name below each other, as many as are counted; no file is in their way, and
no file of another name is further down. -/
structure HasNested (fs : FileSystem) (cs name file : List Char) (count : Nat) : Prop where
  found : fs.isDirectory (String.ofList (Path.nested cs name count)) = true
  linked : isUnlinked (fs.target (String.ofList cs)) = false
  free : ∀ n, fs.tree.fileAt
    (fs.target (String.ofList cs) ++ List.replicate n (String.ofList name)) = none
  vacant : ∀ n, count < n → fs.tree.get? (fs.target (String.ofList cs) ++
    List.replicate n (String.ofList name) ++ [String.ofList file]) = none

section Files

variable {file : List Char} {present missing : Nat}

/-- A file is not among the directories. -/
theorem ne_nested (other : file ≠ name) (location : Location) (m n : Nat) :
    location ++ List.replicate m (String.ofList name) ++ [String.ofList file] ≠
      location ++ List.replicate n (String.ofList name) := by
  intro same
  rw [List.append_assoc, List.append_cancel_left_eq] at same
  have mem : String.ofList file ∈ List.replicate n (String.ofList name) := by
    rw [← same]
    exact List.mem_append_right _ List.mem_cons_self
  exact other (String.ofList_injective (List.eq_of_mem_replicate mem))

/-- **A file below more such directories** can be written. Then there are more of them. -/
theorem HasNested.writeBelow (has : HasNested fs cs name file present) (ends : Path.EndsInName cs)
    (plainName : IsPlainName name) (plainFile : IsPlainName file) (other : file ≠ name)
    (some : 0 < missing) (few : missing < Bounds.madeLevels)
    (short : isLongPath (String.ofList (Path.nested cs name (present + missing) ++
      (List.replicate 1 '/' ++ file))) = false) (contents : Bytes) :
    ∃ after, fs.writeBelow (String.ofList (Path.nested cs name (present + missing) ++
        (List.replicate 1 '/' ++ file))) contents = (.ok (), after) ∧
      HasNested after cs name file (present + missing) := by
  have endsInName := ends.nested plainName.named (present + missing)
  have begins : Path.nested cs name (present + missing) <+:
      Path.nested cs name (present + missing) ++ (List.replicate 1 '/' ++ file) :=
    List.prefix_append _ _
  obtain ⟨middle, made, directory, frame⟩ := makeDirectoriesWithin_nested ends plainName has.found
    has.linked has.free (Nat.le_sub_one_of_lt few) (isLongPath_eq_false_of_begins begins short)
  have made : fs.makeDirectoriesWithin Bounds.madeLevels _ = (.ok (), middle) := made
  have adds := (makeDirectoriesWithin_spec Bounds.madeLevels fs
    (Path.nested cs name (present + missing))).toAddsDirectories
  rw [made] at adds
  have split := splitPath_append_slashes endsInName 0 plainFile.noSlash plainFile.named.ne_nil
  have isParent := parent_of_head (by rw [split]; exact endsInName.ne_nil)
    (by rw [split]; exact plainFile.named.ne_nil) (by rw [split]; exact plainFile.clean) short
    (by rw [split]; exact directory)
  rw [split, adds.toGrows.target_eq, target_nested fs ends plainName] at isParent
  have vacant : middle.tree.get? (fs.target (String.ofList cs) ++
      List.replicate (present + missing) (String.ofList name) ++ [String.ofList file]) = none :=
    (frame _ (ne_nested other _ _)).trans (has.vacant _ (Nat.lt_add_of_pos_right some))
  obtain ⟨after, written⟩ : ∃ after, middle.write
      (String.ofList (Path.nested cs name (present + missing) ++ (List.replicate 1 '/' ++ file)))
      contents = (.ok (), after) := by
    refine ⟨_, Prod.ext (write_of_parent isParent plainFile.plain
      (Path.slashAtEnd_append_slash _ plainFile.noSlash plainFile.named.ne_nil)
      (isUnlinked_append_replicate plainName has.linked _) plainFile.short ?_ contents) rfl⟩
    rw [vacant]
    exact (Option.some_ne_none _).symm
  have writes := write_spec written
  have grows := adds.toGrows.trans writes.toGrows
  have place : middle.target (String.ofList (Path.nested cs name (present + missing) ++
      (List.replicate 1 '/' ++ file))) = fs.target (String.ofList cs) ++
        List.replicate (present + missing) (String.ofList name) ++ [String.ofList file] := by
    rw [target_append_slash middle endsInName plainFile.noSlash plainFile.named.ne_nil,
      adds.toGrows.target_eq, target_nested fs ends plainName,
      followStep_of_plain _ plainFile.plain]
  refine ⟨after, ?_, writes.toGrows.isDirectory directory, ?_, ?_, ?_⟩
  · rw [writeBelow_of_directory (Path.directoryOf_append_slash endsInName plainFile.noSlash)
      endsInName.ne_nil]
    exact made ▸ written
  · rw [grows.target_eq]
    exact has.linked
  · intro n
    rw [grows.target_eq, writes.files, place, if_neg (ne_nested other _ _ n).symm, adds.files]
    exact has.free n
  · intro n more
    rw [grows.target_eq, get?_write written, place, if_neg, frame _ (ne_nested other _ n)]
    · exact has.vacant n (by omega)
    · intro same
      have lengths := congrArg List.length same
      simp only [List.length_append, List.length_replicate, List.length_singleton] at lengths
      omega

/-- A path of names with a file behind them is not too long if it is short enough. -/
theorem isLongPath_nested (cs name file : List Char) (count : Nat)
    (size : (String.ofList cs).utf8ByteSize + (1 + (String.ofList name).utf8ByteSize) * count +
      (1 + (String.ofList file).utf8ByteSize) ≤ 4095) :
    isLongPath (String.ofList (Path.nested cs name count ++ (List.replicate 1 '/' ++ file))) =
      false := by
  have one : (String.ofList (List.replicate 1 '/')).utf8ByteSize = 1 := rfl
  rw [isLongPath, decide_eq_false_iff_not, String.ofList_append, String.utf8ByteSize_append,
    Path.size_nested, String.ofList_append, String.utf8ByteSize_append, one]
  omega

/-- **An item below more such directories** can be made. -/
theorem HasNested.createIn {count : Nat} (has : HasNested fs cs name file present)
    (ends : Path.EndsInName cs) (plainName : IsPlainName name) (plainFile : IsPlainName file)
    (other : file ≠ name) (fewer : present ≤ count) (few : count + 1 < present + Bounds.madeLevels)
    (size : (String.ofList cs).utf8ByteSize +
      (1 + (String.ofList name).utf8ByteSize) * (count + 1) +
      (1 + (String.ofList file).utf8ByteSize) ≤ 4095) (contents : Bytes) :
    ∃ after, fs.createIn (String.ofList cs) (String.ofList (Path.nested name name count ++
        (List.replicate 1 '/' ++ file)), contents) = (.ok (), after) ∧
      HasNested after cs name file (count + 1) := by
  obtain ⟨missing, total⟩ : ∃ missing, present + missing = count + 1 :=
    ⟨count + 1 - present, by omega⟩
  have relative : (String.ofList (Path.nested name name count ++
      (List.replicate 1 '/' ++ file))).toList.head? ≠ some '/' := by
    rw [String.toList_ofList]
    exact plainName.head?_nested count _
  have joined := Path.join_ofList ends relative
  rw [String.toList_ofList, ← List.append_assoc (List.replicate 1 '/'), ← List.append_assoc cs,
    ← Path.nested_eq_append] at joined
  unfold FileSystem.createIn
  dsimp only
  rw [Path.slashAtEnd_append_slash _ plainFile.noSlash plainFile.named.ne_nil,
    if_neg Bool.false_ne_true, joined, ← total]
  exact has.writeBelow ends plainName plainFile other (by omega)
    (show missing < Bounds.madeLevels by omega) (isLongPath_nested cs name file _ (total ▸ size)) contents

end Files

end FileSystem

end EsmBundle
