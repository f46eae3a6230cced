import EsmBundle.Proofs.FileTree.Making

/-!
Paths with dots at their end.

Such a path leads where it leads without the dots. How its directories are made is another
matter: where nothing is yet, every dot takes a level of its own, and none is looked at that
stands behind what was just made; where a directory is, no level is needed, and the dot is
looked at.

* `FileSystem.makeDirectoriesWithin_dotted_of_vacant` — too many dots where nothing is.
* `FileSystem.isDirectory_dotted` — any number of them where a directory is.
* `FileSystem.makeDirectoriesWithin_of_missing_dot` — a dot behind what is made.
* `FileSystem.writeBelow_dotted_of_vacant`, `FileSystem.writeBelow_dotted_of_isDirectory` — files
  behind dots.
-/

namespace EsmBundle

/-! ### Paths -/

namespace Path

/-- A path that ends in a name, and not in a slash. -/
def EndsInName (cs : List Char) : Prop :=
  ∃ before c, cs = before ++ [c] ∧ c ≠ '/'

/-- A path with dots behind it. -/
def dotted (cs : List Char) : Nat → List Char
  | 0 => cs
  | count + 1 => dotted cs count ++ ['/', '.']

variable {cs name : List Char}

theorem EndsInName.ne_nil (ends : EndsInName cs) : cs ≠ [] := by
  obtain ⟨before, c, rfl, -⟩ := ends
  simp

theorem EndsInName.dotted (ends : EndsInName cs) (count : Nat) : EndsInName (dotted cs count) := by
  cases count with
  | zero => exact ends
  | succ count => exact ⟨Path.dotted cs count ++ ['/'], '.', by simp [Path.dotted], by decide⟩

/-- The last name of a path is what stands behind its last slashes. -/
theorem lastName_append_slashes (cs : List Char) (more : Nat) (noSlash : '/' ∉ name) :
    lastName (cs ++ (List.replicate (more + 1) '/' ++ name)) = name := by
  have isName : ∀ c ∈ name.reverse, decide (c ≠ '/') = true := by
    intro c mem
    exact decide_eq_true fun isSlash => noSlash (isSlash ▸ List.mem_reverse.mp mem)
  rw [lastName, List.reverse_append, List.reverse_append, List.append_assoc,
    List.takeWhile_append_of_pos isName, List.reverse_replicate, List.replicate_succ]
  simp

/-- What leads up to the last slash of a path is all before its last name. -/
theorem upToSlash_append_slashes (cs : List Char) (more : Nat) (noSlash : '/' ∉ name) :
    upToSlash (cs ++ (List.replicate (more + 1) '/' ++ name)) =
      cs ++ List.replicate (more + 1) '/' := by
  have isName : ∀ c ∈ name.reverse, decide (c ≠ '/') = true := by
    intro c mem
    exact decide_eq_true fun isSlash => noSlash (isSlash ▸ List.mem_reverse.mp mem)
  rw [upToSlash, List.reverse_append, List.reverse_append, List.append_assoc,
    List.dropWhile_append_of_pos isName, List.reverse_replicate, List.replicate_succ,
    List.cons_append, List.dropWhile_cons_of_neg (by simp), ← List.cons_append,
    ← List.replicate_succ, List.reverse_append, List.reverse_replicate, List.reverse_reverse]

/-- The directory part of a path is what stands before its last slashes. -/
theorem directory_append_slashes (ends : EndsInName cs) (more : Nat) (noSlash : '/' ∉ name) :
    directory (cs ++ (List.replicate (more + 1) '/' ++ name)) = cs := by
  obtain ⟨before, c, rfl, other⟩ := ends
  have slashes : ∀ d ∈ List.replicate (more + 1) '/', decide (d = '/') = true := by
    intro d mem
    exact decide_eq_true (List.eq_of_mem_replicate mem)
  rw [directory, upToSlash_append_slashes _ more noSlash, stripSlashes,
    if_neg (by simp [allSlashes, other]), List.reverse_append, List.reverse_replicate,
    List.dropWhile_append_of_pos slashes]
  simp [other]

/-- The names of a path on both sides of slashes. -/
theorem names_append_replicate (cs : List Char) (more : Nat) (name : List Char) :
    names (cs ++ (List.replicate (more + 1) '/' ++ name)) = names cs ++ names name := by
  have slashes : names (cs ++ List.replicate more '/') = names cs :=
    names_append_slashes cs fun c mem => List.eq_of_mem_replicate mem
  rw [List.replicate_succ', List.append_assoc, ← List.append_assoc, List.singleton_append,
    names_append_slash, slashes]

/-- Dots add nothing but dots to the steps of a path. -/
theorem names_dotted (cs : List Char) (count : Nat) :
    names (dotted cs count) = names cs ++ List.replicate count "." := by
  have dot : names ['.'] = ["."] := by decide +kernel
  induction count with
  | zero => rw [dotted, List.replicate_zero, List.append_nil]
  | succ count ih =>
    rw [dotted, names_append_slash, ih, dot, List.append_assoc, List.replicate_succ']

theorem directoryOf_append_slash (ends : EndsInName cs) (noSlash : '/' ∉ name) :
    directoryOf (String.ofList (cs ++ (List.replicate 1 '/' ++ name))) = String.ofList cs := by
  rw [directoryOf, String.toList_ofList, directory_append_slashes ends 0 noSlash]

/-- A path that ends in a name does not end in a slash. -/
theorem slashAtEnd_append (cs : List Char) (noSlash : '/' ∉ name) (nonempty : name ≠ []) :
    (ofString (String.ofList (cs ++ name))).slashAtEnd = false := by
  obtain ⟨before, last, rfl⟩ : ∃ before last, name = before ++ [last] :=
    ⟨_, _, (List.dropLast_concat_getLast nonempty).symm⟩
  have other : last ≠ '/' := fun isSlash => noSlash (by simp [isSlash])
  simp only [ofString, String.toList_ofList]
  rw [← List.append_assoc, List.getLast?_concat]
  simpa using other

theorem slashAtEnd_append_slash (cs : List Char) (noSlash : '/' ∉ name) (nonempty : name ≠ []) :
    (ofString (String.ofList (cs ++ (List.replicate 1 '/' ++ name)))).slashAtEnd = false := by
  rw [← List.append_assoc]
  exact slashAtEnd_append _ noSlash nonempty

/-- A relative name goes behind a slash. -/
theorem join_ofList (ends : EndsInName cs) {name : String}
    (relative : name.toList.head? ≠ some '/') :
    join (String.ofList cs) name =
      String.ofList (cs ++ (List.replicate 1 '/' ++ name.toList)) := by
  obtain ⟨before, c, rfl, other⟩ := ends
  rcases join_of_relative (String.ofList (before ++ [c])) relative with
    ⟨empty, -⟩ | ⟨all, slash, -⟩ | ⟨-, joined⟩
  · simp at empty
  · rw [String.toList_ofList] at slash
    exact absurd (List.cons.inj (List.append_inj' slash rfl).2).1 other
  · rw [← String.ofList_toList (s := join _ _), joined, String.toList_ofList]
    rfl

/-- The size of a path that is filled with slashes. -/
theorem size_replicate_slash (count : Nat) :
    (String.ofList (List.replicate count '/')).utf8ByteSize = count := by
  have one : (String.ofList ['/']).utf8ByteSize = 1 := by decide +kernel
  induction count with
  | zero => rfl
  | succ count ih =>
    rw [List.replicate_succ', String.ofList_append, String.utf8ByteSize_append, ih, one]

/-- Every dot takes two bytes. -/
theorem size_dotted (cs : List Char) (count : Nat) :
    (String.ofList (dotted cs count)).utf8ByteSize =
      (String.ofList cs).utf8ByteSize + 2 * count := by
  have two : (String.ofList ['/', '.']).utf8ByteSize = 2 := by decide +kernel
  induction count with
  | zero => rfl
  | succ count ih =>
    rw [dotted, String.ofList_append, String.utf8ByteSize_append, ih, two]
    omega

end Path

/-! ### Directories -/

namespace FileSystem

variable {fs after : FileSystem} {text : String} {cs name : List Char} {levels count : Nat}

theorem splitPath_append_slashes (ends : Path.EndsInName cs) (more : Nat) (noSlash : '/' ∉ name)
    (nonempty : name ≠ []) :
    splitPath (cs ++ (List.replicate (more + 1) '/' ++ name)) = (cs, name) := by
  unfold splitPath
  dsimp only
  rw [Path.lastName_append_slashes cs more noSlash, Path.directory_append_slashes ends more noSlash,
    if_neg (by simpa using nonempty)]

theorem splitPath_dotted (ends : Path.EndsInName cs) (count : Nat) :
    splitPath (Path.dotted cs (count + 1)) = (Path.dotted cs count, ['.']) :=
  splitPath_append_slashes (ends.dotted count) 0 (by decide) (by decide)

/-- A path with dots leads where it leads without them. -/
theorem target_dotted (fs : FileSystem) (ends : Path.EndsInName cs) (count : Nat) :
    fs.target (String.ofList (Path.dotted cs count)) = fs.target (String.ofList cs) := by
  induction count with
  | zero => rfl
  | succ count ih =>
    have split := splitPath_dotted ends count
    rw [target_of_dot fs (by rw [split]), split]
    exact ih

/-- Where nothing is no path leads to anything. -/
theorem isThere_of_vacant (vacant : fs.tree.get? (fs.target text) = none) :
    fs.isThere text = false := by
  cases there : fs.isThere text with
  | false => rfl
  | true =>
    obtain ⟨⟨place, entry⟩, found⟩ := isThere_iff.mp there
    rw [(get?_of_stat found).2] at vacant
    cases vacant

/-- Behind what is made first a dot makes nothing. -/
theorem makeDirectoriesWithin_of_missing_dot (dot : (splitPath cs).2 = ['.'])
    (missing : fs.headIsMissing cs = true)
    (made : fs.makeDirectoriesWithin levels (splitPath cs).1 = (.ok (), after)) :
    fs.makeDirectoriesWithin (levels + 1) cs = (.ok (), after) := by
  have goes : goesOn (.ok ()) = true := rfl
  rw [makeDirectoriesWithin_succ, if_pos missing, made, if_pos goes, if_pos dot]

/-- **Where nothing is every dot takes a level**: with more dots than levels nothing is made. -/
theorem makeDirectoriesWithin_dotted_of_vacant (ends : Path.EndsInName cs)
    (vacant : fs.tree.get? (fs.target (String.ofList cs)) = none) (many : levels ≤ count) :
    ∃ path, fs.makeDirectoriesWithin levels (Path.dotted cs count) =
      (.error ⟨.tooDeep, path⟩, fs) := by
  induction levels generalizing count with
  | zero => exact ⟨_, rfl⟩
  | succ levels ih =>
    obtain ⟨count, rfl⟩ : ∃ fewer, count = fewer + 1 := ⟨count - 1, by omega⟩
    have split := splitPath_dotted ends count
    have absent : fs.isThere (String.ofList (Path.dotted cs count)) = false :=
      isThere_of_vacant (by rw [target_dotted fs ends, vacant])
    have missing : fs.headIsMissing (Path.dotted cs (count + 1)) = true := by
      refine headIsMissing_iff.mpr ?_
      rw [split]
      exact ⟨(ends.dotted count).ne_nil, by simp, absent⟩
    obtain ⟨path, failed⟩ := ih (by omega : levels ≤ count)
    refine ⟨path, ?_⟩
    rw [makeDirectoriesWithin_succ, if_pos missing, split, failed, if_neg (by simp [goesOn])]

/-- **Where a directory is any number of dots is that directory**, unless the path gets too
long. -/
theorem isDirectory_dotted (ends : Path.EndsInName cs)
    (found : fs.isDirectory (String.ofList cs) = true)
    (short : isLongPath (String.ofList (Path.dotted cs count)) = false) :
    fs.isDirectory (String.ofList (Path.dotted cs count)) = true := by
  induction count with
  | zero => exact found
  | succ count ih =>
    have split := splitPath_dotted ends count
    have begins : Path.dotted cs count <+: Path.dotted cs (count + 1) := List.prefix_append _ _
    refine isDirectory_of_dot (by rw [split]) ?_ short ?_
    · rw [split]
      exact (ends.dotted count).ne_nil
    · rw [split]
      exact ih (isLongPath_eq_false_of_begins begins short)

/-! ### Files -/

/-- A file can be written below a parent that is there, where no directory is. -/
theorem write_of_parent {location : Location} {last : String}
    (isParent : fs.parent text = .ok (location, some last)) (plain : isDots last = false)
    (noSlash : (Path.ofString text).slashAtEnd = false) (linked : isUnlinked location = false)
    (short : isLongName last = false)
    (free : fs.tree.get? (location ++ [last]) ≠ some .directory) (contents : Bytes) :
    (fs.write text contents).1 = .ok () := by
  unfold FileSystem.write
  rw [newFile_eq, isParent]
  simp [plain, noSlash, linked, short, free]

/-- A path that is too long has no parent. -/
theorem parent_of_isLongPath (long : isLongPath text = true) (clean : '\x00' ∉ text.toList) :
    fs.parent text = .error .nameTooLong := by
  have nonempty : text.isEmpty = false := by
    cases empty : text.isEmpty with
    | false => rfl
    | true =>
      rw [String.isEmpty_iff.mp empty] at long
      cases long
  have fault : textFault? text = some .nameTooLong := by
    simp [textFault?, clean, nonempty, long]
  rw [parent_eq, fault]

/-- A path leads one step further than the directory it is in. -/
theorem target_append_slash (fs : FileSystem) (ends : Path.EndsInName cs) (noSlash : '/' ∉ name)
    (nonempty : name ≠ []) :
    fs.target (String.ofList (cs ++ (List.replicate 1 '/' ++ name))) =
      followStep (fs.target (String.ofList cs)) (String.ofList name) := by
  have split := splitPath_append_slashes ends 0 noSlash nonempty
  have step := target_splitPath fs (by rw [split]; exact nonempty)
  rwa [split] at step

/-- **A file behind too many dots cannot be written** where nothing is before them. -/
theorem writeBelow_dotted_of_vacant (ends : Path.EndsInName cs) (noSlash : '/' ∉ name)
    (vacant : fs.tree.get? (fs.target (String.ofList cs)) = none) (many : Bounds.madeLevels ≤ count)
    (contents : Bytes) :
    ∃ path, (fs.writeBelow
      (String.ofList (Path.dotted cs count ++ (List.replicate 1 '/' ++ name))) contents).1 =
        .error ⟨.tooDeep, path⟩ := by
  obtain ⟨path, failed⟩ := makeDirectoriesWithin_dotted_of_vacant ends vacant many
  refine ⟨path, ?_⟩
  rw [writeBelow_of_directory (Path.directoryOf_append_slash (ends.dotted count) noSlash)
    (ends.dotted count).ne_nil, failed]

/-- **A file behind dots can be written** where a directory is before them, unless the path gets too
long. -/
theorem writeBelow_dotted_of_isDirectory (ends : Path.EndsInName cs)
    (found : fs.isDirectory (String.ofList cs) = true) (noSlash : '/' ∉ name)
    (nonempty : name ≠ []) (clean : '\x00' ∉ name)
    (short : isLongPath
      (String.ofList (Path.dotted cs count ++ (List.replicate 1 '/' ++ name))) = false)
    (plain : isDots (String.ofList name) = false)
    (shortName : isLongName (String.ofList name) = false)
    (linked : isUnlinked (fs.target (String.ofList cs)) = false)
    (free : fs.tree.get? (fs.target (String.ofList cs) ++ [String.ofList name]) ≠
      some .directory) (contents : Bytes) :
    (fs.writeBelow (String.ofList (Path.dotted cs count ++ (List.replicate 1 '/' ++ name)))
      contents).1 = .ok () := by
  have split := splitPath_append_slashes (ends.dotted count) 0 noSlash nonempty
  have begins : Path.dotted cs count <+: Path.dotted cs count ++ (List.replicate 1 '/' ++ name) :=
    List.prefix_append _ _
  have directory := isDirectory_dotted ends found (isLongPath_eq_false_of_begins begins short)
  have made : fs.makeDirectoriesWithin Bounds.madeLevels (Path.dotted cs count) = (.ok (), fs) :=
    makeDirectoriesWithin_of_isDirectory (Bounds.madeLevels - 1) directory
  have isParent := parent_of_head (by rw [split]; exact (ends.dotted count).ne_nil)
    (by rw [split]; exact nonempty) (by rw [split]; exact clean) short
    (by rw [split]; exact directory)
  rw [split, target_dotted fs ends] at isParent
  have noSlashAtEnd := Path.slashAtEnd_append_slash (Path.dotted cs count) noSlash nonempty
  rw [writeBelow_of_directory (Path.directoryOf_append_slash (ends.dotted count) noSlash)
    (ends.dotted count).ne_nil, made]
  exact write_of_parent isParent plain noSlashAtEnd linked shortName free contents

/-- A path that is too long fails for itself when its directories can be made. -/
theorem writeBelow_of_isLongPath (ends : Path.EndsInName cs) (noSlash : '/' ∉ name)
    (made : fs.makeDirectoriesWithin Bounds.madeLevels cs = (.ok (), after))
    (long : isLongPath (String.ofList (cs ++ (List.replicate 1 '/' ++ name))) = true)
    (clean : '\x00' ∉ cs ++ (List.replicate 1 '/' ++ name)) (contents : Bytes) :
    (fs.writeBelow (String.ofList (cs ++ (List.replicate 1 '/' ++ name))) contents).1 =
      .error ⟨.nameTooLong, String.ofList (cs ++ (List.replicate 1 '/' ++ name))⟩ := by
  have noParent : after.parent _ = _ := parent_of_isLongPath long (by rwa [String.toList_ofList])
  rw [writeBelow_of_directory (Path.directoryOf_append_slash ends noSlash) ends.ne_nil, made]
  dsimp only
  unfold FileSystem.write
  rw [newFile_eq, noParent]

/-- A path whose directory part is too long already fails for that where its head is. -/
theorem writeBelow_of_isLongPath_directory (ends : Path.EndsInName cs) (noSlash : '/' ∉ name)
    (there : fs.headIsMissing cs = false) (long : isLongPath (String.ofList cs) = true)
    (clean : '\x00' ∉ cs) (contents : Bytes) :
    (fs.writeBelow (String.ofList (cs ++ (List.replicate 1 '/' ++ name))) contents).1 =
      .error ⟨.nameTooLong, String.ofList cs⟩ := by
  have noParent : fs.parent _ = _ := parent_of_isLongPath long (by rwa [String.toList_ofList])
  have failed : fs.makeDirectoriesWithin Bounds.madeLevels cs =
      (.error ⟨.nameTooLong, String.ofList cs⟩, fs) := by
    rw [show Bounds.madeLevels = Bounds.madeLevels - 1 + 1 from rfl, makeDirectoriesWithin_succ, there,
      if_neg Bool.false_ne_true, ensureDirectory_of_parent_error noParent]
  rw [writeBelow_of_directory (Path.directoryOf_append_slash ends noSlash) ends.ne_nil, failed]

end FileSystem

end EsmBundle
