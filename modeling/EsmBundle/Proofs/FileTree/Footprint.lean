import EsmBundle.Proofs.FileTree.Writing

/-!
What writing leaves of a tree, entry by entry, whether it succeeds or not.

A file that is written changes one place. Before that, directories are made where nothing
was, and only on the way to the file; they stay when a later one of them cannot be made, or
the file cannot be written.

* `FileSystem.writeBelow_eq_error`, `FileSystem.get?_writeBelow` — every entry after a file
  could not be written, and after it was.
-/

namespace EsmBundle

namespace FileSystem

variable {fs after : FileSystem} {text : String} {contents : Bytes} {location : Location}

/-! ### One file -/

/-- A file that cannot be written is not touched. -/
theorem write_eq_error {error : PathError}
    (failed : fs.write text contents = (.error error, after)) : after = fs := by
  unfold write at failed
  split at failed
  · exact (Prod.mk.inj failed).2.symm
  · cases (Prod.mk.inj failed).1

/-- A file that is written changes the place where its path leads, and no other. -/
theorem get?_write (written : fs.write text contents = (.ok (), after)) (location : Location) :
    after.tree.get? location =
      if location = fs.target text then some (.file contents) else fs.tree.get? location := by
  unfold write at written
  split at written
  · cases (Prod.mk.inj written).1
  · rename_i place made
    obtain rfl := (Prod.mk.inj written).2
    obtain ⟨directory, last, rfl, isParent, plain, -⟩ := newFile_eq_ok made
    rw [target_of_parent isParent plain]
    exact FileTree.get?_put (by simp)

/-- A file that cannot be written below new directories leaves these directories. -/
theorem writeBelow_eq_error {error : PathError}
    (failed : fs.writeBelow text contents = (.error error, after)) :
    MakesOnWay fs (Path.directoryOf text) after := by
  unfold writeBelow at failed
  dsimp only at failed
  split at failed
  · rw [write_eq_error failed]
    exact MakesOnWay.refl fs _
  · have makes := makeDirectories_spec fs (Path.directoryOf text)
    split at failed
    · rename_i made
      rw [made] at makes
      exact (Prod.mk.inj failed).2 ▸ makes
    · rename_i made
      rw [made] at makes
      rwa [write_eq_error failed]

/-- A file that is written below new directories is written after these were made. -/
theorem writeBelow_eq_ok (written : fs.writeBelow text contents = (.ok (), after)) :
    ∃ middle, MakesOnWay fs (Path.directoryOf text) middle ∧
      middle.write text contents = (.ok (), after) := by
  unfold writeBelow at written
  dsimp only at written
  split at written
  · exact ⟨fs, MakesOnWay.refl fs _, written⟩
  · have makes := makeDirectories_spec fs (Path.directoryOf text)
    split at written
    · cases (Prod.mk.inj written).1
    · rename_i middle made
      rw [made] at makes
      exact ⟨middle, makes, written⟩

/-- **A file that is written** changes the place where its path leads, and directories are made
where nothing was on the way. -/
theorem get?_writeBelow (written : fs.writeBelow text contents = (.ok (), after))
    (location : Location) :
    location = fs.target text ∧ after.tree.get? location = some (.file contents) ∨
      after.tree.get? location = fs.tree.get? location ∨
      fs.tree.get? location = none ∧ after.tree.get? location = some .directory ∧
        fs.OnWay (Path.directoryOf text) location := by
  obtain ⟨middle, makes, last⟩ := writeBelow_eq_ok written
  have now := get?_write last location
  rw [makes.toGrows.target_eq] at now
  by_cases here : location = fs.target text
  · rw [if_pos here] at now
    exact Or.inl ⟨here, now⟩
  · rw [if_neg here] at now
    rw [now]
    exact Or.inr (makes.made location)

/-- No directory is lost in writing, whether it succeeds or not. -/
theorem writeBelow_grows (fs : FileSystem) (text : String) (contents : Bytes) :
    Grows fs (fs.writeBelow text contents).2 := by
  cases attempt : fs.writeBelow text contents with
  | mk outcome after =>
    cases outcome with
    | ok done => exact (writeBelow_spec attempt).toGrows
    | error error => exact (writeBelow_eq_error attempt).toGrows

end FileSystem

end EsmBundle
