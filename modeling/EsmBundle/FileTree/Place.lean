import EsmBundle.FileTree.Basic

/-!
Moving through a tree of files and directories.

A place is a location of a tree together with what is there and with the way back, so
that going down by a name or up again takes one step wherever it starts. Main
statements: what is at the place of a location is what the tree has there, and going
down and up leads to the places of the longer and the shorter location.
-/

namespace EsmBundle

/-- What is below a location of a tree, and the names that lead there, latest first, each with the
tree that it is a name in. -/
structure Place where
  here : FileTree
  trail : List (String × FileTree)

namespace Place

/-- The names that lead to a place. -/
def location (place : Place) : Location :=
  (place.trail.map Prod.fst).reverse

/-- What is at a place: a directory at the root, and elsewhere what the tree holds. -/
def entry (place : Place) : Option Entry :=
  if place.trail.isEmpty then some .directory else place.here.top

/-- A place at or below a directory that was removed while in use. -/
def isUnlinked (place : Place) : Bool :=
  place.trail.any fun step => step.1 = ""

/-- The place one name further down. -/
def down (place : Place) (name : String) : Place :=
  ⟨place.here.child name, (name, place.here) :: place.trail⟩

/-- The place one name further up, the root being above itself. -/
def up (place : Place) : Place :=
  match place.trail with
  | [] => place
  | (_, tree) :: trail => ⟨tree, trail⟩

/-- Going down and up again changes nothing. -/
@[simp]
theorem up_down (place : Place) (name : String) : (place.down name).up = place := rfl

end Place

namespace FileTree

/-- The place of a location in a tree. -/
def place (tree : FileTree) (location : Location) : Place :=
  location.foldl Place.down ⟨tree, []⟩

/-- Going down by a name leads to the place of the location with that name. -/
theorem down_place (tree : FileTree) (location : Location) (name : String) :
    (tree.place location).down name = tree.place (location ++ [name]) := by
  simp [place]

/-- Going up leads to the place of the location without its last name. -/
theorem up_place (tree : FileTree) (location : Location) :
    (tree.place location).up = tree.place location.dropLast := by
  rcases List.eq_nil_or_concat location with rfl | ⟨init, last, rfl⟩
  · rfl
  · rw [List.concat_eq_append, ← down_place, Place.up_down, List.dropLast_concat]

/-- The place of a location is at that location. -/
@[simp]
theorem location_place (tree : FileTree) (location : Location) :
    (tree.place location).location = location := by
  suffices general : ∀ start : Place,
      (location.foldl Place.down start).location = start.location ++ location from
    (general ⟨tree, []⟩).trans (List.nil_append _)
  intro start
  induction location generalizing start with
  | nil => simp
  | cons name rest ih =>
    rw [List.foldl_cons, ih]
    simp [Place.down, Place.location]

/-- Only the root has nothing to go back to. -/
theorem trail_place_eq_nil_iff {tree : FileTree} {location : Location} :
    (tree.place location).trail = [] ↔ location = [] := by
  have same := location_place tree location
  constructor
  · intro none
    simpa [Place.location, none] using same.symm
  · rintro rfl
    rfl

/-- What is at the place of a location is what the tree has there. -/
@[simp]
theorem entry_place (tree : FileTree) (location : Location) :
    (tree.place location).entry = tree.get? location := by
  have top : ∀ start : Place,
      (location.foldl Place.down start).here.top = start.here.find? location := by
    intro start
    induction location generalizing start with
    | nil => rfl
    | cons name rest ih => exact ih (start.down name)
  by_cases root : location = []
  · subst root
    rfl
  · have further : (tree.place location).trail ≠ [] := mt trail_place_eq_nil_iff.1 root
    rw [Place.entry, get?, if_neg root, if_neg (by simpa using further)]
    exact top ⟨tree, []⟩

/-- The place of a location is unlinked when the location is. -/
@[simp]
theorem isUnlinked_place (tree : FileTree) (location : Location) :
    (tree.place location).isUnlinked = EsmBundle.isUnlinked location := by
  rw [← congrArg EsmBundle.isUnlinked (location_place tree location), Bool.eq_iff_iff]
  simp [Place.isUnlinked, Place.location, EsmBundle.isUnlinked]

end FileTree

end EsmBundle
