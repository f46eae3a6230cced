import EsmBundle.Bundler
import EsmBundle.Proofs.FileTree.Footprint
import EsmBundle.Proofs.FirstPlaces

/-!
What the tool emits, and where its files go.

The files are made one after another at paths below the private directory, up to the first that
cannot be made, and the last one at a place stays. A name can lead out of the directory, and its
file is then made wherever it leads.

* `FileSystem.exists_made` — the items that are made are the first ones; the last contents of every
  place are there, and no other file is changed.
* `FileSystem.createAllIn_changes` — every other place is as before, save those on the way of an
  item.
-/

namespace EsmBundle

namespace FileSystem

variable {fs after : FileSystem} {directory : String} {item : String × Bytes}
  {items made : List (String × Bytes)}

/-! ### One item -/

/-- The location of the file that an item makes below a directory; a name that ends in a slash makes
none. -/
def itemTarget (fs : FileSystem) (directory : String) (item : String × Bytes) : Option Location :=
  if (Path.ofString item.1).slashAtEnd then none
  else some (fs.target (Path.join directory item.1))

/-- What comes after an item was made: its contents are where its path leads, and every other file
is as before. -/
structure Makes (fs : FileSystem) (directory : String) (item : String × Bytes)
    (after : FileSystem) : Prop extends Grows fs after where
  files : ∀ location, after.tree.fileAt location =
    if fs.itemTarget directory item = some location then some item.2 else fs.tree.fileAt location
  stat : ∀ location, fs.itemTarget directory item = some location →
    after.stat (Path.join directory item.1) = .ok (location, .file item.2)

theorem createIn_eq_ok (created : fs.createIn directory item = (.ok (), after)) :
    Makes fs directory item after := by
  unfold createIn at created
  dsimp only at created
  split at created
  · rename_i slash
    have spec := makeDirectories_spec fs (Path.join directory item.1)
    rw [created] at spec
    refine ⟨spec.toGrows, ?_, ?_⟩
    · intro location
      rw [spec.files, itemTarget, if_pos slash, if_neg (by simp)]
    · intro location target
      rw [itemTarget, if_pos slash] at target
      cases target
  · rename_i noSlash
    have spec := writeBelow_spec created
    refine ⟨spec.toGrows, ?_, ?_⟩
    · intro location
      rw [spec.files, itemTarget, if_neg noSlash]
      simp only [Option.some.injEq, eq_comm]
    · intro location target
      rw [itemTarget, if_neg noSlash] at target
      exact Option.some.inj target ▸ spec.stat

/-- An item that cannot be made may leave some of the directories that lead to it. -/
theorem createIn_eq_error {error : PathError}
    (failed : fs.createIn directory item = (.error error, after)) : AddsDirectories fs after := by
  unfold createIn at failed
  dsimp only at failed
  split at failed
  · have spec := makeDirectories_spec fs (Path.join directory item.1)
    rw [failed] at spec
    exact spec.toAddsDirectories
  · exact (writeBelow_eq_error failed).toAddsDirectories

/-- Making an item loses no directory and changes only what is on its way. -/
theorem createIn_changes (fs : FileSystem) (directory : String) (item : String × Bytes) :
    Grows fs (fs.createIn directory item).2 ∧ ∀ location,
      (fs.createIn directory item).2.tree.get? location = fs.tree.get? location ∨
        fs.OnWay (Path.join directory item.1) location := by
  unfold createIn
  dsimp only
  split
  · have makes := makeDirectories_spec fs (Path.join directory item.1)
    exact ⟨makes.toGrows, fun location => (makes.made location).imp_right fun made => made.2.2⟩
  · refine ⟨writeBelow_grows fs _ _, ?_⟩
    intro location
    obtain ⟨absolute, begins⟩ := Path.ofString_directoryOf (Path.join directory item.1)
    cases attempt : fs.writeBelow (Path.join directory item.1) item.2 with
    | mk outcome after =>
      cases outcome with
      | error error =>
        exact ((writeBelow_eq_error attempt).made location).imp_right fun made =>
          made.2.2.of_beginning absolute begins
      | ok done =>
        rcases get?_writeBelow attempt location with ⟨rfl, -⟩ | same | ⟨-, -, onWay⟩
        · exact Or.inr (fs.onWay_target _)
        · exact Or.inl same
        · exact Or.inr (onWay.of_beginning absolute begins)

/-! ### Items in order -/

/-- What comes after items were made: the last contents of every place are there, every other file
is as before, and each item could be looked up when it was made. -/
structure MakesAll (fs : FileSystem) (directory : String) (made : List (String × Bytes))
    (after : FileSystem) : Prop extends Grows fs after where
  files : ∀ location, after.tree.fileAt location =
    lastValue (fs.itemTarget directory) Prod.snd location made (fs.tree.fileAt location)
  stat : ∀ item ∈ made, ∀ location, fs.itemTarget directory item = some location →
    ∃ middle contents, Grows fs middle ∧ Grows middle after ∧
      middle.stat (Path.join directory item.1) = .ok (location, .file contents)

theorem AddsDirectories.makesAll_nil (adds : AddsDirectories fs after) (directory : String) :
    MakesAll fs directory [] after :=
  ⟨adds.toGrows, adds.files, by simp⟩

theorem Grows.itemTarget_eq (grows : Grows fs after) (directory : String) :
    after.itemTarget directory = fs.itemTarget directory := by
  funext item
  simp only [itemTarget, grows.target_eq]

/-- One item and then others. -/
theorem Makes.makesAll_cons {last : FileSystem} (first : Makes fs directory item after)
    (later : MakesAll after directory made last) : MakesAll fs directory (item :: made) last where
  toGrows := first.toGrows.trans later.toGrows
  files location := by
    rw [later.files, first.files, first.toGrows.itemTarget_eq]
    rfl
  stat other mem location target := by
    rcases List.mem_cons.mp mem with rfl | mem
    · exact ⟨after, _, first.toGrows, later.toGrows, first.stat location target⟩
    · rw [← first.toGrows.itemTarget_eq] at target
      obtain ⟨middle, contents, before, rest, stat⟩ := later.stat other mem location target
      exact ⟨middle, contents, first.toGrows.trans before, rest, stat⟩

/-- **The items that are made** are the first ones, and all of them when none fails. -/
theorem exists_made (fs : FileSystem) (directory : String) (items : List (String × Bytes)) :
    ∃ made, made <+: items ∧ MakesAll fs directory made (fs.createAllIn directory items).2 ∧
      ((fs.createAllIn directory items).1 = .ok () → made = items) := by
  induction items generalizing fs with
  | nil => exact ⟨[], List.prefix_rfl, (AddsDirectories.refl fs).makesAll_nil _, fun _ => rfl⟩
  | cons item rest ih =>
    rw [createAllIn]
    cases attempt : fs.createIn directory item with
    | mk outcome middle =>
      cases outcome with
      | error error =>
        exact ⟨[], List.nil_prefix, (createIn_eq_error attempt).makesAll_nil _, nofun⟩
      | ok done =>
        obtain ⟨made, begins, later, all⟩ := ih middle
        refine ⟨item :: made, List.cons_prefix_cons.mpr ⟨rfl, begins⟩,
          (createIn_eq_ok attempt).makesAll_cons later, ?_⟩
        intro success
        rw [all success]

/-- Making items loses no directory and changes only what is on the way of one of them. -/
theorem createAllIn_changes (fs : FileSystem) (directory : String)
    (items : List (String × Bytes)) :
    Grows fs (fs.createAllIn directory items).2 ∧ ∀ location,
      (fs.createAllIn directory items).2.tree.get? location = fs.tree.get? location ∨
        ∃ item ∈ items, fs.OnWay (Path.join directory item.1) location := by
  induction items generalizing fs with
  | nil => exact ⟨Grows.refl fs, fun _ => Or.inl rfl⟩
  | cons item rest ih =>
    obtain ⟨grows, here⟩ := createIn_changes fs directory item
    have first (location : Location) :
        (fs.createIn directory item).2.tree.get? location = fs.tree.get? location ∨
          ∃ other ∈ item :: rest, fs.OnWay (Path.join directory other.1) location :=
      (here location).imp_right fun onWay => ⟨item, List.mem_cons_self, onWay⟩
    rw [createAllIn]
    cases attempt : fs.createIn directory item with
    | mk outcome middle =>
      rw [attempt] at grows first
      cases outcome with
      | error error => exact ⟨grows, first⟩
      | ok done =>
        obtain ⟨later, there⟩ := ih middle
        refine ⟨grows.trans later, ?_⟩
        intro location
        rcases there location with same | ⟨other, mem, onWay⟩
        · rw [same]
          exact first location
        · exact Or.inr ⟨other, List.mem_cons_of_mem _ mem, (grows.onWay_iff _ _).mp onWay⟩

end FileSystem

end EsmBundle
