import EsmBundle.Proofs.FileTree.Writing

/-!
Paths that never lead up, in trees that hang together.

In a sound tree all that leads to an entry is a directory. A path without `..` passes only what
leads to where it ends, so how a walk along it ends is decided by the longest part of it that
is there.

* `FileTree.IsSound`, `FileSystem.IsSound` — every entry is in a directory.
* `FileTree.Settled` — a walk to a location does not end for want of an entry.
* `FileSystem.Covers` — a file system with further directories on the way to a location.
* `FileSystem.Covers.walk_eq` — walks to settled locations end in the same way there.
-/

namespace EsmBundle

/-! ### Going down -/

/-- Steps that never lead up. -/
def Descends (steps : List String) : Prop :=
  ∀ step ∈ steps, step ≠ ".."

instance (steps : List String) : Decidable (Descends steps) :=
  inferInstanceAs (Decidable (∀ step ∈ steps, step ≠ ".."))

theorem Descends.left {steps more : List String} (descends : Descends (steps ++ more)) :
    Descends steps :=
  fun step mem => descends step (List.mem_append_left more mem)

theorem Descends.right {steps more : List String} (descends : Descends (steps ++ more)) :
    Descends more :=
  fun step mem => descends step (List.mem_append_right steps mem)

/-- A step that does not lead up leads to the same place or one further down. -/
theorem begins_followStep (location : Location) {step : String} (down : step ≠ "..") :
    location <+: followStep location step := by
  rw [followStep, if_neg down]
  split
  · exact List.prefix_rfl
  · exact List.prefix_append location [step]

/-- Steps that never lead up lead to where they start or below. -/
theorem Descends.begins {steps : List String} (descends : Descends steps) (location : Location) :
    location <+: followAll location steps := by
  induction steps generalizing location with
  | nil => exact List.prefix_rfl
  | cons step rest ih =>
    obtain ⟨down, others⟩ := List.forall_mem_cons.mp descends
    exact (begins_followStep location down).trans (ih others _)

/-- What some of the steps lead to is on the way to where all of them lead. -/
theorem Descends.begins_append {steps more : List String} (descends : Descends (steps ++ more))
    (location : Location) :
    followAll location steps <+: followAll location (steps ++ more) := by
  rw [followAll_append]
  exact descends.right.begins _

/-! ### Sound trees -/

/-- What is in a tree is in a directory. -/
def FileTree.IsSound (tree : FileTree) : Prop :=
  ∀ location name, tree.get? (location ++ [name]) ≠ none →
    tree.get? location = some .directory

/-- The tree is sound and the working directory is there. -/
structure FileSystem.IsSound (fs : FileSystem) : Prop where
  tree : fs.tree.IsSound
  cwd : fs.tree.get? fs.cwd = some .directory

namespace FileTree

variable {tree after : FileTree} {location place above : Location} {entry : Entry}

/-- All that leads to an entry of a sound tree is a directory. -/
theorem IsSound.directory_above (sound : tree.IsSound) (there : tree.get? place ≠ none)
    (begins : above <+: place) (strict : above ≠ place) : tree.get? above = some .directory := by
  obtain ⟨below, rfl⟩ := begins
  induction below generalizing above with
  | nil => exact absurd (List.append_nil above).symm strict
  | cons name rest ih =>
    rw [← List.singleton_append, ← List.append_assoc] at there
    refine sound above name ?_
    by_cases last : rest = []
    · rwa [last, List.append_nil] at there
    · rw [ih there (by simpa using last)]
      simp

/-- A tree stays sound when an entry is put in a directory, save over a directory. -/
theorem IsSound.put (sound : tree.IsSound) {name : String}
    (parent : tree.get? location = some .directory)
    (free : entry ≠ .directory → tree.get? (location ++ [name]) ≠ some .directory) :
    (tree.put (location ++ [name]) entry).IsSound := by
  have notRoot : location ++ [name] ≠ [] := by simp
  intro other last there
  rw [get?_put notRoot] at there ⊢
  by_cases new : other ++ [last] = location ++ [name]
  · obtain ⟨rfl, -⟩ := List.append_inj' new rfl
    rw [if_neg (by simp), parent]
  · rw [if_neg new] at there
    have directory := sound other last there
    split
    · rename_i same
      subst same
      by_cases isDirectory : entry = .directory
      · rw [isDirectory]
      · exact absurd directory (free isDirectory)
    · exact directory

/-- Something is at a location, or on the way to it is something that is no directory. -/
def Settled (tree : FileTree) (location : Location) : Prop :=
  ∃ place entry, place <+: location ∧ tree.get? place = some entry ∧
    (entry = .directory → place = location)

theorem settled_of_there (there : tree.get? location = some entry) : tree.Settled location :=
  ⟨location, entry, List.prefix_rfl, there, fun _ => rfl⟩

/-- What leads to a settled location is settled. -/
theorem IsSound.settled_above (sound : tree.IsSound) (settled : tree.Settled location)
    (begins : above <+: location) : tree.Settled above := by
  obtain ⟨place, entry, onWay, there, last⟩ := settled
  rcases List.prefix_or_prefix_of_prefix onWay begins with before | behind
  · refine ⟨place, entry, before, there, ?_⟩
    intro isDirectory
    obtain rfl := last isDirectory
    exact before.eq_of_length_le begins.length_le
  · by_cases same : above = place
    · exact same ▸ settled_of_there there
    · exact settled_of_there (sound.directory_above (by rw [there]; simp) behind same)

/-- A settled location that can be reached through directories is not empty. -/
theorem Settled.ne_none_of_reached (settled : tree.Settled location)
    (reached : ∀ above, above <+: location → above ≠ location →
      tree.get? above = some .directory) : tree.get? location ≠ none := by
  obtain ⟨place, entry, onWay, there, last⟩ := settled
  by_cases same : place = location
  · rw [← same, there]
    simp
  · have directory := reached place onWay same
    rw [there, Option.some.injEq] at directory
    exact absurd (last directory) same

/-- A walk that never leads up ends in the same way in another tree that has the same at every place
that it can reach. -/
theorem walk_congr {steps : List String} (descends : Descends steps)
    (agree : ∀ place, location <+: place → place <+: followAll location steps →
      (∀ above, location <+: above → above <+: place → above ≠ place →
        tree.get? above = some .directory) →
      after.get? place = tree.get? place) :
    after.walk location steps = tree.walk location steps := by
  induction steps generalizing location with
  | nil =>
    have here : after.get? location = tree.get? location := by
      refine agree location List.prefix_rfl List.prefix_rfl ?_
      intro above begins ends strict
      exact absurd (ends.eq_of_length_le begins.length_le) strict
    rw [walk_nil, walk_nil, here]
  | cons step rest ih =>
    obtain ⟨down, others⟩ := List.forall_mem_cons.mp descends
    have here : after.get? location = tree.get? location := by
      refine agree location List.prefix_rfl (descends.begins location) ?_
      intro above begins ends strict
      exact absurd (ends.eq_of_length_le begins.length_le) strict
    rw [walk_cons, walk_cons, here]
    cases entry : tree.get? location with
    | none => rfl
    | some entry' =>
      cases entry' with
      | file contents => rfl
      | directory =>
        dsimp only
        rw [if_neg down, if_neg down]
        split
        · rename_i stays
          apply ih others
          simpa [followAll, followStep, stays] using agree
        · rename_i moves
          split
          · rfl
          · split
            · rfl
            · apply ih others
              have next : followStep location step = location ++ [step] := by
                rw [followStep, if_neg moves, if_neg down]
              rw [followAll, List.foldl_cons, next] at agree
              intro place begins ends reached
              refine agree place ((List.prefix_append _ _).trans begins) ends ?_
              intro above first last strict
              -- Either the walk is still where it starts, or it has taken the step.
              rcases List.prefix_or_prefix_of_prefix begins last with further | before
              · exact reached above further last strict
              · rcases List.prefix_concat_iff.mp before with rfl | stays
                · exact reached _ List.prefix_rfl last strict
                · rwa [stays.eq_of_length_le first.length_le]

end FileTree

/-! ### Further directories -/

namespace FileSystem

variable {fs more : FileSystem} {text : String} {location place : Location} {entry : Entry}

/-- Where a path leads depends on the working directory only. -/
theorem target_of_cwd (cwd : more.cwd = fs.cwd) (text : String) :
    more.target text = fs.target text := by
  simp only [target, start, cwd]

/-- The start of a path in a sound file system is a directory. -/
theorem IsSound.start (sound : fs.IsSound) (path : Path) :
    fs.tree.get? (fs.start path) = some .directory := by
  rw [FileSystem.start]
  split
  · rfl
  · exact sound.cwd

/-- Where all steps of a path but the last lead. -/
def parentTarget (fs : FileSystem) (text : String) : Location :=
  followAll (fs.start (Path.ofString text)) (Path.ofString text).steps.dropLast

/-- A file system has what another has on the way to a location, and may have further directories
there. At the location itself both have the same. -/
structure Covers (fs more : FileSystem) (location : Location) : Prop where
  cwd : more.cwd = fs.cwd
  entries : ∀ place, place <+: location → more.tree.get? place = fs.tree.get? place ∨
    fs.tree.get? place = none ∧ more.tree.get? place = some .directory ∧ place ≠ location

namespace Covers

/-- What is there stays as it is. -/
theorem get?_eq (covers : fs.Covers more location) (onWay : place <+: location)
    (there : fs.tree.get? place = some entry) : more.tree.get? place = some entry := by
  rcases covers.entries place onWay with same | ⟨vacant, -⟩
  · rw [same, there]
  · rw [vacant] at there
    cases there

/-- At the location itself nothing differs. -/
theorem get?_self (covers : fs.Covers more location) :
    more.tree.get? location = fs.tree.get? location :=
  (covers.entries location List.prefix_rfl).resolve_right fun differs => differs.2.2 rfl

/-- **Walks to settled locations** end in the same way. -/
theorem walk_eq (covers : fs.Covers more location) (sound : fs.IsSound) {path : Path}
    {steps : List String} (descends : Descends steps)
    (onWay : followAll (fs.start path) steps <+: location)
    (settled : fs.tree.Settled (followAll (fs.start path) steps)) :
    more.tree.walk (more.start path) steps = fs.tree.walk (fs.start path) steps := by
  have start : more.start path = fs.start path := by
    rw [FileSystem.start, FileSystem.start, covers.cwd]
  rw [start]
  refine FileTree.walk_congr descends ?_
  intro place begins ends reached
  have there : fs.tree.get? place ≠ none := by
    refine (sound.tree.settled_above settled ends).ne_none_of_reached ?_
    intro above first strict
    -- What leads to the start is a directory because the start is one.
    rcases List.prefix_or_prefix_of_prefix begins first with further | before
    · exact reached above further first strict
    · by_cases same : above = fs.start path
      · rw [same]
        exact sound.start path
      · exact sound.tree.directory_above (by rw [sound.start path]; simp) before same
  obtain ⟨entry, there⟩ := Option.ne_none_iff_exists'.mp there
  rw [there]
  exact covers.get?_eq (ends.trans onWay) there

/-- Paths to settled locations lead to the same. -/
theorem stat_eq (covers : fs.Covers more location) (sound : fs.IsSound)
    (descends : Descends (Path.ofString text).steps) (onWay : fs.target text <+: location)
    (settled : fs.tree.Settled (fs.target text)) : more.stat text = fs.stat text := by
  rw [FileSystem.stat_eq, FileSystem.stat_eq, covers.walk_eq sound descends onWay settled]

/-- Parents at settled locations are the same. -/
theorem parent_eq (covers : fs.Covers more location) (sound : fs.IsSound)
    (descends : Descends (Path.ofString text).steps) (onWay : fs.target text <+: location)
    (settled : fs.tree.Settled (fs.parentTarget text)) : more.parent text = fs.parent text := by
  have walks : more.tree.walk (more.start (Path.ofString text))
      (Path.ofString text).steps.dropLast =
        fs.tree.walk (fs.start (Path.ofString text)) (Path.ofString text).steps.dropLast := by
    obtain ⟨last, whole⟩ := List.dropLast_prefix (Path.ofString text).steps
    rw [target, ← whole] at onWay
    rw [← whole] at descends
    exact covers.walk_eq sound descends.left ((descends.begins_append _).trans onWay) settled
  rw [FileSystem.parent_eq, FileSystem.parent_eq, walks]

/-- What is there is there in both. -/
theorem isThere (covers : fs.Covers more location) (sound : fs.IsSound)
    (descends : Descends (Path.ofString text).steps) (onWay : fs.target text <+: location)
    (found : fs.isThere text = true) : more.isThere text = true := by
  obtain ⟨⟨place, entry⟩, found⟩ := isThere_iff.mp found
  obtain ⟨rfl, there⟩ := get?_of_stat found
  have same := covers.stat_eq sound descends onWay (FileTree.settled_of_there there)
  exact isThere_iff.mpr ⟨_, same.trans found⟩

/-- What is there in one only is a directory. -/
theorem isDirectory_of_new (covers : fs.Covers more location) (sound : fs.IsSound)
    (descends : Descends (Path.ofString text).steps) (onWay : fs.target text <+: location)
    (missing : fs.isThere text = false) (found : more.isThere text = true) :
    more.isDirectory text = true := by
  obtain ⟨⟨place, entry⟩, found⟩ := isThere_iff.mp found
  obtain ⟨rfl, there⟩ := get?_of_stat found
  rw [target_of_cwd covers.cwd] at there
  have absent : fs.tree.get? (fs.target text) = none := by
    cases present : fs.tree.get? (fs.target text) with
    | none => rfl
    | some entry' =>
      have same := covers.stat_eq sound descends onWay (FileTree.settled_of_there present)
      rw [isThere_iff.mpr ⟨_, same ▸ found⟩] at missing
      cases missing
  rcases covers.entries _ onWay with same | ⟨-, isDirectory, -⟩
  · rw [same, absent] at there
    cases there
  · rw [there, Option.some.injEq] at isDirectory
    rw [isDirectory_iff, found, isDirectory]

end Covers

end FileSystem

end EsmBundle
