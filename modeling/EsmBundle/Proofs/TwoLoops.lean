import EsmBundle.Proofs.FileTree.Mirroring
import EsmBundle.Proofs.WriteLoop

/-!
Two loops that write into one tree of files by turns.

The steps of the loops are taken in any order. What the tree holds is then at every place what
it holds when one of the loops is alone: that loop is the only one that has changed the place,
or both have made a directory there. With this each step ends as it does alone.

* `TwoLoops.run` — the steps of two loops, taken by turns.
* `FileSystem.Merges` — what two loops have done alone, in one tree.
* `TwoLoops.AsAlone.step` — one step; `TwoLoops.AsAlone.run` — any number of them.
-/

namespace EsmBundle

/-! ### Two loops -/

/-- Two loops over one tree of files. -/
structure TwoLoops where
  files : FileSystem
  first : WriteLoop
  second : WriteLoop

/-- Whose step is next. -/
inductive Turn where
  | first
  | second
deriving DecidableEq, Repr

namespace TwoLoops

/-- The loops after one of them has taken a step. -/
def turn (loops : TwoLoops) : Turn → TwoLoops
  | .first =>
    let (first, files) := loops.first.step loops.files
    ⟨files, first, loops.second⟩
  | .second =>
    let (second, files) := loops.second.step loops.files
    ⟨files, loops.first, second⟩

/-- The loops after a number of turns. -/
def run (loops : TwoLoops) (turns : List Turn) : TwoLoops :=
  turns.foldl turn loops

/-- Both loops are over. -/
def isOver (loops : TwoLoops) : Bool :=
  loops.first.isOver && loops.second.isOver

/-- Two loops over one artifact each, of which the second goes first. -/
theorem run_second_first (files : FileSystem) (first second : Artifact) :
    let loops : TwoLoops := ⟨files, .start [first], .start [second]⟩
    let middle := (files.writeText second.path second.text).2
    (loops.run [.second, .first]).isOver = true ∧
      (loops.run [.second, .first]).first =
        (WriteLoop.start [first]).after first (middle.writeText first.path first.text).1 := by
  intro loops middle
  have next (artifact : Artifact) : (WriteLoop.start [artifact]).next = some artifact := rfl
  have ended (artifact : Artifact) (result : Except PathError Unit) :
      ((WriteLoop.start [artifact]).after artifact result).isOver = true := by
    cases result <;> rfl
  have turned : loops.run [.second, .first] =
      ⟨((WriteLoop.start [first]).step ((WriteLoop.start [second]).step files).2).2,
        ((WriteLoop.start [first]).step ((WriteLoop.start [second]).step files).2).1,
        ((WriteLoop.start [second]).step files).1⟩ := rfl
  rw [turned, WriteLoop.step_of_next (next second), WriteLoop.step_of_next (next first),
    TwoLoops.isOver]
  dsimp only [middle]
  rw [ended, ended, Bool.and_self]
  exact ⟨rfl, rfl⟩

end TwoLoops

/-! ### One tree with what two loops have done -/

namespace FileSystem

variable {start left right merged leftAfter mergedAfter : FileSystem} {location : Location}
  {artifacts others : List Artifact}

/-- Paths are taken from the same place and lead to the same entries. -/
structure Alike (fs other : FileSystem) : Prop where
  cwd : other.cwd = fs.cwd
  entries : ∀ place, other.tree.get? place = fs.tree.get? place

/-- What comes after differs from the start only where artifacts go, and by directories that lead to
them. -/
def Touches (start after : FileSystem) (artifacts : List Artifact) : Prop :=
  ∀ place, after.tree.get? place = start.tree.get? place ∨
    ∃ artifact ∈ artifacts, place = start.target artifact.path ∨
      place <+: start.target artifact.path ∧ start.tree.get? place = none ∧
        after.tree.get? place = some .directory

/-- **One tree with the changes of two**: at every place only one of the two differs from the start,
or both have made a directory. -/
structure Merges (start left right merged : FileSystem) : Prop where
  leftCwd : left.cwd = start.cwd
  rightCwd : right.cwd = start.cwd
  mergedCwd : merged.cwd = start.cwd
  entries : ∀ place,
    left.tree.get? place = start.tree.get? place ∧
      merged.tree.get? place = right.tree.get? place ∨
    right.tree.get? place = start.tree.get? place ∧
      merged.tree.get? place = left.tree.get? place ∨
    start.tree.get? place = none ∧ left.tree.get? place = some .directory ∧
      right.tree.get? place = some .directory ∧ merged.tree.get? place = some .directory

theorem Merges.symm (merges : Merges start left right merged) :
    Merges start right left merged := by
  refine ⟨merges.rightCwd, merges.leftCwd, merges.mergedCwd, ?_⟩
  intro place
  rcases merges.entries place with same | same | ⟨vacant, leftMade, rightMade, made⟩
  · exact Or.inr (Or.inl same)
  · exact Or.inl same
  · exact Or.inr (Or.inr ⟨vacant, rightMade, leftMade, made⟩)

/-- What the tree holds is what one of the two has changed, if one of them has. -/
theorem Merges.get?_eq (merges : Merges start left right merged) (place : Location) :
    merged.tree.get? place =
      if left.tree.get? place = start.tree.get? place then right.tree.get? place
      else left.tree.get? place := by
  rcases merges.entries place with ⟨same, here⟩ | ⟨same, here⟩ | ⟨vacant, leftMade, -, here⟩
  · rw [if_pos same, here]
  · split
    · rename_i leftSame
      rw [here, leftSame, same]
    · exact here
  · rw [vacant, leftMade, if_neg (by simp), here]

/-- No place of one loop is a place of the other or leads to one. -/
def Apart (start : FileSystem) (artifacts others : List Artifact) : Prop :=
  ∀ artifact ∈ artifacts, ∀ other ∈ others,
    ¬ start.target artifact.path <+: start.target other.path ∧
      ¬ start.target other.path <+: start.target artifact.path

theorem Apart.symm (apart : start.Apart artifacts others) : start.Apart others artifacts :=
  fun other otherMem artifact mem => (apart artifact mem other otherMem).symm

/-- A place on the way to an artifact of one loop is changed by the other only if that makes a
directory there. -/
theorem Touches.of_onWay (touches : start.Touches right others)
    (apart : start.Apart artifacts others) {artifact : Artifact} (mem : artifact ∈ artifacts)
    {place : Location} (onWay : place <+: start.target artifact.path) :
    right.tree.get? place = start.tree.get? place ∨
      start.tree.get? place = none ∧ right.tree.get? place = some .directory ∧
        place ≠ start.target artifact.path := by
  rcases touches place with same | ⟨other, otherMem, rfl | ⟨otherWay, vacant, made⟩⟩
  · exact Or.inl same
  · exact absurd onWay (apart artifact mem other otherMem).2
  · refine Or.inr ⟨vacant, made, ?_⟩
    rintro rfl
    exact (apart artifact mem other otherMem).1 otherWay

/-- The tree with the changes of both has, on the way to an artifact of one loop, what that loop has
alone, and perhaps further directories. -/
theorem Merges.covers (merges : Merges start left right merged)
    (touches : start.Touches right others) (apart : start.Apart artifacts others)
    {artifact : Artifact} (mem : artifact ∈ artifacts) :
    left.Covers merged (start.target artifact.path) := by
  refine ⟨merges.mergedCwd.trans merges.leftCwd.symm, ?_⟩
  intro place onWay
  have changes := touches.of_onWay apart mem onWay
  rcases merges.entries place with ⟨same, here⟩ | ⟨-, here⟩ | ⟨-, leftMade, -, here⟩
  · rw [here, same]
    rcases changes with rightSame | ⟨vacant, made, strict⟩
    · exact Or.inl rightSame
    · exact Or.inr ⟨vacant, made, strict⟩
  · exact Or.inl here
  · exact Or.inl (here.trans leftMade.symm)

/-- What one loop does alone and in the tree with the changes of both. -/
theorem Merges.of_mirrors (merges : Merges start left right merged)
    (touches : start.Touches right others) (apart : start.Apart artifacts others)
    {artifact : Artifact} (mem : artifact ∈ artifacts)
    (mirrors : Mirrors left leftAfter merged mergedAfter (start.target artifact.path)) :
    Merges start leftAfter right mergedAfter := by
  refine ⟨mirrors.cwd.trans merges.leftCwd, merges.rightCwd,
    mirrors.moreCwd.trans merges.mergedCwd, ?_⟩
  intro place
  rcases mirrors.entries place with ⟨same, mergedSame⟩ | ⟨agree, change⟩
  · rw [same, mergedSame]
    exact merges.entries place
  · have onWay : place <+: start.target artifact.path := by
      rcases change with rfl | ⟨onWay, -⟩
      · exact List.prefix_rfl
      · exact onWay
    rcases touches.of_onWay apart mem onWay with rightSame | ⟨vacant, made, strict⟩
    · exact Or.inr (Or.inl ⟨rightSame, agree⟩)
    · rcases change with here | ⟨-, -, leftMade⟩
      · exact absurd here strict
      · exact Or.inr (Or.inr ⟨vacant, leftMade, made, agree.trans leftMade⟩)

/-- A loop goes on to touch only what its artifacts are about. -/
theorem Touches.of_mirrors (touches : start.Touches left artifacts) {artifact : Artifact}
    (mem : artifact ∈ artifacts)
    (mirrors : Mirrors left leftAfter merged mergedAfter (start.target artifact.path)) :
    start.Touches leftAfter artifacts := by
  intro place
  rcases mirrors.entries place with ⟨same, -⟩ | ⟨-, here | ⟨onWay, vacant, made⟩⟩
  · rw [same]
    exact touches place
  · exact Or.inr ⟨artifact, mem, Or.inl here⟩
  · rcases touches place with before | ⟨other, otherMem, here | ⟨-, -, already⟩⟩
    · exact Or.inr ⟨artifact, mem, Or.inr ⟨onWay, before ▸ vacant, made⟩⟩
    · exact Or.inr ⟨other, otherMem, Or.inl here⟩
    · rw [already] at vacant
      cases vacant

theorem Alike.isSound {fs other : FileSystem} (alike : fs.Alike other) (sound : fs.IsSound) :
    other.IsSound := by
  refine ⟨?_, ?_⟩
  · intro location name there
    rw [alike.entries] at there ⊢
    exact sound.tree location name there
  · rw [alike.entries, alike.cwd]
    exact sound.cwd

end FileSystem

/-! ### Taking turns -/

/-- A path that never leads up and, if it is too long, has no dot among its steps. -/
structure IsStraight (text : String) : Prop where
  descends : Descends (Path.ofString text).steps
  dotless : isLongPath text = true → "." ∉ (Path.ofString text).steps

namespace TwoLoops

variable {start left right files : FileSystem} {first second : WriteLoop} {loops : TwoLoops}
  {artifacts others : List Artifact}

/-- **Two loops as each of them is alone**: their tree has what the one has left in a tree of its
own and what the other has left in another. -/
structure AsAlone (start left right : FileSystem) (artifacts others : List Artifact)
    (loops : TwoLoops) : Prop where
  merges : start.Merges left right loops.files
  firstTouches : start.Touches left artifacts
  secondTouches : start.Touches right others
  firstSound : left.IsSound
  secondSound : right.IsSound
  sound : loops.files.IsSound
  firstPending : loops.first.pending ⊆ artifacts
  secondPending : loops.second.pending ⊆ others

theorem AsAlone.symm (alone : AsAlone start left right artifacts others ⟨files, first, second⟩) :
    AsAlone start right left others artifacts ⟨files, second, first⟩ :=
  ⟨alone.merges.symm, alone.secondTouches, alone.firstTouches, alone.secondSound,
    alone.firstSound, alone.sound, alone.secondPending, alone.firstPending⟩

/-- **One step** ends as it does alone. -/
theorem AsAlone.step (alone : AsAlone start left right artifacts others ⟨files, first, second⟩)
    (apart : start.Apart artifacts others)
    (straight : ∀ artifact ∈ artifacts, IsStraight artifact.path)
    (shallow : ∀ path, (first.finish left).1.failure ≠ some (.write ⟨.tooDeep, path⟩)) :
    (first.step files).1 = (first.step left).1 ∧
      AsAlone start (first.step left).2 right artifacts others
        ⟨(first.step files).2, (first.step left).1, second⟩ := by
  have pending := List.Subset.trans (first.pending_step_subset left) alone.firstPending
  cases next : first.next with
  | none =>
    have ended : first.isOver = true := Option.isNone_iff_eq_none.mpr next
    rw [WriteLoop.step_of_isOver ended, WriteLoop.step_of_isOver ended]
    exact ⟨rfl, alone⟩
  | some artifact =>
    obtain ⟨-, rest, left'⟩ := WriteLoop.next_eq_some next
    have mem : artifact ∈ artifacts := alone.firstPending (by simp [left'])
    have targets : left.target artifact.path = start.target artifact.path :=
      FileSystem.target_of_cwd alone.merges.leftCwd _
    have merges : start.Merges left right files := alone.merges
    have sound : files.IsSound := alone.sound
    have covers := merges.covers alone.secondTouches apart mem
    rw [← targets] at covers
    have notTooDeep : ∀ path,
        (left.writeText artifact.path artifact.text).1 ≠ .error ⟨.tooDeep, path⟩ := by
      intro path failed
      refine shallow path ?_
      rw [← WriteLoop.finish_step, WriteLoop.step_of_next next, failed,
        WriteLoop.finish_of_isOver (WriteLoop.isOver_after_error _ _ _)]
      rfl
    obtain ⟨same, mirrors⟩ := FileSystem.writeText_mirrors alone.firstSound sound covers
      (straight artifact mem).descends (straight artifact mem).dotless notTooDeep
    rw [targets] at mirrors
    rw [WriteLoop.step_of_next next] at pending ⊢
    rw [WriteLoop.step_of_next next]
    dsimp only at pending ⊢
    have mergesAfter := merges.of_mirrors alone.secondTouches apart mem mirrors
    have touchesAfter := alone.firstTouches.of_mirrors mem mirrors
    have leftSound := alone.firstSound.writeText artifact.path artifact.text
    have filesSound := sound.writeText artifact.path artifact.text
    generalize files.writeText artifact.path artifact.text = filesAttempt at *
    generalize left.writeText artifact.path artifact.text = leftAttempt at *
    exact ⟨congrArg (first.after artifact) same, mergesAfter, touchesAfter, alone.secondTouches,
      leftSound, alone.secondSound, filesSound, pending, alone.secondPending⟩

/-- **Any number of turns** leave each loop where it comes to alone. -/
theorem AsAlone.run (alone : AsAlone start left right artifacts others loops)
    (apart : start.Apart artifacts others)
    (firstStraight : ∀ artifact ∈ artifacts, IsStraight artifact.path)
    (secondStraight : ∀ artifact ∈ others, IsStraight artifact.path)
    (firstShallow : ∀ path,
      (loops.first.finish left).1.failure ≠ some (.write ⟨.tooDeep, path⟩))
    (secondShallow : ∀ path,
      (loops.second.finish right).1.failure ≠ some (.write ⟨.tooDeep, path⟩))
    (turns : List Turn) :
    ∃ leftAfter rightAfter,
      AsAlone start leftAfter rightAfter artifacts others (loops.run turns) ∧
        (loops.run turns).first.finish leftAfter = loops.first.finish left ∧
        (loops.run turns).second.finish rightAfter = loops.second.finish right := by
  induction turns generalizing loops left right with
  | nil => exact ⟨left, right, alone, rfl, rfl⟩
  | cons turn rest ih =>
    obtain ⟨files, first, second⟩ := loops
    cases turn with
    | first =>
      obtain ⟨same, next⟩ := alone.step apart firstStraight firstShallow
      have finishes := first.finish_step left
      have turned : TwoLoops.turn ⟨files, first, second⟩ .first =
          ⟨(first.step files).2, (first.step left).1, second⟩ := by
        rw [← same]
        rfl
      rw [run, List.foldl_cons, turned]
      rw [← finishes] at firstShallow
      rw [← finishes]
      exact ih next firstShallow secondShallow
    | second =>
      obtain ⟨same, next⟩ := alone.symm.step apart.symm secondStraight secondShallow
      have finishes := second.finish_step right
      have turned : TwoLoops.turn ⟨files, first, second⟩ .second =
          ⟨(second.step files).2, first, (second.step right).1⟩ := by
        rw [← same]
        rfl
      rw [run, List.foldl_cons, turned]
      rw [← finishes] at secondShallow
      rw [← finishes]
      exact ih next.symm firstShallow secondShallow

end TwoLoops

end EsmBundle
