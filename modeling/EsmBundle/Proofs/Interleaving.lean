import EsmBundle.Proofs.BuildOutput
import EsmBundle.Proofs.FileTree.Dots
import EsmBundle.Proofs.ReadingBack
import EsmBundle.Proofs.TwoLoops

/-!
Two builds that write into one tree of files at the same time.

Builds whose artifacts go to places apart from one another do not interfere, be their steps taken
in whatever order: each of them ends as it does alone, and the tree is the same in the end.
They do interfere where a path has dots in it, and too many of them or too long a way before
them; then it matters whether a directory was made by the build itself or by the other.

* `BuildInput.EndsAs` — a loop has come to what the build comes to alone.
* `interleaved_builds` — two builds, for every order of their steps.
* `builds_interfere_behind_dots` — what is to be left out of it.
-/

namespace EsmBundle

/-! ### Two builds -/

/-- A loop has ended as the loop of a build does when that is alone, and so has the build. -/
def BuildInput.EndsAs (input : BuildInput) (loop : WriteLoop) : Prop :=
  loop = (input.ready.1.finish input.ready.2).1 ∧
    ∀ start stop, (input.report start stop).result = loop.outcome start stop

/-- A build with the tool comes to write over the tree that it was given, unless the tool emits
something under a name that leads out of its private directory, or too many levels into it. -/
theorem BuildInput.alike_ready {input : BuildInput} {tool : Tool} {scratch : String}
    (bundles : input.bundler = tool.bundle scratch)
    (isPrivate : IsPrivateDirectory input.files scratch)
    (inside : ∀ file ∈
      (processesForBundle input.loader input.options input.processes).next.emitted,
      StaysInside file.1)
    (removed : ∀ path, input.ready.1.failure ≠ some (.bundle (.scratch ⟨.tooDeep, path⟩))) :
    input.files.Alike input.ready.2 := by
  rcases prepare_cases input.loader input.bundler input.options input.files input.processes with
    ⟨error, failed, left⟩ | ⟨mappings, error, isMap, bundled, failed, left⟩ |
      ⟨artifacts, ready, prepares⟩
  · rw [ready, failed, left]
    exact ⟨rfl, fun _ => rfl⟩
  · rw [ready, failed] at removed
    rw [ready, failed, left]
    rw [bundles] at bundled ⊢
    refine ⟨tool.cwd_bundle scratch _ _ _, fun place => ?_⟩
    refine Tool.get?_bundle isPrivate (FileSystem.not_isStray inside place) fun _ path deep => ?_
    obtain rfl := Except.error.inj (bundled.symm.trans deep)
    exact removed path rfl
  · rw [ready_of_prepares prepares]
    obtain ⟨mappings, emitted, after, isMap, bundled, -⟩ := prepares
    rw [bundles] at bundled
    have left : (tool.bundle scratch (.ofOptions input.options mappings) input.files
        (processesForBundle input.loader input.options input.processes)).files = ready := by
      rw [bundled]
    rw [← left]
    refine ⟨tool.cwd_bundle scratch _ _ _, fun place => ?_⟩
    refine Tool.get?_bundle isPrivate (FileSystem.not_isStray inside place) fun _ path deep => ?_
    rw [bundled] at deep
    cases deep

/-- Two builds that come to write over one tree are each as alone. -/
theorem asAlone_ready {first second : BuildInput} {files : FileSystem} (sound : files.IsSound)
    (firstAlike : files.Alike first.ready.2) (secondAlike : files.Alike second.ready.2) :
    TwoLoops.AsAlone files first.ready.2 second.ready.2 first.ready.1.pending
      second.ready.1.pending ⟨files, first.ready.1, second.ready.1⟩ where
  merges := ⟨firstAlike.cwd, secondAlike.cwd, rfl, fun place =>
    Or.inl ⟨firstAlike.entries place, (secondAlike.entries place).symm⟩⟩
  firstTouches place := Or.inl (firstAlike.entries place)
  secondTouches place := Or.inl (secondAlike.entries place)
  firstSound := firstAlike.isSound sound
  secondSound := secondAlike.isSound sound
  sound := sound
  firstPending := List.Subset.refl _
  secondPending := List.Subset.refl _

/-- A build that does not need too many directories has a loop that does not. -/
theorem BuildInput.shallow {input : BuildInput}
    (shallow : ∀ start stop path,
      (input.report start stop).result ≠ .error (.write ⟨.tooDeep, path⟩)) (path : String) :
    (input.ready.1.finish input.ready.2).1.failure ≠ some (.write ⟨.tooDeep, path⟩) := by
  intro failed
  refine shallow (.whole 0) (.whole 0) path ?_
  rw [(input.report_eq_finish _ _).1]
  exact WriteLoop.outcome_eq_write_iff.mpr failed

/-! ### Builds of one file -/

/-- A tree with nothing but three directories is sound. -/
theorem FileSystem.isSound_blank : FileSystem.blank.IsSound := by
  have empty : FileTree.empty.IsSound := by
    intro location name there
    refine absurd ?_ there
    rw [FileTree.get?, if_neg (by simp)]
    exact FileTree.find?_empty _
  have put {tree : FileTree} (sound : tree.IsSound) (name : String) :
      (tree.put ([] ++ [name]) .directory).IsSound :=
    sound.put rfl fun notDirectory => absurd rfl notDirectory
  exact ⟨put (put (put empty "work") "home") "tmp", rfl⟩

/-- A file in a directory. -/
def fileIn (directory : List Char) : String :=
  String.ofList (directory ++ (List.replicate 1 '/' ++ "x.js".toList))

/-- A build in an empty working directory, for which the tool emits one file. -/
def BuildInput.into (directory : List Char) : BuildInput :=
  let tool : Tool := ⟨"deno", none⟩
  ⟨tool, tool.bundle "<TMP>",
    { BuildOptions.unset.resolved with outputDir := String.ofList directory }, .blank,
    ⟨[.exited 0 [] [] [("x.js", [120])]], []⟩⟩

/-- The private directory of the build holds the file. -/
theorem listing_blankFilled :
    (FileSystem.blankFilled [("x.js", [120])]).listing "<TMP>" = [("x.js", [120])] := by
  have walked : ((FileSystem.blankFilled [("x.js", [120])]).held "<TMP>").listing "<TMP>" =
      [(["x.js"], [120])] := by decide +kernel
  rw [FileSystem.listing, walked]
  exact List.mergeSort_singleton _

/-- The file is read back, wherever it is meant for. -/
theorem collect_blankFilled (destination : String) :
    collect "<TMP>" destination (.blankFilled [("x.js", [120])]) =
      .ok [⟨Path.join destination "x.js", "x"⟩] := by
  have shallow : (FileSystem.blankFilled [("x.js", [120])]).IsShallow "<TMP>" := by decide +kernel
  have short : isLongPath (Path.join "<TMP>" "x.js") = false := by decide +kernel
  have text : Utf8.decode [120] = .ok ['x'] := eq_ok_of_toOption (by decide)
  have artifact : Artifact.ofFile "<TMP>" destination ("x.js", [120]) =
      .ok ⟨Path.join destination "x.js", "x"⟩ := by
    rw [@Artifact.ofFile_eq "<TMP>" destination ("x.js", [120]) short, decodedText, text]
    rfl
  rw [collect, if_neg (Nat.not_lt.mpr shallow.listed), listing_blankFilled, List.mapM_cons,
    artifact, List.mapM_nil]
  rfl

/-- The file goes into the output directory. -/
theorem BuildInput.ready_into {directory : List Char} (ends : Path.EndsInName directory) :
    (BuildInput.into directory).ready.1 = .start [⟨fileIn directory, "x"⟩] ∧
      (BuildInput.into directory).ready.2 = (BuildInput.into ['a']).ready.2 := by
  obtain ⟨opened, isOpen, filling⟩ := (emits_blank [("x.js", [120])]).fills
  have closed := eq_ok_pair_of_toOption (show ((FileSystem.blankFilled
    [("x.js", [120])]).closeScratch "<TMP>").1.toOption = some () by decide +kernel)
  have ready {directory : List Char} (ends : Path.EndsInName directory) :
      (BuildInput.into directory).ready = (.start [⟨fileIn directory, "x"⟩],
        ((FileSystem.blankFilled [("x.js", [120])]).closeScratch "<TMP>").2) := by
    have destination :
        (BundleRequest.ofOptions (BuildInput.into directory).options none).destination =
          String.ofList directory := by
      have given : (nonempty (some (String.ofList directory))).getD "." =
          String.ofList directory := by
        rw [getD_nonempty, if_neg (by simpa using ends.ne_nil)]
      exact given
    have collected := collect_blankFilled (String.ofList directory)
    rw [← destination, ← filling] at collected
    rw [← filling] at closed
    have bundles : (BuildInput.into directory).bundler = Tool.bundle ⟨"deno", none⟩ "<TMP>" := rfl
    have text : (finishText BuildOptions.unset.resolved.replace none "x").1 = "x" := by
      decide
    have replace : (BuildInput.into directory).options.replace =
        BuildOptions.unset.resolved.replace := rfl
    have ready := BuildInput.ready_of_emission bundles rfl rfl isOpen closed collected
    rw [finishArtifacts_fst, replace, destination, List.map_cons, List.map_nil, text,
      Path.join_ofList ends (by decide), filling] at ready
    exact ready
  have one : Path.EndsInName ['a'] := ⟨[], 'a', rfl, by decide⟩
  rw [ready ends, ready one]
  exact ⟨rfl, rfl⟩

/-- Nothing else is changed by bundling. -/
theorem BuildInput.alike_into {directory : List Char} (ends : Path.EndsInName directory) :
    FileSystem.blank.Alike (BuildInput.into directory).ready.2 := by
  have bundles : (BuildInput.into directory).bundler = Tool.bundle ⟨"deno", none⟩ "<TMP>" := rfl
  refine BuildInput.alike_ready bundles isPrivateDirectory_blank ?_ ?_
  · intro file mem
    obtain rfl : file = ("x.js", [120]) := List.mem_singleton.mp mem
    decide
  · intro path
    rw [(BuildInput.ready_into ends).1]
    simp [WriteLoop.start]

/-- The build fails when the file cannot be written. -/
theorem BuildInput.report_into {directory : List Char} (ends : Path.EndsInName directory)
    {error : PathError} (start stop : Reading)
    (failed : ((BuildInput.into directory).ready.2.writeText (fileIn directory) "x").1 =
      .error error) :
    ((BuildInput.into directory).report start stop).result = .error (.write error) := by
  rw [((BuildInput.into directory).report_eq_finish start stop).1,
    WriteLoop.outcome_eq_write_iff, (BuildInput.ready_into ends).1, ← WriteLoop.finish_step]
  have next : (WriteLoop.start [⟨fileIn directory, "x"⟩]).next = some ⟨fileIn directory, "x"⟩ := rfl
  rw [WriteLoop.step_of_next next, failed,
    WriteLoop.finish_of_isOver (WriteLoop.isOver_after_error _ _ _)]
  rfl

/-! ### Interleaved builds -/

/-- **Builds that write apart from one another do not interfere.** Whatever the order of their
steps, each of two builds that is over has written, left and failed with what it does alone; and
when both are over, the tree is the same whatever the order was. -/
theorem interleaved_builds {first second : BuildInput} {files : FileSystem}
    (sound : files.IsSound) (firstAlike : files.Alike first.ready.2)
    (secondAlike : files.Alike second.ready.2)
    (apart : files.Apart first.ready.1.pending second.ready.1.pending)
    (firstStraight : ∀ artifact ∈ first.ready.1.pending, IsStraight artifact.path)
    (secondStraight : ∀ artifact ∈ second.ready.1.pending, IsStraight artifact.path)
    (firstShallow : ∀ start stop path,
      (first.report start stop).result ≠ .error (.write ⟨.tooDeep, path⟩))
    (secondShallow : ∀ start stop path,
      (second.report start stop).result ≠ .error (.write ⟨.tooDeep, path⟩)) :
    let loops : TwoLoops := ⟨files, first.ready.1, second.ready.1⟩
    (∀ turns,
      ((loops.run turns).first.isOver = true → first.EndsAs (loops.run turns).first) ∧
        ((loops.run turns).second.isOver = true → second.EndsAs (loops.run turns).second)) ∧
      ∀ turns others, (loops.run turns).isOver = true → (loops.run others).isOver = true →
        (loops.run turns).files.Alike (loops.run others).files := by
  intro loops
  have runs := (asAlone_ready sound firstAlike secondAlike).run apart firstStraight secondStraight
    (BuildInput.shallow firstShallow) (BuildInput.shallow secondShallow)
  constructor
  · intro turns
    obtain ⟨left, right, -, firstEnds, secondEnds⟩ := runs turns
    constructor
    · intro ended
      rw [WriteLoop.finish_of_isOver ended] at firstEnds
      refine ⟨congrArg Prod.fst firstEnds, fun start stop => ?_⟩
      rw [(first.report_eq_finish start stop).1, ← firstEnds]
    · intro ended
      rw [WriteLoop.finish_of_isOver ended] at secondEnds
      refine ⟨congrArg Prod.fst secondEnds, fun start stop => ?_⟩
      rw [(second.report_eq_finish start stop).1, ← secondEnds]
  · intro turns others ended otherEnded
    obtain ⟨left, right, alone, firstEnds, secondEnds⟩ := runs turns
    obtain ⟨left', right', alone', firstEnds', secondEnds'⟩ := runs others
    rw [TwoLoops.isOver, Bool.and_eq_true] at ended otherEnded
    rw [WriteLoop.finish_of_isOver ended.1] at firstEnds
    rw [WriteLoop.finish_of_isOver ended.2] at secondEnds
    rw [WriteLoop.finish_of_isOver otherEnded.1, ← firstEnds] at firstEnds'
    rw [WriteLoop.finish_of_isOver otherEnded.2, ← secondEnds] at secondEnds'
    obtain rfl : left' = left := congrArg Prod.snd firstEnds'
    obtain rfl : right' = right := congrArg Prod.snd secondEnds'
    refine ⟨alone'.merges.mergedCwd.trans alone.merges.mergedCwd.symm, ?_⟩
    intro place
    rw [alone.merges.get?_eq, alone'.merges.get?_eq]

/-- Two builds write into one directory, which is not there before. -/
theorem interleaved_builds_in_one_directory :
    let first := BuildInput.into "dist".toList
    let second := BuildInput.into "dist/b".toList
    let loops : TwoLoops := ⟨.blank, first.ready.1, second.ready.1⟩
    (loops.run [.second, .first]).isOver = true ∧ (loops.run [.first, .second]).isOver = true ∧
      first.EndsAs (loops.run [.second, .first]).first ∧
      second.EndsAs (loops.run [.second, .first]).second ∧
      (loops.run [.second, .first]).files.Alike (loops.run [.first, .second]).files := by
  intro first second loops
  have pending : first.ready.1.pending = [⟨"dist/x.js", "x"⟩] ∧
      second.ready.1.pending = [⟨"dist/b/x.js", "x"⟩] := by decide +kernel
  have ended : (loops.run [.second, .first]).isOver = true ∧
      (loops.run [.first, .second]).isOver = true := by decide +kernel
  have succeeds : (first.ready.1.finish first.ready.2).1.failure = none ∧
      (second.ready.1.finish second.ready.2).1.failure = none := by decide +kernel
  have apart : FileSystem.blank.Apart first.ready.1.pending second.ready.1.pending := by
    rw [pending.1, pending.2]
    intro artifact mem other otherMem
    obtain rfl := List.mem_singleton.mp mem
    obtain rfl := List.mem_singleton.mp otherMem
    decide +kernel
  have straight {input : BuildInput} {artifact : Artifact}
      (one : input.ready.1.pending = [artifact]) (isStraight : IsStraight artifact.path) :
      ∀ artifact ∈ input.ready.1.pending, IsStraight artifact.path := by
    rw [one]
    intro artifact mem
    obtain rfl := List.mem_singleton.mp mem
    exact isStraight
  have shallow {input : BuildInput}
      (succeeds : (input.ready.1.finish input.ready.2).1.failure = none)
      (start stop : Reading) (path : String) :
      (input.report start stop).result ≠ .error (.write ⟨.tooDeep, path⟩) := by
    rw [(input.report_eq_finish start stop).1, Ne, WriteLoop.outcome_eq_write_iff, succeeds]
    simp
  have firstAlike : FileSystem.blank.Alike first.ready.2 :=
    BuildInput.alike_into ⟨"dis".toList, 't', rfl, by decide⟩
  have secondAlike : FileSystem.blank.Alike second.ready.2 :=
    BuildInput.alike_into ⟨"dist/".toList, 'b', rfl, by decide⟩
  have firstStraight := straight pending.1 ⟨by decide +kernel, by decide +kernel⟩
  have secondStraight := straight pending.2 ⟨by decide +kernel, by decide +kernel⟩
  obtain ⟨ends, same⟩ := interleaved_builds FileSystem.isSound_blank firstAlike secondAlike apart
    firstStraight secondStraight (shallow succeeds.1) (shallow succeeds.2)
  have bothEnded : (loops.run [.second, .first]).first.isOver = true ∧
      (loops.run [.second, .first]).second.isOver = true := by
    simpa only [TwoLoops.isOver, Bool.and_eq_true] using ended.1
  have firstEnds : first.EndsAs (loops.run [.second, .first]).first :=
    (ends [.second, .first]).1 bothEnded.1
  have secondEnds : second.EndsAs (loops.run [.second, .first]).second :=
    (ends [.second, .first]).2 bothEnded.2
  exact ⟨ended.1, ended.2, firstEnds, secondEnds,
    same [.second, .first] [.first, .second] ended.1 ended.2⟩

/-! ### Where builds interfere -/

/-- What a build leaves whose file goes two directories down. -/
def belowTwoDirectories : FileSystem :=
  (FileSystem.blank.writeText (fileIn ['a', '/', 'b']) "x").2

/-- A path to the first of the two directories, so long that no dot can follow. -/
def padded : List Char :=
  ['a'] ++ (List.replicate (4092 + 1) '/' ++ ['.'])

theorem endsInName_a : Path.EndsInName ['a'] := ⟨[], 'a', rfl, by decide⟩

theorem endsInName_padded : Path.EndsInName padded :=
  ⟨['a'] ++ List.replicate (4092 + 1) '/', '.', (List.append_assoc _ _ _).symm, by decide⟩

theorem splitPath_padded : FileSystem.splitPath padded = (['a'], ['.']) :=
  FileSystem.splitPath_append_slashes endsInName_a 4092 (by decide) (by decide)

theorem target_padded (fs : FileSystem) :
    fs.target (String.ofList padded) = fs.target (String.ofList ['a']) := by
  rw [FileSystem.target_of_dot fs (by rw [splitPath_padded]), splitPath_padded]

theorem size_padded : (String.ofList padded).utf8ByteSize = 4095 := by
  have start : (String.ofList ['a']).utf8ByteSize = 1 := by decide
  have dot : (String.ofList ['.']).utf8ByteSize = 1 := by decide
  rw [padded, String.ofList_append, String.ofList_append, String.utf8ByteSize_append,
    String.utf8ByteSize_append, Path.size_replicate_slash, start, dot]

theorem isLongPath_dotted_padded : isLongPath (String.ofList (Path.dotted padded 1)) = true := by
  rw [isLongPath, Path.size_dotted, size_padded]
  decide

theorem nul_not_mem_dotted_padded : '\x00' ∉ Path.dotted padded 1 := by
  intro nul
  simp only [Path.dotted, padded, List.mem_append, List.mem_replicate, List.mem_cons,
    List.not_mem_nil, or_false] at nul
  rcases nul with (nul | ⟨-, nul⟩ | nul) | nul | nul <;> cases nul

/-- A file behind dots is neither above nor below one that is further down. -/
theorem apart_into {directory : List Char} {dots : Nat} (ends : Path.EndsInName directory)
    (names : Path.names directory = "a" :: List.replicate dots ".")
    (leads : FileSystem.blank.target (String.ofList directory) = ["work", "a"]) :
    Descends (Path.ofString (fileIn directory)).steps ∧
      FileSystem.blank.Apart [⟨fileIn directory, "x"⟩] [⟨fileIn ['a', '/', 'b'], "x"⟩] := by
  have last : Path.names "x.js".toList = ["x.js"] := by decide
  constructor
  · rw [Path.ofString, fileIn, String.toList_ofList]
    dsimp only
    rw [Path.names_append_replicate, names, last]
    intro step mem
    simp only [List.cons_append, List.mem_cons, List.mem_append, List.mem_replicate,
      List.not_mem_nil, or_false] at mem
    rcases mem with rfl | ⟨-, rfl⟩ | rfl <;> decide
  · have target : FileSystem.blank.target (fileIn directory) = ["work", "a", "x.js"] := by
      rw [fileIn, FileSystem.target_append_slash _ ends (by decide) (by decide),
        leads]
      decide
    have otherTarget : FileSystem.blank.target (fileIn ['a', '/', 'b']) =
        ["work", "a", "b", "x.js"] := by decide
    intro artifact mem other otherMem
    obtain rfl := List.mem_singleton.mp mem
    obtain rfl := List.mem_singleton.mp otherMem
    rw [target, otherTarget]
    decide

/-- Alone a build cannot make a directory behind too many dots. -/
theorem BuildInput.report_into_dotted {count : Nat} (many : Bounds.madeLevels ≤ count)
    (start stop : Reading) :
    ∃ path, ((BuildInput.into (Path.dotted ['a'] count)).report start stop).result =
      .error (.write ⟨.tooDeep, path⟩) := by
  have alike := BuildInput.alike_into (endsInName_a.dotted count)
  have place : FileSystem.blank.target (String.ofList ['a']) = ["work", "a"] := by decide
  have vacant : (BuildInput.into (Path.dotted ['a'] count)).ready.2.tree.get?
      ((BuildInput.into (Path.dotted ['a'] count)).ready.2.target (String.ofList ['a'])) =
        none := by
    rw [FileSystem.target_of_cwd alike.cwd, place, alike.entries]
    decide
  obtain ⟨path, failed⟩ := FileSystem.writeBelow_dotted_of_vacant endsInName_a
    (by decide : '/' ∉ "x.js".toList) vacant many (Utf8.encode "x".toList)
  exact ⟨path, BuildInput.report_into (endsInName_a.dotted count) _ _ failed⟩

/-- After the other build has made the directory, the dots do not matter. -/
theorem writeText_dotted_belowTwoDirectories {count : Nat} (short : 6 + 2 * count ≤ 4095) :
    (belowTwoDirectories.writeText (fileIn (Path.dotted ['a'] count)) "x").1 = .ok () := by
  have size : isLongPath (fileIn (Path.dotted ['a'] count)) = false := by
    have start : (String.ofList ['a']).utf8ByteSize = 1 := by decide
    have rest : (String.ofList (List.replicate 1 '/' ++ "x.js".toList)).utf8ByteSize = 5 := by
      decide
    rw [isLongPath, fileIn, String.ofList_append, String.utf8ByteSize_append, Path.size_dotted,
      start, rest]
    exact decide_eq_false (by omega)
  have place : belowTwoDirectories.target (String.ofList ['a']) = ["work", "a"] := by
    decide
  have found : belowTwoDirectories.isDirectory (String.ofList ['a']) = true := by decide
  refine FileSystem.writeBelow_dotted_of_isDirectory endsInName_a found (by decide)
    (by decide) (by decide) size (by decide) (by decide) ?_ ?_ _
  · rw [place]
    decide +kernel
  · rw [place]
    decide +kernel

/-- Alone a build makes the directories of a path that is too long, and then cannot write the
file. -/
theorem BuildInput.report_into_padded (start stop : Reading) :
    ((BuildInput.into (Path.dotted padded 1)).report start stop).result =
      .error (.write ⟨.nameTooLong, fileIn (Path.dotted padded 1)⟩) := by
  have ends := endsInName_padded.dotted 1
  have split : FileSystem.splitPath (Path.dotted padded 1) = (padded, ['.']) :=
    FileSystem.splitPath_dotted endsInName_padded 0
  let ready := (BuildInput.into (Path.dotted padded 1)).ready.2
  have alike : FileSystem.blank.Alike ready := BuildInput.alike_into ends
  have place : FileSystem.blank.target (String.ofList ['a']) = ["work", "a"] := by decide
  have absent {text : String} (leads : FileSystem.blank.target text = ["work", "a"]) :
      ready.isThere text = false := by
    refine FileSystem.isThere_of_vacant ?_
    rw [FileSystem.target_of_cwd alike.cwd, leads, alike.entries]
    decide
  -- The directory itself is made first, and then the two dots are passed over.
  have made : ready.makeDirectoriesWithin (Bounds.madeLevels - 2) ['a'] =
      (.ok (), (ready.makeDirectoriesWithin (Bounds.madeLevels - 2) ['a']).2) := by
    refine eq_ok_pair_of_toOption ?_
    have same : ready = (BuildInput.into ['a']).ready.2 := (BuildInput.ready_into ends).2
    rw [same]
    decide +kernel
  have missing : ready.headIsMissing padded = true := by
    refine FileSystem.headIsMissing_iff.mpr ?_
    rw [splitPath_padded]
    exact ⟨by simp, by simp, absent place⟩
  have missingDot : ready.headIsMissing (Path.dotted padded 1) = true := by
    refine FileSystem.headIsMissing_iff.mpr ?_
    rw [split]
    exact ⟨endsInName_padded.ne_nil, by simp, absent (by rw [target_padded, place])⟩
  have madePadded := FileSystem.makeDirectoriesWithin_of_missing_dot
    (by rw [splitPath_padded]) missing (by rw [splitPath_padded]; exact made)
  have madeDot := FileSystem.makeDirectoriesWithin_of_missing_dot (by rw [split]) missingDot
    (by rw [split]; exact madePadded)
  have clean : '\x00' ∉ Path.dotted padded 1 ++ (List.replicate 1 '/' ++ "x.js".toList) := by
    intro nul
    rcases List.mem_append.mp nul with nul | nul
    · exact nul_not_mem_dotted_padded nul
    · revert nul
      decide
  have long := FileSystem.isLongPath_of_begins
    (List.prefix_append (Path.dotted padded 1) (List.replicate 1 '/' ++ "x.js".toList))
    isLongPath_dotted_padded
  exact BuildInput.report_into ends _ _
    (FileSystem.writeBelow_of_isLongPath ends (by decide) madeDot long clean
      (Utf8.encode "x".toList))

/-- After the other build has made the directory, the last dot is looked at, and is too far. -/
theorem writeText_padded_belowTwoDirectories :
    (belowTwoDirectories.writeText (fileIn (Path.dotted padded 1)) "x").1 =
      .error ⟨.nameTooLong, String.ofList (Path.dotted padded 1)⟩ := by
  have split : FileSystem.splitPath (Path.dotted padded 1) = (padded, ['.']) :=
    FileSystem.splitPath_dotted endsInName_padded 0
  have short : isLongPath (String.ofList padded) = false := by
    rw [isLongPath, size_padded]
    decide
  have there : belowTwoDirectories.isDirectory (String.ofList ['a']) = true := by decide
  have found : belowTwoDirectories.isDirectory (String.ofList padded) = true :=
    FileSystem.isDirectory_of_dot (by rw [splitPath_padded]) (by rw [splitPath_padded]; simp) short
      (by rw [splitPath_padded]; exact there)
  have isThere : belowTwoDirectories.isThere (String.ofList padded) = true :=
    FileSystem.isThere_iff.mpr ⟨_, FileSystem.isDirectory_iff.mp found⟩
  have notMissing : belowTwoDirectories.headIsMissing (Path.dotted padded 1) = false := by
    simp [FileSystem.headIsMissing, split, isThere]
  exact FileSystem.writeBelow_of_isLongPath_directory (endsInName_padded.dotted 1)
    (by decide) notMissing isLongPath_dotted_padded nul_not_mem_dotted_padded
    (Utf8.encode "x".toList)

/-- A build of one file that writes after the other build. -/
theorem run_into {directory : List Char} (ends : Path.EndsInName directory) :
    let input := BuildInput.into directory
    let other := BuildInput.into ['a', '/', 'b']
    let loops : TwoLoops :=
      TwoLoops.run ⟨.blank, input.ready.1, other.ready.1⟩ [.second, .first]
    input.ready.1.pending = [⟨fileIn directory, "x"⟩] ∧
      other.ready.1.pending = [⟨fileIn ['a', '/', 'b'], "x"⟩] ∧
      loops.isOver = true ∧
      loops.first = (WriteLoop.start [⟨fileIn directory, "x"⟩]).after ⟨fileIn directory, "x"⟩
        (belowTwoDirectories.writeText (fileIn directory) "x").1 := by
  have otherEnds : Path.EndsInName ['a', '/', 'b'] := ⟨['a', '/'], 'b', rfl, by decide⟩
  dsimp only
  rw [(BuildInput.ready_into ends).1, (BuildInput.ready_into otherEnds).1]
  exact ⟨rfl, rfl, TwoLoops.run_second_first .blank ⟨fileIn directory, "x"⟩
    ⟨fileIn ['a', '/', 'b'], "x"⟩⟩

/-- But behind dots builds do interfere: too many of them can be passed once the other build has
made the directory, and in a path that is too long they fail sooner then. -/
theorem builds_interfere_behind_dots :
    let other := BuildInput.into ['a', '/', 'b']
    let run (input : BuildInput) : TwoLoops :=
      TwoLoops.run ⟨.blank, input.ready.1, other.ready.1⟩ [.second, .first]
    let many := BuildInput.into (Path.dotted ['a'] 1000)
    let long := BuildInput.into (Path.dotted padded 1)
    (∀ input ∈ [many, long],
      (∀ artifact ∈ input.ready.1.pending ++ other.ready.1.pending,
        Descends (Path.ofString artifact.path).steps) ∧
      FileSystem.blank.Apart input.ready.1.pending other.ready.1.pending ∧
      (run input).isOver = true) ∧
    (∃ path, (many.report (.whole 0) (.whole 0)).result = .error (.write ⟨.tooDeep, path⟩)) ∧
    (run many).first.failure = none ∧
    (long.report (.whole 0) (.whole 0)).result =
      .error (.write ⟨.nameTooLong, fileIn (Path.dotted padded 1)⟩) ∧
    (run long).first.failure =
      some (.write ⟨.nameTooLong, String.ofList (Path.dotted padded 1)⟩) := by
  have otherDescends : Descends (Path.ofString (fileIn ['a', '/', 'b'])).steps := by decide +kernel
  have place : FileSystem.blank.target (String.ofList ['a']) = ["work", "a"] := by decide +kernel
  have isName : Path.names ['a'] = ["a"] := by decide +kernel
  have isDot : Path.names ['.'] = ["."] := by decide +kernel
  have manyNames : Path.names (Path.dotted ['a'] 1000) = "a" :: List.replicate 1000 "." := by
    rw [Path.names_dotted, isName, List.singleton_append]
  have longNames : Path.names (Path.dotted padded 1) = "a" :: List.replicate 2 "." := by
    rw [Path.names_dotted, padded, Path.names_append_replicate, isName, isDot]
    rfl
  have manyEnds := endsInName_a.dotted 1000
  have longEnds := endsInName_padded.dotted 1
  have manyApart := apart_into manyEnds manyNames
    (by rw [FileSystem.target_dotted _ endsInName_a, place])
  have longApart := apart_into longEnds longNames
    (by rw [FileSystem.target_dotted _ endsInName_padded, target_padded, place])
  obtain ⟨manyPending, otherPending, manyOver, manyLoop⟩ := run_into manyEnds
  obtain ⟨longPending, -, longOver, longLoop⟩ := run_into longEnds
  rw [writeText_dotted_belowTwoDirectories (by decide)] at manyLoop
  rw [writeText_padded_belowTwoDirectories] at longLoop
  have descends {directory : List Char} (here : Descends (Path.ofString (fileIn directory)).steps) :
      ∀ artifact ∈ [(⟨fileIn directory, "x"⟩ : Artifact)] ++ [⟨fileIn ['a', '/', 'b'], "x"⟩],
        Descends (Path.ofString artifact.path).steps := by
    intro artifact mem
    rcases List.mem_cons.mp mem with rfl | mem
    · exact here
    · obtain rfl := List.mem_singleton.mp mem
      exact otherDescends
  intro other run many long
  refine ⟨?_, BuildInput.report_into_dotted (by decide) _ _, ?_,
    BuildInput.report_into_padded _ _, ?_⟩
  · intro input mem
    rcases List.mem_cons.mp mem with rfl | mem
    · rw [manyPending, otherPending]
      exact ⟨descends manyApart.1, manyApart.2, manyOver⟩
    · obtain rfl := List.mem_singleton.mp mem
      rw [longPending, otherPending]
      exact ⟨descends longApart.1, longApart.2, longOver⟩
  · rw [manyLoop]
    rfl
  · rw [longLoop]
    rfl

end EsmBundle
