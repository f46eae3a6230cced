import EsmBundle.Proofs.ProcessProtocol
import EsmBundle.Proofs.ReadingBack

/-!
A single output file.

The tool is told to make the file in its private directory under the last name of the path that was
asked for. What it makes there is read back and goes below the directory part of that path, and so
to where the path leads: the two parts of a path make up the path again, save that a run of slashes
between them becomes one slash.

* `Path.Cut` — a path as its last name, the slashes in front of it, and what is before them.
* `Path.Cut.join_eq` — what the two parts of a path make up.
* `FileSystem.target_eq_followStep` — a path leads one step on from where its directory part leads.
* `bundle_singleOutput` — the artifact of the single file, and those of other files.
-/

namespace EsmBundle

/-! ### The two parts of a path -/

namespace Path

/-- **A path cut before its last name**: the name, all the slashes in front of it, and what stands
before them. Without a slash the path is the name. -/
structure Cut (path : String) (before : List Char) (slashes : Nat) (name : List Char) : Prop where
  whole : path.toList = before ++ (List.replicate slashes '/' ++ name)
  nonempty : name ≠ []
  noSlash : '/' ∉ name
  all : before.getLast? ≠ some '/'
  bare : slashes = 0 → before = []

variable {path : String} {before name : List Char} {slashes : Nat}

/-- The slashes at the end of a text. -/
theorem exists_append_replicate_slash (cs : List Char) :
    ∃ before slashes, cs = before ++ List.replicate slashes '/' ∧ before.getLast? ≠ some '/' := by
  induction cs with
  | nil => exact ⟨[], 0, rfl, by simp⟩
  | cons c rest ih =>
    obtain ⟨before, slashes, rfl, all⟩ := ih
    cases before with
    | nil =>
      by_cases slash : c = '/'
      · exact ⟨[], slashes + 1, by rw [slash]; rfl, by simp⟩
      · exact ⟨[c], slashes, rfl, by simpa using slash⟩
    | cons first others => exact ⟨c :: first :: others, slashes, rfl, by simpa using all⟩

theorem upToSlash_eq_nil {cs : List Char} (noSlash : '/' ∉ cs) : upToSlash cs = [] := by
  rcases upToSlash_eq_nil_or_concat cs with none | ⟨before, some⟩
  · exact none
  · have whole := upToSlash_append_lastName cs
    rw [some] at whole
    exact absurd (whole ▸ by simp) noSlash

/-- Every path with a last name can be cut before it. -/
theorem exists_cut (named : lastNameOf path ≠ "") :
    ∃ before slashes name, Cut path before slashes name := by
  obtain ⟨before, slashes, split, all⟩ := exists_append_replicate_slash (upToSlash path.toList)
  refine ⟨before, slashes, lastName path.toList, ?_, ?_, slash_not_mem_lastName _, all, ?_⟩
  · rw [← List.append_assoc, ← split, upToSlash_append_lastName]
  · intro empty
    rw [lastNameOf, empty] at named
    exact named rfl
  · rintro rfl
    rw [List.replicate_zero, List.append_nil] at split
    rcases upToSlash_eq_nil_or_concat path.toList with none | ⟨rest, some⟩
    · exact split.symm.trans none
    · rw [split] at some
      rw [some, List.getLast?_concat] at all
      exact absurd rfl all

namespace Cut

/-- What stands before the slashes is nothing or ends in a name. -/
theorem before_eq_nil_or_endsInName (cut : Cut path before slashes name) :
    before = [] ∨ EndsInName before := by
  rcases List.eq_nil_or_concat before with rfl | ⟨rest, c, rfl⟩
  · exact Or.inl rfl
  · refine Or.inr ⟨rest, c, List.concat_eq_append, ?_⟩
    rintro rfl
    exact cut.all (by simp)

theorem path_eq (cut : Cut path before slashes name) :
    path = String.ofList (before ++ (List.replicate slashes '/' ++ name)) := by
  rw [← cut.whole, String.ofList_toList]

/-- The name is the last name of the path. -/
theorem lastName_eq (cut : Cut path before slashes name) : lastName path.toList = name := by
  rw [cut.whole]
  cases slashes with
  | zero =>
    have whole := upToSlash_append_lastName name
    rw [upToSlash_eq_nil cut.noSlash, List.nil_append] at whole
    rw [cut.bare rfl]
    exact whole
  | succ more => exact lastName_append_slashes before more cut.noSlash

/-- The directory part is what stands before the slashes; if that is nothing, it is the slashes. -/
theorem directory_eq (cut : Cut path before slashes name) :
    directory path.toList = if before = [] then List.replicate slashes '/' else before := by
  cases slashes with
  | zero =>
    rw [if_pos (cut.bare rfl), cut.whole, cut.bare rfl, directory, List.replicate_zero,
      List.nil_append, List.nil_append, upToSlash_eq_nil cut.noSlash]
    rfl
  | succ more =>
    rw [cut.whole]
    rcases cut.before_eq_nil_or_endsInName with rfl | ends
    · rw [if_pos rfl, directory, upToSlash_append_slashes _ _ cut.noSlash, List.nil_append,
        stripSlashes, if_pos (by simp [allSlashes])]
    · rw [if_neg ends.ne_nil, directory_append_slashes ends more cut.noSlash]

/-- **The two parts of a path make it up again**, with one slash for all that stand between them. -/
theorem join_eq (cut : Cut path before slashes name) :
    join (directoryOf path) (lastNameOf path) =
      if slashes ≤ 1 ∨ before = [] then path else String.ofList (before ++ '/' :: name) := by
  have relative : (String.ofList name).toList.head? ≠ some '/' := by
    rw [String.toList_ofList]
    exact fun first => cut.noSlash (List.mem_of_mem_head? first)
  rw [directoryOf, lastNameOf, cut.lastName_eq, cut.directory_eq]
  rcases cut.before_eq_nil_or_endsInName with rfl | ends
  · -- The slashes are the root that the path starts from, or there are none.
    rw [if_pos rfl, if_pos (Or.inr rfl), cut.path_eq, List.nil_append]
    cases slashes with
    | zero =>
      rw [join, if_neg relative]
      simp
    | succ more =>
      rw [join, if_neg relative, if_pos (by simp [List.replicate_succ']), String.ofList_append]
  · rw [if_neg ends.ne_nil, join_ofList ends relative, String.toList_ofList]
    by_cases few : slashes ≤ 1
    · have one : slashes = 1 := by
        rcases Nat.le_one_iff_eq_zero_or_eq_one.mp few with none | one
        · exact absurd (cut.bare none) ends.ne_nil
        · exact one
      rw [if_pos (Or.inl few), cut.path_eq, one]
    · rw [if_neg (not_or.mpr ⟨few, ends.ne_nil⟩)]
      rfl

end Cut

theorem isName_lastNameOf (named : lastNameOf path ≠ "") : IsName (lastNameOf path) := by
  rw [IsName, lastNameOf, String.toList_ofList]
  refine ⟨?_, slash_not_mem_lastName _⟩
  intro empty
  rw [lastNameOf, empty] at named
  exact named rfl

/-- A path of a name below a path is not empty. -/
theorem join_ne_empty (path : String) {name : String} (isName : IsName name) :
    join path name ≠ "" := by
  intro empty
  have steps := (ofString_join path isName.relative).2
  have one : (ofString name).steps = [name] := names_toList isName
  rw [empty, one] at steps
  exact List.append_ne_nil_of_right_ne_nil _ (List.cons_ne_nil name []) steps.symm

/-- **What the two parts of a path make up** leads where the path leads. -/
theorem ofString_join_directoryOf (named : lastNameOf path ≠ "") :
    ofString (join (directoryOf path) (lastNameOf path)) = ofString path := by
  obtain ⟨before, slashes, name, cut⟩ := exists_cut named
  obtain ⟨absolute, steps⟩ := ofString_join (directoryOf path) (isName_lastNameOf named).relative
  have whole : (ofString (directoryOf path)).steps ++ (ofString (lastNameOf path)).steps =
      (ofString path).steps := by
    simp only [ofString, directoryOf, lastNameOf, String.toList_ofList]
    exact names_directory_append path.toList
  have isFile : (ofString path).slashAtEnd = false := by
    rw [cut.path_eq, ← List.append_assoc]
    exact slashAtEnd_append _ cut.noSlash cut.nonempty
  have joinedIsFile :
      (ofString (join (directoryOf path) (lastNameOf path))).slashAtEnd = false := by
    rw [cut.join_eq]
    split
    · exact isFile
    · exact slashAtEnd_append_slash before cut.noSlash cut.nonempty
  rw [Path.mk.injEq]
  exact ⟨absolute.trans (ofString_directoryOf path).1, steps.trans whole,
    joinedIsFile.trans isFile.symm⟩

end Path

/-- A step leads down only by its own name. -/
theorem eq_singleton_of_followStep {location : Location} {names : List String} {step : String}
    (some : names ≠ []) (same : followStep location step = location ++ names) :
    names = [step] := by
  unfold followStep at same
  split at same
  · exact absurd (List.append_right_eq_self.mp same.symm) some
  · split at same
    · have lengths := congrArg List.length same
      rw [List.length_append, List.length_dropLast] at lengths
      have more := List.length_pos_of_ne_nil some
      omega
    · exact (List.append_cancel_left same).symm

namespace FileSystem

variable {path : String}

/-- A name below a path leads one step on from where the path leads. -/
theorem target_join_name (fs : FileSystem) (root : String) {name : String}
    (isName : Path.IsName name) :
    fs.target (Path.join root name) = followStep (fs.target root) name := by
  obtain ⟨absolute, steps⟩ := Path.ofString_join root isName.relative
  have one : (Path.ofString name).steps = [name] := Path.names_toList isName
  rw [target, target, steps, one, followAll_append, start, start, absolute]
  rfl

theorem target_join_directoryOf (fs : FileSystem) (named : Path.lastNameOf path ≠ "") :
    fs.target (Path.join (Path.directoryOf path) (Path.lastNameOf path)) = fs.target path := by
  rw [target, target, Path.ofString_join_directoryOf named]

/-- A path leads one step on from where its directory part leads. -/
theorem target_eq_followStep (fs : FileSystem) (named : Path.lastNameOf path ≠ "") :
    fs.target path = followStep (fs.target (Path.directoryOf path)) (Path.lastNameOf path) := by
  rw [← target_join_directoryOf fs named,
    target_join_name fs _ (Path.isName_lastNameOf named)]

/-- **Names below the directory part of a path** lead elsewhere than the path, unless they are its
last name. -/
theorem append_ne_target (fs : FileSystem) (named : Path.lastNameOf path ≠ "")
    {names : List String} (some : names ≠ []) (other : names ≠ [Path.lastNameOf path]) :
    fs.target (Path.directoryOf path) ++ names ≠ fs.target path := by
  rw [target_eq_followStep fs named]
  exact fun same => other (eq_singleton_of_followStep some same.symm)

end FileSystem

/-! ### One file in the private directory -/

/-- **A directory that holds one file**, at a location. -/
def HoldsOnly (tree : FileTree) (directory location : Location) (contents : Bytes) : Prop :=
  ∃ names, location = directory ++ names ∧ ∀ others found,
    tree.fileAt (directory ++ others) = some found ↔ others = names ∧ found = contents

/-- The file is what the directory lists. -/
theorem HoldsOnly.isListing {tree : FileTree} {directory : Location} {name : String}
    {contents : Bytes} (holds : HoldsOnly tree directory (directory ++ [name]) contents) :
    IsListing tree directory [(name, contents)] := by
  obtain ⟨names, place, only⟩ := holds
  obtain rfl := List.append_cancel_left place
  refine ⟨List.pairwise_singleton _ _, ?_⟩
  intro path found
  rw [List.mem_singleton, Prod.mk.injEq]
  constructor
  · rintro ⟨rfl, rfl⟩
    exact ⟨[path], String.intercalate_singleton.symm, (only _ _).mpr ⟨rfl, rfl⟩⟩
  · rintro ⟨names, rfl, there⟩
    obtain ⟨rfl, rfl⟩ := (only _ _).mp there
    exact ⟨String.intercalate_singleton, rfl⟩

namespace Emits

variable {files filled : FileSystem} {scratch : String} {processes : Processes}
  {name : String} {contents : Bytes}

/-- A name below the private directory leads one step on from there. -/
theorem target_join_scratch (emits : Emits files scratch processes filled)
    (isName : Path.IsName name) :
    { files with cwd := files.temporary }.target (Path.join scratch name) =
      followStep (files.scratchLocation scratch) name := by
  rw [FileSystem.target_join_name _ _ isName, target_scratch files emits.isNew.plain]

/-- **A file that is the only one** where the name leads is below the private directory, and has no
dots for its name. -/
theorem target_of_holdsOnly (emits : Emits files scratch processes filled)
    (isName : Path.IsName name)
    (holds : HoldsOnly filled.tree (files.scratchLocation scratch)
      ({ files with cwd := files.temporary }.target (Path.join scratch name)) contents) :
    { files with cwd := files.temporary }.target (Path.join scratch name) =
      files.scratchLocation scratch ++ [name] := by
  obtain ⟨names, place, only⟩ := holds
  have notTop : names ≠ [] := emits.ne_nil_of_fileAt ((only names contents).mpr ⟨rfl, rfl⟩)
  have step := (emits.target_join_scratch isName).symm.trans place
  exact eq_singleton_of_followStep notTop step ▸ place

/-- Then it is all that is read back. -/
theorem readsBack_of_holdsOnly (emits : Emits files scratch processes filled)
    (shallow : filled.IsShallow scratch) (isName : Path.IsName name)
    (holds : HoldsOnly filled.tree (files.scratchLocation scratch)
      ({ files with cwd := files.temporary }.target (Path.join scratch name)) contents)
    (root : String) :
    ReadsBack root [(name, contents)] (collect scratch root filled) := by
  rw [emits.target_of_holdsOnly isName holds] at holds
  have listed := emits.isListing.unique holds.isListing
  exact listed ▸ emits.readsBack shallow.listed root

/-- An emission of one file leaves a directory that holds no other. -/
theorem holdsOnly (emits : Emits files scratch processes filled)
    (single : processes.next.emitted = [(name, contents)]) (isName : Path.IsName name)
    (plain : FileSystem.isDots name = false)
    (there : filled.tree.fileAt (files.scratchLocation scratch ++ [name]) = some contents) :
    HoldsOnly filled.tree (files.scratchLocation scratch)
      ({ files with cwd := files.temporary }.target (Path.join scratch name)) contents := by
  have place := (emits.target_join_scratch isName).trans (followStep_of_plain _ plain)
  refine ⟨[name], place, fun others found => ⟨fun present => ?_, ?_⟩⟩
  · obtain ⟨item, mem, leads, -⟩ := emits.exists_item present
    rw [single] at mem
    obtain rfl := List.mem_singleton.mp mem
    obtain rfl := List.append_cancel_left (leads.symm.trans place)
    exact ⟨rfl, Option.some.inj (present.symm.trans there)⟩
  · rintro ⟨rfl, rfl⟩
    exact there

end Emits

/-! ### The single output file -/

theorem nonempty_some {text : String} (visible : text ≠ "") : nonempty (some text) = some text := by
  simpa [nonempty] using visible

section Request

variable {request : BundleRequest} {path : String}

/-- A path with a last name is the one that is asked for. -/
theorem singlePath_eq (asked : request.outputPath = some path)
    (named : Path.lastNameOf path ≠ "") : request.singlePath = some path := by
  have visible : path ≠ "" := by
    rintro rfl
    exact named rfl
  rw [BundleRequest.singlePath, asked]
  exact nonempty_some visible

/-- The tool is told to make the file under the last name of the path. -/
theorem exists_flags (asked : request.outputPath = some path)
    (named : Path.lastNameOf path ≠ "") (scratch : String) :
    ∃ flags, request.arguments scratch =
      flags ++ ["--output", Path.join scratch (Path.lastNameOf path)] ++ request.entrypoints := by
  rw [BundleRequest.arguments, singlePath_eq asked named]
  dsimp only
  rw [bundleArguments, nonempty_some (Path.join_ne_empty scratch (Path.isName_lastNameOf named))]
  exact ⟨_, rfl⟩

/-- A file of another path below the directory part of a path goes elsewhere than the path leads. -/
theorem target_join_ne (fs : FileSystem) (named : Path.lastNameOf path ≠ "") {relative : String}
    {names : List String} (some : names ≠ []) (proper : AreProper names)
    (same : relative = "/".intercalate names) (other : relative ≠ Path.lastNameOf path) :
    fs.target (Path.join (Path.directoryOf path) relative) ≠ fs.target path := by
  rw [same, target_join fs _ proper]
  refine FileSystem.append_ne_target fs named some ?_
  rintro rfl
  exact other (same.trans String.intercalate_singleton)

end Request

/-- **A single output file lands where it was asked.** The tool is told to make it under the last
name of the path. When the private directory then holds that file only and it is a text, the path
of its artifact leads where the path leads that was asked for, and differs from it at most in the
slashes before the last name. Any other files go below the directory part of the path, and none
of them to where the path leads. -/
theorem bundle_singleOutput {files filled : FileSystem} {scratch : String} {processes : Processes}
    (emits : Emits files scratch processes filled)
    (shallow : filled.IsShallow scratch) (tool : Tool)
    (request : BundleRequest) {path : String} (asked : request.outputPath = some path)
    (named : Path.lastNameOf path ≠ "") :
    let directory := files.scratchLocation scratch
    let output := Path.join scratch (Path.lastNameOf path)
    let root := Path.directoryOf path
    let bundling := tool.bundle scratch request files processes
    (∃ flags, bundling.processes = processes.after
      [⟨tool.executable :: (flags ++ ["--output", output] ++ request.entrypoints), tool.cwd⟩]) ∧
    (∃ before slashes name, Path.Cut path before slashes name) ∧
    (∀ before slashes name, Path.Cut path before slashes name →
      let landing :=
        if slashes ≤ 1 ∨ before = [] then path else String.ofList (before ++ '/' :: name)
      (∀ fs : FileSystem, fs.target landing = fs.target path) ∧
      ∀ contents cs, HoldsOnly filled.tree directory
          ({ files with cwd := files.temporary }.target output) contents →
        Utf8.decode contents = .ok cs →
        bundling.result = .ok [⟨landing, String.ofList (unifyLineBreaks cs)⟩]) ∧
    ∃ listing, IsListing filled.tree directory listing ∧ ReadsBack root listing bundling.result ∧
      ∀ file ∈ listing, ∃ names, names ≠ [] ∧ AreProper names ∧ file.1 = "/".intercalate names ∧
        ∀ fs : FileSystem, fs.target (Path.join root file.1) = fs.target root ++ names ∧
          (file.1 ≠ Path.lastNameOf path → fs.target (Path.join root file.1) ≠ fs.target path) := by
  intro directory output root bundling
  have isName := Path.isName_lastNameOf named
  have destination : request.destination = root := by
    rw [BundleRequest.destination, singlePath_eq asked named]
  have ends : bundling.result = _ := emits.result_of_isShallow shallow tool request
  rw [destination] at ends
  refine ⟨?_, Path.exists_cut named, ?_, _, emits.isListing, ?_, ?_⟩
  · obtain ⟨flags, arguments⟩ := exists_flags asked named scratch
    obtain ⟨opened, isOpen, -⟩ := emits.fills
    refine ⟨flags, ?_⟩
    rw [← arguments]
    exact (processes_bundle tool scratch request files processes).trans
      (if_pos (temporary_of_openScratch isOpen))
  · intro before slashes name cut landing
    have landed : Path.join root (Path.lastNameOf path) = landing := cut.join_eq
    refine ⟨fun fs => ?_, ?_⟩
    · rw [← landed, FileSystem.target_join_directoryOf fs named]
    · intro contents cs holds decoded
      rw [ends, (emits.readsBack_of_holdsOnly shallow isName holds root).texts ?_]
      · simp [landed, decodedText, decoded]
      · intro file mem
        rw [List.mem_singleton.mp mem]
        exact ⟨cs, decoded⟩
  · rw [ends]
    exact emits.readsBack shallow.listed root
  · intro file mem
    obtain ⟨names, some, proper, same⟩ := (emits.readsBack shallow.listed root).inside file mem
    refine ⟨names, some, proper, same, fun fs => ⟨?_, target_join_ne fs named some proper same⟩⟩
    rw [same]
    exact target_join fs root proper

/-- Two slashes before the name become one. -/
theorem bundle_singleOutput_of_slashes :
    let contents := Utf8.encode ['1', '\r', '\n']
    let processes : Processes := ⟨[.exited 0 [] [] [("app.js", contents)]], []⟩
    let tool : Tool := ⟨"deno", none⟩
    let request : BundleRequest := ⟨["main.ts"], [], "bundle", none, some "dist//app.js", true⟩
    (tool.bundle "<TMP>" request .blank processes).result = .ok [⟨"dist/app.js", "1\n"⟩] := by
  intro contents processes tool request
  have emits := emits_blank [("app.js", contents)]
  have shallow : (FileSystem.blankFilled [("app.js", contents)]).IsShallow "<TMP>" := by
    decide +kernel
  have name : Path.lastNameOf "dist//app.js" = "app.js" := rfl
  have cut : Path.Cut "dist//app.js" ['d', 'i', 's', 't'] 2 ['a', 'p', 'p', '.', 'j', 's'] :=
    ⟨rfl, by decide, by decide, by decide, by decide⟩
  have holds := emits.holdsOnly rfl ⟨by decide, by decide⟩ (by decide) (by decide +kernel)
  obtain ⟨-, -, lands, -⟩ := bundle_singleOutput emits shallow tool request rfl
    (by rw [name]; decide)
  rw [name] at lands
  exact (lands _ _ _ cut).2 contents ['1', '\r', '\n'] holds rfl

/-- A single file that is no text has no artifact. -/
theorem bundle_singleOutput_undecodable :
    let processes : Processes := ⟨[.exited 0 [] [] [("app.js", [0xFF])]], []⟩
    let tool : Tool := ⟨"deno", none⟩
    let request : BundleRequest := ⟨["main.ts"], [], "bundle", none, some "dist/app.js", true⟩
    Path.lastNameOf "dist/app.js" = "app.js" ∧
      (∃ filled, Emits .blank "<TMP>" processes filled ∧
        HoldsOnly filled.tree (FileSystem.blank.scratchLocation "<TMP>")
          ({ FileSystem.blank with cwd := FileSystem.blank.temporary }.target
            (Path.join "<TMP>" "app.js")) [0xFF]) ∧
      ∃ error, (tool.bundle "<TMP>" request .blank processes).result =
        .error (.encoding error) := by
  intro processes tool request
  have emits := emits_blank [("app.js", [0xFF])]
  have shallow : (FileSystem.blankFilled [("app.js", [0xFF])]).IsShallow "<TMP>" := by
    decide +kernel
  have isName : Path.IsName "app.js" := ⟨by decide, by decide⟩
  have holds := emits.holdsOnly rfl isName (by decide) (by decide +kernel)
  have reads := emits.readsBack_of_holdsOnly shallow isName holds request.destination
  obtain ⟨error, undecodable⟩ : ∃ error, Utf8.decode [0xFF] = .error error := ⟨_, rfl⟩
  refine ⟨rfl, ⟨_, emits, holds⟩, error, ?_⟩
  rw [emits.result_of_isShallow shallow]
  exact reads.error [] _ [] error rfl (by simp) undecodable

end EsmBundle
