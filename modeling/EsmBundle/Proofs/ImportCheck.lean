import EsmBundle.Proofs.BuildOutput
import EsmBundle.Proofs.Graph.Load
import EsmBundle.Proofs.PrivateDirectory

/-!
The check that every specifier of the map was imported.

A build collects the specifiers that it meets over all its artifacts, and warns at the end about
those of its map that are not among them. What it has met before changes no text, so the
specifiers met so far are those of each text by itself, and a warning says that the specifier is
met in no artifact at all.

* `getElem?_finishTexts` — the step: each text is finished by itself, and what was met so far
  grows by what is met in it.
* `traceBuild` — a build with what it does for others to see, in the order in which it does it.
* `importCheck_exact` — the specifiers met after each text, and the warnings of a build.
-/

namespace EsmBundle

variable {replacements : Replacements} {mappings : Option SpecifierMap}

/-! ### What was met so far -/

/-- The specifiers of a map that are met in a text by itself, after the replacements; nothing is
met without a map. -/
def metIn (replacements : Replacements) (mappings : Option SpecifierMap) (text : String) :
    List String :=
  match mappings with
  | none => []
  | some mappings => (substituteSpecifiers mappings (replaceText replacements text)).2

theorem finishText_snd (replacements : Replacements) (mappings : Option SpecifierMap)
    (text : String) :
    (finishText replacements mappings text).2 = metIn replacements mappings text := by
  cases mappings <;> rfl

theorem mem_addMet_iff {met new : List String} {bare : String} :
    bare ∈ addMet met new ↔ bare ∈ met ∨ bare ∈ new := by
  have same : addMet met new = addNew id met new := by simp only [addMet, addNew, List.map_id, id]
  have keys : bare ∈ (addNew id met new).map id ↔ bare ∈ met.map id ∨ bare ∈ new.map id :=
    mem_keys_addNew_iff
  rwa [List.map_id, List.map_id, List.map_id, ← same] at keys

/-- Specifiers are added one text after another or all at once. -/
theorem addMet_append (met first second : List String) :
    addMet met (first ++ second) = addMet (addMet met first) second :=
  List.foldl_append

/-- **Each text is finished by itself**, and what was met so far grows by what is met in it. -/
theorem getElem?_finishTexts {texts : List String} {n : Nat} {text : String}
    (here : texts[n]? = some text) (met : List String) :
    (finishTexts replacements mappings met texts)[n]? =
      some ((finishText replacements mappings text).1,
        addMet met ((texts.take (n + 1)).flatMap (metIn replacements mappings))) := by
  induction texts generalizing n met with
  | nil => simp at here
  | cons first rest ih =>
    cases n with
    | zero =>
      obtain rfl : first = text := by simpa using here
      rw [finishTexts]
      dsimp only
      rw [finishText_snd]
      simp
    | succ n =>
      rw [List.getElem?_cons_succ] at here
      rw [finishTexts, List.getElem?_cons_succ, ih here, List.take_succ_cons, List.flatMap_cons,
        addMet_append, finishText_snd]

/-- At the end everything is met that is met in one of the texts. -/
theorem getLast?_finishTexts (met texts : List String) :
    ((finishTexts replacements mappings met texts).getLast?.map Prod.snd).getD met =
      addMet met (texts.flatMap (metIn replacements mappings)) := by
  induction texts generalizing met with
  | nil => rfl
  | cons text rest ih =>
    rw [List.flatMap_cons, addMet_append, ← ih, finishTexts]
    dsimp only
    rw [finishText_snd]
    cases rest with
    | nil => rfl
    | cons next rest => rfl

/-- The specifiers that are met in artifacts. -/
theorem finishArtifacts_snd (artifacts : List Artifact) :
    (finishArtifacts replacements mappings artifacts).2 =
      addMet [] (artifacts.flatMap fun artifact => metIn replacements mappings artifact.text) := by
  rw [← List.flatMap_map Artifact.text, ← getLast?_finishTexts]
  rfl

/-- The specifiers of a map that are met in no artifact, in its order. -/
def unmet (replacements : Replacements) (mappings : Option SpecifierMap)
    (artifacts : List Artifact) : List String :=
  ((mappings.map OrderedMap.keys).getD []).filter fun bare =>
    artifacts.all fun artifact => bare ∉ metIn replacements mappings artifact.text

/-- **A build warns about what is met in no artifact.** -/
theorem unmetWarnings_finishArtifacts (artifacts : List Artifact) :
    unmetWarnings mappings (finishArtifacts replacements mappings artifacts).2 =
      (unmet replacements mappings artifacts).map unmetWarning := by
  cases mappings with
  | none => rfl
  | some mappings =>
    rw [unmetWarnings, unmet]
    congr 1
    refine List.filter_congr ?_
    intro bare _
    rw [finishArtifacts_snd, Bool.eq_iff_iff]
    simp [mem_addMet_iff]

/-- It warns about each of them once. -/
theorem nodup_unmet (artifacts : List Artifact) :
    (unmet replacements mappings artifacts).Nodup := by
  cases mappings with
  | none => exact List.nodup_nil
  | some mappings => exact mappings.distinct.filter _

/-- The order of the artifacts does not matter. -/
theorem unmet_eq_of_perm {artifacts others : List Artifact} (perm : others.Perm artifacts) :
    unmet replacements mappings others = unmet replacements mappings artifacts := by
  rw [unmet, unmet]
  refine List.filter_congr ?_
  intro bare _
  exact perm.all_eq

/-! ### A build as it goes -/

/-- What a build does for others to see: it says something, or writes an artifact. -/
inductive BuildEvent where
  | message (text : String)
  | artifact (written : Artifact)
deriving DecidableEq, Repr

/-- What is said, in order. -/
def messagesIn (events : List BuildEvent) : List String :=
  events.filterMap fun
    | .message text => some text
    | .artifact _ => none

@[simp]
theorem messagesIn_nil : messagesIn [] = [] := rfl

@[simp]
theorem messagesIn_message (text : String) (events : List BuildEvent) :
    messagesIn (.message text :: events) = text :: messagesIn events := rfl

@[simp]
theorem messagesIn_artifact (artifact : Artifact) (events : List BuildEvent) :
    messagesIn (.artifact artifact :: events) = messagesIn events := rfl

@[simp]
theorem messagesIn_append (events more : List BuildEvent) :
    messagesIn (events ++ more) = messagesIn events ++ messagesIn more :=
  List.filterMap_append

@[simp]
theorem messagesIn_map_message (texts : List String) :
    messagesIn (texts.map .message) = texts := by
  simp [messagesIn, List.filterMap_map]

@[simp]
theorem messagesIn_map_artifact (artifacts : List Artifact) :
    messagesIn (artifacts.map .artifact) = [] := by
  simp [messagesIn, List.filterMap_map]

/-- The loop of a build: every artifact is finished and written before the next one is looked at.
It ends with what was met, or with the failure to write an artifact. -/
def finishAndWrite (replacements : Replacements) (mappings : Option SpecifierMap)
    (met : List String) (files : FileSystem) :
    List Artifact → Except PathError (List String) × FileSystem × List BuildEvent
  | [] => (.ok met, files, [])
  | artifact :: rest =>
    let (text, new) := finishText replacements mappings artifact.text
    match files.writeText artifact.path text with
    | (.error error, files) => (.error error, files, [])
    | (.ok (), files) =>
      let (ended, files, events) := finishAndWrite replacements mappings (addMet met new) files rest
      (ended, files, .artifact ⟨artifact.path, text⟩ :: events)

/-- A build as it goes: how it ends, and what it does on the way for others to see. -/
structure BuildTrace where
  result : Except BuildError BuildResult
  files : FileSystem
  processes : Processes
  events : List BuildEvent
  request : Option BundleRequest

/-- What is left of it when only what it says is kept. -/
def BuildTrace.report (trace : BuildTrace) : BuildReport where
  result := trace.result
  files := trace.files
  processes := trace.processes
  log := messagesIn trace.events
  request := trace.request

/-- A build with its events. It warns about what it has not met only after its loop. -/
def traceBuild (tool : Tool) (bundler : Bundler) (options : ResolvedOptions)
    (start stop : Reading) (files : FileSystem) (processes : Processes) : BuildTrace :=
  let ⟨prepared, files, processes, log, request⟩ := prepare tool bundler options files processes
  let events := log.map .message
  match prepared with
  | .error error => ⟨.error error, files, processes, events, request⟩
  | .ok (mappings, artifacts) =>
    match finishAndWrite options.replace mappings [] files artifacts with
    | (.error error, files, written) =>
      ⟨.error (.write error), files, processes, events ++ written, request⟩
    | (.ok met, files, written) =>
      let result := timedResult start stop (artifacts.map Artifact.path)
      ⟨result, files, processes,
        events ++ written ++ (closingMessages mappings met result).map .message, request⟩

/-- The artifact with its finished text. -/
def Artifact.finish (replacements : Replacements) (mappings : Option SpecifierMap)
    (artifact : Artifact) : Artifact :=
  ⟨artifact.path, (finishText replacements mappings artifact.text).1⟩

/-- Finishing artifacts leaves their paths. -/
theorem map_path_finish (replacements : Replacements) (mappings : Option SpecifierMap)
    (artifacts : List Artifact) :
    (artifacts.map (Artifact.finish replacements mappings)).map Artifact.path =
      artifacts.map Artifact.path := by
  rw [List.map_map]
  rfl

/-- Artifacts are finished one by one. -/
theorem finishArtifacts_eq_map (artifacts : List Artifact) :
    (finishArtifacts replacements mappings artifacts).1 =
      artifacts.map (Artifact.finish replacements mappings) :=
  finishArtifacts_fst replacements mappings artifacts

/-- **The loop over artifacts that can all be written** has met what is met in one of them, and has
written each of them finished. -/
theorem finishAndWrite_of_written {files after : FileSystem} {artifacts : List Artifact}
    (written : writeArtifacts files (artifacts.map (Artifact.finish replacements mappings)) =
      (.ok (), after)) (met : List String) :
    finishAndWrite replacements mappings met files artifacts =
      (.ok (addMet met (artifacts.flatMap fun artifact =>
        metIn replacements mappings artifact.text)), after,
        (artifacts.map (Artifact.finish replacements mappings)).map .artifact) := by
  induction artifacts generalizing met files with
  | nil =>
    obtain rfl := (Prod.mk.inj written).2
    rfl
  | cons artifact rest ih =>
    rw [List.map_cons, writeArtifacts] at written
    split at written
    · cases written
    · rename_i middle first
      have first : files.writeText artifact.path
          (finishText replacements mappings artifact.text).1 = (.ok (), middle) := first
      rw [finishAndWrite]
      dsimp only
      rw [first, finishText_snd]
      dsimp only
      rw [ih written, List.flatMap_cons, addMet_append]
      rfl

/-- The loop ends with the first artifact that cannot be written, and says nothing. -/
theorem finishAndWrite_of_failed {files after : FileSystem} {artifacts : List Artifact}
    {error : PathError}
    (failed : writeArtifacts files (artifacts.map (Artifact.finish replacements mappings)) =
      (.error error, after)) (met : List String) :
    ∃ events, finishAndWrite replacements mappings met files artifacts =
      (.error error, after, events) ∧ messagesIn events = [] := by
  induction artifacts generalizing met files with
  | nil => cases (Prod.mk.inj failed).1
  | cons artifact rest ih =>
    rw [List.map_cons, writeArtifacts] at failed
    rw [finishAndWrite]
    dsimp only
    split at failed
    · rename_i first
      have first : files.writeText artifact.path
          (finishText replacements mappings artifact.text).1 = _ := first
      rw [first, failed]
      exact ⟨[], rfl, rfl⟩
    · rename_i middle first
      have first : files.writeText artifact.path
          (finishText replacements mappings artifact.text).1 = (.ok (), middle) := first
      obtain ⟨events, later, silent⟩ :=
        ih failed (addMet met (finishText replacements mappings artifact.text).2)
      rw [first]
      dsimp only
      rw [later]
      exact ⟨_, rfl, silent⟩

section Traced

variable {loader : Tool} {bundler : Bundler} {options : ResolvedOptions} {start stop : Reading}
  {files : FileSystem} {processes : Processes} {result : BuildResult}

/-- **What is left of the trace of a build is the build.** -/
theorem report_traceBuild (loader : Tool) (bundler : Bundler) (options : ResolvedOptions)
    (start stop : Reading) (files : FileSystem) (processes : Processes) :
    (traceBuild loader bundler options start stop files processes).report =
      build loader bundler options start stop files processes := by
  unfold traceBuild build
  cases prepare loader bundler options files processes with
  | mk prepared ready after log request =>
    dsimp only
    cases prepared with
    | error error => simp [BuildTrace.report]
    | ok both =>
      obtain ⟨mappings, artifacts⟩ := both
      dsimp only
      rw [finishArtifacts_eq_map, finishArtifacts_snd]
      cases writing : writeArtifacts ready
          (artifacts.map (Artifact.finish options.replace mappings)) with
      | mk outcome filesAfter =>
        cases outcome with
        | error error =>
          obtain ⟨events, ended, silent⟩ := finishAndWrite_of_failed writing []
          rw [ended]
          simp [BuildTrace.report, silent]
        | ok done =>
          rw [finishAndWrite_of_written writing [], map_path_finish]
          simp [BuildTrace.report, -List.map_map]

/-- What a build says is what its events say. -/
theorem log_build (loader : Tool) (bundler : Bundler) (options : ResolvedOptions)
    (start stop : Reading) (files : FileSystem) (processes : Processes) :
    (build loader bundler options start stop files processes).log =
      messagesIn (traceBuild loader bundler options start stop files processes).events := by
  rw [← report_traceBuild]
  rfl

/-- **The events of a build that returns**: its heading and the listing of its map, then its
artifacts, all of them finished and written, then the warnings about what none of them imports,
and its end. -/
theorem events_traceBuild
    (built : (build loader bundler options start stop files processes).result = .ok result) :
    ∃ mappings artifacts, IsBuildMap loader options processes mappings ∧
      (bundler (.ofOptions options mappings) files
        (processesForBundle loader options processes)).result = .ok artifacts ∧
      (traceBuild loader bundler options start stop files processes).events =
        .message "Bundling project..." :: (mappingMessages mappings).map .message ++
          (artifacts.map (Artifact.finish options.replace mappings)).map .artifact ++
          ((unmet options.replace mappings artifacts).map unmetWarning).map .message ++
          [.message ("Bundle completed in " ++ toString result.duration ++ "ms")] ∧
      start.millisecondsTo stop = .ok result.duration := by
  obtain ⟨finished, ready, prepares, written, ended⟩ := build_eq_ok built
  obtain ⟨mappings, artifacts, after, isMap, bundled, rfl⟩ := prepares
  rw [finishArtifacts_eq_map] at written ended
  refine ⟨mappings, artifacts, isMap, by rw [bundled], ?_, (timedResult_eq_ok_iff.mp ended).1⟩
  rw [map_path_finish] at ended
  unfold traceBuild
  rw [prepare_of_isBuildMap isMap]
  dsimp only
  rw [bundled]
  dsimp only
  rw [finishAndWrite_of_written written []]
  dsimp only
  rw [ended, closingMessages, List.map_append, ← finishArtifacts_snd,
    unmetWarnings_finishArtifacts]
  simp [-List.map_map]

end Traced

/-- **The check is exact.** After every text what was met is what was met before together with what
is met in each text so far, and no text depends on it. A build that returns warns once about each
specifier of its map that is met in no artifact, in the order of the map, after its last artifact
was written and before its end; and the order of the artifacts does not matter. -/
theorem importCheck_exact :
    (∀ (replacements : Replacements) (mappings : Option SpecifierMap) (met texts : List String)
        (n : Nat) (text : String), texts[n]? = some text →
      ∃ after, (finishTexts replacements mappings met texts)[n]? =
          some ((finishText replacements mappings text).1, after) ∧
        ∀ bare, bare ∈ after ↔
          bare ∈ met ∨ ∃ earlier ∈ texts.take (n + 1), bare ∈ metIn replacements mappings earlier) ∧
    ∀ (loader : Tool) (bundler : Bundler) (options : ResolvedOptions) (start stop : Reading)
        (files : FileSystem) (processes : Processes) (result : BuildResult),
      (build loader bundler options start stop files processes).result = .ok result →
      (traceBuild loader bundler options start stop files processes).report =
          build loader bundler options start stop files processes ∧
      ∃ mappings artifacts, IsBuildMap loader options processes mappings ∧
        (bundler (.ofOptions options mappings) files
          (processesForBundle loader options processes)).result = .ok artifacts ∧
        (unmet options.replace mappings artifacts).Nodup ∧
        (traceBuild loader bundler options start stop files processes).events =
          .message "Bundling project..." :: (mappingMessages mappings).map .message ++
            (artifacts.map (Artifact.finish options.replace mappings)).map .artifact ++
            ((unmet options.replace mappings artifacts).map unmetWarning).map .message ++
            [.message ("Bundle completed in " ++ toString result.duration ++ "ms")] ∧
        ∀ (other : Bundler) (others : List Artifact) (result' : BuildResult),
          (build loader other options start stop files processes).result = .ok result' →
          (other (.ofOptions options mappings) files
            (processesForBundle loader options processes)).result = .ok others →
          others.Perm artifacts →
          (build loader other options start stop files processes).log =
            (build loader bundler options start stop files processes).log := by
  refine ⟨?_, ?_⟩
  · intro replacements mappings met texts n text here
    refine ⟨_, getElem?_finishTexts here met, ?_⟩
    intro bare
    rw [mem_addMet_iff, List.mem_flatMap]
  · intro loader bundler options start stop files processes result built
    obtain ⟨mappings, artifacts, isMap, bundled, events, took⟩ := events_traceBuild built
    refine ⟨report_traceBuild .., mappings, artifacts, isMap, bundled, nodup_unmet artifacts,
      events, ?_⟩
    intro other others result' built' bundled' perm
    obtain ⟨again, same, isMap', same', events', took'⟩ := events_traceBuild built'
    obtain rfl : again = mappings := by
      have both := (specifierMap_of_isBuildMap isMap').symm.trans (specifierMap_of_isBuildMap isMap)
      exact Except.ok.inj (Prod.mk.inj both).1
    obtain rfl : same = others := Except.ok.inj (same'.symm.trans bundled')
    have duration : result'.duration = result.duration := Except.ok.inj (took'.symm.trans took)
    rw [log_build, log_build, events, events', unmet_eq_of_perm perm, duration]
    simp [-List.map_map]

/-- One package is kept out, and of two artifacts none imports it. So there is a warning, in
whichever order the artifacts come. -/
theorem importCheck_of_two_artifacts :
    let loader : Tool := ⟨"deno", none⟩
    let printed : List Char := ["\x7b\"modules\":[\x7b", "\"kind\":\"esm\",",
      "\"dependencies\":[\x7b", "\"specifier\":\"h3\",", "\"code\":\x7b",
      "\"specifier\":\"npm:h3@1\"", "\x7d\x7d]\x7d]\x7d"].flatMap String.toList
    let options : ResolvedOptions := { BuildOptions.unset.resolved with external := ["h3"] }
    let processes : Processes := ⟨[.exited 0 (Utf8.encode printed) [] []], []⟩
    let bundler (artifacts : List Artifact) : Bundler := fun _ files processes =>
      ⟨.ok artifacts, files, processes⟩
    let first : Artifact := ⟨"dist/a.js", "f()"⟩
    let second : Artifact := ⟨"dist/b.js", "import f from 'rendu';"⟩
    let mappings : SpecifierMap := .ofList [("h3", "npm:h3@1")]
    (∃ after, (finishTexts .empty (some mappings) [] ["f()", "import f from 'h3';"])[1]? =
        some ("import f from 'npm:h3@1';", after) ∧ "h3" ∈ after) ∧
      (traceBuild loader (bundler [first, second]) options (.whole 0) (.whole 1) .blank
          processes).events =
        [.message "Bundling project...", .message "External mappings:\n\th3 => npm:h3@1",
          .artifact first, .artifact second, .message (unmetWarning "h3"),
          .message "Bundle completed in 1000ms"] ∧
      (build loader (bundler [second, first]) options (.whole 0) (.whole 1) .blank processes).log =
        (build loader (bundler [first, second]) options (.whole 0) (.whole 1) .blank
          processes).log := by
  intro loader printed options processes bundler first second mappings
  obtain ⟨steps, builds⟩ := importCheck_exact
  have isMap : IsBuildMap loader options processes (some mappings) := by
    have read : (((Json.readDocument (unifyLineBreaks (Utf8.decodeLossy
        (Utf8.encode printed)))).toOption.bind Json.object?).bind fun members =>
          (ModuleGraph.ofMembers members).toOption.map fun graph =>
            (SpecifierMap.ofGraph (ModuleGraph.empty.merge graph) ["h3"]).entries) =
          some [("h3", "npm:h3@1")] := by
      decide +kernel
    obtain ⟨members, isObject, read⟩ := Option.bind_eq_some_iff.mp read
    obtain ⟨value, isValue, isObject⟩ := Option.bind_eq_some_iff.mp isObject
    obtain ⟨graph, isGraph, entries⟩ := Option.map_eq_some_iff.mp read
    obtain rfl := Json.object?_eq_some_iff.mp isObject
    have described : (Outcome.exited 0 (Utf8.encode printed) [] []).Describes graph :=
      .of_readDocument (eq_ok_of_toOption isValue) (eq_ok_of_toOption isGraph)
    have describeAll : processes.DescribeAll [graph] := by
      intro i inside
      obtain rfl := Nat.lt_one_iff.mp inside
      exact described
    have one : [graph].length = options.entrypoints.length := rfl
    exact ⟨by decide, _, congrArg Prod.fst (ModuleGraph.loadInto_of_describes one describeAll),
      OrderedMap.ext entries.symm⟩
  have built (artifacts : List Artifact) (written : (writeArtifacts .blank
      (finishArtifacts .empty (some mappings) artifacts).1).1.toOption = some ()) :
      (build loader (bundler artifacts) options (.whole 0) (.whole 1) .blank processes).result =
        .ok ⟨1000, (finishArtifacts .empty (some mappings) artifacts).1.map Artifact.path⟩ := by
    have prepares : Prepares loader (bundler artifacts) options .blank processes
        (finishArtifacts .empty (some mappings) artifacts).1 .blank :=
      ⟨_, _, _, isMap, rfl, rfl⟩
    have took : (Reading.whole 0).millisecondsTo (.whole 1) = .ok 1000 :=
      eq_ok_of_toOption (by decide +kernel)
    rw [(build_of_prepares _ _ prepares).1, eq_ok_of_toOption written, writingResult,
      timedResult, took]
  obtain ⟨-, made, artifacts, isMade, bundled, -, events, anyOrder⟩ :=
    builds loader (bundler [first, second]) options _ _ _ processes _ (built _ (by decide +kernel))
  obtain rfl : [first, second] = artifacts := Except.ok.inj bundled
  obtain rfl : some mappings = made := Except.ok.inj (Prod.mk.inj
    ((specifierMap_of_isBuildMap isMap).symm.trans (specifierMap_of_isBuildMap isMade))).1
  obtain ⟨after, there, grows⟩ :=
    steps .empty (some mappings) [] ["f()", "import f from 'h3';"] 1 _ rfl
  refine ⟨⟨after, ?_, ?_⟩, events.trans (by decide +kernel),
    anyOrder (bundler [second, first]) _ _ (built _ (by decide +kernel)) rfl (.swap ..)⟩
  · rw [there]
    have finished : (finishText .empty (some mappings) "import f from 'h3';").1 =
        "import f from 'npm:h3@1';" := by decide +kernel
    rw [finished]
  · rw [grows]
    decide +kernel

end EsmBundle
