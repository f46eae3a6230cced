import EsmBundle.Proofs.BuildStages

/-!
The writing of a build, artifact by artifact.

A build that has its artifacts writes one after another. Here this is a loop that takes a step
at a time, so that something else can happen between two of its steps. A build that fails
before it has artifacts is a loop that is over from the start.

* `WriteLoop.step` — the next artifact, with the directories that lead to it.
* `WriteLoop.finish` — all steps that are left.
* `BuildInput.report_eq_finish` — a build ends as its loop does when that is alone.
-/

namespace EsmBundle

/-! ### The loop -/

/-- A loop over the artifacts of a build: those that are left, the first of which is the next, the
paths that were written, and the failure that ended it. -/
structure WriteLoop where
  pending : List Artifact
  written : List String
  failure : Option BuildError

namespace WriteLoop

/-- The loop that is to write the artifacts. -/
def start (artifacts : List Artifact) : WriteLoop :=
  ⟨artifacts, [], none⟩

/-- The loop of a build that failed before. -/
def failed (error : BuildError) : WriteLoop :=
  ⟨[], [], some error⟩

/-- The artifact that is to be written next, unless the loop is over. -/
def next (loop : WriteLoop) : Option Artifact :=
  match loop.failure with
  | some _ => none
  | none => loop.pending.head?

/-- The loop is over: nothing is left to write, or it failed. -/
def isOver (loop : WriteLoop) : Bool :=
  loop.next.isNone

/-- The loop after the next artifact was written or could not be written. -/
def after (loop : WriteLoop) (artifact : Artifact) : Except PathError Unit → WriteLoop
  | .ok () =>
    { loop with pending := loop.pending.tail, written := loop.written ++ [artifact.path] }
  | .error error => { loop with failure := some (.write error) }

/-- Writes the next artifact. A loop that is over does nothing. -/
def step (loop : WriteLoop) (fs : FileSystem) : WriteLoop × FileSystem :=
  match loop.next with
  | none => (loop, fs)
  | some artifact =>
    let attempt := fs.writeText artifact.path artifact.text
    (loop.after artifact attempt.1, attempt.2)

/-- Takes a number of steps. -/
def steps (loop : WriteLoop) (fs : FileSystem) : Nat → WriteLoop × FileSystem
  | 0 => (loop, fs)
  | count + 1 => (loop.step fs).1.steps (loop.step fs).2 count

/-- Takes all steps that are left. -/
def finish (loop : WriteLoop) (fs : FileSystem) : WriteLoop × FileSystem :=
  loop.steps fs loop.pending.length

/-- What a build comes to when its loop is over. -/
def outcome (loop : WriteLoop) (start stop : Reading) : Except BuildError BuildResult :=
  match loop.failure with
  | some error => .error error
  | none => timedResult start stop loop.written

variable {loop : WriteLoop} {fs : FileSystem} {artifact : Artifact}

theorem next_eq_some (next : loop.next = some artifact) :
    loop.failure = none ∧ ∃ rest, loop.pending = artifact :: rest := by
  unfold WriteLoop.next at next
  split at next
  · cases next
  · rename_i going
    exact ⟨going, List.head?_eq_some_iff.mp next⟩

theorem step_of_next (next : loop.next = some artifact) (fs : FileSystem) :
    loop.step fs =
      (loop.after artifact (fs.writeText artifact.path artifact.text).1,
        (fs.writeText artifact.path artifact.text).2) := by
  rw [step, next]

theorem step_of_isOver (ended : loop.isOver = true) (fs : FileSystem) :
    loop.step fs = (loop, fs) := by
  rw [step, Option.isNone_iff_eq_none.mp ended]

/-- Nothing is left to write but what was left before. -/
theorem pending_step_subset (loop : WriteLoop) (fs : FileSystem) :
    (loop.step fs).1.pending ⊆ loop.pending := by
  cases next : loop.next with
  | none =>
    rw [step_of_isOver (Option.isNone_iff_eq_none.mpr next)]
    exact List.Subset.refl _
  | some artifact =>
    rw [step_of_next next]
    cases (fs.writeText artifact.path artifact.text).1 with
    | ok done => exact (List.tail_sublist _).subset
    | error error => exact List.Subset.refl _

theorem isOver_after_error (loop : WriteLoop) (artifact : Artifact) (error : PathError) :
    (loop.after artifact (.error error)).isOver = true := rfl

theorem steps_of_isOver (ended : loop.isOver = true) (fs : FileSystem) (count : Nat) :
    loop.steps fs count = (loop, fs) := by
  induction count with
  | zero => rfl
  | succ count ih => rw [steps, step_of_isOver ended, ih]

theorem finish_of_isOver (ended : loop.isOver = true) (fs : FileSystem) :
    loop.finish fs = (loop, fs) :=
  steps_of_isOver ended fs _

/-- **A step is one of those that are left.** -/
theorem finish_step (loop : WriteLoop) (fs : FileSystem) :
    (loop.step fs).1.finish (loop.step fs).2 = loop.finish fs := by
  cases next : loop.next with
  | none => rw [step_of_isOver (Option.isNone_iff_eq_none.mpr next)]
  | some artifact =>
    obtain ⟨-, rest, pending⟩ := next_eq_some next
    have left : loop.finish fs = (loop.step fs).1.steps (loop.step fs).2 rest.length := by
      rw [finish, pending, List.length_cons, steps]
    rw [left, step_of_next next]
    cases (fs.writeText artifact.path artifact.text).1 with
    | ok done => rw [finish, after, pending, List.tail_cons]
    | error error => rw [finish, steps_of_isOver rfl, steps_of_isOver rfl]

/-- A build fails in writing when its loop does. -/
theorem outcome_eq_write_iff {start stop : Reading} {error : PathError} :
    loop.outcome start stop = .error (.write error) ↔ loop.failure = some (.write error) := by
  unfold outcome timedResult
  cases loop.failure with
  | some failure => simp
  | none => cases start.millisecondsTo stop <;> simp

/-- **All steps together** write the artifacts in order, up to the first that cannot be written. -/
theorem finish_eq_writeArtifacts (artifacts : List Artifact) (written : List String)
    (fs : FileSystem) :
    let done := (⟨artifacts, written, none⟩ : WriteLoop).finish fs
    done.2 = (writeArtifacts fs artifacts).2 ∧
      match (writeArtifacts fs artifacts).1 with
      | .ok () => done.1 = ⟨[], written ++ artifacts.map Artifact.path, none⟩
      | .error error => done.1.failure = some (.write error) := by
  induction artifacts generalizing written fs with
  | nil => exact ⟨rfl, by simp [finish, steps, writeArtifacts]⟩
  | cons artifact rest ih =>
    have next : (⟨artifact :: rest, written, none⟩ : WriteLoop).next = some artifact := rfl
    rw [← finish_step, step_of_next next, writeArtifacts]
    cases attempt : fs.writeText artifact.path artifact.text with
    | mk result middle =>
      cases result with
      | ok done => simpa [after] using ih (written ++ [artifact.path]) middle
      | error error =>
        dsimp only
        rw [finish_of_isOver (isOver_after_error _ _ _)]
        exact ⟨rfl, rfl⟩

end WriteLoop

/-! ### The build around it -/

/-- What a build is given: the tool for the module graph, a bundler, the options, the files, and the
processes to come. -/
structure BuildInput where
  loader : Tool
  bundler : Bundler
  options : ResolvedOptions
  files : FileSystem
  processes : Processes

namespace BuildInput

/-- The report of the build. -/
def report (input : BuildInput) (start stop : Reading) : BuildReport :=
  build input.loader input.bundler input.options start stop input.files input.processes

/-- How far a build comes before it writes anything: the loop that writes what there is to write,
and the files. -/
def ready (input : BuildInput) : WriteLoop × FileSystem :=
  let prepared := prepare input.loader input.bundler input.options input.files input.processes
  match prepared.result with
  | .error error => (.failed error, prepared.files)
  | .ok (mappings, artifacts) =>
    (.start (finishArtifacts input.options.replace mappings artifacts).1, prepared.files)

/-- **A build ends as its loop does** when nothing else is done between its steps. -/
theorem report_eq_finish (input : BuildInput) (start stop : Reading) :
    let done := input.ready.1.finish input.ready.2
    (input.report start stop).result = done.1.outcome start stop ∧
      (input.report start stop).files = done.2 := by
  unfold report ready build
  dsimp only
  cases prepare input.loader input.bundler input.options input.files input.processes with
  | mk result files after log request =>
    cases result with
    | error error => exact ⟨rfl, rfl⟩
    | ok prepared =>
      obtain ⟨mappings, artifacts⟩ := prepared
      dsimp only
      obtain ⟨filesAfter, ends⟩ := WriteLoop.finish_eq_writeArtifacts
        (finishArtifacts input.options.replace mappings artifacts).1 [] files
      rw [WriteLoop.start, filesAfter, WriteLoop.outcome]
      cases writing : writeArtifacts files
          (finishArtifacts input.options.replace mappings artifacts).1 with
      | mk written left =>
        rw [writing] at ends
        cases written <;> dsimp only at ends ⊢ <;> rw [ends] <;> exact ⟨rfl, rfl⟩

/-- A build that gets as far as writing starts a loop over its artifacts. -/
theorem ready_of_prepares {input : BuildInput} {artifacts : List Artifact} {ready : FileSystem}
    (prepares : Prepares input.loader input.bundler input.options input.files input.processes
      artifacts ready) :
    input.ready = (.start artifacts, ready) := by
  obtain ⟨mappings, emitted, prepared, rfl, rfl⟩ := prepares.prepare_eq
  unfold BuildInput.ready
  dsimp only
  rw [prepared]

/-- What a build comes to write that has no map, when the tool emits files and exits with status
zero. -/
theorem ready_of_emission {input : BuildInput} {tool : Tool} {scratch : String}
    {stdout stderr : Bytes} {emitted : List (String × Bytes)} {rest : List Outcome}
    {opened left : FileSystem} {artifacts : List Artifact}
    (bundles : input.bundler = tool.bundle scratch) (nothing : input.options.external = [])
    (outcome : input.processes.pending = .exited 0 stdout stderr emitted :: rest)
    (isOpen : input.files.openScratch scratch = .ok opened)
    (closed : (opened.fillScratch scratch emitted).closeScratch scratch = (.ok (), left))
    (collected : collect scratch (BundleRequest.ofOptions input.options none).destination
      (opened.fillScratch scratch emitted) = .ok artifacts) :
    input.ready = (.start (finishArtifacts input.options.replace none artifacts).1, left) := by
  have isMap : IsBuildMap input.loader input.options input.processes none := nothing
  have same : processesForBundle input.loader input.options input.processes = input.processes := by
    simp [processesForBundle, SpecifierMap.build, nothing]
  have next : input.processes.next = .exited 0 stdout stderr emitted := by
    simp [Processes.next, outcome]
  have ran : (tool.run ((BundleRequest.ofOptions input.options none).arguments scratch)
      (processesForBundle input.loader input.options input.processes)).1 =
      .ok (outputText stdout) := by
    rw [same]
    simp [Tool.run, Processes.start, Tool.result, next]
  have emits : (processesForBundle input.loader input.options input.processes).next.emitted =
      emitted := by
    rw [same, next]
    rfl
  rw [← emits] at closed collected
  have prepares := prepares_of_run isMap isOpen ran closed collected
  rw [← bundles] at prepares
  exact input.ready_of_prepares prepares

end BuildInput

end EsmBundle
