import EsmBundle.Proofs.PrivateDirectory
import EsmBundle.Proofs.Success
import EsmBundle.Settings.Load

/-!
Which settings are found when no path is asked for.

Two candidates are looked at, the file of the project and that of the home directory. A candidate
that holds no settings is to be passed over. It is, unless it cannot be read to its end: its path
is too long, its contents are no text, or its document is beyond the bounds.

* `Holds`, `IsFirst` — a candidate is a text file with an object, and the settings that the first
  such candidate holds, or none.
* `Refusal` — the candidates that are not passed over, each with the error that it makes.
* `candidate?_cases` — a candidate holds settings, is passed over, or refuses.
* `load_takes_first_iff` — the first settings are found exactly when no candidate that is looked
  at refuses, and otherwise its error is the result.
-/

namespace EsmBundle.Settings

/-! ### Documents -/

/-- The contents of a file are no document when they are no text. -/
theorem documentOf_of_decode_eq_error {contents : Bytes} {error : Utf8.DecodeError}
    (decoded : Utf8.decode contents = .error error) :
    documentOf contents = .error (.encoding error) := by
  rw [documentOf, textOf, decoded]
  rfl

/-- They are the document that their text is, or fail as it does. -/
theorem documentOf_of_decode_eq_ok {contents : Bytes} {cs : List Char}
    (decoded : Utf8.decode contents = .ok cs) :
    documentOf contents = (Json.parse (String.ofList (unifyLineBreaks cs))).mapError .json := by
  rw [documentOf, textOf, decoded]
  cases parsed : Json.parse (String.ofList (unifyLineBreaks cs)) with
  | error error =>
    simp only [Except.map, parsed]
    rfl
  | ok document =>
    simp only [Except.map, parsed]
    rfl

/-! ### Candidates -/

/-- What there is at the path of a candidate. -/
abbrev Candidate := Except PathFault (Location × Entry)

/-- The contents of a file are a text, and reading it as a document comes to this. -/
def ReadsAs (contents : Bytes) (outcome : Except Json.ReadError Json) : Prop :=
  ∃ cs, Utf8.decode contents = .ok cs ∧ Json.parse (String.ofList (unifyLineBreaks cs)) = outcome

/-- A candidate is a text file with an object, the members of which are the settings. -/
def Holds (found : Candidate) (settings : Settings) : Prop :=
  ∃ location contents, found = .ok (location, .file contents) ∧
    ReadsAs contents (.ok (.object settings))

/-- A candidate is not passed over although it holds no settings: its path is too long, its contents
are no text, or its document is beyond the bounds. -/
inductive Refusal : (found : Candidate) → (path : String) → Error → Prop where
  | longPath {path : String} :
      Refusal (.error .nameTooLong) path (.access ⟨.nameTooLong, path⟩)
  | noText {location : Location} {contents : Bytes} {path : String} {error : Utf8.DecodeError} :
      Utf8.decode contents = .error error →
      Refusal (.ok (location, .file contents)) path (.encoding error)
  | excessive {location : Location} {contents : Bytes} {path : String} {excess : Json.Excess} :
      ReadsAs contents (.error (.excessive excess)) →
      Refusal (.ok (location, .file contents)) path (.json (.excessive excess))

section Candidates

variable {found : Candidate} {path : String} {settings : Settings} {error : Error}

/-- What is a text reads as one outcome. -/
theorem readsAs_iff {contents : Bytes} {cs : List Char} (decoded : Utf8.decode contents = .ok cs)
    {outcome : Except Json.ReadError Json} :
    ReadsAs contents outcome ↔ Json.parse (String.ofList (unifyLineBreaks cs)) = outcome := by
  simp [ReadsAs, decoded]

theorem ReadsAs.unique {contents : Bytes} {outcome other : Except Json.ReadError Json}
    (first : ReadsAs contents outcome) (second : ReadsAs contents other) : outcome = other := by
  obtain ⟨cs, decoded, rfl⟩ := first
  exact (readsAs_iff decoded).mp second

/-- A file holds the settings that it reads as. -/
theorem holds_file_iff {location : Location} {contents : Bytes} :
    Holds (.ok (location, .file contents)) settings ↔
      ReadsAs contents (.ok (.object settings)) := by
  constructor
  · rintro ⟨_, _, same, reads⟩
    cases same
    exact reads
  · intro reads
    exact ⟨location, contents, rfl, reads⟩

/-- A candidate holds one object at most. -/
theorem Holds.unique {others : Settings} (first : Holds found settings)
    (second : Holds found others) : settings = others := by
  obtain ⟨location, contents, rfl, reads⟩ := first
  exact Json.object.inj (Except.ok.inj (reads.unique (holds_file_iff.mp second)))

/-- A candidate that holds settings does not refuse. -/
theorem Holds.not_refusal (holds : Holds found settings) : ¬ Refusal found path error := by
  obtain ⟨location, contents, rfl, reads⟩ := holds
  intro refusal
  cases refusal with
  | noText undecoded =>
    obtain ⟨cs, decoded, -⟩ := reads
    rw [decoded] at undecoded
    cases undecoded
  | excessive refused => cases reads.unique refused

/-- A candidate makes one error at most. -/
theorem Refusal.unique {other : Error} (first : Refusal found path error)
    (second : Refusal found path other) : error = other := by
  cases first with
  | longPath =>
    cases second
    rfl
  | noText undecoded =>
    cases second with
    | noText again =>
      rw [undecoded] at again
      rw [Except.error.inj again]
    | excessive reads =>
      obtain ⟨cs, decoded, -⟩ := reads
      rw [decoded] at undecoded
      cases undecoded
  | excessive reads =>
    cases second with
    | noText undecoded =>
      obtain ⟨cs, decoded, -⟩ := reads
      rw [decoded] at undecoded
      cases undecoded
    | excessive again =>
      cases reads.unique again
      rfl

/-- What is no file holds no settings. -/
theorem not_holds_of_no_file
    (noFile : ∀ location contents, found ≠ .ok (location, .file contents)) :
    ¬ Holds found settings := by
  rintro ⟨location, contents, same, -⟩
  exact noFile location contents same

/-- **A file** holds settings, or is passed over, or refuses, by what it reads as. -/
theorem candidate?_file_cases (location : Location) (contents : Bytes) (path : String) :
    let found : Candidate := .ok (location, .file contents)
    (∃ settings, Holds found settings ∧ candidate? found path = .ok (some settings)) ∨
      ((∀ settings, ¬ Holds found settings) ∧ (∀ error, ¬ Refusal found path error) ∧
        candidate? found path = .ok none) ∨
      ∃ error, Refusal found path error ∧ candidate? found path = .error error := by
  intro found
  simp only [found, candidate?, holds_file_iff]
  cases decoded : Utf8.decode contents with
  | error error =>
    rw [documentOf_of_decode_eq_error decoded]
    exact .inr (.inr ⟨_, .noText decoded, rfl⟩)
  | ok cs =>
    have reads {outcome : Except Json.ReadError Json} :
        ReadsAs contents outcome ↔ Json.parse (String.ofList (unifyLineBreaks cs)) = outcome :=
      readsAs_iff decoded
    -- A text refuses only when its document is beyond the bounds.
    have refuses {error : Error} (refusal : Refusal (.ok (location, .file contents)) path error) :
        ∃ excess, Json.parse (String.ofList (unifyLineBreaks cs)) = .error (.excessive excess) := by
      cases refusal with
      | noText undecoded =>
        rw [decoded] at undecoded
        cases undecoded
      | excessive refused => exact ⟨_, reads.mp refused⟩
    rw [documentOf_of_decode_eq_ok decoded]
    simp only [reads]
    cases parsed : Json.parse (String.ofList (unifyLineBreaks cs)) with
    | error error =>
      cases error with
      | malformed problem =>
        refine .inr (.inl ⟨by simp, ?_, rfl⟩)
        intro error refusal
        obtain ⟨excess, refused⟩ := refuses refusal
        rw [parsed] at refused
        cases refused
      | excessive excess => exact .inr (.inr ⟨_, .excessive (reads.mpr parsed), rfl⟩)
    | ok document =>
      have passes (error : Error) : ¬ Refusal (.ok (location, .file contents)) path error := by
        intro refusal
        obtain ⟨excess, refused⟩ := refuses refusal
        rw [parsed] at refused
        cases refused
      cases document with
      | object members => exact .inl ⟨members, rfl, rfl⟩
      | _ => exact .inr (.inl ⟨by simp, passes, rfl⟩)

/-- **A candidate** holds settings, or is passed over, or refuses. -/
theorem candidate?_cases (found : Candidate) (path : String) :
    (∃ settings, Holds found settings ∧ candidate? found path = .ok (some settings)) ∨
      ((∀ settings, ¬ Holds found settings) ∧ (∀ error, ¬ Refusal found path error) ∧
        candidate? found path = .ok none) ∨
      ∃ error, Refusal found path error ∧ candidate? found path = .error error := by
  rcases found with fault | ⟨location, _ | contents⟩
  · have nothing (settings : Settings) : ¬ Holds (.error fault) settings :=
      not_holds_of_no_file (by simp)
    cases fault with
    | nameTooLong => exact .inr (.inr ⟨_, .longPath, rfl⟩)
    | _ => exact .inr (.inl ⟨nothing, fun error refusal => (by cases refusal), rfl⟩)
  · have nothing (settings : Settings) : ¬ Holds (.ok (location, .directory)) settings :=
      not_holds_of_no_file (by simp)
    exact .inr (.inl ⟨nothing, fun error refusal => (by cases refusal), rfl⟩)
  · exact candidate?_file_cases location contents path

end Candidates

/-! ### The search -/

/-- The settings of the first candidate that holds any, and none when neither does. -/
def IsFirst (project home : Candidate) (settings : Settings) : Prop :=
  Holds project settings ∨
    (∀ others, ¬ Holds project others) ∧
      (Holds home settings ∨ (∀ others, ¬ Holds home others) ∧ settings = [])

/-- The search is stopped by the first candidate that refuses, unless one before it holds
settings. -/
def StopsWith (path : String) (project home : Candidate) (error : Error) : Prop :=
  Refusal project path error ∨
    (∀ settings, ¬ Holds project settings) ∧ (∀ other, ¬ Refusal project path other) ∧
      Refusal home fileName error

section Search

variable {fs : FileSystem} {projectRoot : String}

/-- The settings of the project's candidate are found. -/
theorem load_of_held {settings : Settings}
    (held : candidate? (fs.stat (fileIn projectRoot)) (fileIn projectRoot) = .ok (some settings)) :
    load fs projectRoot none = .ok settings := by
  rw [load, search, held]
  rfl

/-- When it is passed over, those in the home directory are, or none. -/
theorem load_of_passed
    (passed : candidate? (fs.stat (fileIn projectRoot)) (fileIn projectRoot) = .ok none) :
    load fs projectRoot none =
      (candidate? (fs.tree.walk [] (fs.home ++ [fileName])) fileName).map (·.getD []) := by
  rw [load, search, passed, ok_bind]
  dsimp only
  cases candidate? (fs.tree.walk [] (fs.home ++ [fileName])) fileName <;> rfl

/-- When it refuses, so does the search. -/
theorem load_of_refused {error : Error}
    (refused : candidate? (fs.stat (fileIn projectRoot)) (fileIn projectRoot) = .error error) :
    load fs projectRoot none = .error error := by
  rw [load, search, refused]
  rfl

end Search

/-- The search finds the first settings, or is stopped. -/
theorem load_cases (fs : FileSystem) (projectRoot : String) :
    let path := fileIn projectRoot
    let project : Candidate := fs.stat path
    let home : Candidate := fs.tree.walk [] (fs.home ++ [fileName])
    (∃ settings, load fs projectRoot none = .ok settings ∧ IsFirst project home settings ∧
        ∀ error, ¬ StopsWith path project home error) ∨
      ∃ error, load fs projectRoot none = .error error ∧ StopsWith path project home error := by
  intro path project home
  rcases candidate?_cases project path with
    ⟨settings, holds, found⟩ | ⟨nothing, passes, found⟩ | ⟨error, refusal, found⟩
  · refine .inl ⟨settings, load_of_held found, .inl holds, ?_⟩
    rintro error (refusal | ⟨nothing, -⟩)
    · exact holds.not_refusal refusal
    · exact nothing settings holds
  · rw [load_of_passed found]
    -- The project's candidate is passed over, so that of the home directory decides.
    have stops {error : Error} (stopped : StopsWith path project home error) :
        Refusal home fileName error := by
      rcases stopped with refusal | ⟨-, -, refusal⟩
      · exact absurd refusal (passes error)
      · exact refusal
    rcases candidate?_cases home fileName with
      ⟨settings, holds, found⟩ | ⟨nothingThere, passesToo, found⟩ | ⟨error, refusal, found⟩
    · refine .inl ⟨settings, by rw [found]; rfl, .inr ⟨nothing, .inl holds⟩, ?_⟩
      exact fun error stopped => holds.not_refusal (stops stopped)
    · refine .inl ⟨[], by rw [found]; rfl, .inr ⟨nothing, .inr ⟨nothingThere, rfl⟩⟩, ?_⟩
      exact fun error stopped => passesToo error (stops stopped)
    · exact .inr ⟨error, by rw [found]; rfl, .inr ⟨nothing, passes, refusal⟩⟩
  · exact .inr ⟨error, load_of_refused found, .inl refusal⟩

/-- A search is stopped by one error at most. -/
theorem StopsWith.unique {path : String} {project home : Candidate} {error other : Error}
    (first : StopsWith path project home error) (second : StopsWith path project home other) :
    error = other := by
  rcases first with here | ⟨-, passes, there⟩
  · rcases second with again | ⟨-, passes, -⟩
    · exact here.unique again
    · exact absurd here (passes error)
  · rcases second with again | ⟨-, -, again⟩
    · exact absurd again (passes other)
    · exact there.unique again

/-- The search fails exactly with what stops it. -/
theorem load_eq_error_iff (fs : FileSystem) (projectRoot : String) {error : Error} :
    load fs projectRoot none = .error error ↔
      StopsWith (fileIn projectRoot) (fs.stat (fileIn projectRoot))
        (fs.tree.walk [] (fs.home ++ [fileName])) error := by
  rcases load_cases fs projectRoot with ⟨settings, loads, -, goesOn⟩ | ⟨other, loads, stops⟩
  · rw [loads]
    exact iff_of_false (by simp) (goesOn error)
  · rw [loads, Except.error.injEq]
    exact ⟨fun same => same ▸ stops, stops.unique⟩

/-- **The settings of a project, exactly.** They are found, and are those of the first candidate
that holds any, exactly when the search is not stopped: neither does the candidate of the project
refuse nor, where that one is passed over, does that of the home directory. The search fails only
with the error of the candidate that stops it. It looks at the tree and gives none back, so
whatever becomes of it, no file is changed. -/
theorem load_takes_first_iff (fs : FileSystem) (projectRoot : String) :
    let path := fileIn projectRoot
    let project : Candidate := fs.stat path
    let home : Candidate := fs.tree.walk [] (fs.home ++ [fileName])
    ((∃ settings, load fs projectRoot none = .ok settings ∧ IsFirst project home settings) ↔
        ¬ ∃ error, StopsWith path project home error) ∧
      ∀ error, load fs projectRoot none = .error error ↔ StopsWith path project home error := by
  intro path project home
  refine ⟨?_, fun error => load_eq_error_iff fs projectRoot⟩
  rcases load_cases fs projectRoot with
    ⟨settings, loads, isFirst, goesOn⟩ | ⟨error, loads, stops⟩
  · exact iff_of_true ⟨settings, loads, isFirst⟩ (not_exists.mpr goesOn)
  · rw [loads]
    exact iff_of_false (by simp) (not_not_intro ⟨error, stops⟩)

/-- A file of the project that is no text keeps the settings of the home directory from being
found. -/
theorem load_stops_at_undecodable_file :
    let files : FileSystem := { FileSystem.blank with
      tree := (FileSystem.blank.tree.plant ["work", fileName] (.file [0xFF])).plant
        ["home", fileName] (.file (Utf8.encode "\x7b\"minify\":false\x7d".toList)) }
    let project : Candidate := files.stat (fileIn ".")
    let home : Candidate := files.tree.walk [] (files.home ++ [fileName])
    IsFirst project home [("minify", .bool false)] ∧
      load files "." none = .error (.encoding ⟨0xFF, 0, 1, .invalidStart⟩) := by
  intro files project home
  have inProject : project = .ok (["work", fileName], .file [0xFF]) :=
    eq_ok_of_toOption (by decide +kernel)
  have inHome : home = .ok (["home", fileName],
      .file (Utf8.encode "\x7b\"minify\":false\x7d".toList)) :=
    eq_ok_of_toOption (by decide +kernel)
  have undecoded : Utf8.decode [0xFF] = .error ⟨0xFF, 0, 1, .invalidStart⟩ := rfl
  have decoded : Utf8.decode (Utf8.encode "\x7b\"minify\":false\x7d".toList) =
      .ok "\x7b\"minify\":false\x7d".toList := eq_ok_of_toOption (by decide +kernel)
  have parsed : Json.parse (String.ofList (unifyLineBreaks
      "\x7b\"minify\":false\x7d".toList)) = .ok (.object [("minify", .bool false)]) := by
    have shown : ((Json.parse (String.ofList (unifyLineBreaks
        "\x7b\"minify\":false\x7d".toList))).toOption.bind Json.object?).map
          (List.map fun member => (member.1, member.2.bool?)) = some [("minify", some false)] := by
      decide +kernel
    obtain ⟨members, object, flags⟩ := Option.map_eq_some_iff.mp shown
    obtain ⟨document, read, isObject⟩ := Option.bind_eq_some_iff.mp object
    obtain ⟨⟨name, value⟩, rfl, flag⟩ := List.map_eq_singleton_iff.mp flags
    obtain ⟨rfl, isFlag⟩ := Prod.mk.inj flag
    obtain rfl := Json.bool?_eq_some_iff.mp isFlag
    rw [eq_ok_of_toOption read, Json.object?_eq_some_iff.mp isObject]
  refine ⟨.inr ⟨?_, .inl ⟨_, _, inHome, _, decoded, parsed⟩⟩, ?_⟩
  · rw [inProject]
    intro others holds
    obtain ⟨cs, isText, -⟩ := holds_file_iff.mp holds
    rw [undecoded] at isText
    cases isText
  · refine (load_eq_error_iff files ".").mpr (.inl ?_)
    change Refusal project _ _
    rw [inProject]
    exact .noText undecoded

end EsmBundle.Settings
