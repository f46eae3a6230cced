import EsmBundle.Proofs.Graph.Load
import EsmBundle.Proofs.Success

/-!
What loading makes of values that do not belong where they stand.

The document that a run prints can hold any value under any name. `ModuleGraph.ofPresent`
is the graph of a document when every value of an unexpected kind counts as absent. Reading
comes to that graph except in two cases: a scalar that is not void stands where a list
should, or a string or an object stands where the roots should.

* `Members.IsStray`, `Members.IsReadable` — a list field holds such a scalar, and a document
  has none in a field that is read.
* `ofMembers_eq_ok_iff` — what reading a document gives, for every document.
* `Outcome.IsUnexpected`, `Outcome.Astray` — the outcomes that make an entry point fail otherwise
  than with an error of the tool: a document beyond the bounds or one that is not readable, and
  a command that is refused.
* `load_fails_as_tool_iff` — loading ends with a graph or with an error of the tool exactly
  when no such outcome is reached.
-/

namespace EsmBundle

/-! ### List fields -/

namespace Json

/-- The values of a list, none in anything else. -/
def items : Json → List Json
  | .array items => items
  | _ => []

/-- What a text or an object counts as where a list should be: its characters, or its names. -/
def spelled : Json → List String
  | .string s => s.toList.map String.singleton
  | .object members => members.map Prod.fst
  | _ => []

/-- A scalar other than a text that does not count as nothing. -/
def IsStray : Json → Prop
  | .bool b => b = true
  | .int n => n ≠ 0
  | .real x => x.isZero = false
  | _ => False

/-- A value can be gone through exactly when it is no stray scalar, and then it gives the values
of a list and what a text or an object spells. -/
theorem elements_eq_ok_iff {value : Json} {elements : List Json} :
    value.elements = .ok elements ↔
      ¬ value.IsStray ∧ elements = value.items ++ value.spelled.map .string := by
  cases value with
  | null => simp [Json.elements, IsStray, items, spelled, eq_comm]
  | bool b => cases b <;> simp [Json.elements, IsStray, items, spelled, eq_comm]
  | int n =>
    by_cases zero : n = 0
    · simp [Json.elements, IsStray, items, spelled, zero, eq_comm]
    · simp [Json.elements, IsStray, zero]
  | real x => cases zero : x.isZero <;> simp [Json.elements, IsStray, items, spelled, zero, eq_comm]
  | string s => simp [Json.elements, IsStray, items, spelled, Function.comp_def, eq_comm]
  | array values => simp [Json.elements, IsStray, items, spelled, eq_comm]
  | object members => simp [Json.elements, IsStray, items, spelled, Function.comp_def, eq_comm]

/-- What is nothing for a text skips all texts. -/
theorem filterMap_string {α : Type} {read : Json → Option α} (skips : ∀ s, read (.string s) = none)
    (names : List String) : (names.map string).filterMap read = [] := by
  apply List.filterMap_eq_nil_iff.mpr
  intro value mem
  obtain ⟨name, -, rfl⟩ := List.mem_map.mp mem
  exact skips name

end Json

namespace Members

/-- The values of the list in a field. -/
def items (members : Members) (name : String) : List Json :=
  ((findEntry name members).map Json.items).getD []

/-- What the text or the object in a field spells. -/
def spelled (members : Members) (name : String) : List String :=
  ((findEntry name members).map Json.spelled).getD []

/-- A field holds a stray scalar. -/
def IsStray (members : Members) (name : String) : Prop :=
  ∃ value, findEntry name members = some value ∧ value.IsStray

/-- No stray scalar stands where the modules, the roots or the dependencies of a module should. -/
structure IsReadable (members : Members) : Prop where
  modules : ¬ members.IsStray "modules"
  dependencies : ∀ fields : Members,
    .object fields ∈ members.items "modules" → ¬ fields.IsStray "dependencies"
  roots : ¬ members.IsStray "roots"

/-- A list field is read exactly when it holds no stray scalar. -/
theorem elements_eq_ok_iff {members : Members} {name : String} {elements : List Json} :
    members.elements name = .ok elements ↔
      ¬ members.IsStray name ∧
        elements = members.items name ++ (members.spelled name).map .string := by
  unfold Members.elements IsStray items spelled
  cases findEntry name members with
  | none => simp [eq_comm]
  | some value => simp [Json.elements_eq_ok_iff]

end Members

/-! ### Documents -/

namespace GraphModule

/-- The module that an object describes when dependencies that are no list count as absent. -/
def ofPresent (members : Members) : GraphModule :=
  ⟨members.text "specifier", members.text "kind",
    (members.items "dependencies").filterMap Dependency.ofJson?⟩

/-- An object describes a module exactly when its dependencies are no stray scalar. -/
theorem ofMembers_eq_ok_iff {members : Members} {module : GraphModule} :
    ofMembers members = .ok module ↔
      ¬ members.IsStray "dependencies" ∧ module = ofPresent members := by
  unfold ofMembers ofPresent
  have noEdge := @Json.filterMap_string _ Dependency.ofJson? fun _ => rfl
  rw [bind_eq_ok_iff]
  constructor
  · rintro ⟨elements, read, same⟩
    obtain ⟨listed, rfl⟩ := Members.elements_eq_ok_iff.mp read
    rw [List.filterMap_append, noEdge, List.append_nil] at same
    exact ⟨listed, (Except.ok.inj same).symm⟩
  · rintro ⟨listed, rfl⟩
    refine ⟨_, Members.elements_eq_ok_iff.mpr ⟨listed, rfl⟩, ?_⟩
    rw [List.filterMap_append, noEdge, List.append_nil]
    rfl

/-- Values describe modules exactly when no object among them has stray dependencies, and then
each object describes one. -/
theorem ofJsons_eq_ok_iff {values : List Json} {modules : List GraphModule} :
    ofJsons values = .ok modules ↔
      (∀ fields : Members, .object fields ∈ values → ¬ fields.IsStray "dependencies") ∧
        modules = (values.filterMap Json.object?).map ofPresent := by
  induction values generalizing modules with
  | nil => simp [ofJsons, eq_comm]
  | cons value rest ih =>
    cases known : value.object? with
    | none =>
      have other (fields : Members) : .object fields ≠ value := by
        rintro rfl
        cases known
      simp [ofJsons, known, ih, other]
    | some fields =>
      obtain rfl := Json.object?_eq_some_iff.mp known
      simp only [ofJsons, known, bind_eq_ok_iff, ofMembers_eq_ok_iff, ih, List.mem_cons,
        List.filterMap_cons, List.map_cons]
      constructor
      · rintro ⟨_, ⟨listed, rfl⟩, _, ⟨others, rfl⟩, same⟩
        refine ⟨?_, (Except.ok.inj same).symm⟩
        rintro fields' (here | later)
        · obtain rfl := Json.object.inj here
          exact listed
        · exact others fields' later
      · rintro ⟨all, rfl⟩
        exact ⟨_, ⟨all fields (.inl rfl), rfl⟩, _,
          ⟨fun fields' later => all fields' (.inr later), rfl⟩, rfl⟩

end GraphModule

namespace ModuleGraph

/-- The graph that an object describes when every value of an unexpected kind counts as
absent. -/
def ofPresent (members : Members) : ModuleGraph where
  roots := (members.items "roots").filterMap Json.string?
  modules := ((members.items "modules").filterMap Json.object?).map GraphModule.ofPresent
  redirects := .ofList ((members.object? "redirects").getD [])

/-- The strings among texts are the texts. -/
theorem filterMap_string?_string (names : List String) :
    (names.map Json.string).filterMap Json.string? = names := by
  induction names with
  | nil => rfl
  | cons name rest ih => exact congrArg (name :: ·) ih

/-- A document is read exactly when it is readable, and then as if all unexpected values were
absent, but with what a text or an object spells in the place of the roots. -/
theorem ofMembers_eq_ok_iff {members : Members} {graph : ModuleGraph} :
    ofMembers members = .ok graph ↔
      members.IsReadable ∧
        graph = { ofPresent members with
          roots := (ofPresent members).roots ++ members.spelled "roots" } := by
  -- What a text or an object spells in the place of the modules describes none.
  have described (fields : Members) :
      .object fields ∈ members.items "modules" ++ (members.spelled "modules").map Json.string ↔
        .object fields ∈ members.items "modules" := by
    simp
  have noObject := @Json.filterMap_string _ Json.object? fun _ => rfl
  simp only [ofMembers, bind_eq_ok_iff, Members.elements_eq_ok_iff,
    GraphModule.ofJsons_eq_ok_iff]
  constructor
  · rintro ⟨_, ⟨modules, rfl⟩, _, ⟨dependencies, rfl⟩, _, ⟨roots, rfl⟩, same⟩
    refine ⟨⟨modules, fun fields listed => dependencies fields ((described fields).mpr listed),
      roots⟩, ?_⟩
    rw [← Except.ok.inj same]
    simp only [ofPresent, List.filterMap_append, noObject, filterMap_string?_string,
      List.append_nil]
  · rintro ⟨readable, rfl⟩
    refine ⟨_, ⟨readable.modules, rfl⟩, _, ⟨?_, rfl⟩, _, ⟨readable.roots, rfl⟩, ?_⟩
    · intro fields listed
      exact readable.dependencies fields ((described fields).mp listed)
    · simp only [ofPresent, List.filterMap_append, noObject, filterMap_string?_string,
        List.append_nil]
      rfl

/-- A document is read as if all unexpected values were absent exactly when it is readable and
neither a text nor an object with something in it stands in the place of the roots. -/
theorem ofMembers_eq_ofPresent_iff {members : Members} :
    ofMembers members = .ok (ofPresent members) ↔
      members.IsReadable ∧ members.spelled "roots" = [] := by
  rw [ofMembers_eq_ok_iff]
  refine and_congr_right fun _ => ?_
  constructor
  · intro same
    have roots := congrArg roots same
    exact List.self_eq_append_right.mp roots
  · intro none
    rw [none, List.append_nil]

end ModuleGraph

/-! ### Outcomes -/

/-- A process exits with status zero and prints a document that passes a bound, or an object that
is not readable. -/
def Outcome.IsUnexpected (outcome : Outcome) : Prop :=
  ∃ stdout stderr emitted, outcome = .exited 0 stdout stderr emitted ∧
    ((∃ excess, Json.parse (outputText stdout) = .error (.excessive excess)) ∨
      ∃ members, Json.parse (outputText stdout) = .ok (.object members) ∧
        ¬ Members.IsReadable members)

/-- A run that succeeds is unexpected exactly when what it printed is. -/
theorem Outcome.isUnexpected_iff_of_result {tool : Tool} {command : List String}
    {outcome : Outcome} {output : String} (ran : tool.result command outcome = .ok output) :
    outcome.IsUnexpected ↔
      (∃ excess, Json.parse output = .error (.excessive excess)) ∨
        ∃ members, Json.parse output = .ok (.object members) ∧ ¬ Members.IsReadable members := by
  obtain ⟨stdout, stderr, emitted, rfl, rfl⟩ := Tool.result_eq_ok_iff.mp ran
  constructor
  · rintro ⟨stdout', stderr', emitted', same, unexpected⟩
    obtain ⟨-, rfl, -, -⟩ := Outcome.exited.inj same
    exact unexpected
  · intro unexpected
    exact ⟨stdout, stderr, emitted, rfl, unexpected⟩

/-- What no process that describes a graph does. -/
def Outcome.Astray (outcome : Outcome) : Prop :=
  outcome.IsUnexpected ∨ outcome = .refused

/-- A NUL character is in a word of a call or in its directory. -/
def Call.hasNul (call : Call) : Bool :=
  (call.command ++ call.cwd.toList).any fun word => word.toList.contains '\x00'

/-- An outcome that a call can have: it is refused exactly when there is a NUL character in it. -/
def Outcome.Fits (outcome : Outcome) (call : Call) : Prop :=
  outcome = .refused ↔ call.hasNul = true

namespace ModuleGraph

/-- A process that describes a graph does what is expected. -/
theorem not_astray_of_describes {outcome : Outcome} {document : ModuleGraph}
    (describes : outcome.Describes document) : ¬ outcome.Astray := by
  obtain ⟨stdout, stderr, emitted, members, rfl, parsed, read⟩ := describes
  rintro (⟨stdout', stderr', emitted', same, unexpected⟩ | ⟨⟨⟩⟩)
  obtain ⟨-, rfl, -, -⟩ := Outcome.exited.inj same
  rcases unexpected with ⟨excess, refused⟩ | ⟨members', parsed', unreadable⟩
  · rw [parsed] at refused
    cases refused
  · rw [parsed] at parsed'
    obtain rfl := Json.object.inj (Except.ok.inj parsed')
    exact unreadable (ofMembers_eq_ok_iff.mp read).1

/-- A process that makes its entry point fail does what is expected exactly when the error is one
of the tool. -/
theorem astray_iff_of_failure {tool : Tool} {entry : String} {outcome : Outcome}
    {error : LoadError} (failure : EntryFailure tool entry outcome error) :
    outcome.Astray ↔ ¬ ∃ problem, error = .tool problem := by
  have notRefused {output : String}
      (ran : tool.result (tool.infoCall entry).command outcome = .ok output) :
      outcome ≠ .refused := by
    rintro rfl
    cases ran
  cases failure with
  | run failed =>
    refine ⟨?_, fun other => absurd ⟨_, rfl⟩ other⟩
    rintro (⟨stdout, stderr, emitted, rfl, -⟩ | rfl) <;> cases failed
  | refused same => simp [Outcome.Astray, same]
  | malformed ran parsed =>
    simp [Outcome.Astray, notRefused ran, Outcome.isUnexpected_iff_of_result ran, parsed]
  | excessive ran parsed =>
    simp [Outcome.Astray, Outcome.isUnexpected_iff_of_result ran, parsed]
  | noObject ran parsed other =>
    rename_i value
    have notObject (members : Members) : value ≠ .object members := by
      rintro rfl
      cases other
    simp [Outcome.Astray, notRefused ran, Outcome.isUnexpected_iff_of_result ran, parsed,
      notObject]
  | stray ran parsed read =>
    rename_i members scalar
    have unreadable : ¬ members.IsReadable := by
      intro readable
      have accepted := ofMembers_eq_ok_iff.mpr ⟨readable, rfl⟩
      rw [read] at accepted
      cases accepted
    simp [Outcome.Astray, Outcome.isUnexpected_iff_of_result ran, parsed, unreadable]

/-- Up to the first entry point that fails, only the process of that one can go astray. -/
theorem exists_astray_iff_of_failure {tool : Tool} {entries : List String}
    {processes : Processes} {j : Nat} {error : LoadError} (inside : j < entries.length)
    (accepted : ∀ i < j, ∃ document, (processes.outcome i).Describes document)
    (failure : EntryFailure tool entries[j] (processes.outcome j) error) :
    (∃ k < entries.length, (∀ i < k, ∃ document, (processes.outcome i).Describes document) ∧
      (processes.outcome k).Astray) ↔ (processes.outcome j).Astray := by
  constructor
  · rintro ⟨k, below, before, astray⟩
    rcases Nat.lt_trichotomy k j with earlier | rfl | later
    · obtain ⟨document, describes⟩ := accepted k earlier
      exact absurd astray (not_astray_of_describes describes)
    · exact astray
    · obtain ⟨document, describes⟩ := before j later
      exact absurd describes (not_describes_of_failure failure document)
  · intro astray
    exact ⟨j, inside, accepted, astray⟩

/-- Loading ends with a graph or with an error of the tool exactly when no process goes astray up to
the first entry point that fails. -/
theorem loads_or_fails_as_tool_iff (tool : Tool) (entries : List String) (processes : Processes) :
    (∃ graph, (load tool entries processes).1 = .ok graph) ∨
        (∃ problem, (load tool entries processes).1 = .error (.tool problem)) ↔
      ¬ ∃ k < entries.length,
        (∀ i < k, ∃ document, (processes.outcome i).Describes document) ∧
          (processes.outcome k).Astray := by
  rcases describes_or_first_failure tool entries processes with
    ⟨documents, same, accepted⟩ | ⟨j, error, inside, accepted, failure⟩
  · have loaded : (load tool entries processes).1 = .ok (documents.foldl merge empty) :=
      congrArg Prod.fst (loadInto_of_describes same accepted)
    refine iff_of_true (.inl ⟨_, loaded⟩) ?_
    rintro ⟨k, below, -, astray⟩
    exact not_astray_of_describes (accepted k (same ▸ below)) astray
  · have loaded : (load tool entries processes).1 = .error error :=
      congrArg Prod.fst (loadInto_of_failure inside accepted failure)
    rw [exists_astray_iff_of_failure inside accepted failure, astray_iff_of_failure failure,
      Classical.not_not, loaded]
    simp

/-- **Loading, and what it fails with.** A document gives a graph exactly when no stray scalar
stands in a list field, and it is the graph in which all unexpected values are absent exactly
when, moreover, no text and no object with something in it stands in the place of the roots.
Loading ends with a graph or with an error of the tool exactly when, up to the first entry point
that fails, no command is refused and no process prints a document that is beyond the bounds or
not readable; and where commands are refused for their NUL characters, exactly when no command
up to there has one. -/
theorem load_fails_as_tool_iff (members : Members) (tool : Tool) (entries : List String)
    (processes : Processes) :
    ((∃ graph, ofMembers members = .ok graph) ↔ members.IsReadable) ∧
      (ofMembers members = .ok (ofPresent members) ↔
        members.IsReadable ∧ members.spelled "roots" = []) ∧
      ((∃ graph, (load tool entries processes).1 = .ok graph) ∨
          (∃ problem, (load tool entries processes).1 = .error (.tool problem)) ↔
        ¬ ∃ k < entries.length,
          (∀ i < k, ∃ document, (processes.outcome i).Describes document) ∧
            ((processes.outcome k).IsUnexpected ∨ processes.outcome k = .refused)) ∧
      ((∀ k (inside : k < entries.length),
          (processes.outcome k).Fits (tool.infoCall entries[k])) →
        ((∃ graph, (load tool entries processes).1 = .ok graph) ∨
            (∃ problem, (load tool entries processes).1 = .error (.tool problem)) ↔
          ¬ ∃ k, ∃ inside : k < entries.length,
            (∀ i < k, ∃ document, (processes.outcome i).Describes document) ∧
              ((processes.outcome k).IsUnexpected ∨
                (tool.infoCall entries[k]).hasNul = true))) := by
  have ends := loads_or_fails_as_tool_iff tool entries processes
  refine ⟨⟨?_, ?_⟩, ofMembers_eq_ofPresent_iff, ends, ?_⟩
  · rintro ⟨graph, read⟩
    exact (ofMembers_eq_ok_iff.mp read).1
  · intro readable
    exact ⟨_, ofMembers_eq_ok_iff.mpr ⟨readable, rfl⟩⟩
  · intro fits
    refine ends.trans (not_congr (exists_congr fun k => ?_))
    constructor
    · rintro ⟨inside, before, astray⟩
      exact ⟨inside, before, astray.imp_right (fits k inside).mp⟩
    · rintro ⟨inside, before, astray⟩
      exact ⟨inside, before, astray.imp_right (fits k inside).mpr⟩

/-- A number in the place of the modules keeps a document from being read and is not reported as an
error of the tool, nor is a NUL character in an entry point; and the characters of a text in the
place of the roots become roots. -/
theorem load_fails_otherwise :
    let tool : Tool := ⟨"deno", none⟩
    let printed : Outcome := .exited 0 (Utf8.encode "\x7b\"modules\": 5\x7d".toList) [] []
    (load tool ["a.ts"] ⟨[printed], []⟩).1 = .error (.stray .int) ∧
      (Outcome.refused.Fits (tool.infoCall "a\x00b") ∧
        (load tool ["a\x00b"] ⟨[.refused], []⟩).1 = .error .refused) ∧
      (∀ graph, ofMembers [("modules", .int 5)] ≠ .ok graph) ∧
      (ofPresent [("modules", .int 5)]).modules.map GraphModule.specifier = [] ∧
      ∃ graph, ofMembers [("roots", .string "ab")] = .ok graph ∧ graph.roots = ["a", "b"] ∧
        (ofPresent [("roots", .string "ab")]).roots = [] := by
  intro tool printed
  refine ⟨?_, ⟨⟨fun _ => by decide +kernel, fun _ => rfl⟩, rfl⟩, ?_, ?_, ?_⟩
  · have failed : (match (load tool ["a.ts"] ⟨[printed], []⟩).1 with
        | .ok _ => none
        | .error error => some error) = some (.stray .int) := by decide +kernel
    cases loaded : (load tool ["a.ts"] ⟨[printed], []⟩).1 with
    | ok graph =>
      rw [loaded] at failed
      cases failed
    | error error =>
      rw [loaded] at failed
      exact congrArg Except.error (Option.some.inj failed)
  · intro graph read
    cases read
  · rfl
  · exact ⟨_, rfl, rfl, rfl⟩

end ModuleGraph

end EsmBundle
