import EsmBundle.Graph.Loader
import EsmBundle.Proofs.Graph.Merge
import EsmBundle.Proofs.ToolRun

/-!
What loading the module graph of a list of entry points comes to.

Every entry point has one run of the tool, and the outcome of that run alone decides
whether the entry point is accepted, with which graph, or why it fails.

* `loadEntry_eq` — one entry point takes one outcome and starts one process.
* `Describes`, `EntryFailure` — what an outcome has to be for an entry point to be
  accepted, and every way in which it can fail; an outcome is of exactly one kind
  (`entryResult_eq_ok_iff`, `entryResult_eq_error_iff`).
* `load_union_or_first_failure` — loading makes the union of all graphs when every
  entry point is accepted. Otherwise it ends with the error of the first that fails,
  and no process is started for those behind it.
-/

namespace EsmBundle

/-! ### Outcomes and starts -/

/-- The start of the process for an entry point. -/
def Tool.infoCall (tool : Tool) (entry : String) : Call :=
  ⟨[tool.executable, "info", "--json", entry], tool.cwd⟩

/-- The outcome of the process that is started after `n` others. -/
def Processes.outcome (processes : Processes) (n : Nat) : Outcome :=
  (processes.pending[n]?).getD .absent

/-- The processes when one was started for each of the entry points, in order. -/
def Processes.afterInfo (processes : Processes) (tool : Tool) (entries : List String) :
    Processes :=
  ⟨processes.pending.drop entries.length, processes.calls ++ entries.map tool.infoCall⟩

/-- Without entry points no process is started. -/
@[simp]
theorem Processes.afterInfo_nil (processes : Processes) (tool : Tool) :
    processes.afterInfo tool [] = processes := by
  simp [afterInfo]

/-- Entry points behind the first are started after it. -/
theorem Processes.afterInfo_cons (processes : Processes) (tool : Tool) (entry : String)
    (rest : List String) :
    processes.afterInfo tool (entry :: rest) =
      (processes.afterInfo tool [entry]).afterInfo tool rest := by
  simp [afterInfo]

/-- The outcomes that are left after one start are those behind the first. -/
theorem Processes.outcome_afterInfo (processes : Processes) (tool : Tool) (entry : String)
    (n : Nat) : (processes.afterInfo tool [entry]).outcome n = processes.outcome (n + 1) := by
  simp [afterInfo, outcome]

/-! ### One entry point -/

/-- A process exits with status zero and prints an object that describes a graph. -/
def Outcome.Describes (outcome : Outcome) (document : ModuleGraph) : Prop :=
  ∃ stdout stderr emitted members,
    outcome = .exited 0 stdout stderr emitted ∧
      Json.parse (outputText stdout) = .ok (.object members) ∧
      ModuleGraph.ofMembers members = .ok document

/-- What is printed describes a graph when its characters are read as one. -/
theorem Outcome.Describes.of_readDocument {stdout stderr : Bytes}
    {emitted : List (String × Bytes)} {members : List (String × Json)} {document : ModuleGraph}
    (read : Json.readDocument (unifyLineBreaks (Utf8.decodeLossy stdout)) = .ok (.object members))
    (isGraph : ModuleGraph.ofMembers members = .ok document) :
    (Outcome.exited 0 stdout stderr emitted).Describes document := by
  refine ⟨stdout, stderr, emitted, members, rfl, ?_, isGraph⟩
  rw [outputText, Json.parse, String.toList_ofList, read]

/-- The next outcomes describe these graphs, one each. -/
def Processes.DescribeAll (processes : Processes) (documents : List ModuleGraph) : Prop :=
  ∀ i (h : i < documents.length), (processes.outcome i).Describes documents[i]

/-- Why an entry point fails: its run fails or its command is refused, or what the run printed is no
document, passes a bound, is no object, or has a scalar where a list should be. -/
inductive EntryFailure (tool : Tool) (entry : String) (outcome : Outcome) : LoadError → Prop where
  | run {error : ToolError} :
      tool.result (tool.infoCall entry).command outcome = .error (.tool error) →
      EntryFailure tool entry outcome (.tool error)
  | refused :
      outcome = .refused → EntryFailure tool entry outcome .refused
  | malformed {output : String} {error : Json.ParseError} :
      tool.result (tool.infoCall entry).command outcome = .ok output →
      Json.parse output = .error (.malformed error) →
      EntryFailure tool entry outcome (.tool
        ⟨"deno info returned invalid JSON for " ++ entry ++ ": " ++ error.message, [], none, ""⟩)
  | excessive {output : String} {excess : Json.Excess} :
      tool.result (tool.infoCall entry).command outcome = .ok output →
      Json.parse output = .error (.excessive excess) →
      EntryFailure tool entry outcome (.excessive excess)
  | noObject {output : String} {value : Json} :
      tool.result (tool.infoCall entry).command outcome = .ok output →
      Json.parse output = .ok value → value.object? = none →
      EntryFailure tool entry outcome (.tool
        ⟨"deno info returned no graph for " ++ entry, [], none, ""⟩)
  | stray {output : String} {members : Members} {scalar : StrayScalar} :
      tool.result (tool.infoCall entry).command outcome = .ok output →
      Json.parse output = .ok (.object members) →
      ModuleGraph.ofMembers members = .error scalar →
      EntryFailure tool entry outcome (.stray scalar)

namespace ModuleGraph

/-- What the outcome of its run makes of an entry point. -/
def entryResult (tool : Tool) (entry : String) (outcome : Outcome) :
    Except LoadError ModuleGraph :=
  match tool.result (tool.infoCall entry).command outcome with
  | .error error => .error (.ofRun error)
  | .ok output => ofOutput entry output

/-- **One entry point takes one outcome** and starts one process, and nothing but that
outcome decides its result. -/
theorem loadEntry_eq (tool : Tool) (entry : String) (processes : Processes) :
    loadEntry tool entry processes =
      (entryResult tool entry (processes.outcome 0), processes.afterInfo tool [entry]) := by
  have next : processes.next = processes.outcome 0 := by
    simp [Processes.next, Processes.outcome, List.headD_eq_head?_getD, List.head?_eq_getElem?]
  have state : (tool.run ["info", "--json", entry] processes).2 =
      processes.afterInfo tool [entry] := by
    simp [Tool.run, Processes.start, Processes.afterInfo, Tool.infoCall]
  have result : (tool.run ["info", "--json", entry] processes).1 =
      tool.result (tool.infoCall entry).command (processes.outcome 0) := by
    rw [← next]
    rfl
  unfold loadEntry entryResult
  rw [← result, ← state]
  cases tool.run ["info", "--json", entry] processes with
  | mk result processes => cases result <;> rfl

/-- An entry point is accepted exactly when its process describes a graph. -/
theorem entryResult_eq_ok_iff {tool : Tool} {entry : String} {outcome : Outcome}
    {document : ModuleGraph} :
    entryResult tool entry outcome = .ok document ↔ outcome.Describes document := by
  unfold entryResult
  constructor
  · intro accepted
    split at accepted
    · cases accepted
    · rename_i output ran
      obtain ⟨stdout, stderr, emitted, exited, rfl⟩ := Tool.result_eq_ok_iff.mp ran
      rw [ofOutput] at accepted
      split at accepted
      · cases accepted
      · cases accepted
      · rename_i members parsed
        refine ⟨stdout, stderr, emitted, members, exited, parsed, ?_⟩
        split at accepted
        · rename_i document' read
          rw [read, Except.ok.inj accepted]
        · cases accepted
      · cases accepted
  · rintro ⟨stdout, stderr, emitted, members, rfl, parsed, read⟩
    have ran : tool.result (tool.infoCall entry).command (.exited 0 stdout stderr emitted) =
        .ok (outputText stdout) := rfl
    simp only [ran, ofOutput, parsed, read]

/-- An entry point fails exactly in the ways that `EntryFailure` lists. -/
theorem entryResult_eq_error_iff {tool : Tool} {entry : String} {outcome : Outcome}
    {error : LoadError} :
    entryResult tool entry outcome = .error error ↔ EntryFailure tool entry outcome error := by
  constructor
  · intro failed
    unfold entryResult at failed
    split at failed
    · rename_i reason ran
      cases failed
      cases reason with
      | tool problem => exact .run ran
      | refused => exact .refused (Tool.result_eq_refused_iff.mp ran)
    · rename_i output ran
      rw [ofOutput] at failed
      split at failed
      · rename_i problem parsed
        cases failed
        exact .malformed ran parsed
      · rename_i excess parsed
        cases failed
        exact .excessive ran parsed
      · rename_i members parsed
        split at failed
        · cases failed
        · rename_i scalar read
          cases failed
          exact .stray ran parsed read
      · rename_i value other parsed
        cases failed
        refine .noObject ran parsed ?_
        cases value with
        | object members => exact absurd rfl (other members)
        | _ => rfl
  · intro failure
    cases failure with
    | run ran => simp only [entryResult, ran, LoadError.ofRun]
    | refused same => simp only [entryResult, Tool.result_eq_refused_iff.mpr same, LoadError.ofRun]
    | malformed ran parsed => simp only [entryResult, ran, ofOutput, parsed, unusable]
    | excessive ran parsed => simp only [entryResult, ran, ofOutput, parsed]
    | noObject ran parsed none =>
      rename_i value
      cases value with
      | object members => cases none
      | _ => simp only [entryResult, ran, ofOutput, parsed, unusable]
    | stray ran parsed read => simp only [entryResult, ran, ofOutput, parsed, read]

/-- No process that makes its entry point fail describes a graph. -/
theorem not_describes_of_failure {tool : Tool} {entry : String} {outcome : Outcome}
    {error : LoadError} (failure : EntryFailure tool entry outcome error)
    (document : ModuleGraph) : ¬ outcome.Describes document := by
  intro describes
  have failed := entryResult_eq_error_iff.mpr failure
  rw [entryResult_eq_ok_iff.mpr describes] at failed
  cases failed

/-! ### All entry points -/

/-- When every entry point is accepted, all graphs are merged in order. -/
theorem loadInto_of_describes {tool : Tool} {graph : ModuleGraph} {entries : List String}
    {processes : Processes} {documents : List ModuleGraph}
    (same : documents.length = entries.length) (accepted : processes.DescribeAll documents) :
    loadInto tool graph entries processes =
      (.ok (documents.foldl merge graph), processes.afterInfo tool entries) := by
  induction entries generalizing graph processes documents with
  | nil =>
    obtain rfl := List.eq_nil_of_length_eq_zero same
    rw [Processes.afterInfo_nil]
    rfl
  | cons entry rest ih =>
    cases documents with
    | nil => simp at same
    | cons document documents =>
      have first : entryResult tool entry (processes.outcome 0) = .ok document :=
        entryResult_eq_ok_iff.mpr (accepted 0 (Nat.zero_lt_succ _))
      have later : (processes.afterInfo tool [entry]).DescribeAll documents := by
        intro i h
        rw [Processes.outcome_afterInfo]
        exact accepted (i + 1) (Nat.succ_lt_succ h)
      rw [loadInto, loadEntry_eq, first, Processes.afterInfo_cons processes tool entry rest]
      exact ih (Nat.succ.inj same) later

/-- The first entry point that fails ends the loading, and it is the last that is started. -/
theorem loadInto_of_failure {tool : Tool} {graph : ModuleGraph} {entries : List String}
    {processes : Processes} {k : Nat} {error : LoadError} (inside : k < entries.length)
    (accepted : ∀ i < k, ∃ document, (processes.outcome i).Describes document)
    (failure : EntryFailure tool entries[k] (processes.outcome k) error) :
    loadInto tool graph entries processes =
      (.error error, processes.afterInfo tool (entries.take (k + 1))) := by
  induction entries generalizing graph processes k with
  | nil => simp at inside
  | cons entry rest ih =>
    rw [loadInto, loadEntry_eq, List.take_succ_cons,
      Processes.afterInfo_cons processes tool entry (rest.take k)]
    cases k with
    | zero =>
      have failed : entryResult tool entry (processes.outcome 0) = .error error :=
        entryResult_eq_error_iff.mpr failure
      rw [failed, List.take_zero, Processes.afterInfo_nil]
    | succ k =>
      obtain ⟨document, first⟩ := accepted 0 (Nat.zero_lt_succ k)
      rw [entryResult_eq_ok_iff.mpr first]
      refine ih (Nat.lt_of_succ_lt_succ inside) ?_ ?_
      · intro i below
        rw [Processes.outcome_afterInfo]
        exact accepted (i + 1) (Nat.succ_lt_succ below)
      · rw [Processes.outcome_afterInfo]
        exact failure

/-- Either every one of the first outcomes describes a graph, or there is a first that does not,
and its entry point fails. -/
theorem describes_or_first_failure (tool : Tool) (entries : List String) (processes : Processes) :
    (∃ documents, documents.length = entries.length ∧ processes.DescribeAll documents) ∨
      ∃ k error, ∃ inside : k < entries.length,
        (∀ i < k, ∃ document, (processes.outcome i).Describes document) ∧
          EntryFailure tool entries[k] (processes.outcome k) error := by
  induction entries generalizing processes with
  | nil => exact Or.inl ⟨[], rfl, fun i h => absurd h (Nat.not_lt_zero i)⟩
  | cons entry rest ih =>
    cases first : entryResult tool entry (processes.outcome 0) with
    | error error =>
      exact Or.inr ⟨0, error, Nat.zero_lt_succ _, by simp, entryResult_eq_error_iff.mp first⟩
    | ok document =>
      have described := entryResult_eq_ok_iff.mp first
      have later := ih (processes.afterInfo tool [entry])
      simp only [Processes.DescribeAll, Processes.outcome_afterInfo] at later
      rcases later with ⟨documents, same, accepted⟩ | ⟨k, error, inside, accepted, failure⟩
      · refine Or.inl ⟨document :: documents, congrArg (· + 1) same, ?_⟩
        intro i h
        cases i with
        | zero => exact described
        | succ i => exact accepted i (Nat.lt_of_succ_lt_succ h)
      · refine Or.inr ⟨k + 1, error, Nat.succ_lt_succ inside, ?_, failure⟩
        intro i below
        cases i with
        | zero => exact ⟨document, described⟩
        | succ i => exact accepted i (Nat.lt_of_succ_lt_succ below)

/-- **Loading, exactly.** If the process of every entry point starts, exits with status
zero and prints an object that describes a graph, one process is started for every entry
point in order, and the result is the union of the graphs, in which no two roots and no
two specifiers are equal. Otherwise the result is the error of the first entry point that
fails, and the processes started are those of the entry points up to it. -/
theorem load_union_or_first_failure (tool : Tool) (entries : List String)
    (processes : Processes) :
    (∀ documents, documents.length = entries.length → processes.DescribeAll documents →
        ∃ graph, load tool entries processes = (.ok graph, processes.afterInfo tool entries) ∧
          IsUnion documents graph ∧ graph.roots.Nodup ∧
          (graph.modules.map GraphModule.specifier).Nodup) ∧
      ((¬ ∃ documents, documents.length = entries.length ∧ processes.DescribeAll documents) →
        ∃ k error, ∃ inside : k < entries.length,
          (∀ i < k, ∃ document, (processes.outcome i).Describes document) ∧
            EntryFailure tool entries[k] (processes.outcome k) error ∧
            load tool entries processes =
              (.error error, processes.afterInfo tool (entries.take (k + 1)))) := by
  refine ⟨?_, ?_⟩
  · intro documents same accepted
    have union := isUnion_foldl_merge documents
    exact ⟨documents.foldl merge empty, loadInto_of_describes same accepted, union,
      union.nodup_roots, union.nodup_specifiers⟩
  · intro notAll
    obtain ⟨k, error, inside, accepted, failure⟩ :=
      (describes_or_first_failure tool entries processes).resolve_left notAll
    exact ⟨k, error, inside, accepted, failure, loadInto_of_failure inside accepted failure⟩

/-- Two entry points whose documents share a root and a module are both started and merged.
When the first process cannot be started, the second is not. -/
theorem load_two_entries :
    let tool : Tool := ⟨"deno", none⟩
    let printed (text : String) : Outcome := .exited 0 (Utf8.encode text.toList) [] []
    let first := printed "\x7b\"roots\":[\"r\",\"r\"],\"modules\":[\x7b\"specifier\":\"m\"\x7d]\x7d"
    let second := printed "\x7b\"roots\":[\"s\",\"r\"],\"modules\":[\x7b\"specifier\":\"m\"\x7d]\x7d"
    (∃ documents graph, documents.length = 2 ∧
        Processes.DescribeAll ⟨[first, second], []⟩ documents ∧ IsUnion documents graph ∧
        load tool ["a.ts", "b.ts"] ⟨[first, second], []⟩ =
          (.ok graph, ⟨[], [tool.infoCall "a.ts", tool.infoCall "b.ts"]⟩)) ∧
      ∃ error, load tool ["a.ts", "b.ts"] ⟨[], []⟩ =
        (.error error, ⟨[], [tool.infoCall "a.ts"]⟩) := by
  intro tool printed first second
  have accepted (outcome : Outcome) (h : (entryResult tool "" outcome).isOk = true) :
      ∃ document, outcome.Describes document := by
    cases result : entryResult tool "" outcome with
    | ok document => exact ⟨document, entryResult_eq_ok_iff.mp result⟩
    | error error => rw [result] at h; cases h
  have absent {document : ModuleGraph} : ¬ Outcome.absent.Describes document := by
    rintro ⟨stdout, stderr, emitted, members, same, -⟩
    cases same
  refine ⟨?_, ?_⟩
  · obtain ⟨one, describesOne⟩ := accepted first (by decide +kernel)
    obtain ⟨two, describesTwo⟩ := accepted second (by decide +kernel)
    have described : Processes.DescribeAll ⟨[first, second], []⟩ [one, two] := by
      intro i h
      match i, h with
      | 0, _ => exact describesOne
      | 1, _ => exact describesTwo
    obtain ⟨graph, loaded, union, -⟩ := (load_union_or_first_failure tool ["a.ts", "b.ts"]
      ⟨[first, second], []⟩).1 [one, two] rfl described
    exact ⟨[one, two], graph, rfl, described, union, loaded⟩
  · have notAll : ¬ ∃ documents, documents.length = ["a.ts", "b.ts"].length ∧
        Processes.DescribeAll ⟨[], []⟩ documents := by
      rintro ⟨documents, same, described⟩
      exact absent (described 0 (by simp [same]))
    obtain ⟨k, error, inside, before, -, loaded⟩ :=
      (load_union_or_first_failure tool ["a.ts", "b.ts"] ⟨[], []⟩).2 notAll
    cases k with
    | zero => exact ⟨error, loaded⟩
    | succ k =>
      obtain ⟨document, describes⟩ := before 0 (Nat.zero_lt_succ k)
      exact absurd describes absent

end ModuleGraph

end EsmBundle
