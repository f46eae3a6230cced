import EsmBundle.Proofs.Graph.Load
import EsmBundle.Proofs.Success

/-!
The laws of merging module graphs, for graphs that hold any root or module several times.

Merging keeps what is there as it is, repetitions included, and adds what is new. So it is
associative, in the order of the parts as well as in what they hold, and a graph whose parts are
all there adds nothing.

* `merge_assoc`, `merge_self`, `merge_merge_self`, `merge_empty` — the laws.
* `foldl_merge_merge` — merging documents into a graph is merging their union into it.
* `merges_with_loads` — the laws, and with them: entry points behind others load to the graph of
  those others with their own merged into it.
-/

namespace EsmBundle.ModuleGraph

/-! ### The laws -/

/-- Two graphs with the same parts are the same. -/
theorem eq_of_parts {a b : ModuleGraph} (roots : a.roots = b.roots)
    (modules : a.modules = b.modules) (redirects : a.redirects = b.redirects) : a = b := by
  cases a
  cases b
  congr

/-- **Merging is associative**, in the order of roots, modules and redirects too. -/
theorem merge_assoc (a b c : ModuleGraph) : (a.merge b).merge c = a.merge (b.merge c) := by
  refine eq_of_parts ?_ ?_ ?_
  · simp only [merge, addRoots_eq_addNew, addNew_addNew]
  · simp only [merge, addModules_eq_addNew, addNew_addNew]
  · exact (OrderedMap.insertAll_insertAll a.redirects b.redirects c.redirects).symm

/-- A graph adds nothing to itself. -/
theorem merge_self (a : ModuleGraph) : a.merge a = a := by
  refine eq_of_parts ?_ ?_ ?_
  · rw [merge, addRoots_eq_addNew]
    exact addNew_of_subset fun root mem => List.mem_map.mpr ⟨root, mem, rfl⟩
  · rw [merge, addModules_eq_addNew]
    exact addNew_of_subset fun module mem => List.mem_map.mpr ⟨module, mem, rfl⟩
  · exact OrderedMap.insertAll_entries_self a.redirects

/-- A graph that is merged in twice is merged in once. -/
theorem merge_merge_self (a b : ModuleGraph) : (a.merge b).merge b = a.merge b := by
  rw [merge_assoc, merge_self]

/-- The graph without modules adds nothing. -/
theorem merge_empty (a : ModuleGraph) : a.merge empty = a := rfl

/-- Merging documents into a merged graph is merging into its first part what they make of its
second. -/
theorem foldl_merge_merge (a b : ModuleGraph) (documents : List ModuleGraph) :
    documents.foldl merge (a.merge b) = a.merge (documents.foldl merge b) := by
  induction documents generalizing b with
  | nil => rfl
  | cons document rest ih => rw [List.foldl_cons, List.foldl_cons, merge_assoc, ih]

/-! ### Loading -/

/-- Loading succeeds exactly with the documents that the outcomes describe, merged. -/
theorem load_eq_ok_iff {tool : Tool} {entries : List String} {processes : Processes}
    {graph : ModuleGraph} :
    (load tool entries processes).1 = .ok graph ↔
      ∃ documents, documents.length = entries.length ∧ processes.DescribeAll documents ∧
        graph = documents.foldl merge empty := by
  constructor
  · intro loaded
    rcases describes_or_first_failure tool entries processes with
      ⟨documents, same, accepted⟩ | ⟨k, error, inside, accepted, failure⟩
    · rw [load, loadInto_of_describes same accepted] at loaded
      exact ⟨documents, same, accepted, (Except.ok.inj loaded).symm⟩
    · rw [load, loadInto_of_failure inside accepted failure] at loaded
      cases loaded
  · rintro ⟨documents, same, accepted, rfl⟩
    rw [load, loadInto_of_describes same accepted]

/-- Outcomes that are those of two lists of processes, one behind the other, describe what both
describe. -/
theorem describeAll_append {first second both : Processes} {documents others : List ModuleGraph}
    (before : ∀ i < documents.length, both.outcome i = first.outcome i)
    (after : ∀ i < others.length, both.outcome (documents.length + i) = second.outcome i)
    (described : first.DescribeAll documents) (describedToo : second.DescribeAll others) :
    both.DescribeAll (documents ++ others) := by
  intro i inside
  by_cases early : i < documents.length
  · rw [List.getElem_append_left early, before i early]
    exact described i early
  · obtain ⟨j, rfl⟩ := Nat.exists_eq_add_of_le (Nat.le_of_not_lt early)
    have later : j < others.length := by
      rw [List.length_append] at inside
      omega
    rw [List.getElem_append_right (Nat.le_add_right _ _), after j later]
    simpa using describedToo j later

/-- **Merging is associative and idempotent, and loading follows it.** Merging a third graph into
the merge of two is merging into the first what the other two make; a graph merged into itself, or
merged in twice, changes nothing more, and neither does the empty graph. If two lists of entry
points both load, then the second behind the first, with the same outcomes, loads to the graph of
the first list with that of the second merged into it, and one process is started for each. -/
theorem merges_with_loads :
    (∀ a b c : ModuleGraph, (a.merge b).merge c = a.merge (b.merge c)) ∧
      (∀ a : ModuleGraph, a.merge a = a) ∧
      (∀ a b : ModuleGraph, (a.merge b).merge b = a.merge b) ∧
      (∀ a : ModuleGraph, a.merge empty = a) ∧
      ∀ (tool : Tool) (xs ys : List String) (first second both : Processes) (g h : ModuleGraph),
        (∀ i < xs.length, both.outcome i = first.outcome i) →
        (∀ i < ys.length, both.outcome (xs.length + i) = second.outcome i) →
        (load tool xs first).1 = .ok g → (load tool ys second).1 = .ok h →
        load tool (xs ++ ys) both = (.ok (g.merge h), both.afterInfo tool (xs ++ ys)) := by
  refine ⟨merge_assoc, merge_self, merge_merge_self, merge_empty, ?_⟩
  intro tool xs ys first second both g h before after loads loadsToo
  obtain ⟨documents, length, described, rfl⟩ := load_eq_ok_iff.mp loads
  obtain ⟨others, lengthToo, describedToo, rfl⟩ := load_eq_ok_iff.mp loadsToo
  have all : both.DescribeAll (documents ++ others) :=
    describeAll_append (length ▸ before) (length ▸ lengthToo ▸ after) described describedToo
  have same : (documents ++ others).length = (xs ++ ys).length := by
    rw [List.length_append, List.length_append, length, lengthToo]
  have merged : others.foldl merge (documents.foldl merge empty) =
      (documents.foldl merge empty).merge (others.foldl merge empty) :=
    foldl_merge_merge _ empty others
  rw [load, loadInto_of_describes same all, List.foldl_append, merged]

/-- Two entry points whose documents share a root load apart to two graphs, and together to the
merge of them, in which that root is once. -/
theorem merges_with_loads_of_two :
    let tool : Tool := ⟨"deno", none⟩
    let printed (text : String) : Outcome := .exited 0 (Utf8.encode text.toList) [] []
    let first := printed "\x7b\"roots\":[\"r\",\"r\"]\x7d"
    let second := printed "\x7b\"roots\":[\"s\",\"r\"]\x7d"
    ∃ g h, (load tool ["a.ts"] ⟨[first], []⟩).1 = .ok g ∧
      (load tool ["b.ts"] ⟨[second], []⟩).1 = .ok h ∧
      load tool (["a.ts"] ++ ["b.ts"]) ⟨[first, second], []⟩ =
        (.ok (g.merge h), ⟨[], [tool.infoCall "a.ts", tool.infoCall "b.ts"]⟩) ∧
      g.roots = ["r"] ∧ h.roots = ["s", "r"] ∧ (g.merge h).roots = ["r", "s"] := by
  intro tool printed first second
  have told : ((load tool ["a.ts"] ⟨[first], []⟩).1.toOption.map roots) = some ["r"] := by
    decide +kernel
  have toldToo : ((load tool ["b.ts"] ⟨[second], []⟩).1.toOption.map roots) = some ["s", "r"] := by
    decide +kernel
  obtain ⟨g, loads, rootsOfFirst⟩ := Option.map_eq_some_iff.mp told
  obtain ⟨h, loadsToo, rootsOfSecond⟩ := Option.map_eq_some_iff.mp toldToo
  have both := merges_with_loads.2.2.2.2 tool ["a.ts"] ["b.ts"] ⟨[first], []⟩ ⟨[second], []⟩
    ⟨[first, second], []⟩ g h (by simp [Processes.outcome]) (by simp [Processes.outcome])
    (eq_ok_of_toOption loads) (eq_ok_of_toOption loadsToo)
  refine ⟨g, h, eq_ok_of_toOption loads, eq_ok_of_toOption loadsToo, both, rootsOfFirst,
    rootsOfSecond, ?_⟩
  change addRoots g.roots h.roots = _
  rw [rootsOfFirst, rootsOfSecond]
  decide

end EsmBundle.ModuleGraph
