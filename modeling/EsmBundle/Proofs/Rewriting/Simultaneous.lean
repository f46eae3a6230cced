import EsmBundle.Proofs.FirstPlaces
import EsmBundle.Proofs.Rewriting.EveryPass

/-!
The substitution of a whole map, read as one step.

The pairs are applied one after another, and each sees what the ones before it wrote. When
no resolved specifier is the bare one of another pair, no pair touches what another one
wrote. Then the run does to every import slot what the map says of its content, all at
once, and the order of the pairs does not matter.

* `settle_of_unchained` — a content settles to what the map says of it.
* `substituteSpecifiers_simultaneous` — the substitution is simultaneous.
-/

namespace EsmBundle

/-! ### Settling without chains -/

/-- What a map makes of a specifier: its resolution, if it has one. -/
def SpecifierMap.resolve (mappings : SpecifierMap) (content : List Char) : List Char :=
  ((mappings.find? (String.ofList content)).map String.toList).getD content

/-- No resolved specifier is the bare one of another pair. -/
def Unchained (entries : List (String × String)) : Prop :=
  ∀ entry ∈ entries, ∀ other ∈ entries, entry.2 = other.1 → entry.1 = other.1

instance : DecidablePred Unchained := fun entries =>
  inferInstanceAs (Decidable
    (∀ entry ∈ entries, ∀ other ∈ entries, entry.2 = other.1 → entry.1 = other.1))

/-- What no pair has as its bare specifier stays as it is. -/
theorem settle_of_not_mem {entries : List (String × String)} {content : List Char}
    (absent : String.ofList content ∉ entries.map Prod.fst) : settle entries content = content := by
  induction entries with
  | nil => rfl
  | cons entry rest ih =>
    rw [List.map_cons, List.mem_cons, not_or] at absent
    have other : content ≠ entry.1.toList := by
      rintro rfl
      exact absent.1 String.ofList_toList
    rw [settle, if_neg other, ih absent.2]

/-- **Without chains a content settles** to what the entries say of it. -/
theorem settle_of_unchained {entries : List (String × String)}
    (distinct : (entries.map Prod.fst).Nodup) (unchained : Unchained entries)
    (content : List Char) :
    settle entries content =
      ((findEntry (String.ofList content) entries).map String.toList).getD content := by
  induction entries with
  | nil => rfl
  | cons entry rest ih =>
    obtain ⟨bare, resolved⟩ := entry
    rw [List.map_cons, List.nodup_cons] at distinct
    have others : Unchained rest := fun entry mem other mem' =>
      unchained entry (List.mem_cons_of_mem _ mem) other (List.mem_cons_of_mem _ mem')
    rw [settle, findEntry]
    by_cases here : content = bare.toList
    · -- What has just been written is the bare specifier of no later pair.
      have absent : String.ofList resolved.toList ∉ rest.map Prod.fst := by
        rw [String.ofList_toList]
        intro mem
        obtain ⟨other, otherMem, rfl⟩ := List.mem_map.mp mem
        have same := unchained _ List.mem_cons_self other (List.mem_cons_of_mem _ otherMem) rfl
        exact distinct.1 (List.mem_map.mpr ⟨other, otherMem, same.symm⟩)
      subst here
      rw [if_pos rfl, settle_of_not_mem absent, String.ofList_toList]
      simp
    · have other : bare ≠ String.ofList content := by
        rintro rfl
        exact here String.toList_ofList.symm
      rw [if_neg here, if_neg other, ih distinct.2 others]

theorem settle_append (before after : List (String × String)) (content : List Char) :
    settle (before ++ after) content = settle after (settle before content) := by
  induction before generalizing content with
  | nil => rfl
  | cons entry rest ih => exact ih _

/-- The pairs before a pair do not have its bare specifier. -/
theorem bare_not_mem_before {before after : List (String × String)} {bare resolved : String}
    (distinct : ((before ++ (bare, resolved) :: after).map Prod.fst).Nodup) :
    bare ∉ before.map Prod.fst := by
  rw [List.map_append, List.nodup_append] at distinct
  obtain ⟨-, -, apart⟩ := distinct
  exact fun mem => apart bare mem bare List.mem_cons_self rfl

/-- Without chains the pairs before a pair settle nothing to its bare specifier. -/
theorem settle_eq_bare_iff {before after : List (String × String)} {bare resolved : String}
    (distinct : ((before ++ (bare, resolved) :: after).map Prod.fst).Nodup)
    (unchained : Unchained (before ++ (bare, resolved) :: after)) {content : List Char} :
    settle before content = bare.toList ↔ content = bare.toList := by
  have absent := bare_not_mem_before distinct
  have distinctBefore : (before.map Prod.fst).Nodup := by
    rw [List.map_append] at distinct
    exact (List.nodup_append.mp distinct).1
  have unchainedBefore : Unchained before := fun entry mem other mem' =>
    unchained entry (List.mem_append_left _ mem) other (List.mem_append_left _ mem')
  constructor
  · intro now
    rw [settle_of_unchained distinctBefore unchainedBefore] at now
    cases found : findEntry (String.ofList content) before with
    | none => simpa [found] using now
    | some written =>
      have mem := (findEntry_eq_some_iff distinctBefore).mp found
      have same : written = bare := String.toList_inj.mp (by simpa [found] using now)
      have isBare : String.ofList content = bare :=
        unchained _ (List.mem_append_left _ mem) (bare, resolved)
          (List.mem_append_right _ List.mem_cons_self) same
      exact absurd (List.mem_map.mpr ⟨_, mem, isBare⟩) absent
  · rintro rfl
    refine settle_of_not_mem ?_
    rwa [String.ofList_toList]

/-! ### The substitution -/

section Substitution

variable {mappings : SpecifierMap}

/-- The run over a map without chains. -/
theorem substituteSpecifiers_of_unchained
    (plain : ∀ entry ∈ mappings.entries, Plain entry.1.toList ∧ Plain entry.2.toList)
    (unchained : Unchained mappings.entries) (text : String) :
    (substituteSpecifiers mappings text).1 =
        String.ofList ((QuoteCut.ofText text.toList).swapSlots mappings.resolve).text ∧
      ∀ key, key ∈ (substituteSpecifiers mappings text).2 ↔
        key ∈ mappings.keys ∧ (QuoteCut.ofText text.toList).Imports key.toList := by
  obtain ⟨run, met⟩ := substituteEach_ofText plain text.toList
  constructor
  · have resolves : settle mappings.entries = mappings.resolve :=
      funext (settle_of_unchained mappings.distinct unchained)
    rw [← resolves, ← run]
    rfl
  · intro key
    refine (met key).trans ?_
    constructor
    · rintro ⟨before, resolved, after, split, content, imports, now⟩
      have distinct := mappings.distinct
      rw [split] at distinct unchained
      obtain rfl := (settle_eq_bare_iff distinct unchained).mp now
      exact ⟨by simp [OrderedMap.keys, split], imports⟩
    · rintro ⟨mem, imports⟩
      obtain ⟨⟨bare, resolved⟩, entryMem, rfl⟩ := List.mem_map.mp mem
      obtain ⟨before, after, split⟩ := List.append_of_mem entryMem
      have distinct := mappings.distinct
      rw [split] at distinct unchained
      exact ⟨before, resolved, after, split, _, imports,
        (settle_eq_bare_iff distinct unchained).mpr rfl⟩

/-- What a map makes of a specifier does not depend on the order of its pairs. -/
theorem SpecifierMap.resolve_eq_of_perm {other : SpecifierMap}
    (perm : other.entries.Perm mappings.entries) : other.resolve = mappings.resolve := by
  have same (key : String) : other.find? key = mappings.find? key := by
    refine Option.ext ?_
    intro value
    rw [OrderedMap.find?, OrderedMap.find?, findEntry_eq_some_iff other.distinct,
      findEntry_eq_some_iff mappings.distinct]
    exact perm.mem_iff
  funext content
  rw [resolve, resolve, same]

/-- **The substitution is simultaneous.** For a map of plain specifiers without chains it gives
the text in which every import slot holds what the map makes of its content and all else is as
before, meets exactly the bare specifiers that a slot of the text holds, and does the same in
every order of the pairs. -/
theorem substituteSpecifiers_simultaneous
    (quoteFree : ∀ entry ∈ mappings.entries,
      QuoteFree entry.1.toList ∧ QuoteFree entry.2.toList)
    (headless : ∀ entry ∈ mappings.entries, Headless entry.1.toList ∧ Headless entry.2.toList)
    (unchained : Unchained mappings.entries) (text : String) :
    (substituteSpecifiers mappings text).1 =
        String.ofList ((QuoteCut.ofText text.toList).swapSlots mappings.resolve).text ∧
      (∀ key, key ∈ (substituteSpecifiers mappings text).2 ↔
        key ∈ mappings.keys ∧ (QuoteCut.ofText text.toList).Imports key.toList) ∧
      ∀ other : SpecifierMap, other.entries.Perm mappings.entries →
        (substituteSpecifiers other text).1 = (substituteSpecifiers mappings text).1 ∧
        ∀ key, key ∈ (substituteSpecifiers other text).2 ↔
          key ∈ (substituteSpecifiers mappings text).2 := by
  have plain : ∀ entry ∈ mappings.entries, Plain entry.1.toList ∧ Plain entry.2.toList :=
    fun entry mem => ⟨⟨(quoteFree entry mem).1, (headless entry mem).1⟩,
      ⟨(quoteFree entry mem).2, (headless entry mem).2⟩⟩
  obtain ⟨run, met⟩ := substituteSpecifiers_of_unchained plain unchained text
  refine ⟨run, met, ?_⟩
  intro other perm
  have unchained' : Unchained other.entries := fun entry mem entry' mem' =>
    unchained entry (perm.mem_iff.mp mem) entry' (perm.mem_iff.mp mem')
  obtain ⟨run', met'⟩ := substituteSpecifiers_of_unchained
    (fun entry mem => plain entry (perm.mem_iff.mp mem)) unchained' text
  constructor
  · rw [run, run', SpecifierMap.resolve_eq_of_perm perm]
  · intro key
    rw [met, met']
    exact and_congr_left fun _ => (perm.map Prod.fst).mem_iff

/-- Two packages, one of them imported twice. The call of `f` is no import. -/
theorem substituteSpecifiers_two_packages :
    let mappings : SpecifierMap := .ofList [("h3", "npm:h3@1"), ("zod", "npm:zod@3")]
    let text := "import a from \"h3\"; await import( 'zod' ); export * from 'h3'; f('h3')"
    substituteSpecifiers mappings text =
        ("import a from \"npm:h3@1\"; await import( 'npm:zod@3' ); export * from 'npm:h3@1'; f('h3')",
          ["h3", "zod"]) ∧
      (substituteSpecifiers mappings text).1 =
        String.ofList ((QuoteCut.ofText text.toList).swapSlots mappings.resolve).text :=
  ⟨by decide +kernel,
    (substituteSpecifiers_simultaneous (by decide +kernel) (by decide +kernel)
      (by decide +kernel) _).1⟩

end Substitution

end EsmBundle
