import EsmBundle.Build
import EsmBundle.Proofs.Rewriting.Chains
import EsmBundle.Proofs.Rewriting.ClauseScan

/-!
Imports for their effects only: the word `import` and a quoted specifier, with nothing but
blanks between.

They are no clauses of either form. The head of a static clause ends in `from` and that of a
dynamic one in a parenthesis, so a quote behind the word `import` opens no specifier. What stands
there is therefore left as it is, and the specifier is met only where a clause has it.

* `headless_of_import` — a text that ends in `import` and blanks ends in no head.
* `QuoteCut.getElem?_sideEffectImport` — the segment that such an import is, counted by the
  quotes in front of it.
* `substituteSpecifier_of_short` — a clause takes more room than such an import has.
* `SpecifierMap.sideEffectImports_left` — no pass has a clause whose specifier is that of such
  an import, no map but the empty one reaches them, and a map of plain specifiers keeps them.
-/

namespace EsmBundle

/-! ### No head ends in the word alone -/

/-- The last character of a text that is no blank. -/
theorem getLast?_trimRight_append (before : List Char) {blanks : List Char} {c : Char}
    (blank : AllBlank blanks) (visible : isBlank c = false) :
    (trimRight (before ++ [c] ++ blanks)).getLast? = some c := by
  rw [trimRight_append before blank visible, List.getLast?_concat]

/-- A head ends in the word `from` or in a parenthesis, blanks aside. -/
theorem ClauseForm.EndsInHead.last_visible {form : ClauseForm} {cs : List Char}
    (ends : form.EndsInHead cs) :
    (trimRight cs).getLast? = some 'm' ∨ (trimRight cs).getLast? = some '(' := by
  obtain ⟨before, head, isHead, rfl⟩ := ends
  cases form with
  | static =>
    obtain ⟨keyword, -, run, blanks, blank, rfl⟩ := isHead
    have last := getLast?_trimRight_append (before ++ keyword ++ run ++ "fro".toList) blank
      (show isBlank 'm' = false by decide)
    exact Or.inl (last ▸ by simp)
  | dynamic =>
    obtain ⟨outer, inner, -, blank, rfl⟩ := isHead
    have last := getLast?_trimRight_append (before ++ "import".toList ++ outer) blank
      (show isBlank '(' = false by decide)
    exact Or.inr (last ▸ by simp)

/-- A text that ends in the word `import` and blanks ends in no head. -/
theorem headless_of_import (before : List Char) {blanks : List Char} (blank : AllBlank blanks) :
    Headless (before ++ "import".toList ++ blanks) := by
  intro form ends
  have last := getLast?_trimRight_append (before ++ "impor".toList) blank
    (show isBlank 't' = false by decide)
  have word : before ++ "impor".toList ++ ['t'] = before ++ "import".toList := by simp
  have other := ends.last_visible
  rw [← word, last] at other
  exact absurd other (by decide)

/-! ### Places by their quotes -/

namespace QuoteCut

/-- The cut of a text at one of its quotes. -/
theorem ofText_append_quote {quote : Char} (isQ : isQuote quote = true) (cs rest : List Char) :
    ofText (cs ++ quote :: rest) =
      ⟨(ofText cs).start,
        (ofText cs).pieces ++ (quote, (ofText rest).start) :: (ofText rest).pieces⟩ := by
  induction cs with
  | nil => simp [ofText, isQ]
  | cons c cs ih =>
    rw [List.cons_append, ofText, ih, ofText]
    cases isQuote c <;> rfl

/-- There is a piece for every quote. -/
theorem length_pieces_ofText (cs : List Char) :
    (ofText cs).pieces.length = cs.countP isQuote := by
  induction cs with
  | nil => rfl
  | cons c cs ih =>
    rw [ofText, List.countP_cons, ← ih]
    cases isQuote c <;> rfl

/-- A text ends in its last segment, so a stretch without quotes at its end is in it. -/
theorem segment?_last (cs : List Char) {stretch : List Char} (quoteFree : QuoteFree stretch) :
    ∃ before, (ofText (cs ++ stretch)).segment? (cs.countP isQuote) = some (before ++ stretch) := by
  induction cs with
  | nil =>
    have whole := ofText_append quoteFree []
    rw [List.append_nil] at whole
    refine ⟨[], ?_⟩
    rw [List.nil_append, whole]
    simp [segment?, ofText]
  | cons c cs ih =>
    obtain ⟨before, segment⟩ := ih
    rw [List.cons_append, ofText, List.countP_cons]
    cases isQuote c with
    | true =>
      refine ⟨before, ?_⟩
      rw [← segment]
      cases cs.countP isQuote <;> rfl
    | false =>
      cases count : cs.countP isQuote with
      | zero =>
        rw [count] at segment
        exact ⟨c :: before, congrArg (Option.map (c :: ·)) segment⟩
      | succ i =>
        rw [count] at segment
        exact ⟨before, segment⟩

end QuoteCut

/-! ### Short texts -/

/-- A clause takes ten characters beside its specifier at least. -/
theorem ClauseForm.Allows.add_le_width {form : ClauseForm} {clause : ImportClause}
    (allowed : form.Allows clause) (bare : List Char) : bare.length + 10 ≤ clause.width bare := by
  have importLength : "import".toList.length = 6 := by decide
  have fromLength : "from".toList.length = 4 := by decide
  cases allowed with
  | @static keyword run blanks quote word quoteFree blank isQ =>
    have keywordLength : ∀ word ∈ ["import".toList, "export".toList], word.length = 6 := by decide
    have wordLength := keywordLength keyword word
    simp only [ImportClause.width, List.length_append, List.length_singleton]
    omega
  | dynamic outerBlank innerBlank blank isQ =>
    simp only [ImportClause.width, List.length_append, List.length_cons, List.length_nil]
    omega

/-- A text that is too short for a clause has none, and is kept. -/
theorem substituteSpecifier_of_short {bare resolved : String} {cs : List Char}
    (short : cs.length < bare.toList.length + 10) :
    substituteSpecifier bare resolved cs = (cs, false) := by
  have none (form : ClauseForm) : form.clauses bare.toList cs = [] := by
    apply List.eq_nil_iff_forall_not_mem.mpr
    intro place mem
    obtain ⟨allowed, before, after, rfl, -⟩ := (form.lists_clauses _ _).sound place mem
    have wide := allowed.add_le_width bare.toList
    simp only [List.length_append, ImportClause.length_text] at short
    omega
  have kept (form : ClauseForm) :
      form.substitute bare.toList resolved.toList cs = (cs, false) := by
    have swapped := form.swapped_substitute bare.toList resolved.toList cs
    rw [none form] at swapped
    apply Prod.ext
    · exact swapped.eq_of_nil
    · simp [ClauseForm.substitute, none form]
  rw [substituteSpecifier, kept]
  dsimp only
  rw [kept]
  rfl

/-- What is met are bare specifiers of the pairs. -/
theorem mem_keys_of_met {entries : List (String × String)} {cs : List Char} {key : String}
    (met : key ∈ (substituteEach entries cs).2) : key ∈ entries.map Prod.fst := by
  induction entries generalizing cs with
  | nil => exact met
  | cons entry rest ih =>
    rw [mem_substituteEach_cons_iff] at met
    rcases met with ⟨rfl, -⟩ | later
    · exact List.mem_cons_self
    · exact List.mem_cons_of_mem _ (ih later)

/-! ### Imports for their effects -/

/-- An import for its effects only: the word `import`, blanks, and a quoted specifier. -/
def sideEffectImport (blanks : List Char) (quote : Char) (specifier : List Char) : List Char :=
  "import".toList ++ (blanks ++ quote :: (specifier ++ [quote]))

-- The equation that Lean makes for the definition takes seconds, because it evaluates the word.
theorem sideEffectImport_eq (blanks : List Char) (quote : Char) (specifier : List Char) :
    sideEffectImport blanks quote specifier =
      "import".toList ++ (blanks ++ quote :: (specifier ++ [quote])) := rfl

/-- **No clause has its specifier behind the word alone**, whatever its form and its specifier
are: the quote behind `import` and blanks opens no slot. -/
theorem ClauseForm.slot_ne_of_import {form : ClauseForm} {bare blanks : List Char}
    (blank : AllBlank blanks) (before rest : List Char) (quote : Char)
    {place : Nat × ImportClause}
    (mem : place ∈ form.clauses bare (before ++ "import".toList ++ blanks ++ quote :: rest)) :
    (ImportClause.slot bare place).start ≠ (before ++ "import".toList ++ blanks).length + 1 := by
  intro here
  obtain ⟨allowed, front, after, whole, position⟩ := (form.lists_clauses _ _).sound place mem
  obtain ⟨stretch, opening, closing, -, -, head, -, same⟩ := ClauseForm.allows_iff.mp allowed
  have parts : before ++ "import".toList ++ blanks ++ quote :: rest =
      (front ++ stretch) ++ opening :: (bare ++ (place.2.tail ++ after)) := by
    rw [whole, ImportClause.text, same]
    simp only [List.append_assoc, List.cons_append, List.nil_append]
  have sizes : (before ++ "import".toList ++ blanks).length = (front ++ stretch).length := by
    have start : (ImportClause.slot bare place).start = front.length + stretch.length + 1 := by
      simp only [ImportClause.slot, same, position, List.length_append, List.length_singleton,
        Nat.add_assoc]
    have sum : (front ++ stretch).length = front.length + stretch.length := List.length_append
    omega
  have ends := (List.append_inj parts sizes).1
  exact headless_of_import before blank form ⟨front, stretch, head, ends⟩

/-- The specifier of an import for its effects is the segment behind a quote that has as many quotes
in front as the import. That segment is no import slot. -/
theorem QuoteCut.getElem?_sideEffectImport {blanks specifier : List Char} {quote : Char}
    (blank : AllBlank blanks) (isQ : isQuote quote = true) (quoteFree : QuoteFree specifier)
    (before after : List Char) :
    let cut := ofText (before ++ (sideEffectImport blanks quote specifier ++ after))
    cut.pieces[before.countP isQuote]? = some (quote, specifier) ∧
      ¬ cut.IsImportSlot (before.countP isQuote) := by
  intro cut
  let front := before ++ ("import".toList ++ blanks)
  have wordFree : QuoteFree ("import".toList ++ blanks) := by
    intro c mem
    rcases List.mem_append.mp mem with inWord | inBlanks
    · exact (show QuoteFree "import".toList by decide) c inWord
    · exact blank.quoteFree c inBlanks
  have whole : before ++ (sideEffectImport blanks quote specifier ++ after) =
      front ++ quote :: (specifier ++ quote :: after) := by
    simp only [front, sideEffectImport_eq, List.append_assoc, List.cons_append, List.nil_append]
  have count : (ofText front).pieces.length = before.countP isQuote := by
    have none : ("import".toList ++ blanks).countP isQuote = 0 := by
      apply List.countP_eq_zero.mpr
      intro c mem isQ
      exact absurd isQ (by simp [wordFree c mem])
    rw [length_pieces_ofText, List.countP_append, none, Nat.add_zero]
  have isCut : cut = ⟨(ofText front).start, (ofText front).pieces ++
      (quote, specifier) :: (quote, (ofText after).start) :: (ofText after).pieces⟩ := by
    have behind : ofText (specifier ++ quote :: after) =
        ⟨specifier, (quote, (ofText after).start) :: (ofText after).pieces⟩ := by
      rw [ofText_append quoteFree, ofText, isQ]
      simp
    simp only [cut]
    rw [whole, ofText_append_quote isQ, behind]
  constructor
  · rw [isCut, ← count]
    simp
  · intro slot
    obtain ⟨form, segment, here, head⟩ := slot.exists_endsInHead
    obtain ⟨start, last⟩ := segment?_last before wordFree
    -- The segment in front is the last one of what stands before the quote.
    have same : cut.segment? (before.countP isQuote) =
        (ofText front).segment? (before.countP isQuote) := by
      rw [isCut]
      cases places : before.countP isQuote with
      | zero => rfl
      | succ i =>
        rw [places] at count
        simp only [segment?]
        rw [List.getElem?_append_left (by omega)]
    rw [same] at here
    obtain rfl := Option.some.inj (here.symm.trans last)
    rw [← List.append_assoc] at head
    exact headless_of_import start blank form head

namespace SpecifierMap

/-- Every import for its effects of a bare specifier of the map has the resolution of the map after
the substitution, and is met by it. -/
def ReachesSideEffects (mappings : SpecifierMap) : Prop :=
  ∀ (text : String) (before blanks after : List Char) (quote : Char) (bare resolved : String),
    AllBlank blanks → isQuote quote = true →
    text.toList = before ++ (sideEffectImport blanks quote bare.toList ++ after) →
    mappings.find? bare = some resolved →
    (∃ before' after', (substituteSpecifiers mappings text).1.toList =
        before' ++ (sideEffectImport blanks quote resolved.toList ++ after')) ∧
      bare ∈ (substituteSpecifiers mappings text).2

/-- Only the empty map reaches all imports for their effects: the first specifier of another map is
not met in a text that imports it for its effects and has nothing else. -/
theorem reachesSideEffects_iff {mappings : SpecifierMap} :
    mappings.ReachesSideEffects ↔ mappings.entries = [] := by
  constructor
  · intro reaches
    cases entries : mappings.entries with
    | nil => rfl
    | cons entry rest =>
      obtain ⟨bare, resolved⟩ := entry
      have distinct := mappings.distinct
      rw [entries, List.map_cons, List.nodup_cons] at distinct
      have found : mappings.find? bare = some resolved := by
        rw [OrderedMap.find?, entries, findEntry, if_pos rfl]
      let cs := sideEffectImport [] '"' bare.toList
      have whole : (String.ofList cs).toList = [] ++ (cs ++ []) := by
        rw [String.toList_ofList, List.nil_append, List.append_nil]
      obtain ⟨-, met⟩ := reaches (String.ofList cs) [] [] [] '"' bare resolved
        (by decide) (by decide) whole found
      have short : cs.length < bare.toList.length + 10 := by
        have importLength : "import".toList.length = 6 := by decide
        simp only [cs, sideEffectImport_eq, List.length_append, List.length_cons, List.length_nil]
        omega
      simp only [substituteSpecifiers, String.toList_ofList, entries] at met
      rw [mem_substituteEach_cons_iff, substituteSpecifier_of_short short] at met
      rcases met with ⟨-, now⟩ | later
      · cases now
      · exact absurd (mem_keys_of_met later) distinct.1
  · intro empty text before blanks after quote bare resolved _ _ _ found
    rw [OrderedMap.find?, empty] at found
    cases found

/-- A map of plain specifiers does nothing to a text without import slots. -/
theorem substituteSpecifiers_of_no_slot {mappings : SpecifierMap}
    (plain : ∀ entry ∈ mappings.entries, Plain entry.1.toList ∧ Plain entry.2.toList)
    {text : String} (none : ∀ i, ¬ (QuoteCut.ofText text.toList).IsImportSlot i) :
    substituteSpecifiers mappings text = (text, []) := by
  obtain ⟨run, met⟩ := substituteEach_ofText plain text.toList
  have kept : (QuoteCut.ofText text.toList).swapSlots (settle mappings.entries) =
      QuoteCut.ofText text.toList := by
    simp only [QuoteCut.swapSlots, none, if_false, QuoteCut.mapPieces_self]
  rw [kept, QuoteCut.text_ofText] at run
  apply Prod.ext
  · rw [substituteSpecifiers]
    exact (congrArg String.ofList run).trans String.ofList_toList
  · apply List.eq_nil_iff_forall_not_mem.mpr
    intro key mem
    obtain ⟨-, -, -, -, content, ⟨i, quote, slot, -⟩, -⟩ := (met key).mp mem
    exact none i slot

/-- **Imports for their effects are left as they are.** Around no specifier has a clause of either
form its specifier where such an import has one. So no map but the empty one reaches them all; and a
map of plain specifiers keeps the specifier of each of them in every text, and meets nothing in a
text without import slots. -/
theorem sideEffectImports_left (mappings : SpecifierMap) :
    (mappings.ReachesSideEffects ↔ mappings.entries = []) ∧
      (∀ (form : ClauseForm) (bare before blanks rest : List Char) (quote : Char),
        AllBlank blanks →
        ∀ place ∈ form.clauses bare (before ++ "import".toList ++ blanks ++ quote :: rest),
          (ImportClause.slot bare place).start ≠
            (before ++ "import".toList ++ blanks).length + 1) ∧
      ((∀ entry ∈ mappings.entries, Plain entry.1.toList ∧ Plain entry.2.toList) →
        ∀ text : String,
          (∀ (before blanks specifier after : List Char) (quote : Char),
            AllBlank blanks → isQuote quote = true → QuoteFree specifier →
            text.toList = before ++ (sideEffectImport blanks quote specifier ++ after) →
            (QuoteCut.ofText text.toList).pieces[before.countP isQuote]? =
                some (quote, specifier) ∧
              (QuoteCut.ofText (substituteSpecifiers mappings text).1.toList).pieces[
                before.countP isQuote]? = some (quote, specifier)) ∧
          ((∀ i, ¬ (QuoteCut.ofText text.toList).IsImportSlot i) →
            substituteSpecifiers mappings text = (text, []))) := by
  refine ⟨reachesSideEffects_iff, ?_, ?_⟩
  · intro form bare before blanks rest quote blank place mem
    exact ClauseForm.slot_ne_of_import blank before rest quote mem
  · intro plain text
    refine ⟨?_, fun none => substituteSpecifiers_of_no_slot plain none⟩
    intro before blanks specifier after quote blank isQ quoteFree whole
    obtain ⟨holds, noSlot⟩ := QuoteCut.getElem?_sideEffectImport blank isQ quoteFree before after
    rw [← whole] at holds noSlot
    refine ⟨holds, ?_⟩
    rw [ofText_substituteSpecifiers plain, QuoteCut.swapSlots, QuoteCut.getElem?_pieces_mapPieces,
      holds]
    simp [noSlot]

/-- Of two imports of one package the one for its effects is kept, and the other one takes the
resolution. -/
theorem sideEffectImports_left_beside_clause :
    let mappings : SpecifierMap := .ofList [("h3", "npm:h3@1")]
    let text := "import\"h3\";import x from \"h3\""
    (∀ entry ∈ mappings.entries, Plain entry.1.toList ∧ Plain entry.2.toList) ∧
      substituteSpecifiers mappings text =
        ("import\"h3\";import x from \"npm:h3@1\"", ["h3"]) ∧
      (QuoteCut.ofText (substituteSpecifiers mappings text).1.toList).pieces[0]? =
        some ('"', "h3".toList) := by
  intro mappings text
  have plain : ∀ entry ∈ mappings.entries, Plain entry.1.toList ∧ Plain entry.2.toList := by
    decide +kernel
  obtain ⟨-, -, keeps⟩ := sideEffectImports_left mappings
  have kept := (keeps plain text).1 [] [] "h3".toList ";import x from \"h3\"".toList '"'
    (by decide) (by decide) (by decide) (by decide)
  exact ⟨plain, by decide +kernel, kept.2⟩

/-- An import for its effects as a minifier writes it is not reached: the text stays as it is,
nothing is met in it, and a build of it warns that its specifier is not imported. -/
theorem not_reachesSideEffects_of_minified :
    let mappings : SpecifierMap := .ofList [("h3", "npm:h3@1")]
    let text := "import\"h3\";"
    substituteSpecifiers mappings text = (text, []) ∧
      unmetWarnings (some mappings) (finishArtifacts .empty (some mappings) [⟨"main.js", text⟩]).2 =
        [unmetWarning "h3"] ∧
      ¬ mappings.ReachesSideEffects := by
  intro mappings text
  have kept : substituteSpecifiers mappings text = (text, []) := by decide +kernel
  refine ⟨kept, by decide +kernel, ?_⟩
  intro reaches
  obtain ⟨-, met⟩ := reaches text [] [] [';'] '"' "h3" "npm:h3@1" (by decide) (by decide)
    (by decide) (by decide +kernel)
  rw [kept] at met
  exact absurd met List.not_mem_nil

end SpecifierMap

end EsmBundle
