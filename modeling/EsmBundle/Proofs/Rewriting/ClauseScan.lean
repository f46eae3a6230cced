import EsmBundle.Finish
import EsmBundle.Proofs.Rewriting.OnePass

/-!
The list of the clauses in a text, for any specifier.

A specifier may have quotes, blanks and whole import clauses in it, so clauses around it can
overlap in many ways. Still there is at most one clause of a form at a position, because its
head ends at the first quote. The list takes the first clause, goes on behind it, and so has a
clause over every position at which one begins.

* `ClauseForm.Allows`, `ClauseForm.StandsAt` — the clauses of a form, and where one stands in a
  text, without a word about how they are searched for.
* `ClauseForm.find?_eq_some_iff` — the search finds exactly the clause that stands at the front.
* `Swapped` — a text in which the listed clauses hold another specifier, and all else is kept.
* `clauses_exact` — the list is in order, sound and complete, and a pair of specifiers is
  swapped by two passes that change nothing but the specifier in the clauses of each.
-/

namespace EsmBundle

/-! ### Clauses and where they stand -/

/-- A clause as a text, with a specifier in it. -/
def ImportClause.text (specifier : List Char) (clause : ImportClause) : List Char :=
  clause.head ++ (specifier ++ clause.tail)

/-- The clauses of a form. A static one is a keyword, a run without quotes, `from`, blanks and
a quoted specifier; a dynamic one is `import` and a quoted specifier in parentheses, with
blanks between. -/
inductive ClauseForm.Allows : ClauseForm → ImportClause → Prop where
  | static {keyword run blanks : List Char} {quote : Char} :
      keyword ∈ ["import".toList, "export".toList] → QuoteFree run → AllBlank blanks →
      quote ∈ ['"', '\''] →
      Allows .static ⟨keyword ++ run ++ "from".toList ++ blanks ++ [quote], [quote]⟩
  | dynamic {outer inner blanks : List Char} {quote : Char} :
      AllBlank outer → AllBlank inner → AllBlank blanks → quote ∈ ['"', '\''] →
      Allows .dynamic
        ⟨"import".toList ++ outer ++ ['('] ++ inner ++ [quote], quote :: (blanks ++ [')'])⟩

/-- A clause of a form around `bare` stands at a position of a text. -/
def ClauseForm.StandsAt (form : ClauseForm) (bare cs : List Char) (start : Nat)
    (clause : ImportClause) : Prop :=
  form.Allows clause ∧
    ∃ before after, cs = before ++ (clause.text bare ++ after) ∧ before.length = start

variable {form : ClauseForm} {bare resolved cs : List Char} {clause : ImportClause}

theorem ImportClause.length_text (specifier : List Char) (clause : ImportClause) :
    (clause.text specifier).length = clause.width specifier := by
  simp only [text, width, List.length_append, Nat.add_assoc]

theorem isQuote_iff {c : Char} : isQuote c = true ↔ c ∈ ['"', '\''] := by
  simp [isQuote]

/-! ### The search at the front of a text -/

/-- The head of a clause is a stretch without quotes and the opening quote, and the same quote
begins its tail. -/
theorem ClauseForm.allows_iff :
    form.Allows clause ↔
      ∃ stretch quote closing, QuoteFree stretch ∧ isQuote quote = true ∧ form.Head stretch ∧
        form.Tail closing ∧ clause = ⟨stretch ++ [quote], quote :: closing⟩ := by
  constructor
  · intro allowed
    cases allowed with
    | @static keyword run blanks quote word quoteFree blank isQ =>
      refine ⟨keyword ++ run ++ "from".toList ++ blanks, quote, [], ?_, isQuote_iff.mpr isQ,
        ⟨keyword, word, run, blanks, blank, rfl⟩, rfl, rfl⟩
      intro c mem
      simp only [List.mem_append] at mem
      rcases mem with ((inWord | inRun) | inFrom) | inBlanks
      · exact ImportClause.quoteFree_of_mem_keywords word c inWord
      · exact quoteFree c inRun
      · exact (show QuoteFree "from".toList by decide) c inFrom
      · exact blank.quoteFree c inBlanks
    | @dynamic outer inner blanks quote outerBlank innerBlank blank isQ =>
      have head : ClauseForm.dynamic.Head ("import".toList ++ outer ++ ['('] ++ inner) :=
        ⟨outer, inner, outerBlank, innerBlank, rfl⟩
      refine ⟨_, quote, blanks ++ [')'], ?_, isQuote_iff.mpr isQ, head, ⟨blanks, blank, rfl⟩, rfl⟩
      intro c mem
      simp only [List.mem_append, List.mem_singleton] at mem
      rcases mem with ((inWord | inOuter) | rfl) | inInner
      · exact (show QuoteFree "import".toList by decide) c inWord
      · exact outerBlank.quoteFree c inOuter
      · decide
      · exact innerBlank.quoteFree c inInner
  · rintro ⟨stretch, quote, closing, quoteFree, isQ, head, tail, rfl⟩
    cases form with
    | static =>
      obtain ⟨keyword, word, run, blanks, blank, rfl⟩ := head
      obtain rfl : closing = [] := tail
      have runFree : QuoteFree run := fun c mem => quoteFree c (by simp [mem])
      exact .static word runFree blank (isQuote_iff.mp isQ)
    | dynamic =>
      obtain ⟨outer, inner, outerBlank, innerBlank, rfl⟩ := head
      obtain ⟨blanks, blank, rfl⟩ := tail
      exact .dynamic outerBlank innerBlank blank (isQuote_iff.mp isQ)

/-- **The search at the front of a text finds exactly the clause that stands there**, whatever the
specifier is. -/
theorem ClauseForm.find?_eq_some_iff :
    form.find? bare cs = some clause ↔ form.Allows clause ∧ clause.text bare <+: cs := by
  rw [allows_iff]
  constructor
  · intro found
    have proper := QuoteCut.proper_ofText cs
    have atQuote := QuoteCut.atQuote_flatMap proper.pieces
    rw [← QuoteCut.text_ofText cs, QuoteCut.text] at found ⊢
    obtain ⟨quote, closing, behind, head, tail, follows, rfl⟩ :=
      (find?_append_eq_some_iff proper.start atQuote).mp found
    rw [follows] at atQuote ⊢
    refine ⟨⟨_, quote, closing, proper.start, atQuote quote rfl, head, tail, rfl⟩, behind, ?_⟩
    simp only [ImportClause.text, List.append_assoc, List.cons_append, List.nil_append]
  · rintro ⟨⟨stretch, quote, closing, quoteFree, isQ, head, tail, rfl⟩, behind, rfl⟩
    have atQuote : AtQuote (quote :: (bare ++ quote :: (closing ++ behind))) := by
      simpa [AtQuote] using isQ
    have found := (find?_append_eq_some_iff quoteFree atQuote).mpr
      ⟨quote, closing, behind, head, tail, rfl, rfl⟩
    simpa [ImportClause.text] using found

theorem ClauseForm.Allows.head_ne_nil (allowed : form.Allows clause) : clause.head ≠ [] := by
  obtain ⟨stretch, quote, closing, -, -, -, -, rfl⟩ := allows_iff.mp allowed
  simp

theorem ClauseForm.Allows.width_pos (allowed : form.Allows clause) (bare : List Char) :
    0 < clause.width bare := by
  have positive := List.length_pos_iff.mpr allowed.head_ne_nil
  rw [ImportClause.width]
  omega

/-- A clause stands where the search finds it in the text from there on. -/
theorem ClauseForm.standsAt_iff {start : Nat} :
    form.StandsAt bare cs start clause ↔ form.find? bare (cs.drop start) = some clause := by
  rw [find?_eq_some_iff]
  constructor
  · rintro ⟨allowed, before, after, rfl, rfl⟩
    rw [List.drop_left]
    exact ⟨allowed, List.prefix_append _ _⟩
  · rintro ⟨allowed, after, same⟩
    refine ⟨allowed, cs.take start, after, ?_, ?_⟩
    · rw [same, List.take_append_drop]
    · -- Something stands at the position, so it is one of the text.
      have sizes := congrArg List.length same
      have positive := allowed.width_pos bare
      rw [List.length_append, ImportClause.length_text, List.length_drop] at sizes
      rw [List.length_take]
      omega

/-! ### The list -/

/-- The listed clauses of a form around `bare` in a text: they come in order and do not overlap,
they stand at their positions, and there is one over every position at which a clause stands. -/
structure ClauseForm.Lists (form : ClauseForm) (bare cs : List Char)
    (places : List (Nat × ImportClause)) : Prop where
  ordered : places.Pairwise fun a b => a.1 < b.1 ∧ a.1 + a.2.width bare ≤ b.1
  sound : ∀ place ∈ places, form.StandsAt bare cs place.1 place.2
  complete : ∀ start clause, form.StandsAt bare cs start clause →
    ∃ place ∈ places, place.1 ≤ start ∧ start < place.1 + place.2.width bare

theorem ClauseForm.lists_clauses (form : ClauseForm) (bare cs : List Char) :
    form.Lists bare cs (form.clauses bare cs) where
  ordered := pairwise_scan 0 0 cs
  sound := by
    intro place mem
    exact standsAt_iff.mpr (find?_of_mem_scan mem).2
  complete := by
    intro start clause stands
    have wide {cs : List Char} {clause : ImportClause} (found : form.find? bare cs = some clause) :
        0 < clause.width bare :=
      (find?_eq_some_iff.mp found).1.width_pos bare
    have inside : start < cs.length := by
      obtain ⟨allowed, before, after, rfl, rfl⟩ := stands
      have positive := allowed.width_pos bare
      simp only [List.length_append, ImportClause.length_text]
      omega
    have around : ∃ place ∈ form.clauses bare cs,
        place.1 ≤ 0 + start ∧ 0 + start < place.1 + place.2.width bare :=
      exists_mem_scan_around wide (standsAt_iff.mp stands) (Nat.zero_le start) inside
    rwa [Nat.zero_add] at around

/-- At a position stands at most one clause of a form. -/
theorem ClauseForm.StandsAt.unique {start : Nat} {other : ImportClause}
    (stands : form.StandsAt bare cs start clause) (stands' : form.StandsAt bare cs start other) :
    clause = other :=
  Option.some.inj ((standsAt_iff.mp stands).symm.trans (standsAt_iff.mp stands'))

/-! ### One specifier for another -/

/-- A text with `resolved` for `bare` in the clauses at some places: the gaps between the clauses,
and their heads and tails, are the same in both texts. -/
def Swapped (bare resolved : List Char) (places : List (Nat × ImportClause))
    (cs cs' : List Char) : Prop :=
  ∃ parts last, cs = weave (ImportClause.text bare) last parts ∧
    places = placesIn (ImportClause.text bare) 0 parts ∧
    cs' = weave (ImportClause.text resolved) last parts

/-- A pass swaps the specifier in the listed clauses, and does nothing else. -/
theorem ClauseForm.swapped_substitute (form : ClauseForm) (bare resolved cs : List Char) :
    Swapped bare resolved (form.clauses bare cs) cs (form.substitute bare resolved cs).1 := by
  have reads {cs : List Char} {clause : ImportClause} (found : form.find? bare cs = some clause) :
      clause.head ≠ [] ∧ clause.head ++ (bare ++ clause.tail) <+: cs := by
    obtain ⟨allowed, begins⟩ := find?_eq_some_iff.mp found
    exact ⟨allowed.head_ne_nil, begins⟩
  exact exists_weave reads (fun _ => rfl) (fun _ => rfl) (fun _ => rfl) 0 cs

/-- Without clauses the text is the same. -/
theorem Swapped.eq_of_nil {cs cs' : List Char} (swapped : Swapped bare resolved [] cs cs') :
    cs' = cs := by
  obtain ⟨parts, last, rfl, places, rfl⟩ := swapped
  cases parts with
  | nil => rfl
  | cons part rest => cases places

/-- With every clause in which it is swapped, the text grows by what the new specifier is longer. -/
theorem Swapped.length_eq {places : List (Nat × ImportClause)} {cs cs' : List Char}
    (swapped : Swapped bare resolved places cs cs') :
    cs'.length + places.length * bare.length = cs.length + places.length * resolved.length := by
  obtain ⟨parts, last, rfl, rfl, rfl⟩ := swapped
  generalize 0 = position
  induction parts generalizing position with
  | nil => simp [weave, placesIn]
  | cons part rest ih =>
    have later := ih (position + part.1.length + (part.2.text bare).length)
    simp only [weave, placesIn, List.length_append, List.length_cons, ImportClause.length_text,
      ImportClause.width, Nat.succ_mul] at later ⊢
    omega

/-- A map of one pair makes two passes, one for each form. -/
theorem substituteSpecifiers_single (bare resolved text : String) :
    let between := ClauseForm.static.substitute bare.toList resolved.toList text.toList
    let last := ClauseForm.dynamic.substitute bare.toList resolved.toList between.1
    substituteSpecifiers (.ofList [(bare, resolved)]) text =
      (String.ofList last.1, if between.2 || last.2 then [bare] else []) := by
  rfl

/-- **The clauses of a text, exactly.** Around any specifier, the listed clauses of a form are in
order, sound and complete, and no two clauses of the form stand at one position. Swapping a pair of
specifiers is a pass for the static clauses of the text and one for the dynamic clauses of what that
leaves; each of them changes nothing but the specifier in its listed clauses, and the pair is met
when one of them has a clause. -/
theorem clauses_exact (bare resolved : String) :
    (∀ (form : ClauseForm) (cs : List Char),
      form.Lists bare.toList cs (form.clauses bare.toList cs) ∧
        (∀ start clause other, form.StandsAt bare.toList cs start clause →
          form.StandsAt bare.toList cs start other → clause = other) ∧
        Swapped bare.toList resolved.toList (form.clauses bare.toList cs) cs
          (form.substitute bare.toList resolved.toList cs).1) ∧
      ∀ text : String, ∃ between : List Char,
        let after := substituteSpecifiers (.ofList [(bare, resolved)]) text
        let static := ClauseForm.static.clauses bare.toList text.toList
        let dynamic := ClauseForm.dynamic.clauses bare.toList between
        Swapped bare.toList resolved.toList static text.toList between ∧
          Swapped bare.toList resolved.toList dynamic between after.1.toList ∧
          (bare ∈ after.2 ↔ static ≠ [] ∨ dynamic ≠ []) := by
  constructor
  · intro form cs
    exact ⟨form.lists_clauses _ cs, fun start clause other => ClauseForm.StandsAt.unique,
      form.swapped_substitute _ _ cs⟩
  · intro text
    refine ⟨(ClauseForm.static.substitute bare.toList resolved.toList text.toList).1, ?_⟩
    rw [substituteSpecifiers_single]
    dsimp only
    refine ⟨ClauseForm.swapped_substitute _ _ _ _, ?_, ?_⟩
    · rw [String.toList_ofList]
      exact ClauseForm.swapped_substitute _ _ _ _
    · simp [ClauseForm.substitute]

/-- A specifier with a quote in it, in a call with blanks: the clause that stands there is listed,
and takes the other specifier. -/
theorem clauses_exact_around_quote :
    let bare := "a\"a"
    let resolved := "npm:a"
    let text := "import( \"a\"a\" )"
    let clause : ImportClause := ⟨"import( \"".toList, "\" )".toList⟩
    ClauseForm.dynamic.StandsAt bare.toList text.toList 0 clause ∧
      (0, clause) ∈ ClauseForm.dynamic.clauses bare.toList text.toList ∧
      (substituteSpecifiers (.ofList [(bare, resolved)]) text).1 = "import( \"npm:a\" )" ∧
      bare ∈ (substituteSpecifiers (.ofList [(bare, resolved)]) text).2 := by
  intro bare resolved text clause
  obtain ⟨forms, single⟩ := clauses_exact bare resolved
  obtain ⟨lists, unique, -⟩ := forms .dynamic text.toList
  have allowed : ClauseForm.dynamic.Allows clause :=
    @ClauseForm.Allows.dynamic [] [' '] [' '] '"' (by decide) (by decide) (by decide) (by decide)
  have stands : ClauseForm.dynamic.StandsAt bare.toList text.toList 0 clause :=
    ⟨allowed, [], [], by decide, rfl⟩
  obtain ⟨⟨start, found⟩, mem, begins, -⟩ := lists.complete 0 clause stands
  obtain rfl : start = 0 := Nat.le_zero.mp begins
  obtain rfl : clause = found := unique 0 clause found stands (lists.sound _ mem)
  refine ⟨stands, mem, by decide +kernel, ?_⟩
  obtain ⟨between, static, -, met⟩ := single text
  have noStatic : ClauseForm.static.clauses bare.toList text.toList = [] := by decide +kernel
  rw [noStatic] at static
  obtain rfl := static.eq_of_nil
  exact met.mpr (Or.inr (List.ne_nil_of_mem mem))

/-- The second pass works on what the first one left, and so it swaps a specifier also in a clause
that the first one has made: the text has one clause, and the result is not the text with that
clause swapped, for what stands behind the clause has changed. -/
theorem not_swapped_behind_written_clause :
    let bare := "h3"
    let resolved := "import("
    let text := "import a from \"h3\"h3\")"
    let after := (substituteSpecifiers (.ofList [(bare, resolved)]) text).1
    let static := ClauseForm.static.clauses bare.toList text.toList
    static = [(0, ⟨"import a from \"".toList, ['"']⟩)] ∧
      ClauseForm.dynamic.clauses bare.toList text.toList = [] ∧
      after = "import a from \"import(\"import(\")" ∧
      ¬ Swapped bare.toList resolved.toList static text.toList after.toList := by
  intro bare resolved text after static
  refine ⟨by decide +kernel, by decide +kernel, by decide +kernel, ?_⟩
  intro swapped
  exact absurd swapped.length_eq (by decide +kernel)

end EsmBundle
