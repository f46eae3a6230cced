import EsmBundle.Proofs.CommandLine.Values

/-!
A command line means the same in any order of its items.

`Says` is what the items of a command line ask for: every list takes the pieces of its values in
order, entry points those of the flag and then the words that stand alone, every path the last
value, and minifying is off when any switch says so. `SameSequences` is what an order of the
items may change: nothing of the sequence of values of each flag, of the words that stand alone,
and of the switches.

* `commandLine_in_any_order` — every command line of items is accepted, its options are the
  ones that the items ask for exactly when no value that counts is the separator, and items in
  another order have the same meaning.
* `not_says_of_separator` — a value that is the separator is taken for nothing at all.
-/

namespace EsmBundle

/-! ### What items ask for -/

/-- The options that the items of a command line ask for. -/
structure Says (items : List Item) (options : BuildOptions) : Prop where
  entrypoints : options.entrypoints =
    nonemptyList ((Item.values .entrypoints items ++ Item.paths items).flatMap commaPieces)
  external : options.external = nonemptyList ((Item.values .external items).flatMap commaPieces)
  outputDir : options.outputDir = (Item.values .outputDir items).getLast?.map .text
  outputPath : options.outputPath = (Item.values .outputPath items).getLast?.map .text
  minify : options.minify = some (!(Item.switches items).contains false)
  replace : ∃ pairs, PairsOf ((Item.values .replace items).flatMap commaPieces) pairs ∧
    options.replace = nonemptyReplacements (.ofList pairs)

/-- No value that counts is the separator: none in a list of names, and no path that is the last
one. -/
structure Unseparated (items : List Item) : Prop where
  entrypoints : "--" ∉ Item.values .entrypoints items
  external : "--" ∉ Item.values .external items
  outputDir : (Item.values .outputDir items).getLast? ≠ some "--"
  outputPath : (Item.values .outputPath items).getLast? ≠ some "--"

/-- The same sequence of values for every flag, of entry points that stand alone, and of
switches. -/
structure SameSequences (items others : List Item) : Prop where
  values : ∀ flag, Item.values flag items = Item.values flag others
  paths : Item.paths items = Item.paths others
  switches : Item.switches items = Item.switches others

/-! ### What they get -/

/-- The options of a command line of items are what they ask for exactly when no value that counts
is the separator. -/
theorem says_iff (items : List Item) :
    Says items (Arguments.optionsAlone ⟨.saying items, Item.paths items⟩) ↔ Unseparated items := by
  constructor
  · intro asked
    refine ⟨?_, ?_, ?_, ?_⟩
    · have same := nonemptyList_inj.mp asked.entrypoints
      dsimp only [Given.saying] at same
      rw [List.flatMap_append, List.flatMap_append, List.append_cancel_right_eq] at same
      exact OptionValue.pieces_shown_eq_iff.mp same
    · exact OptionValue.pieces_shown_eq_iff.mp (nonemptyList_inj.mp asked.external)
    · exact OptionValue.map_ofWord_eq_iff.mp asked.outputDir
    · exact OptionValue.map_ofWord_eq_iff.mp asked.outputPath
  · intro unseparated
    refine ⟨?_, ?_, ?_, ?_, ?_, ?_⟩
    · refine nonemptyList_inj.mpr ?_
      dsimp only [Given.saying]
      rw [List.flatMap_append, List.flatMap_append,
        OptionValue.pieces_shown_eq_iff.mpr unseparated.entrypoints]
    · exact nonemptyList_inj.mpr (OptionValue.pieces_shown_eq_iff.mpr unseparated.external)
    · exact OptionValue.map_ofWord_eq_iff.mpr unseparated.outputDir
    · exact OptionValue.map_ofWord_eq_iff.mpr unseparated.outputPath
    · dsimp only [Arguments.optionsAlone, Arguments.options, Given.saying]
      cases (Item.switches items).contains false with
      | true => rfl
      | false => cases (Item.switches items).contains true <;> rfl
    · refine ⟨_, Replacements.pairsOf_pairs _, ?_⟩
      show nonemptyReplacements (.ofWords _) = _
      dsimp only [Given.saying]
      rw [Replacements.ofWords_shown]
      rfl

/-- Items in another order give the same. -/
theorem Given.saying_congr {items others : List Item} (same : SameSequences items others) :
    saying items = saying others := by
  simp only [saying, same.values, same.switches]

/-- **A command line means the same in any order.** Whatever its items, it is accepted; its options
are what the items ask for exactly when no value that counts is the separator; and any other
command line with the same sequences has the same meaning. -/
theorem commandLine_in_any_order (items : List Item) :
    ∃ arguments, Arguments.parse (Item.commandLine items) = .ok arguments ∧
      (Says items arguments.optionsAlone ↔ Unseparated items) ∧
      ∀ others, SameSequences items others →
        Arguments.parse (Item.commandLine others) = .ok arguments := by
  refine ⟨_, Arguments.parse_commandLine items, says_iff items, ?_⟩
  intro others same
  rw [Arguments.parse_commandLine, Given.saying_congr same, same.paths]

/-- Values with commas and without, a replacement that is given twice, and switches against each
other, in two orders. -/
theorem commandLine_in_two_orders :
    let external : ValueSpelling := ⟨.external, "-e", by decide, rfl⟩
    let replace : ValueSpelling := ⟨.replace, "--replace", by decide, rfl⟩
    let outputDir : ValueSpelling := ⟨.outputDir, "--outputDir", by decide, rfl⟩
    let main : PlainWord := ⟨"a.ts,,b.ts", by decide⟩
    let packages : PlainWord := ⟨"h3,rendu", by decide⟩
    let items : List Item := [.path main, .separate external packages,
      .attached replace "k=-,=x,k=v=w", .attached outputDir "-o", .minifyAs " OFF ",
      .attached external "hono", .minify true]
    let others : List Item := [.minifyAs " OFF ", .separate external packages,
      .attached external "hono", .attached outputDir "-o", .minify true, .path main,
      .attached replace "k=-,=x,k=v=w"]
    Item.commandLine items = ["a.ts,,b.ts", "-e", "h3,rendu", "--replace=k=-,=x,k=v=w",
        "--outputDir=-o", "--minify= OFF ", "-e=hono", "-m"] ∧
      ∃ arguments, Arguments.parse (Item.commandLine items) = .ok arguments ∧
        Arguments.parse (Item.commandLine others) = .ok arguments ∧
        Says items arguments.optionsAlone := by
  intro external replace outputDir main packages items others
  obtain ⟨arguments, parsed, asked, anyOrder⟩ := commandLine_in_any_order items
  have same : SameSequences items others := by
    refine ⟨?_, by decide +kernel, by decide +kernel⟩
    intro flag
    cases flag <;> decide +kernel
  have unseparated : Unseparated items :=
    ⟨by decide +kernel, by decide +kernel, by decide +kernel, by decide +kernel⟩
  exact ⟨by decide +kernel, arguments, parsed, anyOrder others same, asked.mpr unseparated⟩

/-- A value that is the separator is not what it gets: as a name it becomes an empty list's text,
and as a path nothing. -/
theorem not_says_of_separator :
    let external : ValueSpelling := ⟨.external, "--external", by decide, rfl⟩
    let outputDir : ValueSpelling := ⟨.outputDir, "--outputDir", by decide, rfl⟩
    let items : List Item := [.attached external "--", .attached outputDir "--"]
    Item.commandLine items = ["--external=--", "--outputDir=--"] ∧
      ∃ arguments, Arguments.parse (Item.commandLine items) = .ok arguments ∧
        arguments.optionsAlone.external = some ["[]"] ∧
        arguments.optionsAlone.outputDir = some .void ∧ ¬ Says items arguments.optionsAlone := by
  intro external outputDir items
  refine ⟨by decide +kernel, _, Arguments.parse_commandLine items, by decide +kernel,
    by decide +kernel, ?_⟩
  intro asked
  exact ((says_iff items).mp asked).external (by decide +kernel)

end EsmBundle
