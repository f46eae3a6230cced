import EsmBundle.CommandLine.Options
import EsmBundle.Proofs.CommandLine.Values

/-!
The words after the separator.

They are meant to be entry points, whatever they look like, and so they are behind an entry
point that stands alone. Without one the first round drops the separator, and the second round
reads the words behind it as flags.

* `parse_append_separator_of_ne`, `parse_append_separator_of_eq` — the meaning of a command line
  with a separator, from that of the words before it.
* `entrypoints_after_separator_iff` — when the words behind a separator are entry points and
  nothing else. For the direction that refutes, letters are counted: a flag or a separator that
  is taken for what it is leaves fewer letters in the entry points (`Taken.letters_le`,
  `plain_or_letters_classify_lt`).
-/

namespace EsmBundle

/-! ### Behind a separator -/

/-- After the separator every word is plain. -/
theorem leftWords_map_plain (seen : Bool) (rest : List String) :
    leftWords seen (rest.map .plain) = rest := by
  induction rest generalizing seen with
  | nil => rfl
  | cons text rest ih => simp [leftWords, ih]

theorem Taken.map_plain (given : Given) (texts : List String) :
    Taken given (texts.map .plain) given (texts.map .plain) :=
  .of_no_flags (by simp [Word.leftover?])

/-- A run of words is all words. -/
theorem firstRun_map_plain (texts : List String) : firstRun (texts.map .plain) = (texts, []) := by
  rw [firstRun_of_inRun (by simp [Leftover.inRun]), List.filterMap_map]
  simp [Function.comp_def, Leftover.runWord?]

theorem ofArguments_of_plain {rest : List String}
    (plain : ∀ word ∈ rest, word ≠ "--" ∧ Word.classify word = .plain word) :
    Word.ofArguments rest = rest.map .plain := by
  induction rest with
  | nil => rfl
  | cons text rest ih =>
    obtain ⟨first, others⟩ := List.forall_mem_cons.mp plain
    rw [Word.ofArguments, if_neg first.1, first.2, ih others]
    rfl

namespace Arguments

variable {words : List String} {arguments : Arguments}

/-- The first round over words with a separator behind them, and the words that it leaves. -/
theorem first_round_append_separator (noSeparator : "--" ∉ words)
    (accepted : parse words = .ok arguments) (rest : List String) :
    ∃ left, (∀ item ∈ left, item.Settled) ∧ (∀ text, .unknown text ∉ left) ∧
      arguments.paths = left.filterMap Leftover.runWord? ∧
      Taken .nothing (Word.ofArguments (expandSwitches (words ++ "--" :: rest))) arguments.given
        (left ++ .separator :: rest.map .plain) ∧
      leftWords false (left ++ .separator :: rest.map .plain) =
        left.filterMap Leftover.strayWord? ++
          if arguments.paths = [] then rest else "--" :: rest := by
  obtain ⟨left, first, known, paths⟩ := (parse_eq_ok_iff noSeparator).mp accepted
  have settled := first.settled noSeparator
  have read : Word.ofArguments (expandSwitches (words ++ "--" :: rest)) =
      words.map Word.read ++ .separator :: rest.map .plain :=
    Word.ofArguments_expandSwitches noSeparator ("--" :: rest)
  have behind : Taken arguments.given (.separator :: rest.map .plain) arguments.given
      (.separator :: rest.map .plain) := .keep rfl (.map_plain _ _)
  refine ⟨left, settled, known, paths, read ▸ first.append behind, ?_⟩
  rw [leftWords_append_of_settled settled, ← paths, leftWords, leftWords_map_plain]
  cases arguments.paths <;> rfl

/-- **Behind an entry point** the words after a separator are entry points. -/
theorem parse_append_separator_of_ne (noSeparator : "--" ∉ words)
    (accepted : parse words = .ok arguments) (some : arguments.paths ≠ []) (rest : List String) :
    parse (words ++ "--" :: rest) = .ok ⟨arguments.given, arguments.paths ++ rest⟩ := by
  obtain ⟨left, settled, known, paths, first, words⟩ :=
    first_round_append_separator noSeparator accepted rest
  rw [if_neg some] at words
  have behind : Taken arguments.given (Word.ofArguments ("--" :: rest)) arguments.given
      (.separator :: rest.map .plain) := .keep rfl (.map_plain _ _)
  refine parse_eq_ok_iff_rounds.mpr ⟨_, _, _, first, words ▸ Taken.again settled behind, ?_⟩
  have inRun : ∀ item ∈ left.filter (· ≠ .gap) ++ .separator :: rest.map .plain,
      item.inRun = true := by
    intro item mem
    rcases List.mem_append.mp mem with before | after
    · exact inRun_of_settled settled known item before
    · rcases List.mem_cons.mp after with rfl | plain
      · rfl
      · obtain ⟨text, -, rfl⟩ := List.mem_map.mp plain
        rfl
  rw [firstRun_of_inRun inRun, List.filterMap_append, runWords_filter, ← paths,
    List.filterMap_cons_none rfl, List.filterMap_map]
  simp [Function.comp_def, Leftover.runWord?]

/-- **Without an entry point** before it, a separator is dropped, and the words behind it are read
like any others. -/
theorem parse_append_separator_of_eq {extended : Arguments} (noSeparator : "--" ∉ words)
    (accepted : parse words = .ok arguments) (none : arguments.paths = []) (rest : List String) :
    parse (words ++ "--" :: rest) = .ok extended ↔
      ∃ last, Taken arguments.given (Word.ofArguments rest) extended.given last ∧
        firstRun last = (extended.paths, []) := by
  obtain ⟨left, settled, known, paths, first, words⟩ :=
    first_round_append_separator noSeparator accepted rest
  have gaps : left.filterMap Leftover.strayWord? = [] := by
    refine List.filterMap_eq_nil_iff.mpr ?_
    intro item mem
    rw [none, eq_comm, List.filterMap_eq_nil_iff] at paths
    cases item with
    | plain text => exact paths _ mem
    | unknown text => exact absurd mem (known text)
    | separator => exact (settled _ mem).elim
    | gap => rfl
  rw [if_pos none, gaps, List.nil_append] at words
  rw [parse_eq_ok_iff_rounds]
  constructor
  · rintro ⟨given, leftNow, last, firstNow, second, run⟩
    obtain ⟨rfl, rfl⟩ := firstNow.unique first
    rw [words] at second
    exact ⟨last, second, run⟩
  · rintro ⟨last, second, run⟩
    exact ⟨_, _, last, first, words.symm ▸ second, run⟩

end Arguments

/-! ### Counting letters -/

/-- The letters in the pieces of some texts. -/
def letters (texts : List String) : Nat :=
  ((texts.flatMap commaPieces).flatMap String.toList).length

theorem letters_append (texts others : List String) :
    letters (texts ++ others) = letters texts + letters others := by
  simp only [letters, List.flatMap_append, List.length_append]

theorem letters_cons (text : String) (texts : List String) :
    letters (text :: texts) = letters [text] + letters texts :=
  letters_append [text] texts

/-- All letters of a text count but the commas. -/
theorem letters_singleton (text : String) :
    letters [text] = (text.toList.filter (· ≠ ',')).length := by
  rw [letters, List.flatMap_singleton, flatten_commaPieces]

/-- The letters that a word can bring into the entry points: its own when it is plain, and those of
the value with it when it is a flag. -/
def Word.letters : Word → Nat
  | .plain text => EsmBundle.letters [text]
  | .flag _ _ (some value) => (value.filter (· ≠ ',')).length
  | _ => 0

/-- The letters that words can bring in, all together. -/
def Word.allLetters : List Word → Nat
  | [] => 0
  | word :: rest => word.letters + allLetters rest

theorem letters_shown_le (value : String) :
    letters [OptionValue.shown value] ≤ letters [value] := by
  by_cases void : value = "--"
  · subst void
    decide
  · exact Nat.le_of_eq (by rw [OptionValue.shown_of_ne void])

theorem Given.letters_take_le {given next : Given} {flag : Flag} {value : String}
    (takes : given.take flag value = .ok next) :
    letters next.entrypoints ≤ letters given.entrypoints + letters [value] := by
  cases flag <;> cases takes
  case entrypoints =>
    show letters (given.entrypoints ++ [OptionValue.shown value]) ≤ _
    rw [letters_append]
    exact Nat.add_le_add_left (letters_shown_le value) _
  all_goals exact Nat.le_add_right _ _

theorem Given.letters_takeSwitches_le {given next : Given} {flags : List Flag}
    (switched : given.takeSwitches flags = .ok next) :
    letters next.entrypoints ≤ letters given.entrypoints := by
  induction flags generalizing given with
  | nil =>
    cases switched
    exact Nat.le_refl _
  | cons flag rest ih =>
    obtain ⟨middle, takes, onward⟩ := exists_of_bind_eq_ok switched
    have step := Given.letters_take_le takes
    have empty : letters [""] = 0 := by decide
    have others := ih onward
    omega

namespace FlagGroup

variable {flag last : Flag} {group : FlagGroup} {text : String}

/-- The value of a group of letters ends them. -/
theorem suffix_of_ofLetters {cs : List Char} (isGroup : ofLetters flag cs = .ok group)
    (attached : group.last = some (last, some text)) : text.toList <:+ cs := by
  induction cs generalizing flag group with
  | nil =>
    rw [ofLetters] at isGroup
    split at isGroup
    · cases isGroup
      cases attached
      exact List.suffix_refl _
    · cases isGroup
  | cons letter rest ih =>
    rw [ofLetters] at isGroup
    split at isGroup
    · cases isGroup
      cases attached
      simp only [String.toList_ofList, List.suffix_refl]
    · split at isGroup
      · cases isGroup
      · rename_i next isLetter
        split at isGroup
        · cases isGroup
          unfold after single at attached
          split at attached <;> cases attached
        · cases inner : ofLetters next rest with
          | error halt =>
            rw [inner] at isGroup
            cases isGroup
          | ok others =>
            rw [inner] at isGroup
            cases isGroup
            exact (ih inner attached).trans (List.suffix_cons _ _)

/-- The value with a flag has no more letters than its word. -/
theorem letters_last_le {short : Bool} {value : Option (List Char)}
    (isGroup : ofWord flag short value = .ok group)
    (attached : group.last = some (last, some text)) :
    letters [text] ≤ (Word.flag flag short value).letters := by
  have bound {cs : List Char} (suffix : text.toList <:+ cs) :
      letters [text] ≤ (cs.filter (· ≠ ',')).length := by
    rw [letters_singleton]
    exact (suffix.filter _).length_le
  cases value with
  | none =>
    cases isGroup
    unfold single at attached
    split at attached <;> cases attached
  | some value =>
    refine bound ?_
    rw [ofWord] at isGroup
    split at isGroup
    · exact suffix_of_ofLetters isGroup attached
    · split at isGroup
      · cases isGroup
        cases attached
        simp only [String.toList_ofList, List.suffix_refl]
      · cases isGroup

end FlagGroup

/-- **No round adds letters**: the entry points of flags and of plain words have no more of them
than the words and what was given before. -/
theorem Taken.letters_le {given now : Given} {words : List Word} {left : List Leftover}
    (taken : Taken given words now left) :
    letters now.entrypoints + letters (left.filterMap Leftover.runWord?) ≤
      letters given.entrypoints + Word.allLetters words := by
  induction taken with
  | nil => exact Nat.le_refl _
  | @keep _ _ word item _ _ kept _ ih =>
    rw [Word.allLetters]
    cases word with
    | plain text =>
      cases kept
      rw [List.filterMap_cons_some (f := Leftover.runWord?) rfl, letters_cons, Word.letters]
      omega
    | flag flag short value => cases kept
    | unknown text =>
      cases kept
      exact Nat.le_trans ih (Nat.add_le_add_left (Nat.le_add_left _ _) _)
    | separator =>
      cases kept
      exact Nat.le_trans ih (Nat.add_le_add_left (Nat.le_add_left _ _) _)
  | @take _ _ _ flag short value group rest after _ isGroup acts _ ih =>
    rw [Word.allLetters, List.filterMap_cons_none rfl]
    obtain ⟨middle, switched, ⟨-, rfl, rfl⟩ | ⟨last, text, attached, takes, rfl⟩ |
      ⟨last, text, -, takes, rfl⟩⟩ := FlagGroup.act_eq_ok_iff.mp acts
    · have switches := Given.letters_takeSwitches_le switched
      omega
    · have switches := Given.letters_takeSwitches_le switched
      have value := Given.letters_take_le takes
      have inWord := FlagGroup.letters_last_le isGroup attached
      omega
    · have switches := Given.letters_takeSwitches_le switched
      have value := Given.letters_take_le takes
      rw [Word.allLetters, Word.letters]
      omega

/-- A word that is not plain has more letters than it can bring in. -/
theorem plain_or_letters_classify_lt (text : String) :
    Word.classify text = .plain text ∨ (Word.classify text).letters < letters [text] := by
  rw [letters_singleton]
  have dash (front : text.toList.head? = some '-') :
      0 < (text.toList.filter (· ≠ ',')).length := by
    refine List.length_pos_of_mem (a := '-') (List.mem_filter.mpr ⟨?_, by decide⟩)
    exact List.mem_of_mem_head? (by rw [front]; rfl)
  rcases Word.classify_cases text with plain | unknown | ⟨flag, known, isFlag⟩ |
    ⟨flag, short, front, value, written, long, commaless, isFlag⟩
  · exact Or.inl plain
  · refine Or.inr ?_
    rw [unknown]
    refine dash (Classical.not_not.mp fun dashless => ?_)
    rw [Word.classify_of_dashless dashless] at unknown
    cases unknown
  · refine Or.inr ?_
    rw [isFlag]
    exact dash (Flag.shape_of_mem_spellings known).1
  · refine Or.inr ?_
    have all : front.filter (· ≠ ',') = front := by
      refine List.filter_eq_self.mpr ?_
      intro c mem
      simpa using ne_of_mem_of_not_mem mem commaless
    rw [isFlag, Word.letters, written, List.filter_append, List.length_append, all]
    omega

/-- **Words that are read like any others** can bring in no more letters than they have, and as many
only if all of them are plain. -/
theorem letters_ofArguments (rest : List String) :
    Word.allLetters (Word.ofArguments rest) ≤ letters rest ∧
      (Word.allLetters (Word.ofArguments rest) = letters rest →
        ∀ word ∈ rest, word ≠ "--" ∧ Word.classify word = .plain word) := by
  have plainSum (texts : List String) :
      Word.allLetters (texts.map .plain) = letters texts := by
    induction texts with
    | nil => rfl
    | cons text texts ih =>
      rw [List.map_cons, Word.allLetters, ih, letters_cons]
      rfl
  induction rest with
  | nil => exact ⟨Nat.le_refl _, fun _ _ mem => absurd mem List.not_mem_nil⟩
  | cons text rest ih =>
    rw [letters_cons, Word.ofArguments]
    by_cases separator : text = "--"
    · subst separator
      have two : letters ["--"] = 2 := by decide
      have none : Word.separator.letters = 0 := rfl
      rw [if_pos rfl, Word.allLetters, plainSum]
      exact ⟨by omega, fun same => by omega⟩
    · rw [if_neg separator, Word.allLetters]
      rcases plain_or_letters_classify_lt text with plain | fewer
      · rw [plain, Word.letters]
        refine ⟨Nat.add_le_add_left ih.1 _, ?_⟩
        intro same word mem
        rcases List.mem_cons.mp mem with rfl | later
        · exact ⟨separator, plain⟩
        · exact ih.2 (Nat.add_left_cancel same) word later
      · exact ⟨by omega, fun same => by omega⟩

/-! ### Entry points behind a separator -/

/-- The options with more entry points behind those that are set. -/
def BuildOptions.withEntrypoints (options : BuildOptions) (rest : List String) : BuildOptions :=
  { options with
    entrypoints := nonemptyList (options.entrypoints.getD [] ++ rest.flatMap commaPieces) }

namespace Arguments

/-- Words behind the entry points that stand alone. -/
theorem optionsAlone_append (arguments : Arguments) (rest : List String) :
    optionsAlone ⟨arguments.given, arguments.paths ++ rest⟩ =
      arguments.optionsAlone.withEntrypoints rest := by
  simp only [optionsAlone, options, BuildOptions.withEntrypoints, getD_nonemptyList,
    List.flatMap_append, List.append_assoc]

end Arguments

/-- The run of plain words has some of the words that are left. -/
theorem letters_firstRun_le (left : List Leftover) :
    letters (firstRun left).1 ≤ letters (left.filterMap Leftover.runWord?) := by
  have parts (p : Leftover → Bool) (items : List Leftover) :
      letters ((items.takeWhile p).filterMap Leftover.runWord?) +
        letters ((items.dropWhile p).filterMap Leftover.runWord?) =
          letters (items.filterMap Leftover.runWord?) := by
    rw [← letters_append, ← List.filterMap_append, List.takeWhile_append_dropWhile]
  have whole := parts (fun item => !item.inRun) left
  have run := parts Leftover.inRun (left.dropWhile fun item => !item.inRun)
  dsimp only [firstRun]
  omega

/-- **The words after a separator are entry points** exactly when an entry point stands alone before
the separator, or each of them would be plain without it. -/
theorem entrypoints_after_separator_iff {words : List String} (noSeparator : "--" ∉ words)
    {arguments : Arguments} (accepted : Arguments.parse words = .ok arguments)
    (rest : List String) :
    (∃ extended, Arguments.parse (words ++ "--" :: rest) = .ok extended ∧
        extended.optionsAlone = arguments.optionsAlone.withEntrypoints rest) ↔
      arguments.paths ≠ [] ∨ ∀ word ∈ rest, word ≠ "--" ∧ Word.classify word = .plain word := by
  constructor
  · rintro ⟨extended, parsed, same⟩
    by_cases none : arguments.paths = []
    · refine Or.inr ((letters_ofArguments rest).2 ?_)
      obtain ⟨last, taken, run⟩ :=
        (Arguments.parse_append_separator_of_eq noSeparator accepted none rest).mp parsed
      -- The entry points have all the letters that they are meant to have, and no round adds any.
      have pieces : (extended.given.entrypoints ++ extended.paths).flatMap commaPieces =
          (arguments.given.entrypoints ++ rest).flatMap commaPieces := by
        rw [← Arguments.optionsAlone_append, none, List.nil_append] at same
        exact nonemptyList_inj.mp (congrArg BuildOptions.entrypoints same)
      have count : letters extended.given.entrypoints + letters extended.paths =
          letters arguments.given.entrypoints + letters rest := by
        rw [← letters_append, ← letters_append, letters, letters, pieces]
      have kept := letters_firstRun_le last
      rw [run] at kept
      dsimp only at kept
      have bound := taken.letters_le
      have most := (letters_ofArguments rest).1
      omega
    · exact Or.inl none
  · intro plain
    refine ⟨⟨arguments.given, arguments.paths ++ rest⟩, ?_, arguments.optionsAlone_append rest⟩
    by_cases none : arguments.paths = []
    · have plain := plain.resolve_left (absurd none)
      refine (Arguments.parse_append_separator_of_eq noSeparator accepted none rest).mpr
        ⟨rest.map .plain, ofArguments_of_plain plain ▸ .map_plain _ _, ?_⟩
      rw [firstRun_map_plain, none]
      rfl
    · exact Arguments.parse_append_separator_of_ne noSeparator accepted none rest

/-- What looks like flags, behind an entry point and a separator. -/
theorem entrypoints_after_separator_in_main :
    let words := ["-e", "h3", "main.ts"]
    let rest := ["-o", "--no-minify", "a,-m", "--minify=false", "--"]
    let given : Given := { Given.nothing with external := ["h3"] }
    "--" ∉ words ∧ Arguments.parse words = .ok ⟨given, ["main.ts"]⟩ ∧
      ∃ extended, Arguments.parse (words ++ "--" :: rest) = .ok extended ∧
        extended.optionsAlone = (Arguments.optionsAlone ⟨given, ["main.ts"]⟩).withEntrypoints rest ∧
        extended.optionsAlone.entrypoints =
          some ["main.ts", "-o", "--no-minify", "a", "-m", "--minify=false", "--"] ∧
        extended.optionsAlone.minify = some true := by
  intro words rest given
  have noSeparator : "--" ∉ words := by decide
  have accepted : Arguments.parse words = .ok ⟨given, ["main.ts"]⟩ :=
    eq_ok_of_toOption (by decide +kernel)
  obtain ⟨extended, parsed, same⟩ :=
    (entrypoints_after_separator_iff noSeparator accepted rest).mpr (Or.inl (by decide))
  refine ⟨noSeparator, accepted, extended, parsed, same, ?_, ?_⟩
  · rw [same]
    decide +kernel
  · rw [same]
    decide +kernel

/-- Without an entry point before the separator, the words behind it are flags again. -/
theorem flags_after_dropped_separator :
    let rest := ["-e", "h3", "--no-minify"]
    let taken : Arguments := ⟨{ Given.nothing with external := ["h3"], noMinify := true }, []⟩
    Arguments.parse [] = .ok ⟨.nothing, []⟩ ∧ Arguments.parse ([] ++ "--" :: rest) = .ok taken ∧
      ¬ ∃ extended, Arguments.parse ([] ++ "--" :: rest) = .ok extended ∧
        extended.optionsAlone = (Arguments.optionsAlone ⟨.nothing, []⟩).withEntrypoints rest := by
  intro rest taken
  have parsed : Arguments.parse ([] ++ "--" :: rest) = .ok taken :=
    eq_ok_of_toOption (by decide +kernel)
  refine ⟨eq_ok_of_toOption (by decide +kernel), parsed, ?_⟩
  rintro ⟨extended, again, same⟩
  obtain rfl : taken = extended := Except.ok.inj (parsed.symm.trans again)
  have entrypoints := congrArg BuildOptions.entrypoints same
  exact absurd entrypoints (by decide +kernel)

end EsmBundle
