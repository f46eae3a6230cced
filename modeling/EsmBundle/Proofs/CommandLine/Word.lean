import EsmBundle.CommandLine.Arguments
import EsmBundle.Proofs.Text.Split

/-!
What a word of a command line is, by how it is written.

* `classify_of_dashless`, `classify_of_spelling`, `classify_attached` — a word with no dash in
  front, the spelling of a flag, and a spelling with a value behind an equals sign.
* `classify_cases` — conversely, how a word is written, by what it is.
* `Word.read` — a word before the separator, with `--minify=value` taken as a switch; a command
  line without separator is read word by word (`ofArguments_expandSwitches`).
-/

namespace EsmBundle

/-! ### Spellings -/

namespace Flag

theorem mem_all (flag : Flag) : flag ∈ all := by
  cases flag <;> decide

/-- A word is a flag exactly when it is one of its spellings. -/
theorem ofSpelling?_eq_some_iff {word : String} {flag : Flag} :
    ofSpelling? word = some flag ↔ word ∈ flag.spellings := by
  constructor
  · intro found
    simpa using List.find?_some found
  · intro known
    have each : ∀ flag ∈ all, ∀ spelling ∈ flag.spellings, ofSpelling? spelling = some flag := by
      decide
    exact each flag (mem_all flag) word known

/-- A spelling is a dash and more, without equals sign and comma. -/
theorem shape_of_mem_spellings {spelling : String} {flag : Flag}
    (known : spelling ∈ flag.spellings) :
    spelling.toList.head? = some '-' ∧ 2 ≤ spelling.toList.length ∧ '=' ∉ spelling.toList ∧
      ',' ∉ spelling.toList := by
  have each : ∀ flag ∈ all, ∀ spelling ∈ flag.spellings,
      spelling.toList.head? = some '-' ∧ 2 ≤ spelling.toList.length ∧ '=' ∉ spelling.toList ∧
        ',' ∉ spelling.toList := by
    decide
  exact each flag (mem_all flag) spelling known

end Flag

/-! ### Kinds of words -/

namespace Word

theorem classify_of_dashless {text : String} (dashless : text.toList.head? ≠ some '-') :
    classify text = .plain text :=
  if_pos dashless

theorem classify_of_spelling {spelling : String} {flag : Flag}
    (known : spelling ∈ flag.spellings) :
    classify spelling = .flag flag (isShort spelling) none := by
  obtain ⟨dash, -⟩ := Flag.shape_of_mem_spellings known
  rw [classify, if_neg (by simp [dash]), Flag.ofSpelling?_eq_some_iff.mpr known]

theorem withEquals?_eq_some_iff {text : String} {word : Word} :
    withEquals? text = some word ↔
      ∃ flag spelling value, spelling ∈ flag.spellings ∧ text = spelling ++ "=" ++ value ∧
        word = .flag flag (isShort spelling) (some value.toList) := by
  simp only [withEquals?, bind, Option.bind_eq_some_iff, pure, Option.some.injEq]
  constructor
  · rintro ⟨⟨spelling, value⟩, cut, flag, known, rfl⟩
    exact ⟨flag, spelling, value, Flag.ofSpelling?_eq_some_iff.mp known,
      (cutAtEquals_eq_some_iff.mp cut).1, rfl⟩
  · rintro ⟨flag, spelling, value, known, rfl, rfl⟩
    have noEquals := (Flag.shape_of_mem_spellings known).2.2.1
    exact ⟨(spelling, value), cutAtEquals_eq_some_iff.mpr ⟨rfl, noEquals⟩, flag,
      Flag.ofSpelling?_eq_some_iff.mpr known, rfl⟩

theorem classify_attached {spelling : String} {flag : Flag} (known : spelling ∈ flag.spellings)
    (value : String) :
    classify (spelling ++ "=" ++ value) = .flag flag (isShort spelling) (some value.toList) := by
  obtain ⟨dash, -, noEquals, -⟩ := Flag.shape_of_mem_spellings known
  have front : (spelling ++ "=" ++ value).toList.head? = some '-' := by
    simp [List.head?_append, dash]
  have holdsEquals : '=' ∈ (spelling ++ "=" ++ value).toList := by simp
  have noSpelling : Flag.ofSpelling? (spelling ++ "=" ++ value) = none := by
    rw [Option.eq_none_iff_forall_ne_some]
    intro other found
    exact (Flag.shape_of_mem_spellings (Flag.ofSpelling?_eq_some_iff.mp found)).2.2.1 holdsEquals
  have noDash : spelling ++ "=" ++ value ≠ "-" := by
    intro same
    rw [same] at holdsEquals
    exact absurd holdsEquals (by decide)
  rw [classify, if_neg (not_not_intro front), noSpelling]
  dsimp only
  rw [if_neg noDash, withEquals?_eq_some_iff.mpr ⟨flag, spelling, value, known, rfl, rfl⟩]
  rfl

/-- A flag with a letter and a value behind it, in one word. -/
theorem attached?_eq_some {text : String} {word : Word} (found : attached? text = some word) :
    ∃ flag letter value, Flag.ofLetter? letter = some flag ∧ text.toList = '-' :: letter :: value ∧
      word = .flag flag true (some value) := by
  unfold attached? at found
  split at found
  · rename_i letter value written
    split at found
    · cases found
    · obtain ⟨flag, known, rfl⟩ := Option.map_eq_some_iff.mp found
      exact ⟨flag, letter, value, known, written, rfl⟩
  · cases found

/-- What a word can be. -/
theorem classify_cases (text : String) :
    classify text = .plain text ∨ classify text = .unknown text ∨
      (∃ flag, text ∈ flag.spellings ∧ classify text = .flag flag (isShort text) none) ∨
      ∃ flag short front value, text.toList = front ++ value ∧ 2 ≤ front.length ∧ ',' ∉ front ∧
        classify text = .flag flag short (some value) := by
  unfold classify
  split
  · exact Or.inl rfl
  · cases spelled : Flag.ofSpelling? text with
    | some flag =>
      exact Or.inr (Or.inr (Or.inl ⟨flag, Flag.ofSpelling?_eq_some_iff.mp spelled, rfl⟩))
    | none =>
      dsimp only
      split
      · exact Or.inl rfl
      · cases found : (withEquals? text).or (attached? text) with
        | none =>
          dsimp only
          split
          · exact Or.inl rfl
          · exact Or.inr (Or.inl rfl)
        | some word =>
          refine Or.inr (Or.inr (Or.inr ?_))
          rcases Option.or_eq_some_iff.mp found with equals | ⟨-, attached⟩
          · obtain ⟨flag, spelling, value, known, rfl, rfl⟩ := withEquals?_eq_some_iff.mp equals
            obtain ⟨-, long, -, noComma⟩ := Flag.shape_of_mem_spellings known
            refine ⟨flag, _, spelling.toList ++ ['='], value.toList, by simp, ?_, ?_, rfl⟩
            · rw [List.length_append]
              omega
            · simpa using noComma
          · obtain ⟨flag, letter, value, known, written, rfl⟩ := attached?_eq_some attached
            have spelling := Flag.ofSpelling?_eq_some_iff.mp known
            have noComma := (Flag.shape_of_mem_spellings spelling).2.2.2
            exact ⟨flag, _, ['-', letter], value, written, Nat.le_refl 2,
              by simpa using noComma, rfl⟩

/-! ### Words before the separator -/

/-- A word before the separator: `--minify=value` is read as the switch that it stands for. -/
def read (text : String) : Word :=
  classify (Arguments.expandMinify text)

/-- Only `--minify=value` is expanded, and to a switch. -/
theorem expandMinify_cases (text : String) :
    (∃ value, text = "--minify" ++ "=" ++ value ∧
      Arguments.expandMinify text = if Arguments.meansNo value then "--no-minify" else "--minify") ∨
    (∀ value, text ≠ "--minify" ++ "=" ++ value) ∧ Arguments.expandMinify text = text := by
  unfold Arguments.expandMinify
  split
  · rename_i value cut
    exact Or.inl ⟨value, (cutAtEquals_eq_some_iff.mp cut).1, rfl⟩
  · rename_i noSwitch
    refine Or.inr ⟨?_, rfl⟩
    intro value same
    exact noSwitch value (cutAtEquals_eq_some_iff.mpr ⟨same, by decide⟩)

theorem expandMinify_ne_separator {text : String} (noSeparator : text ≠ "--") :
    Arguments.expandMinify text ≠ "--" := by
  rcases expandMinify_cases text with ⟨value, -, expanded⟩ | ⟨-, same⟩
  · rw [expanded]
    split <;> decide
  · rwa [same]

/-- **Words without separator** are read one by one, whatever follows them. -/
theorem ofArguments_expandSwitches {words : List String} (noSeparator : "--" ∉ words)
    (rest : List String) :
    ofArguments (Arguments.expandSwitches (words ++ rest)) =
      words.map read ++ ofArguments (Arguments.expandSwitches rest) := by
  induction words with
  | nil => rfl
  | cons text words ih =>
    obtain ⟨first, others⟩ := not_or.mp (mt List.mem_cons.mpr noSeparator)
    rw [List.cons_append, Arguments.expandSwitches, if_neg (Ne.symm first), ofArguments,
      if_neg (expandMinify_ne_separator (Ne.symm first)), ih others]
    rfl

/-- A word that no `--minify=value` is stands for itself. -/
theorem read_of_ne {text : String} (noSwitch : ∀ value, text ≠ "--minify" ++ "=" ++ value) :
    read text = classify text := by
  rcases expandMinify_cases text with ⟨value, same, -⟩ | ⟨-, same⟩
  · exact absurd same (noSwitch value)
  · rw [read, same]

/-- `--minify=value` is the switch for the value. -/
theorem read_minify (value : String) :
    read ("--minify" ++ "=" ++ value) =
      .flag (if Arguments.meansNo value then .noMinify else .minify) false none := by
  rcases expandMinify_cases ("--minify" ++ "=" ++ value) with
    ⟨other, same, expanded⟩ | ⟨noSwitch, -⟩
  · obtain rfl : value = other := by simpa [← String.toList_inj] using same
    rw [read, expanded]
    split
    · have known : "--no-minify" ∈ Flag.noMinify.spellings := by decide
      exact classify_of_spelling known
    · have known : "--minify" ∈ Flag.minify.spellings := by decide
      exact classify_of_spelling known
  · exact absurd rfl (noSwitch value)

theorem read_of_dashless {text : String} (dashless : text.toList.head? ≠ some '-') :
    read text = .plain text := by
  rw [read_of_ne, classify_of_dashless dashless]
  rintro value rfl
  exact dashless (by simp)

theorem read_of_spelling {spelling : String} {flag : Flag} (known : spelling ∈ flag.spellings) :
    read spelling = .flag flag (isShort spelling) none := by
  rw [read_of_ne, classify_of_spelling known]
  rintro value rfl
  exact (Flag.shape_of_mem_spellings known).2.2.1 (by simp)

/-- A value behind an equals sign. Of the two switches about minifying none takes a value. -/
theorem read_attached {spelling : String} {flag : Flag} (known : spelling ∈ flag.spellings)
    (takes : flag.takesValue = true) (value : String) :
    read (spelling ++ "=" ++ value) = .flag flag (isShort spelling) (some value.toList) := by
  rw [read_of_ne, classify_attached known]
  intro other same
  have cut : cutAtEquals (spelling ++ "=" ++ value) = some (spelling, value) :=
    cutAtEquals_eq_some_iff.mpr ⟨rfl, (Flag.shape_of_mem_spellings known).2.2.1⟩
  rw [same, cutAtEquals_eq_some_iff.mpr ⟨rfl, by decide⟩] at cut
  obtain ⟨rfl, -⟩ := Prod.mk.inj (Option.some.inj cut)
  have isMinify := Flag.ofSpelling?_eq_some_iff.mpr known
  cases isMinify
  cases takes

end Word

end EsmBundle
