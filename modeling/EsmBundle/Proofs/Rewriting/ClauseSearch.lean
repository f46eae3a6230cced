import EsmBundle.ImportClause
import EsmBundle.Proofs.Text.Blank

/-!
What the search for an import clause finds at the front of a text.

Before its specifier a clause has no quote. So the search is decided by the stretch up to
the first quote, which has to be the head of a clause as a whole, by the specifier
between that quote and the next one of its kind, and, for a dynamic clause, by the blanks
and the parenthesis behind.

* `ClauseForm.Head`, `ClauseForm.Tail` — what stands before the opening quote of a clause
  and behind its closing one, for both forms.
* `find?_append_eq_some_iff` — the search succeeds exactly when the stretch is a head, the
  quoted specifier follows, and the tail behind it; the clause it returns is those three.
-/

namespace EsmBundle

/-! ### Heads and tails -/

/-- A text without quotes. -/
def QuoteFree (cs : List Char) : Prop :=
  ∀ c ∈ cs, isQuote c = false

instance (cs : List Char) : Decidable (QuoteFree cs) :=
  List.decidableBAll _ cs

/-- A text that is empty or begins with a quote. -/
def AtQuote (cs : List Char) : Prop :=
  ∀ c ∈ cs.head?, isQuote c = true

/-- What stands before the opening quote of a clause: the word `import` or `export`, any
run, `from` and blanks; or `import`, blanks, an opening parenthesis and blanks. -/
def ClauseForm.Head : ClauseForm → List Char → Prop
  | .static, cs =>
    ∃ keyword ∈ ImportClause.keywords, ∃ run blanks, AllBlank blanks ∧
      cs = keyword ++ run ++ "from".toList ++ blanks
  | .dynamic, cs =>
    ∃ outer inner, AllBlank outer ∧ AllBlank inner ∧
      cs = "import".toList ++ outer ++ ['('] ++ inner

/-- What stands behind the closing quote of a clause: nothing, or blanks and a closing
parenthesis. -/
def ClauseForm.Tail : ClauseForm → List Char → Prop
  | .static, cs => cs = []
  | .dynamic, cs => ∃ blanks, AllBlank blanks ∧ cs = blanks ++ [')']

namespace ImportClause

/-- A run ends in `from` and blanks exactly when it is something, `from` and blanks. -/
theorem endsInFrom_iff {cs : List Char} :
    endsInFrom cs = true ↔
      ∃ run blanks, AllBlank blanks ∧ cs = run ++ "from".toList ++ blanks := by
  rw [endsInFrom, List.isSuffixOf_iff_suffix]
  constructor
  · rintro ⟨run, trimmed⟩
    obtain ⟨blanks, blank, whole⟩ := exists_eq_trimRight_append cs
    exact ⟨run, blanks, blank, trimmed ▸ whole⟩
  · rintro ⟨run, blanks, blank, rfl⟩
    have visible : isBlank 'm' = false := by decide
    have trimmed := trimRight_append (run ++ "fro".toList) blank visible
    have word : run ++ "fro".toList ++ ['m'] = run ++ "from".toList := by simp
    rw [word] at trimmed
    rw [trimmed]
    exact ⟨run, rfl⟩

end ImportClause

/-- The head of a static clause is a keyword and a run that ends in `from` and blanks. -/
theorem ClauseForm.head_static_iff {cs : List Char} :
    ClauseForm.static.Head cs ↔
      ∃ keyword ∈ ImportClause.keywords, ∃ run, ImportClause.endsInFrom run = true ∧
        cs = keyword ++ run := by
  constructor
  · rintro ⟨keyword, mem, run, blanks, blank, rfl⟩
    exact ⟨keyword, mem, run ++ "from".toList ++ blanks,
      ImportClause.endsInFrom_iff.mpr ⟨run, blanks, blank, rfl⟩, by simp⟩
  · rintro ⟨keyword, mem, run, ends, rfl⟩
    obtain ⟨run, blanks, blank, rfl⟩ := ImportClause.endsInFrom_iff.mp ends
    exact ⟨keyword, mem, run, blanks, blank, by simp⟩

/-! ### The stretch up to the first quote -/

/-- A text begins with a word exactly when it is the word and something behind it. -/
theorem dropWord?_eq_some_iff {word cs remainder : List Char} :
    dropWord? word cs = some remainder ↔ cs = word ++ remainder := by
  unfold dropWord?
  rw [Option.ite_none_right_eq_some, List.isPrefixOf_iff_prefix]
  constructor
  · rintro ⟨⟨behind, rfl⟩, dropped⟩
    rw [List.drop_left] at dropped
    exact congrArg (word ++ ·) (Option.some.inj dropped)
  · rintro rfl
    exact ⟨List.prefix_append _ _, congrArg some List.drop_left⟩

section Stretch

variable {stretch rest : List Char}

/-- A text without quotes ends where the next quote is. -/
theorem quoteFree_append_inj {b after : List Char} {q : Char} (quoteFree : QuoteFree stretch)
    (bare : QuoteFree b) (quote : isQuote q = true) (atQuote : AtQuote rest)
    (same : stretch ++ rest = b ++ q :: after) : stretch = b ∧ rest = q :: after := by
  induction stretch generalizing b with
  | nil =>
    cases b with
    | nil => exact ⟨rfl, same⟩
    | cons c b =>
      have front : rest = c :: (b ++ q :: after) := same
      have isQ : isQuote c = true := atQuote c (by rw [front]; rfl)
      exact absurd isQ (by simp [bare c List.mem_cons_self])
  | cons c stretch ih =>
    have visible := quoteFree c List.mem_cons_self
    cases b with
    | nil =>
      obtain ⟨rfl, -⟩ := List.cons.inj same
      exact absurd quote (by simp [visible])
    | cons d b =>
      obtain ⟨rfl, behindSame⟩ := List.cons.inj same
      have stretchFree : QuoteFree stretch := fun c mem => quoteFree c (List.mem_cons_of_mem _ mem)
      have bareFree : QuoteFree b := fun c mem => bare c (List.mem_cons_of_mem _ mem)
      obtain ⟨rfl, behind⟩ := ih stretchFree bareFree behindSame
      exact ⟨rfl, behind⟩

/-- A beginning without quotes of the text lies in the stretch. -/
theorem exists_append_of_quoteFree {word behind : List Char} (quoteFree : QuoteFree word)
    (atQuote : AtQuote rest) (same : stretch ++ rest = word ++ behind) :
    ∃ run, stretch = word ++ run ∧ behind = run ++ rest := by
  rcases List.append_eq_append_iff.mp same with ⟨beyond, rfl, outside⟩ | ⟨run, inside, rfl⟩
  · cases beyond with
    | nil => exact ⟨[], by simp, by simpa using outside.symm⟩
    | cons c beyond =>
      have isQ : isQuote c = true := atQuote c (by rw [outside]; rfl)
      exact absurd isQ (by simp [quoteFree c (by simp)])
  · exact ⟨run, inside, rfl⟩

/-- A word without quotes that the text begins with lies in the stretch. -/
theorem dropWord?_append {word remainder : List Char} (quoteFree : QuoteFree word)
    (atQuote : AtQuote rest) :
    dropWord? word (stretch ++ rest) = some remainder ↔
      ∃ run, stretch = word ++ run ∧ remainder = run ++ rest := by
  rw [dropWord?_eq_some_iff]
  constructor
  · intro same
    exact exists_append_of_quoteFree quoteFree atQuote same
  · rintro ⟨run, rfl, rfl⟩
    exact List.append_assoc word run rest

/-- Up to the first quote, a text is the stretch. -/
theorem takeWhile_append_atQuote (quoteFree : QuoteFree stretch) (atQuote : AtQuote rest) :
    (stretch ++ rest).takeWhile (!isQuote ·) = stretch ∧
      (stretch ++ rest).dropWhile (!isQuote ·) = rest := by
  have plain : ∀ c ∈ stretch, (!isQuote c) = true := fun c mem => by simp [quoteFree c mem]
  rw [List.takeWhile_append_of_pos plain, List.dropWhile_append_of_pos plain]
  cases rest with
  | nil => simp
  | cons c rest =>
    have isQ : isQuote c = true := atQuote c rfl
    simp [isQ]

/-- A quote is not blank. -/
theorem isBlank_of_isQuote {c : Char} (quote : isQuote c = true) : isBlank c = false := by
  have either : c = '"' ∨ c = '\'' := by simpa [isQuote] using quote
  rcases either with rfl | rfl <;> decide

/-- Blanks are no quotes. -/
theorem AllBlank.quoteFree {cs : List Char} (blank : AllBlank cs) : QuoteFree cs := by
  intro c mem
  cases isQ : isQuote c with
  | false => rfl
  | true => exact absurd (blank c mem) (by simp [isBlank_of_isQuote isQ])

end Stretch

/-! ### The search -/

section Search

variable {stretch rest bare : List Char}

/-- The static clause of a keyword is found exactly when the stretch is the keyword and a run that
ends in `from`, and the quoted specifier follows. -/
theorem ImportClause.staticAfter?_append_eq_some_iff {keyword : List Char}
    {clause : ImportClause} (word : QuoteFree keyword) (quoteFree : QuoteFree stretch)
    (atQuote : AtQuote rest) :
    ImportClause.staticAfter? bare keyword (stretch ++ rest) = some clause ↔
      ∃ run quote behind, stretch = keyword ++ run ∧ ImportClause.endsInFrom run = true ∧
        rest = quote :: (bare ++ quote :: behind) ∧ clause = ⟨stretch ++ [quote], [quote]⟩ := by
  unfold ImportClause.staticAfter?
  cases dropped : dropWord? keyword (stretch ++ rest) with
  | none =>
    simp only [reduceCtorEq, false_iff]
    rintro ⟨run, quote, behind, rfl, -⟩
    have found : dropWord? keyword (keyword ++ run ++ rest) = some (run ++ rest) :=
      (dropWord?_append word atQuote).mpr ⟨run, rfl, rfl⟩
    rw [found] at dropped
    cases dropped
  | some remainder =>
    obtain ⟨run, rfl, rfl⟩ := (dropWord?_append word atQuote).mp dropped
    have runFree : QuoteFree run := fun c mem => quoteFree c (List.mem_append_right _ mem)
    obtain ⟨taken, left⟩ := takeWhile_append_atQuote runFree atQuote
    simp only [taken, left]
    have sameRun (run' : List Char) : keyword ++ run = keyword ++ run' ↔ run = run' :=
      List.append_right_inj keyword
    cases rest with
    | nil => simp
    | cons quote behind =>
      simp only [Option.ite_none_right_eq_some, Bool.and_eq_true, List.isPrefixOf_iff_prefix,
        Option.some.injEq, sameRun]
      constructor
      · rintro ⟨⟨ends, ⟨after, rfl⟩⟩, rfl⟩
        exact ⟨run, quote, after, rfl, ends, by simp, rfl⟩
      · rintro ⟨run', quote', after, rfl, ends, same, rfl⟩
        obtain ⟨rfl, rfl⟩ := List.cons.inj same
        exact ⟨⟨ends, ⟨after, by simp⟩⟩, rfl⟩

/-- The words that begin a static clause have no quote. -/
theorem ImportClause.quoteFree_of_mem_keywords {keyword : List Char}
    (mem : keyword ∈ ImportClause.keywords) : QuoteFree keyword := by
  have all : ∀ keyword ∈ ImportClause.keywords, QuoteFree keyword := by decide
  exact all keyword mem

/-- The static clause is found exactly when the stretch is its head and the quoted specifier
follows. -/
theorem ImportClause.static?_append_eq_some_iff {clause : ImportClause}
    (quoteFree : QuoteFree stretch) (atQuote : AtQuote rest) :
    ImportClause.static? bare (stretch ++ rest) = some clause ↔
      ∃ quote behind, ClauseForm.static.Head stretch ∧ rest = quote :: (bare ++ quote :: behind) ∧
        clause = ⟨stretch ++ [quote], [quote]⟩ := by
  have after {keyword : List Char} (mem : keyword ∈ ImportClause.keywords)
      (clause : ImportClause) :=
    @ImportClause.staticAfter?_append_eq_some_iff _ rest bare _ clause
      (ImportClause.quoteFree_of_mem_keywords mem) quoteFree atQuote
  unfold ImportClause.static?
  constructor
  · intro found
    obtain ⟨keyword, mem, here⟩ := List.exists_of_findSome?_eq_some found
    obtain ⟨run, quote, behind, same, ends, follows, rfl⟩ := (after mem clause).mp here
    exact ⟨quote, behind, ClauseForm.head_static_iff.mpr ⟨keyword, mem, run, ends, same⟩,
      follows, rfl⟩
  · rintro ⟨quote, behind, head, follows, rfl⟩
    obtain ⟨keyword, mem, run, ends, same⟩ := ClauseForm.head_static_iff.mp head
    have here := (after mem _).mpr ⟨run, quote, behind, same, ends, follows, rfl⟩
    -- Whichever keyword comes first in the list, it leads to the same clause.
    cases found : ImportClause.keywords.findSome? fun keyword =>
        ImportClause.staticAfter? bare keyword (stretch ++ rest) with
    | none =>
      rw [List.findSome?_eq_none_iff.mp found keyword mem] at here
      cases here
    | some clause =>
      obtain ⟨other, otherMem, there⟩ := List.exists_of_findSome?_eq_some found
      obtain ⟨-, quote', behind', -, -, follows', rfl⟩ := (after otherMem clause).mp there
      obtain ⟨rfl, -⟩ := List.cons.inj (follows.symm.trans follows')
      rfl

/-- A dynamic clause is found where its parts stand one after another. -/
theorem ImportClause.dynamic?_of_parts {outer inner blanks : List Char} {quote : Char}
    (outerBlank : AllBlank outer) (innerBlank : AllBlank inner) (blank : AllBlank blanks)
    (isQ : isQuote quote = true) (behind : List Char) :
    ImportClause.dynamic? bare ("import".toList ++ (outer ++ '(' :: (inner ++
        quote :: (bare ++ quote :: (blanks ++ ')' :: behind))))) =
      some ⟨"import".toList ++ outer ++ ['('] ++ inner ++ [quote],
        quote :: (blanks ++ [')'])⟩ := by
  have word {cs : List Char} :
      dropWord? "import".toList ("import".toList ++ cs) = some cs := dropWord?_eq_some_iff.mpr rfl
  have specifier : dropWord? (bare ++ [quote]) (bare ++ quote :: (blanks ++ ')' :: behind)) =
      some (blanks ++ ')' :: behind) := dropWord?_eq_some_iff.mpr (by simp)
  have notBlank : isBlank quote = false := isBlank_of_isQuote isQ
  simp only [ImportClause.dynamic?, word, trimLeft_append outerBlank, trimLeft_append innerBlank,
    trimLeft_append blank, trimLeft_cons (show isBlank '(' = false by decide),
    trimLeft_cons (show isBlank ')' = false by decide), trimLeft_cons notBlank, isQ, specifier,
    takeWhile_isBlank_append outerBlank (show isBlank '(' = false by decide),
    takeWhile_isBlank_append innerBlank notBlank,
    takeWhile_isBlank_append blank (show isBlank ')' = false by decide), if_true,
    List.cons_append]

/-- What the search for a dynamic clause walks over when it succeeds. -/
theorem ImportClause.exists_parts_of_dynamic?_eq_some {cs : List Char} {clause : ImportClause}
    (found : ImportClause.dynamic? bare cs = some clause) :
    ∃ outer inner blanks behind quote, AllBlank outer ∧ AllBlank inner ∧ AllBlank blanks ∧
      isQuote quote = true ∧ cs = "import".toList ++ (outer ++ '(' :: (inner ++
        quote :: (bare ++ quote :: (blanks ++ ')' :: behind)))) := by
  unfold ImportClause.dynamic? at found
  split at found
  · cases found
  · rename_i afterWord dropped
    split at found
    · rename_i afterOpening opened
      split at found
      · cases found
      · rename_i quote afterQuote quoted
        split at found
        · rename_i isQ
          split at found
          · cases found
          · rename_i afterSpecifier specified
            split at found
            · rename_i behind closed
              obtain ⟨outer, outerBlank, -, rfl⟩ := trimLeft_eq_cons_iff.mp opened
              obtain ⟨inner, innerBlank, -, rfl⟩ := trimLeft_eq_cons_iff.mp quoted
              obtain ⟨blanks, blank, -, rfl⟩ := trimLeft_eq_cons_iff.mp closed
              refine ⟨outer, inner, blanks, behind, quote, outerBlank, innerBlank, blank, isQ, ?_⟩
              rw [dropWord?_eq_some_iff.mp dropped, dropWord?_eq_some_iff.mp specified]
              simp
            · cases found
        · cases found
    · cases found

/-- The dynamic clause is found exactly when the stretch is its head, and the quoted specifier and
the tail follow. -/
theorem ImportClause.dynamic?_append_eq_some_iff {clause : ImportClause}
    (quoteFree : QuoteFree stretch) (atQuote : AtQuote rest) :
    ImportClause.dynamic? bare (stretch ++ rest) = some clause ↔
      ∃ quote closing behind, ClauseForm.dynamic.Head stretch ∧
        ClauseForm.dynamic.Tail closing ∧
        rest = quote :: (bare ++ quote :: (closing ++ behind)) ∧
        clause = ⟨stretch ++ [quote], quote :: closing⟩ := by
  have compute {outer inner blanks : List Char} {quote : Char}
      (outerBlank : AllBlank outer) (innerBlank : AllBlank inner) (blank : AllBlank blanks)
      (isQ : isQuote quote = true) (behind : List Char) :
      ImportClause.dynamic? bare ("import".toList ++ outer ++ ['('] ++ inner ++
          quote :: (bare ++ quote :: (blanks ++ [')'] ++ behind))) =
        some ⟨"import".toList ++ outer ++ ['('] ++ inner ++ [quote],
          quote :: (blanks ++ [')'])⟩ := by
    rw [← ImportClause.dynamic?_of_parts outerBlank innerBlank blank isQ behind]
    congr 1
    simp only [List.append_assoc, List.cons_append, List.nil_append]
  constructor
  · intro found
    obtain ⟨outer, inner, blanks, behind, quote, outerBlank, innerBlank, blank, isQ, same⟩ :=
      ImportClause.exists_parts_of_dynamic?_eq_some found
    have headFree : QuoteFree ("import".toList ++ outer ++ ['('] ++ inner) := by
      intro c mem
      simp only [List.mem_append, List.mem_singleton] at mem
      rcases mem with ((word | mem) | rfl) | mem
      · exact (show QuoteFree "import".toList by decide) c word
      · exact outerBlank.quoteFree c mem
      · decide
      · exact innerBlank.quoteFree c mem
    have same : stretch ++ rest = ("import".toList ++ outer ++ ['('] ++ inner) ++
        quote :: (bare ++ quote :: (blanks ++ ')' :: behind)) := by
      simpa only [List.append_assoc, List.singleton_append, List.cons_append, List.nil_append]
        using same
    obtain ⟨rfl, rfl⟩ := quoteFree_append_inj quoteFree headFree isQ atQuote same
    refine ⟨quote, blanks ++ [')'], behind, ⟨outer, inner, outerBlank, innerBlank, rfl⟩,
      ⟨blanks, blank, rfl⟩, by simp, ?_⟩
    have computed := compute outerBlank innerBlank blank isQ behind
    rw [List.append_assoc blanks, List.singleton_append, found] at computed
    exact Option.some.inj computed
  · rintro ⟨quote, closing, behind, ⟨outer, inner, outerBlank, innerBlank, rfl⟩,
      ⟨blanks, blank, rfl⟩, rfl, rfl⟩
    exact compute outerBlank innerBlank blank (atQuote quote rfl) behind

/-- **The search at the front of a text**, for both forms: it succeeds exactly when the
stretch up to the first quote is the head of a clause, and the quoted specifier and the
tail of the clause follow. -/
theorem ClauseForm.find?_append_eq_some_iff {form : ClauseForm} {clause : ImportClause}
    (quoteFree : QuoteFree stretch) (atQuote : AtQuote rest) :
    form.find? bare (stretch ++ rest) = some clause ↔
      ∃ quote closing behind, form.Head stretch ∧ form.Tail closing ∧
        rest = quote :: (bare ++ quote :: (closing ++ behind)) ∧
        clause = ⟨stretch ++ [quote], quote :: closing⟩ := by
  cases form with
  | dynamic => exact ImportClause.dynamic?_append_eq_some_iff quoteFree atQuote
  | static =>
    refine (ImportClause.static?_append_eq_some_iff quoteFree atQuote).trans ?_
    constructor
    · rintro ⟨quote, behind, head, follows, same⟩
      exact ⟨quote, [], behind, head, rfl, follows, same⟩
    · rintro ⟨quote, closing, behind, head, rfl, follows, same⟩
      exact ⟨quote, behind, head, follows, same⟩

/-- No clause begins with anything but the first letter of a keyword. -/
theorem ClauseForm.find?_cons_eq_none {form : ClauseForm} {c : Char} {cs : List Char}
    (notI : c ≠ 'i') (notE : c ≠ 'e') : form.find? bare (c :: cs) = none := by
  have noWord {first : Char} {word : List Char} (other : c ≠ first) :
      dropWord? (first :: word) (c :: cs) = none := by
    simp [dropWord?, List.isPrefixOf, Ne.symm other]
  cases form with
  | dynamic => simp [ClauseForm.find?, ImportClause.dynamic?, noWord notI]
  | static =>
    simp [ClauseForm.find?, ImportClause.static?, ImportClause.keywords,
      ImportClause.staticAfter?, noWord notI, noWord notE]

end Search

end EsmBundle
