import EsmBundle.Text.Split

/-!
Texts cut at separators.

* `splitAt_append_separator`, `splitAt_of_not_mem` — what the pieces of a text are, from the
  pieces of its parts.
* `commaPieces_of_commaless`, `flatten_commaPieces` — the pieces between commas of a text
  without commas, and what of any text is in them: all but the commas.
* `cutAtEquals_eq_some_iff` — the two sides of the first equals sign.
-/

namespace EsmBundle

/-! ### Pieces between separators -/

theorem splitAt_ne_nil (separator : Char) (cs : List Char) : splitAt separator cs ≠ [] := by
  cases cs with
  | nil => simp [splitAt]
  | cons c rest =>
    rw [splitAt]
    split
    · simp
    · split <;> simp

/-- A separator cuts a text in two. -/
theorem splitAt_append_separator (separator : Char) (before after : List Char) :
    splitAt separator (before ++ separator :: after) =
      splitAt separator before ++ splitAt separator after := by
  induction before with
  | nil => simp [splitAt]
  | cons c rest ih =>
    rw [List.cons_append, splitAt, splitAt, ih]
    split
    · rfl
    · cases pieces : splitAt separator rest with
      | nil => exact absurd pieces (splitAt_ne_nil separator rest)
      | cons piece others => rfl

/-- A text without the separator is its only piece. -/
theorem splitAt_of_not_mem {separator : Char} {cs : List Char} (absent : separator ∉ cs) :
    splitAt separator cs = [cs] := by
  induction cs with
  | nil => rfl
  | cons c rest ih =>
    rw [List.mem_cons, not_or] at absent
    rw [splitAt, if_neg (Ne.symm absent.1), ih absent.2]

/-- No piece has the separator. -/
theorem not_mem_of_mem_splitAt {separator : Char} {cs piece : List Char}
    (mem : piece ∈ splitAt separator cs) : separator ∉ piece := by
  induction cs generalizing piece with
  | nil =>
    obtain rfl := List.mem_singleton.mp mem
    exact List.not_mem_nil
  | cons c rest ih =>
    rw [splitAt] at mem
    split at mem
    · rcases List.mem_cons.mp mem with rfl | later
      · exact List.not_mem_nil
      · exact ih later
    · rename_i other
      split at mem
      · rename_i pieces
        exact absurd pieces (splitAt_ne_nil separator rest)
      · rename_i first others pieces
        rcases List.mem_cons.mp mem with rfl | later
        · rw [List.mem_cons, not_or]
          exact ⟨Ne.symm other, ih (pieces ▸ List.mem_cons_self)⟩
        · exact ih (pieces ▸ List.mem_cons_of_mem _ later)

/-- The pieces are all of the text but the separators. -/
theorem flatten_splitAt (separator : Char) (cs : List Char) :
    (splitAt separator cs).flatten = cs.filter (· ≠ separator) := by
  induction cs with
  | nil => rfl
  | cons c rest ih =>
    rw [splitAt]
    by_cases here : c = separator
    · simp [here, ih]
    · rw [if_neg here, List.filter_cons_of_pos (by simpa using here), ← ih]
      cases pieces : splitAt separator rest with
      | nil => exact absurd pieces (splitAt_ne_nil separator rest)
      | cons piece others => rfl

/-! ### Between commas -/

theorem commaPieces_of_commaless {text : String} (commaless : ',' ∉ text.toList)
    (nonempty : text ≠ "") : commaPieces text = [text] := by
  have holds : text.toList.isEmpty = false := by simpa using nonempty
  simp [commaPieces, splitAt_of_not_mem commaless, holds]

/-- Texts without commas are their own pieces. -/
theorem flatMap_commaPieces_of_commaless {texts : List String}
    (whole : ∀ text ∈ texts, ',' ∉ text.toList ∧ text ≠ "") :
    texts.flatMap commaPieces = texts := by
  induction texts with
  | nil => rfl
  | cons text rest ih =>
    rw [List.forall_mem_cons] at whole
    rw [List.flatMap_cons, commaPieces_of_commaless whole.1.1 whole.1.2, ih whole.2]
    rfl

/-- Nothing is lost of a text but the commas. -/
theorem flatten_commaPieces (text : String) :
    (commaPieces text).flatMap String.toList = text.toList.filter (· ≠ ',') := by
  rw [← flatten_splitAt, ← List.flatten_filter_not_isEmpty, commaPieces, List.flatMap_map]
  simp

/-! ### At an equals sign -/

/-- A text is cut at its first equals sign. -/
theorem cutAtEquals_eq_some_iff {text before after : String} :
    cutAtEquals text = some (before, after) ↔
      text = before ++ "=" ++ after ∧ '=' ∉ before.toList := by
  have cut : cutAtEquals text = some (before, after) ↔
      cutAtFirst '=' text.toList = some (before.toList, after.toList) := by
    simp only [cutAtEquals, Option.map_eq_some_iff, Prod.exists, Prod.mk.injEq]
    constructor
    · rintro ⟨first, second, found, rfl, rfl⟩
      simpa using found
    · intro found
      exact ⟨_, _, found, String.ofList_toList, String.ofList_toList⟩
  rw [cut, cutAtFirst_eq_some_iff, ← String.toList_inj]
  simp

end EsmBundle
