import EsmBundle.Proofs.CommandLine.Items

/-!
What the values on a command line come to when they are taken as lists and as replacements.

A value that is the separator is void, and a list shows it as `[]`. So the names in the values
of a list are as they were written exactly when none of the values is the separator
(`pieces_shown_eq_iff`). Replacements do not mind: neither of the two is a pair
(`ofWords_shown`).

`PairsOf` says which pieces are pairs, by their text alone.
-/

namespace EsmBundle

theorem nonemptyList_inj {α : Type} {xs ys : List α} :
    nonemptyList xs = nonemptyList ys ↔ xs = ys := by
  cases xs <;> cases ys <;> simp [nonemptyList]

theorem getD_nonemptyList {α : Type} (xs : List α) : (nonemptyList xs).getD [] = xs := by
  cases xs <;> rfl

/-! ### Lists -/

namespace OptionValue

theorem shown_of_ne {value : String} (other : value ≠ "--") : shown value = value := by
  rw [shown, ofWord_of_ne other]
  rfl

theorem shown_separator : shown "--" = "[]" := by
  decide

/-- **Values in a list** are taken up as they are written exactly when none is the separator. -/
theorem pieces_shown_eq_iff {values : List String} :
    (values.map shown).flatMap commaPieces = values.flatMap commaPieces ↔ "--" ∉ values := by
  induction values with
  | nil => simp
  | cons value rest ih =>
    rw [List.map_cons, List.flatMap_cons, List.flatMap_cons, List.mem_cons, not_or, ← ih]
    by_cases void : value = "--"
    · subst void
      have written : commaPieces "--" = ["--"] := by decide
      have taken : commaPieces "[]" = ["[]"] := by decide
      simp [shown_separator, written, taken]
    · rw [shown_of_ne void, List.append_cancel_left_eq]
      exact ⟨fun same => ⟨Ne.symm void, same⟩, And.right⟩

/-- A path is taken as it is written exactly when it is not the separator. -/
theorem map_ofWord_eq_iff {value : Option String} :
    value.map ofWord = value.map .text ↔ value ≠ some "--" := by
  cases value with
  | none => simp
  | some text =>
    by_cases void : text = "--"
    · subst void
      simp [ofWord]
    · simp [ofWord_of_ne void, void]

end OptionValue

/-! ### Replacements -/

/-- The pairs among some pieces: what stands before and after the first equals sign of a piece, if
something stands before it. -/
inductive PairsOf : List String → List (String × String) → Prop where
  | nil : PairsOf [] []
  | pair {key value : String} {pieces : List String} {pairs : List (String × String)} :
      key ≠ "" → '=' ∉ key.toList → PairsOf pieces pairs →
      PairsOf ((key ++ "=" ++ value) :: pieces) ((key, value) :: pairs)
  | other {piece : String} {pieces : List String} {pairs : List (String × String)} :
      (∀ key value, piece = key ++ "=" ++ value → '=' ∉ key.toList → key = "") →
      PairsOf pieces pairs → PairsOf (piece :: pieces) pairs

namespace Replacements

/-- The pair in a word. -/
def pair? (word : String) : Option (String × String) :=
  (cutAtEquals word).filter fun pair => !pair.1.isEmpty

theorem ofWords_eq (words : List String) : ofWords words = .ofList (words.filterMap pair?) := rfl

theorem pair?_eq_some_iff {word key value : String} :
    pair? word = some (key, value) ↔ word = key ++ "=" ++ value ∧ '=' ∉ key.toList ∧ key ≠ "" := by
  rw [pair?, Option.filter_eq_some_iff, cutAtEquals_eq_some_iff]
  simp [and_assoc]

/-- **The words of replacements** are read pair by pair. -/
theorem pairsOf_pairs (words : List String) : PairsOf words (words.filterMap pair?) := by
  induction words with
  | nil => exact .nil
  | cons word rest ih =>
    cases found : pair? word with
    | none =>
      rw [List.filterMap_cons_none found]
      refine .other ?_ ih
      intro key value written noEquals
      rw [Option.eq_none_iff_forall_ne_some] at found
      exact Classical.not_not.mp fun nonempty =>
        found _ (pair?_eq_some_iff.mpr ⟨written, noEquals, nonempty⟩)
    | some pair =>
      obtain ⟨rfl, noEquals, nonempty⟩ := pair?_eq_some_iff.mp found
      rw [List.filterMap_cons_some found]
      exact .pair nonempty noEquals ih

/-- Replacements do not mind a void value. -/
theorem ofWords_shown (values : List String) :
    ofWords ((values.map OptionValue.shown).flatMap commaPieces) =
      ofWords (values.flatMap commaPieces) := by
  rw [ofWords_eq, ofWords_eq]
  congr 1
  induction values with
  | nil => rfl
  | cons value rest ih =>
    rw [List.map_cons, List.flatMap_cons, List.flatMap_cons, List.filterMap_append,
      List.filterMap_append, ih]
    by_cases void : value = "--"
    · subst void
      have written : (commaPieces "--").filterMap pair? = [] := by decide
      have taken : (commaPieces "[]").filterMap pair? = [] := by decide
      rw [OptionValue.shown_separator, written, taken]
    · rw [OptionValue.shown_of_ne void]

end Replacements

end EsmBundle
