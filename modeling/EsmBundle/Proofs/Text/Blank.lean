import EsmBundle.Text.Blank

/-!
Blanks at the ends of a text: what trimming takes away, and what it leaves.
-/

namespace EsmBundle

/-- A text of blanks only. -/
def AllBlank (cs : List Char) : Prop :=
  ∀ c ∈ cs, isBlank c = true

instance (cs : List Char) : Decidable (AllBlank cs) :=
  List.decidableBAll _ cs

/-- Blanks in front do not matter to what is left. -/
theorem trimLeft_append {blanks : List Char} (blank : AllBlank blanks) (cs : List Char) :
    trimLeft (blanks ++ cs) = trimLeft cs := by
  rw [trimLeft, List.dropWhile_append_of_pos blank]
  rfl

/-- A text that begins with no blank is left as it is. -/
theorem trimLeft_cons {c : Char} {rest : List Char} (visible : isBlank c = false) :
    trimLeft (c :: rest) = c :: rest := by
  rw [trimLeft, List.dropWhile_cons_of_neg (by simp [visible])]

/-- What trimming in front takes away are blanks. -/
theorem takeWhile_append_trimLeft (cs : List Char) :
    cs.takeWhile isBlank ++ trimLeft cs = cs :=
  List.takeWhile_append_dropWhile

/-- The longest front of blanks is one of blanks. -/
theorem allBlank_takeWhile (cs : List Char) : AllBlank (cs.takeWhile isBlank) :=
  List.all_eq_true.mp List.all_takeWhile

/-- What is left begins with the first character that is no blank. -/
theorem trimLeft_eq_cons_iff {cs rest : List Char} {c : Char} :
    trimLeft cs = c :: rest ↔
      ∃ blanks, AllBlank blanks ∧ isBlank c = false ∧ cs = blanks ++ c :: rest := by
  constructor
  · intro left
    exact ⟨cs.takeWhile isBlank, allBlank_takeWhile cs, head_trimLeft left,
      left ▸ (takeWhile_append_trimLeft cs).symm⟩
  · rintro ⟨blanks, blank, visible, rfl⟩
    rw [trimLeft_append blank, trimLeft_cons visible]

/-- The blanks in front of a character that is no blank are the longest front of blanks. -/
theorem takeWhile_isBlank_append {blanks rest : List Char} {c : Char} (blank : AllBlank blanks)
    (visible : isBlank c = false) : (blanks ++ c :: rest).takeWhile isBlank = blanks := by
  rw [List.takeWhile_append_of_pos blank, List.takeWhile_cons_of_neg (by simp [visible]),
    List.append_nil]

/-- What is left at the end of a text ends in the last character that is no blank. -/
theorem trimRight_append (before : List Char) {blanks : List Char} {c : Char}
    (blank : AllBlank blanks) (visible : isBlank c = false) :
    trimRight (before ++ [c] ++ blanks) = before ++ [c] := by
  have reversed : AllBlank blanks.reverse := fun d mem => blank d (List.mem_reverse.mp mem)
  have left := trimLeft_append reversed (c :: before.reverse)
  rw [trimLeft_cons visible] at left
  rw [trimRight, List.reverse_append, List.reverse_append, List.reverse_singleton]
  exact (congrArg List.reverse left).trans (by simp)

/-- What trimming at the end takes away are blanks. -/
theorem exists_eq_trimRight_append (cs : List Char) :
    ∃ blanks, AllBlank blanks ∧ cs = trimRight cs ++ blanks := by
  refine ⟨(cs.reverse.takeWhile isBlank).reverse, ?_, ?_⟩
  · intro c mem
    exact allBlank_takeWhile cs.reverse c (List.mem_reverse.mp mem)
  · have whole := takeWhile_append_trimLeft cs.reverse
    rw [← List.reverse_inj, trimRight, List.reverse_append, List.reverse_reverse,
      List.reverse_reverse]
    exact whole.symm

end EsmBundle
