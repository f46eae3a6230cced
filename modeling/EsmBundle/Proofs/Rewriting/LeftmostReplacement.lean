import EsmBundle.Finish
import EsmBundle.Proofs.Text.Scan
import Mathlib.Logic.ExistsUnique

/-!
Literal replacement, told without a scan: which occurrences of a search text one pass replaces,
and what the passes make of a text one after another.

A search text that is not empty cuts every text into pieces. Each piece but the last ends where
the first occurrence in the text from there on begins, and the last piece has no occurrence. A
search text may overlap itself, so that an occurrence is passed over for one that begins earlier;
still there is exactly one such cut, since the text from a piece on settles where the piece ends.

A pass puts the replacement between the pieces of the text it was given. Nothing is asked of the
replacement: it may hold the search text, or make up new occurrences with the pieces around it,
and these stay as they are in that pass.

* `CutsAt`, `cutsAt_iff` — the pieces of a text, and the first of them with the cut of the rest.
* `existsUnique_cutsAt` — there is exactly one cut of every text.
* `pass_iff`, `passes_iff` — one pass, and all of them in order.
* `replaceText_leftmost` — the literal replacements of a text are exactly these passes.
-/

namespace EsmBundle

variable {search replacement cs : List Char}

/-! ### The first occurrence -/

/-- The first occurrence of `search` in `cs` begins at position `i`. -/
structure FirstOccursAt (search cs : List Char) (i : Nat) : Prop where
  occurs : search <+: cs.drop i
  absent_before : ∀ j < i, ¬ search <+: cs.drop j

theorem firstOccursAt_zero_iff : FirstOccursAt search cs 0 ↔ search <+: cs := by
  constructor
  · intro first
    exact first.occurs
  · intro occurs
    exact ⟨occurs, fun j before => absurd before (Nat.not_lt_zero j)⟩

/-- A first occurrence further on is one of the text without its first character. -/
theorem firstOccursAt_succ_iff {c : Char} {rest : List Char} {i : Nat} :
    FirstOccursAt search (c :: rest) (i + 1) ↔
      ¬ search <+: c :: rest ∧ FirstOccursAt search rest i := by
  constructor
  · rintro ⟨occurs, absent⟩
    refine ⟨absent 0 (Nat.succ_pos i), occurs, ?_⟩
    intro j before
    exact absent (j + 1) (Nat.succ_lt_succ before)
  · rintro ⟨here, occurs, absent⟩
    refine ⟨occurs, ?_⟩
    intro j before
    cases j with
    | zero => exact here
    | succ j => exact absent j (Nat.lt_of_succ_lt_succ before)

theorem FirstOccursAt.unique {i j : Nat} (first : FirstOccursAt search cs i)
    (other : FirstOccursAt search cs j) : i = j := by
  rcases Nat.lt_trichotomy i j with before | same | before
  · exact absurd first.occurs (other.absent_before i before)
  · exact same
  · exact absurd other.occurs (first.absent_before j before)

/-- A text that contains another has a first occurrence of it. -/
theorem exists_firstOccursAt (contained : search <:+: cs) :
    ∃ before behind, cs = before ++ (search ++ behind) ∧
      FirstOccursAt search cs before.length := by
  induction cs with
  | nil =>
    obtain rfl := List.infix_nil.mp contained
    exact ⟨[], [], rfl, firstOccursAt_zero_iff.mpr ⟨[], rfl⟩⟩
  | cons c rest ih =>
    by_cases here : search <+: c :: rest
    · obtain ⟨behind, same⟩ := here
      exact ⟨[], behind, same.symm, firstOccursAt_zero_iff.mpr ⟨behind, same⟩⟩
    · obtain ⟨before, behind, same, first⟩ :=
        ih ((List.infix_cons_iff.mp contained).resolve_left here)
      have later := firstOccursAt_succ_iff.mpr ⟨here, first⟩
      exact ⟨c :: before, behind, congrArg (c :: ·) same, later⟩

/-! ### The pieces of a text -/

/-- `pieces` are what stands before, between and behind the occurrences of `search` in `cs`, taken
from the left without overlap. -/
structure CutsAt (search : List Char) (pieces : List (List Char)) (cs : List Char) : Prop where
  nonempty : pieces ≠ []
  whole : search.intercalate pieces = cs
  /-- The first occurrence in the text from a piece on is at the end of that piece. -/
  first : ∀ i, (inside : i + 1 < pieces.length) →
    FirstOccursAt search (search.intercalate (pieces.drop i)) pieces[i].length
  last : ¬ search <:+: pieces.getLast nonempty

/-- A text without an occurrence is its only piece; any other is cut at the first one, and then
what is left behind it. -/
theorem cutsAt_iff {pieces : List (List Char)} :
    CutsAt search pieces cs ↔
      (pieces = [cs] ∧ ¬ search <:+: cs) ∨
        ∃ before others behind, pieces = before :: others ∧ cs = before ++ (search ++ behind) ∧
          FirstOccursAt search cs before.length ∧ CutsAt search others behind := by
  constructor
  · intro cut
    match pieces, cut with
    | [], cut => exact absurd rfl cut.nonempty
    | [piece], cut =>
      obtain rfl : piece = cs := by simpa using cut.whole
      exact Or.inl ⟨rfl, cut.last⟩
    | piece :: next :: others, cut =>
      have whole := cut.whole
      rw [List.intercalate_cons_cons, List.append_assoc] at whole
      refine Or.inr ⟨piece, next :: others, _, rfl, whole.symm, ?_, ?_⟩
      · have first := cut.first 0 (by simp)
        rwa [List.drop_zero, cut.whole] at first
      · exact ⟨List.cons_ne_nil _ _, rfl,
          fun i inside => cut.first (i + 1) (Nat.succ_lt_succ inside), cut.last⟩
  · rintro (⟨rfl, absent⟩ | ⟨before, others, behind, rfl, rfl, first, rest⟩)
    · exact ⟨List.cons_ne_nil _ _, List.intercalate_singleton,
        fun i inside => absurd inside (by simp), absent⟩
    · have whole : search.intercalate (before :: others) = before ++ (search ++ behind) := by
        rw [List.intercalate_cons_of_ne_nil rest.nonempty, rest.whole, List.append_assoc]
      refine ⟨List.cons_ne_nil _ _, whole, ?_, ?_⟩
      · intro i inside
        cases i with
        | zero =>
          rw [List.drop_zero, whole]
          exact first
        | succ i => exact rest.first i (Nat.lt_of_succ_lt_succ inside)
      · rw [List.getLast_cons rest.nonempty]
        exact rest.last

/-- The empty text cuts nothing: it occurs in every last piece. -/
theorem CutsAt.search_ne_nil {pieces : List (List Char)} (cut : CutsAt search pieces cs) :
    search ≠ [] := by
  rintro rfl
  exact cut.last List.nil_infix

/-- The pieces are settled one after another, each by where the first occurrence is. -/
theorem CutsAt.unique {pieces others : List (List Char)} (cut : CutsAt search pieces cs)
    (other : CutsAt search others cs) : pieces = others := by
  induction pieces generalizing cs others with
  | nil => exact absurd rfl cut.nonempty
  | cons piece rest ih =>
    rcases cutsAt_iff.mp cut with ⟨alone, absent⟩ | ⟨before, _, behind, same, rfl, first, later⟩
    · rcases cutsAt_iff.mp other with ⟨alone', -⟩ | ⟨_, _, _, -, rfl, -, -⟩
      · exact alone.trans alone'.symm
      · exact absurd (List.infix_append' _ _ _) absent
    · obtain ⟨rfl, rfl⟩ := List.cons.inj same
      rcases cutsAt_iff.mp other with ⟨-, absent⟩ | ⟨before', _, _, rfl, whole, first', later'⟩
      · exact absurd (List.infix_append' _ _ _) absent
      · obtain ⟨rfl, behindSame⟩ := List.append_inj whole (first.unique first')
        obtain rfl := List.append_cancel_left behindSame
        rw [ih later later']

/-- **Every text is cut in exactly one way** by a search text that is not empty. -/
theorem existsUnique_cutsAt (nonempty : search ≠ []) (cs : List Char) :
    ∃! pieces, CutsAt search pieces cs := by
  suffices exists_cut : ∃ pieces, CutsAt search pieces cs by
    obtain ⟨pieces, cut⟩ := exists_cut
    exact ⟨pieces, cut, fun others other => other.unique cut⟩
  -- What is left behind the first occurrence is shorter by the search text at least.
  induction size : cs.length using Nat.strongRecOn generalizing cs with
  | ind n ih =>
    subst size
    by_cases contained : search <:+: cs
    · obtain ⟨before, behind, same, first⟩ := exists_firstOccursAt contained
      have shorter : behind.length < cs.length := by
        have positive := List.length_pos_iff.mpr nonempty
        rw [same, List.length_append, List.length_append]
        omega
      obtain ⟨pieces, cut⟩ := ih behind.length shorter behind rfl
      refine ⟨before :: pieces, cutsAt_iff.mpr (Or.inr ?_)⟩
      exact ⟨before, pieces, behind, rfl, same, first, cut⟩
    · exact ⟨[cs], cutsAt_iff.mpr (Or.inl ⟨rfl, contained⟩)⟩

/-! ### One pass -/

/-- A pass is a replacement of finds. -/
theorem replaceAll_eq (nonempty : search ≠ []) (replacement cs : List Char) :
    replaceAll search replacement cs =
      replaceFinds (fun cs => if search.isPrefixOf cs then some () else none)
        (fun _ => search.length) (fun _ => 0) (fun _ => search.length) replacement cs := by
  rw [replaceAll, if_neg (by simpa using nonempty)]
  rfl

/-- A character at which the search text does not begin is kept. -/
theorem replaceAll_cons_of_absent {c : Char} {rest : List Char} (nonempty : search ≠ [])
    (absent : ¬ search <+: c :: rest) :
    replaceAll search replacement (c :: rest) = c :: replaceAll search replacement rest := by
  simp only [replaceAll_eq nonempty]
  exact replaceFinds_of_none (if_neg (by simpa using absent))

/-- The search text at the front is replaced and left behind. -/
theorem replaceAll_append (nonempty : search ≠ []) (rest : List Char) :
    replaceAll search replacement (search ++ rest) =
      replacement ++ replaceAll search replacement rest := by
  simp only [replaceAll_eq nonempty]
  have here : (if search.isPrefixOf (search ++ rest) then some () else none) = some () :=
    if_pos (by simp)
  -- The whole find is replaced: nothing of it is kept, neither in front nor behind.
  change replaceFinds _ _ _ _ _ ([] ++ (search ++ ([] ++ rest))) = [] ++ (replacement ++ ([] ++ _))
  exact replaceFinds_of_some here (by simp) rfl rfl (by simpa using nonempty)

/-- A text in which the search text does not occur stays as it is. -/
theorem replaceAll_of_absent (nonempty : search ≠ []) (absent : ¬ search <:+: cs) :
    replaceAll search replacement cs = cs := by
  induction cs with
  | nil => rw [replaceAll_eq nonempty, replaceFinds_nil]
  | cons c rest ih =>
    rw [List.infix_cons_iff, not_or] at absent
    rw [replaceAll_cons_of_absent nonempty absent.1, ih absent.2]

/-- What stands before the first occurrence is kept, and the pass goes on behind it. -/
theorem replaceAll_of_firstOccursAt (nonempty : search ≠ []) {before behind : List Char}
    (first : FirstOccursAt search (before ++ (search ++ behind)) before.length) :
    replaceAll search replacement (before ++ (search ++ behind)) =
      before ++ (replacement ++ replaceAll search replacement behind) := by
  induction before with
  | nil => exact replaceAll_append nonempty behind
  | cons c before ih =>
    rw [List.cons_append] at first
    obtain ⟨absent, later⟩ := firstOccursAt_succ_iff.mp first
    rw [List.cons_append, replaceAll_cons_of_absent nonempty absent, ih later, List.cons_append]

/-- A pass puts the replacement between the pieces of the text. -/
theorem CutsAt.replaceAll_eq {pieces : List (List Char)} (cut : CutsAt search pieces cs) :
    replaceAll search replacement cs = replacement.intercalate pieces := by
  induction pieces generalizing cs with
  | nil => exact absurd rfl cut.nonempty
  | cons piece rest ih =>
    rcases cutsAt_iff.mp cut with ⟨alone, absent⟩ | ⟨before, _, behind, same, rfl, first, later⟩
    · rw [replaceAll_of_absent cut.search_ne_nil absent, alone, List.intercalate_singleton]
    · obtain ⟨rfl, rfl⟩ := List.cons.inj same
      rw [replaceAll_of_firstOccursAt cut.search_ne_nil first, ih later,
        List.intercalate_cons_of_ne_nil later.nonempty, List.append_assoc]

/-- What one pass makes of a text. -/
inductive Pass : (search replacement cs out : List Char) → Prop where
  | idle {replacement cs : List Char} : Pass [] replacement cs cs
  | replace {search replacement cs : List Char} {pieces : List (List Char)} :
      search ≠ [] → CutsAt search pieces cs →
      Pass search replacement cs (replacement.intercalate pieces)

/-- A pass makes one text of every text. -/
theorem pass_iff {out : List Char} :
    Pass search replacement cs out ↔ replaceAll search replacement cs = out := by
  constructor
  · intro pass
    cases pass with
    | idle => rfl
    | replace _ cut => exact cut.replaceAll_eq
  · rintro rfl
    by_cases empty : search = []
    · subst empty
      exact .idle
    · obtain ⟨pieces, cut, -⟩ := existsUnique_cutsAt empty cs
      rw [cut.replaceAll_eq]
      exact .replace empty cut

/-! ### All passes -/

/-- What the passes of a list of pairs make of a text, each of the result of the one before. -/
inductive Passes : List (String × String) → (cs out : List Char) → Prop where
  | done {cs : List Char} : Passes [] cs cs
  | step {search replacement : String} {rest : List (String × String)}
      {cs next out : List Char} :
      Pass search.toList replacement.toList cs next → Passes rest next out →
      Passes ((search, replacement) :: rest) cs out

/-- So do all passes of a map. -/
theorem passes_iff {replacements : Replacements} {out : List Char} :
    Passes replacements.entries cs out ↔ applyReplacements replacements cs = out := by
  unfold applyReplacements
  induction replacements.entries generalizing cs with
  | nil =>
    constructor
    · rintro ⟨⟩
      rfl
    · rintro rfl
      exact .done
  | cons pair rest ih =>
    constructor
    · intro passes
      cases passes with
      | step pass later =>
        obtain rfl := pass_iff.mp pass
        exact ih.mp later
    · intro same
      exact .step (pass_iff.mpr rfl) (ih.mpr same)

/-- **Literal replacement is leftmost, without overlap, and never searches what it writes**: every
text is cut in exactly one way at the occurrences of a search text, and the replacements of a text
are the passes of all pairs in the order of the map, each of which puts its replacement between the
pieces of the text it is given. -/
theorem replaceText_leftmost (replacements : Replacements) (text : String) :
    (∀ search cs : List Char, search ≠ [] → ∃! pieces, CutsAt search pieces cs) ∧
      ∀ out : String,
        Passes replacements.entries text.toList out.toList ↔
          replaceText replacements text = out := by
  refine ⟨fun search cs nonempty => existsUnique_cutsAt nonempty cs, fun out => ?_⟩
  rw [passes_iff, replaceText, ← String.toList_inj, String.toList_ofList]

/-- The search text overlaps itself and is in its replacement; an empty one does nothing; and what
the last pass takes out leaves another occurrence behind. -/
theorem replaceText_leftmost_of_overlaps :
    "aa".toList ≠ [] ∧ (∃! pieces, CutsAt "aa".toList pieces "aaabb".toList) ∧
      Passes [("aa", "aaa"), ("", "x"), ("ab", "")] "aaabb".toList "aaab".toList := by
  have nonempty : "aa".toList ≠ [] := by decide
  obtain ⟨cuts, passes⟩ :=
    replaceText_leftmost ⟨[("aa", "aaa"), ("", "x"), ("ab", "")], by decide⟩ "aaabb"
  exact ⟨nonempty, cuts _ _ nonempty, (passes "aaab").mpr (by decide)⟩

end EsmBundle
