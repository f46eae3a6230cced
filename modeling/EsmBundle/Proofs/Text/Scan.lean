import EsmBundle.Text.Scan

/-!
Replacing what a scan finds, read as a recursion over the text.

A scan gives positions, and splicing puts a replacement at positions. Together they
follow the text itself: a character at which nothing begins is kept, and a find is
replaced and left behind. `replaceFinds` is the combination, and its three equations
(`replaceFinds_nil`, `replaceFinds_of_none`, `replaceFinds_of_some`) are what the later
modules use in place of positions.

Where positions themselves matter, there are `pairwise_scan` (the finds come in order and
do not overlap), `exists_mem_scan_around` (nothing begins outside them), and `exists_weave`
(the text is its finds and the gaps between them, and replacing keeps the gaps).
-/

namespace EsmBundle

variable {α : Type} {find? : List Char → Option α} {width : α → Nat}

/-! ### Positions -/

/-- The skipped characters are not looked at. -/
theorem scan_skip (position skip : Nat) (cs : List Char) :
    scan find? width position skip cs =
      scan find? width (position + skip) 0 (cs.drop skip) := by
  induction cs generalizing position skip with
  | nil => simp [scan]
  | cons c rest ih =>
    cases skip with
    | zero => rfl
    | succ skip =>
      rw [scan, ih, List.drop_succ_cons, show position + 1 + skip = position + (skip + 1) by omega]

/-- A scan from another position makes the same finds, moved. -/
theorem scan_add (position shift skip : Nat) (cs : List Char) :
    scan find? width (position + shift) skip cs =
      (scan find? width position skip cs).map fun found => (found.1 + shift, found.2) := by
  induction cs generalizing position skip with
  | nil => simp [scan]
  | cons c rest ih =>
    have moved (skip : Nat) :
        scan find? width (position + shift + 1) skip rest =
          (scan find? width (position + 1) skip rest).map fun found =>
            (found.1 + shift, found.2) := by
      rw [show position + shift + 1 = position + 1 + shift by omega, ih]
    cases skip with
    | succ skip => exact moved skip
    | zero =>
      simp only [scan]
      cases find? (c :: rest) with
      | none => exact moved 0
      | some found => simp only [moved, List.map_cons]

/-- A stretch moved to the right. -/
def Span.shift (span : Span) (shift : Nat) : Span :=
  ⟨span.start + shift, span.stop + shift⟩

/-- Splicing depends only on where the spans are in the text. -/
theorem splice_shift (replacement : List Char) (position shift : Nat) (cs : List Char)
    (spans : List Span) :
    splice replacement (position + shift) cs (spans.map (Span.shift · shift)) =
      splice replacement position cs spans := by
  induction spans generalizing position cs with
  | nil => rfl
  | cons span rest ih =>
    simp only [List.map_cons, splice, Span.shift, Nat.add_sub_add_right]
    rw [← ih span.stop]
    rfl

/-- What lies before all spans is kept. -/
theorem splice_append (replacement : List Char) (position : Nat) (before cs : List Char)
    {spans : List Span} (behind : ∀ span ∈ spans, position + before.length ≤ span.start)
    (ordered : ∀ span ∈ spans, span.start ≤ span.stop) :
    splice replacement position (before ++ cs) spans =
      before ++ splice replacement (position + before.length) cs spans := by
  cases spans with
  | nil => rfl
  | cons span rest =>
    have start := behind span List.mem_cons_self
    have stop := ordered span List.mem_cons_self
    have kept : (before ++ cs).take (span.start - position) =
        before ++ cs.take (span.start - (position + before.length)) := by
      rw [List.take_append, List.take_of_length_le (by omega), Nat.sub_sub]
    have left : (before ++ cs).drop (span.stop - position) =
        cs.drop (span.stop - (position + before.length)) := by
      rw [List.drop_append, List.drop_of_length_le (by omega), List.nil_append, Nat.sub_sub]
    rw [splice, splice, kept, left]
    simp only [List.append_assoc]

/-! ### The order of the finds -/

/-- No find begins in the part that is skipped. -/
theorem le_of_mem_scan {position skip : Nat} {cs : List Char} {found : Nat × α}
    (mem : found ∈ scan find? width position skip cs) : position + skip ≤ found.1 := by
  rw [scan_skip] at mem
  exact (find?_of_mem_scan mem).1

/-- The finds come in order, and each begins behind the end of the one before. -/
theorem pairwise_scan (position skip : Nat) (cs : List Char) :
    (scan find? width position skip cs).Pairwise fun a b =>
      a.1 < b.1 ∧ a.1 + width a.2 ≤ b.1 := by
  induction cs generalizing position skip with
  | nil => exact List.Pairwise.nil
  | cons c rest ih =>
    cases skip with
    | succ skip => exact ih (position + 1) skip
    | zero =>
      rw [scan]
      split
      · rename_i found here
        refine List.pairwise_cons.mpr ⟨?_, ih (position + 1) (width found - 1)⟩
        intro later mem
        have behind := le_of_mem_scan mem
        dsimp only
        omega
      · exact ih (position + 1) 0

/-- Wherever something begins, there is a find that has begun and has not ended yet. -/
theorem exists_mem_scan_around (wide : ∀ {cs : List Char} {found : α},
    find? cs = some found → 0 < width found) {position skip i : Nat} {cs : List Char} {found : α}
    (here : find? (cs.drop i) = some found) (behind : skip ≤ i) (inside : i < cs.length) :
    ∃ other ∈ scan find? width position skip cs,
      other.1 ≤ position + i ∧ position + i < other.1 + width other.2 := by
  induction cs generalizing position skip i with
  | nil => exact absurd inside (Nat.not_lt_zero i)
  | cons c rest ih =>
    have later {skip j : Nat} (same : i = j + 1) (far : skip ≤ j) :
        ∃ other ∈ scan find? width (position + 1) skip rest,
          other.1 ≤ position + i ∧ position + i < other.1 + width other.2 := by
      subst same
      rw [show position + (j + 1) = position + 1 + j by omega]
      exact ih here far (Nat.lt_of_succ_lt_succ inside)
    cases skip with
    | succ skip =>
      obtain ⟨j, rfl⟩ := Nat.exists_eq_add_of_le' (Nat.one_le_of_lt behind)
      exact later rfl (Nat.le_of_succ_le_succ behind)
    | zero =>
      cases first : find? (c :: rest) with
      | none =>
        rw [scan, first]
        cases i with
        | zero => cases first.symm.trans here
        | succ j => exact later rfl (Nat.zero_le j)
      | some other =>
        rw [scan, first]
        by_cases covered : i < width other
        · exact ⟨(position, other), List.mem_cons_self, Nat.le_add_right _ _,
            Nat.add_lt_add_left covered position⟩
        · have positive := wide first
          obtain ⟨j, rfl⟩ := Nat.exists_eq_add_of_le' (show 1 ≤ i by omega)
          obtain ⟨next, mem, around⟩ := later rfl (show width other - 1 ≤ j by omega)
          exact ⟨next, List.mem_cons_of_mem _ mem, around⟩

/-- A find at the front, and the finds of the text behind it. -/
theorem scan_of_some {found : α} {text rest : List Char} (position : Nat)
    (here : find? (text ++ rest) = some found) (wide : width found = text.length)
    (nonempty : text ≠ []) :
    scan find? width position 0 (text ++ rest) =
      (position, found) :: scan find? width (position + text.length) 0 rest := by
  obtain ⟨c, others, rfl⟩ := List.exists_cons_of_ne_nil nonempty
  have enough : width found - 1 = others.length := by
    rw [wide, List.length_cons, Nat.add_sub_cancel]
  rw [List.cons_append] at here ⊢
  rw [scan, here]
  dsimp only
  rw [scan_skip, enough, List.drop_left, List.length_cons, Nat.add_assoc, Nat.add_comm 1]

/-! ### Something is found -/

/-- Where nothing begins at the front, there are finds when there are some behind it. -/
theorem isEmpty_scan_of_none {c : Char} {rest : List Char} (none : find? (c :: rest) = none) :
    (scan find? width 0 0 (c :: rest)).isEmpty = (scan find? width 0 0 rest).isEmpty := by
  rw [scan, none]
  simp only
  rw [scan_add 0 1, List.isEmpty_map]

/-- Where something begins at the front, there are finds. -/
theorem isEmpty_scan_of_some {c : Char} {rest : List Char} {found : α}
    (here : find? (c :: rest) = some found) :
    (scan find? width 0 0 (c :: rest)).isEmpty = false := by
  rw [scan, here]
  rfl

/-! ### Replacing the finds -/

/-- The text in which a stretch of every find is replaced: the one that starts `before`
characters behind the start of the find and has `inner` characters. -/
def replaceFinds (find? : List Char → Option α) (width before inner : α → Nat)
    (replacement cs : List Char) : List Char :=
  splice replacement 0 cs ((scan find? width 0 0 cs).map fun found =>
    ⟨found.1 + before found.2, found.1 + before found.2 + inner found.2⟩)

variable {before inner : α → Nat} {replacement : List Char}

@[simp]
theorem replaceFinds_nil : replaceFinds find? width before inner replacement [] = [] := rfl

/-- The spans of finds, moved, are those of the scan from another position. -/
theorem map_scan_shift (position : Nat) (cs : List Char) :
    (scan find? width position 0 cs).map (fun found =>
        (⟨found.1 + before found.2, found.1 + before found.2 + inner found.2⟩ : Span)) =
      ((scan find? width 0 0 cs).map fun found =>
        ⟨found.1 + before found.2, found.1 + before found.2 + inner found.2⟩).map
          (Span.shift · position) := by
  rw [← Nat.zero_add position, scan_add, List.map_map, List.map_map]
  refine List.map_congr_left ?_
  intro found _
  simp only [Function.comp_apply, Span.shift, Span.mk.injEq]
  omega

/-- The finds of a text behind some first characters are replaced as in that text alone. -/
theorem splice_scan_append (position : Nat) (first cs : List Char) :
    splice replacement position (first ++ cs)
        ((scan find? width (position + first.length) 0 cs).map fun found =>
          ⟨found.1 + before found.2, found.1 + before found.2 + inner found.2⟩) =
      first ++ replaceFinds find? width before inner replacement cs := by
  rw [splice_append]
  · have moved (spans : List Span) := splice_shift replacement 0 (position + first.length) cs spans
    simp only [Nat.zero_add] at moved
    rw [map_scan_shift, moved]
    rfl
  · intro span mem
    obtain ⟨found, found_mem, rfl⟩ := List.mem_map.mp mem
    exact Nat.le_trans (find?_of_mem_scan found_mem).1 (Nat.le_add_right _ _)
  · intro span mem
    obtain ⟨found, -, rfl⟩ := List.mem_map.mp mem
    exact Nat.le_add_right _ _

/-- A character at which nothing begins is kept. -/
theorem replaceFinds_of_none {c : Char} {rest : List Char} (none : find? (c :: rest) = none) :
    replaceFinds find? width before inner replacement (c :: rest) =
      c :: replaceFinds find? width before inner replacement rest := by
  have later : scan find? width 0 0 (c :: rest) = scan find? width (0 + [c].length) 0 rest := by
    rw [scan, none]
    rfl
  rw [replaceFinds, later]
  exact splice_scan_append 0 [c] rest

/-- **A find is replaced and left behind**: what stands before and after the replaced stretch
in the find is kept, and the text behind the find is treated as a text of its own. -/
theorem replaceFinds_of_some {found : α} {head middle tail rest : List Char}
    (here : find? (head ++ (middle ++ (tail ++ rest))) = some found)
    (wide : width found = head.length + middle.length + tail.length)
    (headLength : before found = head.length) (middleLength : inner found = middle.length)
    (nonempty : head ++ (middle ++ tail) ≠ []) :
    replaceFinds find? width before inner replacement (head ++ (middle ++ (tail ++ rest))) =
      head ++ (replacement ++ (tail ++
        replaceFinds find? width before inner replacement rest)) := by
  have finds : scan find? width 0 0 (head ++ (middle ++ (tail ++ rest))) =
      (0, found) :: scan find? width (head.length + middle.length + tail.length) 0 rest := by
    have split : head ++ (middle ++ (tail ++ rest)) = (head ++ (middle ++ tail)) ++ rest := by
      simp only [List.append_assoc]
    have size : (head ++ (middle ++ tail)).length = head.length + middle.length + tail.length := by
      simp only [List.length_append, Nat.add_assoc]
    rw [split] at here ⊢
    rw [scan_of_some 0 here (wide.trans size.symm) nonempty, size, Nat.zero_add]
  have kept : (head ++ (middle ++ (tail ++ rest))).take (0 + before found - 0) = head := by
    rw [headLength, Nat.zero_add, Nat.sub_zero, List.take_left]
  have left : (head ++ (middle ++ (tail ++ rest))).drop (0 + before found + inner found - 0) =
      tail ++ rest := by
    rw [headLength, middleLength, Nat.zero_add, Nat.sub_zero, ← List.append_assoc head,
      ← List.length_append, List.drop_left]
  rw [replaceFinds, finds, List.map_cons, splice, kept, left, headLength, middleLength,
    Nat.zero_add, List.append_assoc]
  simp only [splice_scan_append]

/-! ### A text by its finds -/

/-- The text of some finds, each behind a gap, and a last gap; `write` says how a find is
written. -/
def weave (write : α → List Char) (last : List Char) : List (List Char × α) → List Char
  | [] => last
  | (gap, found) :: rest => gap ++ (write found ++ weave write last rest)

/-- The finds in such a text with their positions, if the text begins at `position`. -/
def placesIn (write : α → List Char) : (position : Nat) → List (List Char × α) → List (Nat × α)
  | _, [] => []
  | position, (gap, found) :: rest =>
    (position + gap.length, found) ::
      placesIn write (position + gap.length + (write found).length) rest

/-- **Replacing the finds keeps all around them**: the text is its finds with gaps between them, and
the result is the same gaps with the finds written the other way. -/
theorem exists_weave {head tail : α → List Char} {middle : List Char}
    (reads : ∀ {cs : List Char} {found : α}, find? cs = some found →
      head found ≠ [] ∧ head found ++ (middle ++ tail found) <+: cs)
    (wide : ∀ found, width found = (head found).length + middle.length + (tail found).length)
    (headLength : ∀ found, before found = (head found).length)
    (middleLength : ∀ found, inner found = middle.length) (position : Nat) (cs : List Char) :
    ∃ parts last,
      cs = weave (fun found => head found ++ (middle ++ tail found)) last parts ∧
        scan find? width position 0 cs =
          placesIn (fun found => head found ++ (middle ++ tail found)) position parts ∧
        replaceFinds find? width before inner replacement cs =
          weave (fun found => head found ++ (replacement ++ tail found)) last parts := by
  induction size : cs.length using Nat.strongRecOn generalizing position cs with
  | ind n ih =>
    subst size
    cases cs with
    | nil => exact ⟨[], [], rfl, rfl, rfl⟩
    | cons c rest =>
      cases here : find? (c :: rest) with
      | none =>
        obtain ⟨parts, last, text, finds, replaced⟩ :=
          ih rest.length (Nat.lt_succ_self _) (position + 1) rest rfl
        rw [scan, here, replaceFinds_of_none here, replaced]
        dsimp only
        rw [finds]
        -- The character belongs to the first gap.
        cases parts with
        | nil => exact ⟨[], c :: last, congrArg (c :: ·) text, rfl, rfl⟩
        | cons part parts =>
          refine ⟨(c :: part.1, part.2) :: parts, last, congrArg (c :: ·) text, ?_, rfl⟩
          simp only [placesIn, List.length_cons]
          rw [show position + 1 + part.1.length = position + (part.1.length + 1) by omega]
      | some found =>
        obtain ⟨nonempty, behind, same⟩ := reads here
        have shorter : behind.length < (c :: rest).length := by
          have positive := List.length_pos_iff.mpr nonempty
          have whole := congrArg List.length same
          simp only [List.length_append] at whole
          omega
        rw [← same] at here ⊢
        obtain ⟨parts, last, text, finds, replaced⟩ := ih behind.length shorter
          (position + (head found ++ (middle ++ tail found)).length) behind rfl
        refine ⟨([], found) :: parts, last, ?_, ?_, ?_⟩
        · rw [weave, ← text]
          rfl
        · rw [scan_of_some position here (by simp [wide, Nat.add_assoc]) (by simp [nonempty]),
            finds]
          rfl
        · have split : head found ++ (middle ++ tail found) ++ behind =
              head found ++ (middle ++ (tail found ++ behind)) := by
            simp only [List.append_assoc]
          rw [split] at here ⊢
          rw [replaceFinds_of_some here (wide found) (headLength found) (middleLength found)
            (List.append_ne_nil_of_left_ne_nil nonempty _), replaced, weave]
          simp only [List.nil_append, List.append_assoc]

end EsmBundle
