import EsmBundle.Proofs.Rewriting.ClauseSearch

/-!
The slots of a text: where a quoted specifier is imported, read off the quotes.

Every text is cut at its quotes into segments without quotes. A segment between two
quotes is an import slot when the quotes are of one kind, the segment before ends in the
head of a clause, and the segment behind begins with its tail. The definition speaks of
three neighbouring segments only, and of no search through the text.

* `QuoteCut.text_ofText`, `QuoteCut.ofText_text` — cutting and gluing are inverse.
* `ClauseForm.IsSlot`, `QuoteCut.IsImportSlot` — the slots, with what decides them.
* `QuoteCut.swapSlots` — the cut with other contents in its import slots.
-/

namespace EsmBundle

/-! ### Texts cut at their quotes -/

/-- A text cut at its quotes: the segment in front of the first quote, and every quote with
the segment behind it. -/
structure QuoteCut where
  start : List Char
  pieces : List (Char × List Char)
deriving DecidableEq, Repr

namespace QuoteCut

/-- The text of a cut. -/
def text (cut : QuoteCut) : List Char :=
  cut.start ++ cut.pieces.flatMap fun piece => piece.1 :: piece.2

/-- The cut of a text. -/
def ofText : List Char → QuoteCut
  | [] => ⟨[], []⟩
  | c :: cs =>
    let cut := ofText cs
    if isQuote c then ⟨[], (c, cut.start) :: cut.pieces⟩ else ⟨c :: cut.start, cut.pieces⟩

/-- The quotes of the cut are quotes, and no other ones are left in its segments. -/
structure Proper (cut : QuoteCut) : Prop where
  start : QuoteFree cut.start
  pieces : ∀ piece ∈ cut.pieces, isQuote piece.1 = true ∧ QuoteFree piece.2

/-- Gluing a cut text gives the text back. -/
@[simp]
theorem text_ofText (cs : List Char) : (ofText cs).text = cs := by
  induction cs with
  | nil => rfl
  | cons c cs ih =>
    simp only [text] at ih
    rw [ofText]
    split <;> simp [text, ih]

/-- The cut of a text is at every quote, and at nothing else. -/
theorem proper_ofText (cs : List Char) : (ofText cs).Proper := by
  induction cs with
  | nil => exact ⟨by simp [ofText, QuoteFree], by simp [ofText]⟩
  | cons c cs ih =>
    rw [ofText]
    cases quote : isQuote c with
    | true => exact ⟨by simp [QuoteFree], List.forall_mem_cons.mpr ⟨⟨quote, ih.start⟩, ih.pieces⟩⟩
    | false => exact ⟨List.forall_mem_cons.mpr ⟨quote, ih.start⟩, ih.pieces⟩

/-- The cut of a text behind a stretch without quotes. -/
theorem ofText_append {stretch : List Char} (quoteFree : QuoteFree stretch) (cs : List Char) :
    ofText (stretch ++ cs) = ⟨stretch ++ (ofText cs).start, (ofText cs).pieces⟩ := by
  induction stretch with
  | nil => rfl
  | cons c stretch ih =>
    obtain ⟨visible, others⟩ := List.forall_mem_cons.mp quoteFree
    rw [List.cons_append, ofText, ih others]
    simp [visible]

/-- Cutting a glued text gives the cut back. -/
theorem ofText_text {cut : QuoteCut} (proper : cut.Proper) : ofText cut.text = cut := by
  obtain ⟨start, pieces⟩ := cut
  rw [text, ofText_append proper.start]
  have rest : ofText (pieces.flatMap fun piece => piece.1 :: piece.2) = ⟨[], pieces⟩ := by
    have parts := proper.pieces
    simp only at parts
    clear proper
    induction pieces with
    | nil => rfl
    | cons piece pieces ih =>
      obtain ⟨⟨quote, quoteFree⟩, others⟩ := List.forall_mem_cons.mp parts
      rw [List.flatMap_cons, List.cons_append, ofText, ofText_append quoteFree, ih others]
      simp [quote]
  simp [rest]

/-- What follows the first segment of a cut is empty or begins with a quote. -/
theorem atQuote_flatMap {pieces : List (Char × List Char)}
    (quotes : ∀ piece ∈ pieces, isQuote piece.1 = true ∧ QuoteFree piece.2) :
    AtQuote (pieces.flatMap fun piece => piece.1 :: piece.2) := by
  cases pieces with
  | nil => simp [AtQuote]
  | cons piece pieces => simpa [AtQuote] using (quotes piece List.mem_cons_self).1

end QuoteCut

/-! ### Ends and beginnings -/

/-- A text that ends in the head of a clause. -/
def ClauseForm.EndsInHead (form : ClauseForm) (cs : List Char) : Prop :=
  ∃ before head, form.Head head ∧ cs = before ++ head

/-- A text that begins with the tail of a clause. -/
def ClauseForm.BeginsWithTail (form : ClauseForm) (cs : List Char) : Prop :=
  ∃ closing behind, form.Tail closing ∧ cs = closing ++ behind

/-- A text that ends in no head, so that a quote behind it opens no specifier. -/
def Headless (cs : List Char) : Prop :=
  ∀ form : ClauseForm, ¬ form.EndsInHead cs

/-- The head of a clause begins with the first letter of a keyword. -/
theorem ClauseForm.Head.exists_cons {form : ClauseForm} {cs : List Char} (head : form.Head cs) :
    ∃ c rest, cs = c :: rest ∧ (c = 'i' ∨ c = 'e') := by
  cases form with
  | dynamic =>
    obtain ⟨outer, inner, -, -, rfl⟩ := head
    exact ⟨'i', _, rfl, Or.inl rfl⟩
  | static =>
    obtain ⟨keyword, mem, run, blanks, -, rfl⟩ := head
    simp only [ImportClause.keywords, List.mem_cons, List.not_mem_nil, or_false] at mem
    rcases mem with rfl | rfl
    · exact ⟨'i', _, rfl, Or.inl rfl⟩
    · exact ⟨'e', _, rfl, Or.inr rfl⟩

/-- The empty text ends in no head. -/
theorem ClauseForm.not_endsInHead_nil (form : ClauseForm) : ¬ form.EndsInHead [] := by
  rintro ⟨before, head, isHead, whole⟩
  obtain ⟨c, rest, rfl, -⟩ := isHead.exists_cons
  simp at whole

/-- A text ends in a head when it is one, or when it does without its first character. -/
theorem ClauseForm.endsInHead_cons_iff {form : ClauseForm} {c : Char} {cs : List Char} :
    form.EndsInHead (c :: cs) ↔ form.Head (c :: cs) ∨ form.EndsInHead cs := by
  constructor
  · rintro ⟨before, head, isHead, whole⟩
    cases before with
    | nil => exact Or.inl (whole ▸ isHead)
    | cons d before =>
      obtain ⟨-, rfl⟩ := List.cons.inj whole
      exact Or.inr ⟨before, head, isHead, rfl⟩
  · rintro (isHead | ⟨before, head, isHead, rfl⟩)
    · exact ⟨[], c :: cs, isHead, rfl⟩
    · exact ⟨c :: before, head, isHead, rfl⟩

/-- The characters of a tail are no quotes, and no clause begins at one of them. -/
theorem ClauseForm.Tail.mem {form : ClauseForm} {closing : List Char} (tail : form.Tail closing) :
    ∀ c ∈ closing, isQuote c = false ∧ c ≠ 'i' ∧ c ≠ 'e' := by
  cases form with
  | static =>
    obtain rfl : closing = [] := tail
    simp
  | dynamic =>
    obtain ⟨blanks, blank, rfl⟩ := tail
    intro c mem
    rcases List.mem_append.mp mem with mem | mem
    · have isB := blank c mem
      refine ⟨blank.quoteFree c mem, ?_, ?_⟩
      · rintro rfl
        exact absurd isB (by decide)
      · rintro rfl
        exact absurd isB (by decide)
    · obtain rfl := List.mem_singleton.mp mem
      decide

/-- A tail at the beginning of a text ends before the first quote. -/
theorem ClauseForm.beginsWithTail_append_iff {form : ClauseForm} {stretch rest : List Char}
    (atQuote : AtQuote rest) :
    form.BeginsWithTail (stretch ++ rest) ↔ form.BeginsWithTail stretch := by
  constructor
  · rintro ⟨closing, behind, tail, whole⟩
    have quoteFree : QuoteFree closing := fun c mem => (tail.mem c mem).1
    obtain ⟨run, inside, -⟩ := exists_append_of_quoteFree quoteFree atQuote whole
    exact ⟨closing, run, tail, inside⟩
  · rintro ⟨closing, behind, tail, rfl⟩
    exact ⟨closing, behind ++ rest, tail, by simp⟩

/-- The test for a head. -/
def ClauseForm.isHead : ClauseForm → List Char → Bool
  | .static, cs =>
    ImportClause.keywords.any fun keyword => (dropWord? keyword cs).any ImportClause.endsInFrom
  | .dynamic, cs =>
    match (dropWord? "import".toList cs).map trimLeft with
    | some ('(' :: inner) => inner.all isBlank
    | _ => false

theorem ClauseForm.isHead_iff {form : ClauseForm} {cs : List Char} :
    form.isHead cs = true ↔ form.Head cs := by
  cases form with
  | static =>
    simp only [isHead, head_static_iff, List.any_eq_true, Option.any_eq_true,
      dropWord?_eq_some_iff]
    exact exists_congr fun keyword => and_congr_right fun _ => exists_congr fun run => and_comm
  | dynamic =>
    simp only [isHead]
    constructor
    · intro isHead
      split at isHead
      · rename_i inner found
        obtain ⟨rest, dropped, trimmed⟩ := Option.map_eq_some_iff.mp found
        obtain ⟨outer, outerBlank, -, rfl⟩ := trimLeft_eq_cons_iff.mp trimmed
        rw [dropWord?_eq_some_iff.mp dropped]
        exact ⟨outer, inner, outerBlank, List.all_eq_true.mp isHead, by simp⟩
      · cases isHead
    · rintro ⟨outer, inner, outerBlank, innerBlank, rfl⟩
      have dropped : dropWord? "import".toList ("import".toList ++ outer ++ ['('] ++ inner) =
          some (outer ++ '(' :: inner) := dropWord?_eq_some_iff.mpr (by simp)
      have trimmed : trimLeft (outer ++ '(' :: inner) = '(' :: inner :=
        trimLeft_eq_cons_iff.mpr ⟨outer, outerBlank, by decide, rfl⟩
      simp only [dropped, Option.map_some, trimmed]
      exact List.all_eq_true.mpr innerBlank

instance (form : ClauseForm) : DecidablePred form.Head := fun _ =>
  decidable_of_iff _ ClauseForm.isHead_iff

instance decidableEndsInHead (form : ClauseForm) : DecidablePred form.EndsInHead
  | [] => isFalse form.not_endsInHead_nil
  | _ :: cs =>
    have := decidableEndsInHead form cs
    decidable_of_iff _ ClauseForm.endsInHead_cons_iff.symm

theorem ClauseForm.beginsWithTail_static (cs : List Char) : ClauseForm.static.BeginsWithTail cs :=
  ⟨[], cs, rfl, rfl⟩

theorem ClauseForm.beginsWithTail_dynamic_iff {cs : List Char} :
    ClauseForm.dynamic.BeginsWithTail cs ↔ (trimLeft cs).head? = some ')' := by
  rw [List.head?_eq_some_iff]
  constructor
  · rintro ⟨closing, behind, ⟨blanks, blank, rfl⟩, rfl⟩
    exact ⟨behind, trimLeft_eq_cons_iff.mpr ⟨blanks, blank, by decide, by simp⟩⟩
  · rintro ⟨behind, trimmed⟩
    obtain ⟨blanks, blank, -, rfl⟩ := trimLeft_eq_cons_iff.mp trimmed
    exact ⟨blanks ++ [')'], behind, ⟨blanks, blank, rfl⟩, by simp⟩

instance (form : ClauseForm) : DecidablePred form.BeginsWithTail := fun cs =>
  match form with
  | .static => isTrue (ClauseForm.beginsWithTail_static cs)
  | .dynamic => decidable_of_iff _ ClauseForm.beginsWithTail_dynamic_iff.symm

theorem headless_iff {cs : List Char} :
    Headless cs ↔ ¬ ClauseForm.static.EndsInHead cs ∧ ¬ ClauseForm.dynamic.EndsInHead cs := by
  constructor
  · intro headless
    exact ⟨headless .static, headless .dynamic⟩
  · rintro ⟨static, dynamic⟩ form
    cases form with
    | static => exact static
    | dynamic => exact dynamic

instance : DecidablePred Headless := fun _ =>
  decidable_of_iff _ headless_iff.symm

/-! ### Slots -/

namespace QuoteCut

/-- A segment by its number: the one in front of the first quote is number `0`. -/
def segment? (cut : QuoteCut) : Nat → Option (List Char)
  | 0 => some cut.start
  | i + 1 => cut.pieces[i]?.map Prod.snd

end QuoteCut

/-- The segment behind quote `i` is the slot of a clause: it stands between two quotes of one
kind, behind a head and in front of a tail. -/
def ClauseForm.IsSlot (form : ClauseForm) (cut : QuoteCut) (i : Nat) : Prop :=
  ∃ before quote content after,
    cut.segment? i = some before ∧ cut.pieces[i]? = some (quote, content) ∧
      cut.pieces[i + 1]? = some (quote, after) ∧
      form.EndsInHead before ∧ form.BeginsWithTail after

/-- A slot, by what is before its first quote and by what is behind it. -/
theorem ClauseForm.isSlot_iff {form : ClauseForm} {cut : QuoteCut} {i : Nat} :
    form.IsSlot cut i ↔
      (∃ before ∈ cut.segment? i, form.EndsInHead before) ∧
        ∃ opened ∈ cut.pieces[i]?, ∃ closed ∈ cut.pieces[i + 1]?,
          opened.1 = closed.1 ∧ form.BeginsWithTail closed.2 := by
  constructor
  · rintro ⟨before, quote, content, after, segment, opened, closed, head, tail⟩
    exact ⟨⟨before, segment, head⟩, _, opened, _, closed, rfl, tail⟩
  · rintro ⟨⟨before, segment, head⟩, ⟨quote, content⟩, opened, ⟨_, after⟩, closed, rfl, tail⟩
    exact ⟨before, quote, content, after, segment, opened, closed, head, tail⟩

instance (form : ClauseForm) (cut : QuoteCut) : DecidablePred (form.IsSlot cut) := fun _ =>
  decidable_of_iff _ ClauseForm.isSlot_iff.symm

namespace QuoteCut

/-- The segment behind quote `i` is the slot of a static or a dynamic clause. -/
def IsImportSlot (cut : QuoteCut) (i : Nat) : Prop :=
  ClauseForm.static.IsSlot cut i ∨ ClauseForm.dynamic.IsSlot cut i

instance (cut : QuoteCut) : DecidablePred cut.IsImportSlot := fun i =>
  inferInstanceAs (Decidable (ClauseForm.static.IsSlot cut i ∨ ClauseForm.dynamic.IsSlot cut i))

/-- A specifier is imported when it is the content of an import slot. -/
def Imports (cut : QuoteCut) (content : List Char) : Prop :=
  ∃ i quote, cut.IsImportSlot i ∧ cut.pieces[i]? = some (quote, content)

/-- The cut whose segment behind each quote is a function of that quote's number and of the
segment. -/
def mapPieces (f : Nat → List Char → List Char) (cut : QuoteCut) : QuoteCut :=
  ⟨cut.start, cut.pieces.mapIdx fun i piece => (piece.1, f i piece.2)⟩

/-- The cut in which the content of every import slot is a function of its content, and every
other segment is as before. -/
def swapSlots (f : List Char → List Char) (cut : QuoteCut) : QuoteCut :=
  cut.mapPieces fun i content => if cut.IsImportSlot i then f content else content

end QuoteCut

end EsmBundle
