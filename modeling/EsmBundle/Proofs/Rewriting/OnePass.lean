import EsmBundle.Proofs.Rewriting.ImportSlot
import EsmBundle.Proofs.Text.Scan

/-!
One pass over a text: the substitution of one specifier in the clauses of one form.

The pass searches for clauses from left to right and never looks back into a clause it
has found. For a specifier without quotes that ends in no head this does not matter: no
clause is lost to an overlap, and the pass changes exactly the slots that hold it.

* `ClauseForm.substitute_of_slot`, `ClauseForm.substitute_of_no_slot` — one step of the
  pass, from one quote of the text to the next.
* `ClauseForm.substitute_text` — the pass over a cut text changes the slots of its form
  that hold the specifier, and nothing else.
-/

namespace EsmBundle

namespace ClauseForm

variable {form : ClauseForm} {bare resolved : List Char}

/-! ### From quote to quote -/

/-- The pass is a replacement of finds. -/
theorem substitute_eq (form : ClauseForm) (bare resolved cs : List Char) :
    form.substitute bare resolved cs =
      (replaceFinds (form.find? bare) (ImportClause.width bare)
          (fun clause => clause.head.length) (fun _ => bare.length) resolved cs,
        !(scan (form.find? bare) (ImportClause.width bare) 0 0 cs).isEmpty) :=
  rfl

theorem substitute_of_none {c : Char} {rest : List Char}
    (none : form.find? bare (c :: rest) = none) :
    form.substitute bare resolved (c :: rest) =
      (c :: (form.substitute bare resolved rest).1, (form.substitute bare resolved rest).2) := by
  simp only [substitute_eq, replaceFinds_of_none none, isEmpty_scan_of_none none]

/-- Characters at which no keyword begins are kept. -/
theorem substitute_append_of_plain {cs : List Char} (rest : List Char)
    (plain : ∀ c ∈ cs, c ≠ 'i' ∧ c ≠ 'e') :
    form.substitute bare resolved (cs ++ rest) =
      (cs ++ (form.substitute bare resolved rest).1, (form.substitute bare resolved rest).2) := by
  induction cs with
  | nil => rfl
  | cons c cs ih =>
    obtain ⟨⟨notI, notE⟩, others⟩ := List.forall_mem_cons.mp plain
    rw [List.cons_append, substitute_of_none (find?_cons_eq_none notI notE), ih others]
    rfl

theorem substitute_quote {quote : Char} (isQ : isQuote quote = true) (rest : List Char) :
    form.substitute bare resolved (quote :: rest) =
      (quote :: (form.substitute bare resolved rest).1,
        (form.substitute bare resolved rest).2) := by
  have plain : ∀ c ∈ [quote], c ≠ 'i' ∧ c ≠ 'e' := by
    intro c mem
    obtain rfl := List.mem_singleton.mp mem
    constructor <;> rintro rfl <;> exact absurd isQ (by decide)
  exact substitute_append_of_plain rest plain

/-- A clause at the front of the text takes its specifier, and the pass goes on behind it. -/
theorem substitute_of_clause {stretch closing behind : List Char} {quote : Char}
    (isQ : isQuote quote = true) (quoteFree : QuoteFree stretch) (head : form.Head stretch)
    (tail : form.Tail closing) :
    form.substitute bare resolved
        (stretch ++ quote :: (bare ++ quote :: (closing ++ behind))) =
      (stretch ++ quote :: (resolved ++ quote ::
        (form.substitute bare resolved (closing ++ behind)).1), true) := by
  have atQuote : AtQuote (quote :: (bare ++ quote :: (closing ++ behind))) := by
    simpa [AtQuote] using isQ
  have here := (find?_append_eq_some_iff quoteFree atQuote).mpr
    ⟨quote, closing, behind, head, tail, rfl, rfl⟩
  have whole : stretch ++ quote :: (bare ++ quote :: (closing ++ behind)) =
      (stretch ++ [quote]) ++ (bare ++ (quote :: closing ++ behind)) := by
    simp
  have found : (scan (form.find? bare) (ImportClause.width bare) 0 0
      (stretch ++ quote :: (bare ++ quote :: (closing ++ behind)))).isEmpty = false := by
    obtain ⟨c, rest, same⟩ : ∃ c rest,
        stretch ++ quote :: (bare ++ quote :: (closing ++ behind)) = c :: rest :=
      List.exists_cons_of_ne_nil (by simp)
    rw [same] at here ⊢
    exact isEmpty_scan_of_some here
  have kept : form.substitute bare resolved (closing ++ behind) =
      (closing ++ (form.substitute bare resolved behind).1,
        (form.substitute bare resolved behind).2) :=
    substitute_append_of_plain behind fun c mem => (tail.mem c mem).2
  rw [substitute_eq, found, kept, whole]
  rw [whole] at here
  rw [replaceFinds_of_some here (by simp [ImportClause.width]) rfl rfl (by simp)]
  simp [substitute_eq]

/-- Where the stretch ends in a head and the quoted specifier and a tail follow, the pass changes
the specifier and nothing up to there. -/
theorem substitute_of_slot {stretch after : List Char} {quote : Char}
    (isQ : isQuote quote = true) (quoteFree : QuoteFree stretch) (head : form.EndsInHead stretch)
    (tail : form.BeginsWithTail after) :
    form.substitute bare resolved (stretch ++ quote :: (bare ++ quote :: after)) =
      (stretch ++ quote :: (resolved ++ quote :: (form.substitute bare resolved after).1),
        true) := by
  obtain ⟨closing, behind, isTail, rfl⟩ := tail
  -- The first head in the stretch is where the search stops.
  induction stretch with
  | nil => exact absurd head form.not_endsInHead_nil
  | cons c stretch ih =>
    obtain ⟨visible, others⟩ := List.forall_mem_cons.mp quoteFree
    rcases endsInHead_cons_iff.mp head with isHead | later
    · exact substitute_of_clause isQ quoteFree isHead isTail
    · cases here : form.find? bare
          (c :: (stretch ++ quote :: (bare ++ quote :: (closing ++ behind)))) with
      | none =>
        rw [List.cons_append, substitute_of_none here, ih others later]
        rfl
      | some clause =>
        have atQuote : AtQuote (quote :: (bare ++ quote :: (closing ++ behind))) := by
          simpa [AtQuote] using isQ
        obtain ⟨-, -, -, isHead, -⟩ := (find?_append_eq_some_iff quoteFree atQuote).mp here
        exact substitute_of_clause isQ quoteFree isHead isTail

/-- Where the stretch ends in no head, or something else follows, the pass changes nothing in it. -/
theorem substitute_of_no_slot {stretch rest : List Char} (quoteFree : QuoteFree stretch)
    (atQuote : AtQuote rest)
    (noSlot : form.EndsInHead stretch → ∀ quote after,
      rest = quote :: (bare ++ quote :: after) → ¬ form.BeginsWithTail after) :
    form.substitute bare resolved (stretch ++ rest) =
      (stretch ++ (form.substitute bare resolved rest).1,
        (form.substitute bare resolved rest).2) := by
  induction stretch with
  | nil => rfl
  | cons c stretch ih =>
    obtain ⟨visible, others⟩ := List.forall_mem_cons.mp quoteFree
    have here : form.find? bare (c :: (stretch ++ rest)) = none := by
      cases found : form.find? bare (c :: (stretch ++ rest)) with
      | none => rfl
      | some clause =>
        obtain ⟨quote, closing, behind, isHead, isTail, follows, -⟩ :=
          (find?_append_eq_some_iff quoteFree atQuote).mp found
        exact absurd ⟨closing, behind, isTail, rfl⟩
          (noSlot ⟨[], c :: stretch, isHead, rfl⟩ quote _ follows)
    have later := ih others fun head => noSlot (endsInHead_cons_iff.mpr (Or.inr head))
    rw [List.cons_append, substitute_of_none here, later]
    rfl

/-! ### The whole text -/

/-- The first quote opens a slot when the segment before it ends in a head, another one of its
kind follows, and the segment behind that begins with a tail. -/
theorem isSlot_zero_iff {start : List Char} {pieces : List (Char × List Char)} :
    form.IsSlot ⟨start, pieces⟩ 0 ↔
      form.EndsInHead start ∧ ∃ quote content after rest,
        pieces = (quote, content) :: (quote, after) :: rest ∧ form.BeginsWithTail after := by
  constructor
  · rintro ⟨before, quote, content, after, same, opened, closed, head, tail⟩
    obtain rfl : start = before := by simpa [QuoteCut.segment?] using same
    match pieces, opened, closed with
    | first :: second :: rest, opened, closed =>
      obtain rfl : first = (quote, content) := by simpa using opened
      obtain rfl : second = (quote, after) := by simpa using closed
      exact ⟨head, quote, content, after, rest, rfl, tail⟩
  · rintro ⟨head, quote, content, after, rest, rfl, tail⟩
    exact ⟨start, quote, content, after, rfl, rfl, rfl, head, tail⟩

/-- Without its first segment a cut has the same slots, one number lower. -/
theorem isSlot_succ_iff {start content : List Char} {quote : Char}
    {pieces : List (Char × List Char)} {i : Nat} :
    form.IsSlot ⟨start, (quote, content) :: pieces⟩ (i + 1) ↔ form.IsSlot ⟨content, pieces⟩ i := by
  have segment : QuoteCut.segment? ⟨start, (quote, content) :: pieces⟩ (i + 1) =
      QuoteCut.segment? ⟨content, pieces⟩ i := by
    cases i <;> rfl
  simp only [IsSlot, segment, List.getElem?_cons_succ]

/-- The first slot, read off the text: a head before the quote, and behind it the specifier, another
quote of its kind and a tail. -/
theorem isSlot_zero_and_eq_iff {start content : List Char} {quote : Char}
    {pieces : List (Char × List Char)} (bareFree : QuoteFree bare)
    (proper : QuoteCut.Proper ⟨start, (quote, content) :: pieces⟩) :
    form.IsSlot ⟨start, (quote, content) :: pieces⟩ 0 ∧ content = bare ↔
      form.EndsInHead start ∧ ∃ after,
        QuoteCut.text ⟨content, pieces⟩ = bare ++ quote :: after ∧ form.BeginsWithTail after := by
  obtain ⟨⟨isQ, contentFree⟩, others⟩ := List.forall_mem_cons.mp proper.pieces
  rw [isSlot_zero_iff]
  constructor
  · rintro ⟨⟨head, _, _, after, rest, same, tail⟩, rfl⟩
    obtain ⟨⟨rfl, rfl⟩, rfl⟩ : (quote = _ ∧ content = _) ∧ pieces = _ := by simpa using same
    have atQuote := QuoteCut.atQuote_flatMap (List.forall_mem_cons.mp others).2
    exact ⟨head, _, rfl, (beginsWithTail_append_iff atQuote).mpr tail⟩
  · rintro ⟨head, behind, whole, tail⟩
    obtain ⟨rfl, follows⟩ := quoteFree_append_inj contentFree bareFree isQ
      (QuoteCut.atQuote_flatMap others) whole
    match pieces, others, follows with
    | (_, after) :: rest, others, follows =>
      obtain ⟨rfl, rfl⟩ := List.cons.inj follows
      have atQuote := QuoteCut.atQuote_flatMap (List.forall_mem_cons.mp others).2
      exact ⟨⟨head, _, _, after, rest, rfl, (beginsWithTail_append_iff atQuote).mp tail⟩, rfl⟩

/-- The cut with the slots of one form that hold `bare` changed to `resolved`. -/
def swapOne (form : ClauseForm) (bare resolved : List Char) (cut : QuoteCut) : QuoteCut :=
  cut.mapPieces fun i content =>
    if form.IsSlot cut i ∧ content = bare then resolved else content

/-- The first segment of a cut is changed by itself, and the others as a cut of their own. -/
theorem swapOne_cons (start content : List Char) (quote : Char)
    (pieces : List (Char × List Char)) :
    swapOne form bare resolved ⟨start, (quote, content) :: pieces⟩ =
      ⟨start, (quote, if form.IsSlot ⟨start, (quote, content) :: pieces⟩ 0 ∧ content = bare
        then resolved else content) ::
          (swapOne form bare resolved ⟨content, pieces⟩).pieces⟩ := by
  simp [swapOne, QuoteCut.mapPieces, List.mapIdx_cons, isSlot_succ_iff]

/-- A specifier is in a slot behind the first quote or in one of the others. -/
theorem exists_slot_cons_iff {start content : List Char} {quote : Char}
    {pieces : List (Char × List Char)} :
    (∃ i quote', form.IsSlot ⟨start, (quote, content) :: pieces⟩ i ∧
        ((quote, content) :: pieces)[i]? = some (quote', bare)) ↔
      (form.IsSlot ⟨start, (quote, content) :: pieces⟩ 0 ∧ content = bare) ∨
        ∃ i quote', form.IsSlot ⟨content, pieces⟩ i ∧ pieces[i]? = some (quote', bare) := by
  constructor
  · rintro ⟨i, quote', slot, holds⟩
    cases i with
    | zero => exact Or.inl ⟨slot, (Prod.mk.inj (Option.some.inj holds)).2⟩
    | succ i => exact Or.inr ⟨i, quote', isSlot_succ_iff.mp slot, holds⟩
  · rintro (⟨slot, rfl⟩ | ⟨i, quote', slot, holds⟩)
    · exact ⟨0, quote, slot, rfl⟩
    · exact ⟨i + 1, quote', isSlot_succ_iff.mpr slot, holds⟩

/-- **One pass over a cut text** changes the slots of its form that hold the specifier, and says
whether there was one. -/
theorem substitute_text (resolved : List Char) (bareFree : QuoteFree bare)
    (headless : ¬ form.EndsInHead bare) {cut : QuoteCut} (proper : cut.Proper) :
    (form.substitute bare resolved cut.text).1 = (swapOne form bare resolved cut).text ∧
      ((form.substitute bare resolved cut.text).2 = true ↔
        ∃ i quote, form.IsSlot cut i ∧ cut.pieces[i]? = some (quote, bare)) := by
  obtain ⟨start, pieces⟩ := cut
  induction pieces generalizing start with
  | nil =>
    have kept : form.substitute bare resolved (start ++ []) = (start ++ [], false) :=
      substitute_of_no_slot proper.start (by simp [AtQuote]) (by simp)
    rw [List.append_nil] at kept
    simp [QuoteCut.text, swapOne, QuoteCut.mapPieces, kept]
  | cons piece pieces ih =>
    obtain ⟨quote, content⟩ := piece
    obtain ⟨⟨isQ, contentFree⟩, others⟩ := List.forall_mem_cons.mp proper.pieces
    have first : form.IsSlot ⟨start, (quote, content) :: pieces⟩ 0 ∧ content = bare ↔ _ :=
      isSlot_zero_and_eq_iff bareFree proper
    obtain ⟨later, met⟩ := ih content ⟨contentFree, others⟩
    have atQuote {cs : List Char} : AtQuote (quote :: cs) := by simpa [AtQuote] using isQ
    have whole : QuoteCut.text ⟨start, (quote, content) :: pieces⟩ =
        start ++ quote :: QuoteCut.text ⟨content, pieces⟩ := rfl
    rw [swapOne_cons, exists_slot_cons_iff, whole]
    by_cases here : form.IsSlot ⟨start, (quote, content) :: pieces⟩ 0 ∧ content = bare
    · obtain ⟨head, after, follows, tail⟩ := first.mp here
      have swapped : form.substitute bare resolved (start ++ quote :: (bare ++ quote :: after)) =
          (start ++ quote :: (resolved ++ quote :: (form.substitute bare resolved after).1),
            true) :=
        substitute_of_slot isQ proper.start head tail
      -- Seen from behind the first quote, the specifier ends in no head and is kept.
      have kept : form.substitute bare resolved (bare ++ quote :: after) =
          (bare ++ quote :: (form.substitute bare resolved after).1,
            (form.substitute bare resolved after).2) := by
        rw [substitute_of_no_slot bareFree atQuote fun ends => absurd ends headless,
          substitute_quote isQ]
      rw [follows, kept] at later
      obtain rfl := here.2
      have behind := List.append_cancel_left later
      rw [follows, swapped, if_pos here, behind]
      exact ⟨by simp [QuoteCut.text], by simp [here.1]⟩
    · have noSlot : form.EndsInHead start → ∀ quote' after,
          quote :: QuoteCut.text ⟨content, pieces⟩ = quote' :: (bare ++ quote' :: after) →
            ¬ form.BeginsWithTail after := by
        intro head quote' after same tail
        obtain ⟨rfl, follows⟩ := List.cons.inj same
        exact here (first.mpr ⟨head, after, follows, tail⟩)
      rw [substitute_of_no_slot proper.start atQuote noSlot, substitute_quote isQ, if_neg here,
        later, met]
      exact ⟨by simp [QuoteCut.text, swapOne, QuoteCut.mapPieces], by simp [here]⟩

end ClauseForm

end EsmBundle
