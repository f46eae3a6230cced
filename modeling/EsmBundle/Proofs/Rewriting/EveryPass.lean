import EsmBundle.Finish
import EsmBundle.Proofs.Rewriting.OnePass

/-!
All passes over a text: the pairs of a map, one after another in the running text.

Every pass sees the text that the passes before it have left. When no specifier of the
map can be taken for a piece of a clause, the slots of that text are still those of the
first one: a pass writes into slots only, and what it writes there opens no slot behind it
and closes none before it. So the whole run is a function on the contents of the slots.

* `QuoteCut.Tame` — the invariant: changes are made in import slots, between contents that
  end in no head.
* `isSlot_mapPieces_iff` — such changes leave the slots where they were.
* `substituteEach_text_mapPieces` — the run changes every import slot to what its content settles
  to, and meets the pairs whose bare specifier a slot holds when their turn comes.
-/

namespace EsmBundle

/-! ### Changes that keep the slots -/

/-- A specifier that cannot be taken for a piece of a clause: it has no quote and ends in no
head. -/
def Plain (specifier : List Char) : Prop :=
  QuoteFree specifier ∧ Headless specifier

instance : DecidablePred Plain := fun specifier =>
  inferInstanceAs (Decidable (QuoteFree specifier ∧ Headless specifier))

namespace QuoteCut

/-- Changes of segments that bring in no quotes, that are made in import slots only, and that begin
and end with a content that ends in no head. -/
structure Tame (cut : QuoteCut) (f : Nat → List Char → List Char) : Prop where
  quoteFree : ∀ i content, QuoteFree content → QuoteFree (f i content)
  slots : ∀ i quote content, cut.pieces[i]? = some (quote, content) → f i content ≠ content →
    cut.IsImportSlot i ∧ Headless content ∧ Headless (f i content)

@[simp]
theorem getElem?_pieces_mapPieces (f : Nat → List Char → List Char) (cut : QuoteCut) (i : Nat) :
    (cut.mapPieces f).pieces[i]? =
      cut.pieces[i]?.map fun piece => (piece.1, f i piece.2) := by
  simp [mapPieces]

@[simp]
theorem mapPieces_self (cut : QuoteCut) : cut.mapPieces (fun _ content => content) = cut := by
  have pieces : cut.pieces.mapIdx (fun _ piece => (piece.1, piece.2)) = cut.pieces :=
    List.mapIdx_eq_iff.mpr fun i => by simp
  rw [mapPieces, pieces]

theorem mapPieces_mapPieces (f g : Nat → List Char → List Char) (cut : QuoteCut) :
    (cut.mapPieces f).mapPieces g = cut.mapPieces fun i content => g i (f i content) := by
  simp [mapPieces, Function.comp_def]

/-- Only what a function does to the pieces of the cut matters. -/
theorem mapPieces_congr {cut : QuoteCut} {f g : Nat → List Char → List Char}
    (same : ∀ i quote content, cut.pieces[i]? = some (quote, content) → f i content = g i content) :
    cut.mapPieces f = cut.mapPieces g := by
  have pieces : (cut.mapPieces f).pieces = (cut.mapPieces g).pieces := by
    refine List.ext_getElem? ?_
    intro i
    rw [getElem?_pieces_mapPieces, getElem?_pieces_mapPieces]
    cases holds : cut.pieces[i]? with
    | none => rfl
    | some piece => simp [same i piece.1 piece.2 holds]
  simp only [mapPieces] at pieces ⊢
  rw [pieces]

/-- The segment before a quote, if a slot is opened by it. -/
theorem IsImportSlot.exists_endsInHead {cut : QuoteCut} {i : Nat} (slot : cut.IsImportSlot i) :
    ∃ form : ClauseForm, ∃ before, cut.segment? i = some before ∧ form.EndsInHead before := by
  rcases slot with static | dynamic
  · obtain ⟨before, _, _, _, segment, -, -, head, -⟩ := static
    exact ⟨.static, before, segment, head⟩
  · obtain ⟨before, _, _, _, segment, -, -, head, -⟩ := dynamic
    exact ⟨.dynamic, before, segment, head⟩

variable {cut : QuoteCut} {f : Nat → List Char → List Char}

/-- Behind a segment that ends in no head nothing is changed. -/
theorem Tame.apply_succ (tame : cut.Tame f) {i : Nat} {quote closing : Char}
    {content after : List Char} (holds : cut.pieces[i]? = some (quote, content))
    (follows : cut.pieces[i + 1]? = some (closing, after)) (headless : Headless content) :
    f (i + 1) after = after := by
  cases Decidable.em (f (i + 1) after = after) with
  | inl same => exact same
  | inr changed =>
    obtain ⟨slot, -, -⟩ := tame.slots (i + 1) closing after follows changed
    obtain ⟨form, before, segment, head⟩ := slot.exists_endsInHead
    rw [segment?, holds] at segment
    obtain rfl := Option.some.inj segment
    exact absurd head (headless form)

/-- A changed segment ends in a head when it did before. -/
theorem Tame.endsInHead_iff (tame : cut.Tame f) {i : Nat} {quote : Char} {content : List Char}
    (holds : cut.pieces[i]? = some (quote, content)) (form : ClauseForm) :
    form.EndsInHead (f i content) ↔ form.EndsInHead content := by
  cases Decidable.em (f i content = content) with
  | inl same => rw [same]
  | inr changed =>
    obtain ⟨-, before, after⟩ := tame.slots i quote content holds changed
    exact iff_of_false (after form) (before form)

/-- What ends in no head after a tame change did not before. -/
theorem Tame.headless_of_apply (tame : cut.Tame f) {i : Nat} {quote : Char}
    {content : List Char} (holds : cut.pieces[i]? = some (quote, content))
    (headless : Headless (f i content)) : Headless content :=
  fun form head => headless form ((tame.endsInHead_iff holds form).mpr head)

/-- **Tame changes keep the slots** of all contents that end in no head. -/
theorem Tame.isSlot_mapPieces_iff (tame : cut.Tame f) {form : ClauseForm} {i : Nat}
    {quote : Char} {content : List Char} (holds : cut.pieces[i]? = some (quote, content))
    (headless : Headless content) : form.IsSlot (cut.mapPieces f) i ↔ form.IsSlot cut i := by
  have before : (∃ before ∈ (cut.mapPieces f).segment? i, form.EndsInHead before) ↔
      ∃ before ∈ cut.segment? i, form.EndsInHead before := by
    cases i with
    | zero => rfl
    | succ i =>
      cases segment : cut.pieces[i]? with
      | none => simp [segment?, segment]
      | some piece => simpa [segment?, segment] using tame.endsInHead_iff segment form
  have behind : (∃ opened ∈ (cut.mapPieces f).pieces[i]?,
        ∃ closed ∈ (cut.mapPieces f).pieces[i + 1]?,
          opened.1 = closed.1 ∧ form.BeginsWithTail closed.2) ↔
      ∃ opened ∈ cut.pieces[i]?, ∃ closed ∈ cut.pieces[i + 1]?,
        opened.1 = closed.1 ∧ form.BeginsWithTail closed.2 := by
    cases follows : cut.pieces[i + 1]? with
    | none => simp [follows]
    | some closed => simp [holds, follows, tame.apply_succ holds follows headless]
  rw [ClauseForm.isSlot_iff, ClauseForm.isSlot_iff, before, behind]

/-- Changing one more content in some of the import slots is tame. -/
theorem Tame.swap (tame : cut.Tame f) (P : Nat → Prop) [DecidablePred P]
    (slots : ∀ i, P i → cut.IsImportSlot i) {bare resolved : List Char}
    (plain : Plain bare) (plain' : Plain resolved) :
    cut.Tame fun i content => if P i ∧ f i content = bare then resolved else f i content where
  quoteFree i content quoteFree := by
    split
    · exact plain'.1
    · exact tame.quoteFree i content quoteFree
  slots i quote content holds changed := by
    split at changed
    · rename_i here
      rw [if_pos here]
      exact ⟨slots i here.1, tame.headless_of_apply holds (here.2 ▸ plain.2), plain'.2⟩
    · rename_i other
      rw [if_neg other]
      exact tame.slots i quote content holds changed

/-- Tame changes leave a cut at its quotes, and at nothing else. -/
theorem Tame.proper (tame : cut.Tame f) (proper : cut.Proper) : (cut.mapPieces f).Proper := by
  refine ⟨proper.start, ?_⟩
  intro piece mem
  obtain ⟨i, bound, rfl⟩ := List.mem_iff_getElem.mp mem
  simp only [mapPieces, List.length_mapIdx] at bound
  obtain ⟨isQ, content⟩ := proper.pieces cut.pieces[i] (List.getElem_mem bound)
  simpa [mapPieces] using ⟨isQ, tame.quoteFree i _ content⟩

end QuoteCut

/-! ### One pair -/

section OnePair

variable {cut : QuoteCut} {f : Nat → List Char → List Char} {bare : List Char}

open QuoteCut

/-- One pass over a tamely changed text changes the slots of the form that hold the specifier by
now, wherever they were in the first text. -/
theorem substitute_text_mapPieces (form : ClauseForm) (tame : cut.Tame f) (proper : cut.Proper)
    (plain : Plain bare) (resolved : List Char) :
    (form.substitute bare resolved (cut.mapPieces f).text).1 =
        (cut.mapPieces fun i content =>
          if form.IsSlot cut i ∧ f i content = bare then resolved else f i content).text ∧
      ((form.substitute bare resolved (cut.mapPieces f).text).2 = true ↔
        ∃ i quote content, form.IsSlot cut i ∧ cut.pieces[i]? = some (quote, content) ∧
          f i content = bare) := by
  have same {i : Nat} {quote : Char} {content : List Char}
      (holds : cut.pieces[i]? = some (quote, content)) (now : f i content = bare) :
      form.IsSlot (cut.mapPieces f) i ↔ form.IsSlot cut i := by
    exact tame.isSlot_mapPieces_iff holds (tame.headless_of_apply holds (now ▸ plain.2))
  obtain ⟨changed, met⟩ := ClauseForm.substitute_text resolved plain.1 (plain.2 form)
    (tame.proper proper)
  constructor
  · rw [changed, ClauseForm.swapOne, mapPieces_mapPieces]
    refine congrArg QuoteCut.text (mapPieces_congr ?_)
    intro i quote content holds
    cases Decidable.em (f i content = bare) with
    | inl now => simp only [same holds now]
    | inr other => simp only [other, and_false]
  · rw [met]
    constructor
    · rintro ⟨i, quote, slot, holds⟩
      rw [getElem?_pieces_mapPieces, Option.map_eq_some_iff] at holds
      obtain ⟨⟨opening, content⟩, holds, changed⟩ := holds
      have now : f i content = bare := (Prod.mk.inj changed).2
      exact ⟨i, opening, content, (same holds now).mp slot, holds, now⟩
    · rintro ⟨i, quote, content, slot, holds, now⟩
      refine ⟨i, quote, (same holds now).mpr slot, ?_⟩
      rw [getElem?_pieces_mapPieces, holds, Option.map_some, now]

/-- Both passes of a pair over a tamely changed text change every import slot that holds the bare
specifier by now. -/
theorem substituteSpecifier_text_mapPieces {bare resolved : String} (tame : cut.Tame f)
    (proper : cut.Proper) (plain : Plain bare.toList) (plain' : Plain resolved.toList) :
    (substituteSpecifier bare resolved (cut.mapPieces f).text).1 =
        (cut.mapPieces fun i content =>
          if cut.IsImportSlot i ∧ f i content = bare.toList then resolved.toList
          else f i content).text ∧
      ((substituteSpecifier bare resolved (cut.mapPieces f).text).2 = true ↔
        ∃ i quote content, cut.IsImportSlot i ∧ cut.pieces[i]? = some (quote, content) ∧
          f i content = bare.toList) := by
  obtain ⟨staticText, staticMet⟩ :=
    substitute_text_mapPieces .static tame proper plain resolved.toList
  have tame' := tame.swap (ClauseForm.static.IsSlot cut) (fun _ => Or.inl) plain plain'
  obtain ⟨dynamicText, dynamicMet⟩ :=
    substitute_text_mapPieces .dynamic tame' proper plain resolved.toList
  rw [← staticText] at dynamicText dynamicMet
  constructor
  · refine dynamicText.trans (congrArg QuoteCut.text (mapPieces_congr ?_))
    intro i _ content _
    -- What the first pass has written is written again at most.
    by_cases static : ClauseForm.static.IsSlot cut i <;>
      by_cases now : f i content = bare.toList <;>
      simp [IsImportSlot, static, now]
  · have either : (substituteSpecifier bare resolved (cut.mapPieces f).text).2 = true ↔ _ :=
      Bool.or_eq_true_iff.trans (or_congr staticMet dynamicMet)
    rw [either]
    constructor
    · rintro (⟨i, quote, content, slot, holds, now⟩ | ⟨i, quote, content, slot, holds, now⟩)
      · exact ⟨i, quote, content, Or.inl slot, holds, now⟩
      · refine ⟨i, quote, content, Or.inr slot, holds, ?_⟩
        split at now
        · rename_i before
          exact before.2
        · exact now
    · rintro ⟨i, quote, content, slot, holds, now⟩
      by_cases static : ClauseForm.static.IsSlot cut i
      · exact Or.inl ⟨i, quote, content, static, holds, now⟩
      · refine Or.inr ⟨i, quote, content, slot.resolve_left static, holds, ?_⟩
        simp [static, now]

end OnePair

/-! ### All pairs -/

/-- What a specifier becomes when the pairs are applied to it one after another. -/
def settle : List (String × String) → List Char → List Char
  | [], content => content
  | (bare, resolved) :: rest, content =>
    settle rest (if content = bare.toList then resolved.toList else content)

/-- A pair is met in its own passes, or a later one in the text they leave. -/
theorem mem_substituteEach_cons_iff {bare resolved key : String} {rest : List (String × String)}
    {cs : List Char} :
    key ∈ (substituteEach ((bare, resolved) :: rest) cs).2 ↔
      (key = bare ∧ (substituteSpecifier bare resolved cs).2 = true) ∨
        key ∈ (substituteEach rest (substituteSpecifier bare resolved cs).1).2 := by
  simp only [substituteEach]
  split <;> simp_all

/-- **The run over a tamely changed text** settles the content of every import slot, and
meets the pairs whose bare specifier a slot holds when their turn comes. -/
theorem substituteEach_text_mapPieces {cut : QuoteCut} {f : Nat → List Char → List Char}
    (tame : cut.Tame f) (proper : cut.Proper) {entries : List (String × String)}
    (plain : ∀ entry ∈ entries, Plain entry.1.toList ∧ Plain entry.2.toList) :
    (substituteEach entries (cut.mapPieces f).text).1 =
        (cut.mapPieces fun i content =>
          if cut.IsImportSlot i then settle entries (f i content) else f i content).text ∧
      ∀ bare, bare ∈ (substituteEach entries (cut.mapPieces f).text).2 ↔
        ∃ before resolved after, entries = before ++ (bare, resolved) :: after ∧
          ∃ i quote content, cut.IsImportSlot i ∧ cut.pieces[i]? = some (quote, content) ∧
            settle before (f i content) = bare.toList := by
  induction entries generalizing f with
  | nil => simp [substituteEach, settle]
  | cons entry rest ih =>
    obtain ⟨bare, resolved⟩ := entry
    obtain ⟨⟨plainBare, plainResolved⟩, others⟩ := List.forall_mem_cons.mp plain
    obtain ⟨text, met⟩ := substituteSpecifier_text_mapPieces tame proper plainBare plainResolved
    obtain ⟨laterText, laterMet⟩ :=
      ih (tame.swap cut.IsImportSlot (fun _ => id) plainBare plainResolved) others
    constructor
    · simp only [substituteEach, text]
      refine laterText.trans (congrArg QuoteCut.text (QuoteCut.mapPieces_congr ?_))
      intro i _ content _
      by_cases slot : cut.IsImportSlot i
      · simp [slot, settle]
      · simp [slot]
    · intro key
      rw [mem_substituteEach_cons_iff, text, met, laterMet]
      constructor
      · rintro (⟨rfl, i, quote, content, slot, holds, now⟩ |
          ⟨before, resolved', after, rfl, i, quote, content, slot, holds, now⟩)
        · exact ⟨[], resolved, rest, rfl, i, quote, content, slot, holds, now⟩
        · refine ⟨(bare, resolved) :: before, resolved', after, rfl, i, quote, content, slot,
            holds, ?_⟩
          simpa [settle, slot] using now
      · rintro ⟨before, resolved', after, split, i, quote, content, slot, holds, now⟩
        cases before with
        | nil =>
          obtain ⟨same, rfl⟩ := List.cons.inj split
          obtain ⟨rfl, rfl⟩ := Prod.mk.inj same
          exact Or.inl ⟨rfl, i, quote, content, slot, holds, now⟩
        | cons first before =>
          obtain ⟨rfl, rfl⟩ := List.cons.inj split
          refine Or.inr ⟨before, resolved', after, rfl, i, quote, content, slot, holds, ?_⟩
          simpa [settle, slot] using now

/-- Settling changes plain contents only, and into plain ones. -/
theorem plain_of_settle_ne {entries : List (String × String)} {content : List Char}
    (plain : ∀ entry ∈ entries, Plain entry.1.toList ∧ Plain entry.2.toList)
    (changed : settle entries content ≠ content) :
    Plain content ∧ Plain (settle entries content) := by
  induction entries generalizing content with
  | nil => exact absurd rfl changed
  | cons entry rest ih =>
    obtain ⟨⟨plainBare, plainResolved⟩, others⟩ := List.forall_mem_cons.mp plain
    rw [settle] at changed ⊢
    by_cases here : content = entry.1.toList
    · rw [if_pos here] at changed ⊢
      subst here
      refine ⟨plainBare, ?_⟩
      cases Decidable.em (settle rest entry.2.toList = entry.2.toList) with
      | inl kept =>
        rw [kept]
        exact plainResolved
      | inr again => exact (ih others again).2
    · rw [if_neg here] at changed ⊢
      exact ih others changed

namespace QuoteCut

/-- Settling the contents of the import slots is a tame change. -/
theorem tame_settle (cut : QuoteCut) {entries : List (String × String)}
    (plain : ∀ entry ∈ entries, Plain entry.1.toList ∧ Plain entry.2.toList) :
    cut.Tame fun i content => if cut.IsImportSlot i then settle entries content else content where
  quoteFree i content quoteFree := by
    split
    · cases Decidable.em (settle entries content = content) with
      | inl kept => exact kept.symm ▸ quoteFree
      | inr changed => exact (plain_of_settle_ne plain changed).2.1
    · exact quoteFree
  slots i quote content _ changed := by
    split at changed
    · rename_i slot
      obtain ⟨before, after⟩ := plain_of_settle_ne plain changed
      rw [if_pos slot]
      exact ⟨slot, before.2, after.2⟩
    · exact absurd rfl changed

end QuoteCut

/-- **The run over a text** settles the content of every import slot, and meets the pairs whose
bare specifier a slot holds when their turn comes. -/
theorem substituteEach_ofText {entries : List (String × String)}
    (plain : ∀ entry ∈ entries, Plain entry.1.toList ∧ Plain entry.2.toList) (cs : List Char) :
    (substituteEach entries cs).1 = ((QuoteCut.ofText cs).swapSlots (settle entries)).text ∧
      ∀ bare, bare ∈ (substituteEach entries cs).2 ↔
        ∃ before resolved after, entries = before ++ (bare, resolved) :: after ∧
          ∃ content, (QuoteCut.ofText cs).Imports content ∧
            settle before content = bare.toList := by
  have tame : (QuoteCut.ofText cs).Tame fun _ content => content :=
    ⟨fun _ _ quoteFree => quoteFree, fun _ _ _ _ changed => absurd rfl changed⟩
  obtain ⟨text, met⟩ := substituteEach_text_mapPieces tame (QuoteCut.proper_ofText cs) plain
  rw [QuoteCut.mapPieces_self, QuoteCut.text_ofText] at text met
  refine ⟨text, fun bare => (met bare).trans ?_⟩
  constructor
  · rintro ⟨before, resolved, after, split, i, quote, content, slot, holds, now⟩
    exact ⟨before, resolved, after, split, content, ⟨i, quote, slot, holds⟩, now⟩
  · rintro ⟨before, resolved, after, split, content, ⟨i, quote, slot, holds⟩, now⟩
    exact ⟨before, resolved, after, split, i, quote, content, slot, holds, now⟩

end EsmBundle
