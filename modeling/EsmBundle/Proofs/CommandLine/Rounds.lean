import EsmBundle.Proofs.CommandLine.Word
import EsmBundle.Proofs.Success

/-!
The two rounds in which a command line is taken apart.

`Taken` says what a round does: a word that is no flag stays, and a flag leaves a gap and does
what its group of flags does, which may use up the next word. A round that succeeds is one such
derivation (`takeFlags_eq_ok_iff`), and what it does to some words it does whatever comes behind
them (`Taken.append`).

A command line without separator is as good as read after the first round: the second one finds
the same words again and no flag among them (`parse_eq_ok_iff`).
-/

namespace EsmBundle

/-! ### One round -/

/-- What a group of flags does to what is given, and the words that remain of those behind it: its
switches act in order, and its last flag takes the next word if it has no value with it. -/
def FlagGroup.act (group : FlagGroup) (given : Given) (rest : List Word) :
    Except Halt (Given × List Word) :=
  match group.last with
  | none => do
    return (← given.takeSwitches group.switches, rest)
  | some (last, some text) => do
    let given ← given.takeSwitches group.switches
    return (← given.take last text, rest)
  | some (last, none) =>
    match rest with
    | .plain text :: rest => do
      let given ← given.takeSwitches group.switches
      return (← given.take last text, rest)
    | _ => .error (.missingValue last)

/-- What a group of flags comes to when it succeeds. -/
theorem FlagGroup.act_eq_ok_iff {group : FlagGroup} {given next : Given} {rest after : List Word} :
    group.act given rest = .ok (next, after) ↔
      ∃ middle, given.takeSwitches group.switches = .ok middle ∧
        (group.last = none ∧ next = middle ∧ after = rest ∨
          (∃ flag text, group.last = some (flag, some text) ∧ middle.take flag text = .ok next ∧
            after = rest) ∨
          ∃ flag text, group.last = some (flag, none) ∧ middle.take flag text = .ok next ∧
            rest = .plain text :: after) := by
  obtain ⟨switches, last⟩ := group
  constructor
  · intro acts
    rcases last with _ | ⟨last, _ | text⟩
    · obtain ⟨middle, switched, same⟩ := exists_of_bind_eq_ok acts
      obtain ⟨rfl, rfl⟩ := Prod.mk.inj (Except.ok.inj same)
      exact ⟨_, switched, Or.inl ⟨rfl, rfl, rfl⟩⟩
    · unfold FlagGroup.act at acts
      dsimp only at acts
      split at acts
      · obtain ⟨middle, switched, acts⟩ := exists_of_bind_eq_ok acts
        obtain ⟨taken, takes, same⟩ := exists_of_bind_eq_ok acts
        obtain ⟨rfl, rfl⟩ := Prod.mk.inj (Except.ok.inj same)
        exact ⟨middle, switched, Or.inr (Or.inr ⟨_, _, rfl, takes, rfl⟩)⟩
      · cases acts
    · obtain ⟨middle, switched, acts⟩ := exists_of_bind_eq_ok acts
      obtain ⟨taken, takes, same⟩ := exists_of_bind_eq_ok acts
      obtain ⟨rfl, rfl⟩ := Prod.mk.inj (Except.ok.inj same)
      exact ⟨middle, switched, Or.inr (Or.inl ⟨_, _, rfl, takes, rfl⟩)⟩
  · rintro ⟨middle, switched, ⟨rfl, rfl, rfl⟩ | ⟨flag, text, rfl, takes, rfl⟩ |
      ⟨flag, text, rfl, takes, rfl⟩⟩
    · simp only [FlagGroup.act, switched, ok_bind]
      rfl
    · simp only [FlagGroup.act, switched, ok_bind, takes]
      rfl
    · simp only [FlagGroup.act, switched, ok_bind, takes]
      rfl

/-- A group of flags uses up words from the front. -/
theorem FlagGroup.suffix_of_act {group : FlagGroup} {given next : Given} {rest after : List Word}
    (acts : group.act given rest = .ok (next, after)) : after <:+ rest := by
  obtain ⟨middle, -, ⟨-, -, rfl⟩ | ⟨_, _, -, -, rfl⟩ | ⟨_, _, -, -, rfl⟩⟩ := act_eq_ok_iff.mp acts
  · exact List.suffix_refl _
  · exact List.suffix_refl _
  · exact List.suffix_cons _ _

/-- A group of flags does the same whatever follows the words behind it. -/
theorem FlagGroup.act_append {group : FlagGroup} {given next : Given} {rest after : List Word}
    (acts : group.act given rest = .ok (next, after)) (more : List Word) :
    group.act given (rest ++ more) = .ok (next, after ++ more) := by
  rw [act_eq_ok_iff] at acts ⊢
  obtain ⟨middle, switched, ⟨alone, rfl, rfl⟩ | ⟨flag, text, attached, takes, rfl⟩ |
    ⟨flag, text, waits, takes, rfl⟩⟩ := acts
  · exact ⟨_, switched, Or.inl ⟨alone, rfl, rfl⟩⟩
  · exact ⟨middle, switched, Or.inr (Or.inl ⟨flag, text, attached, takes, rfl⟩)⟩
  · exact ⟨middle, switched, Or.inr (Or.inr ⟨flag, text, waits, takes, rfl⟩)⟩

/-- What a round leaves of a word that is no flag. -/
def Word.leftover? : Word → Option Leftover
  | .plain text => some (.plain text)
  | .unknown text => some (.unknown text)
  | .separator => some .separator
  | .flag .. => none

/-- A round over some words: what is given before and after it, and what it leaves. -/
inductive Taken : Given → List Word → Given → List Leftover → Prop where
  | nil {given : Given} : Taken given [] given []
  | keep {given now : Given} {word : Word} {item : Leftover} {rest : List Word}
      {left : List Leftover} : word.leftover? = some item → Taken given rest now left →
      Taken given (word :: rest) now (item :: left)
  | take {given next now : Given} {flag : Flag} {short : Bool} {value : Option (List Char)}
      {group : FlagGroup} {rest after : List Word} {left : List Leftover} :
      FlagGroup.ofWord flag short value = .ok group → group.act given rest = .ok (next, after) →
      Taken next after now left → Taken given (.flag flag short value :: rest) now (.gap :: left)

theorem takeFlags_kept {given : Given} {word : Word} {item : Leftover} {rest : List Word}
    (kept : word.leftover? = some item) :
    takeFlags given (word :: rest) = do
      let (given, left) ← takeFlags given rest
      return (given, item :: left) := by
  cases word <;> cases kept <;> rw [takeFlags]

theorem takeFlags_flag {given : Given} {flag : Flag} {short : Bool} {value : Option (List Char)}
    {rest : List Word} :
    takeFlags given (.flag flag short value :: rest) = do
      let group ← FlagGroup.ofWord flag short value
      let (given, rest) ← group.act given rest
      let (given, left) ← takeFlags given rest
      return (given, .gap :: left) := by
  rw [takeFlags]
  cases FlagGroup.ofWord flag short value with
  | error halt => rfl
  | ok group =>
    obtain ⟨switches, last⟩ := group
    rcases last with _ | ⟨last, _ | text⟩
    · simp only [FlagGroup.act, ok_bind, bind_assoc, pure_bind]
    · rcases rest with _ | ⟨word, rest⟩
      · rfl
      · cases word <;> simp only [FlagGroup.act, ok_bind, bind_assoc, pure_bind] <;> rfl
    · simp only [FlagGroup.act, ok_bind, bind_assoc, pure_bind]

/-- **A round that succeeds** is a derivation of what it gives and leaves. -/
theorem takeFlags_eq_ok_iff {given now : Given} {words : List Word} {left : List Leftover} :
    takeFlags given words = .ok (now, left) ↔ Taken given words now left := by
  constructor
  · intro takes
    induction size : words.length using Nat.strongRecOn generalizing given words left with
    | ind size ih =>
      subst size
      cases words with
      | nil =>
        obtain ⟨rfl, rfl⟩ := Prod.mk.inj (Except.ok.inj takes)
        exact .nil
      | cons word rest =>
        cases kept : word.leftover? with
        | some item =>
          rw [takeFlags_kept kept] at takes
          obtain ⟨⟨final, others⟩, onward, same⟩ := exists_of_bind_eq_ok takes
          obtain ⟨rfl, rfl⟩ := Prod.mk.inj (Except.ok.inj same)
          exact .keep kept (ih rest.length (by simp) onward rfl)
        | none =>
          obtain ⟨flag, short, value, rfl⟩ : ∃ flag short value, word = .flag flag short value := by
            cases word <;> simp_all [Word.leftover?]
          rw [takeFlags_flag] at takes
          obtain ⟨group, isGroup, takes⟩ := exists_of_bind_eq_ok takes
          obtain ⟨⟨next, after⟩, acts, takes⟩ := exists_of_bind_eq_ok takes
          obtain ⟨⟨final, others⟩, onward, same⟩ := exists_of_bind_eq_ok takes
          obtain ⟨rfl, rfl⟩ := Prod.mk.inj (Except.ok.inj same)
          have shorter := (FlagGroup.suffix_of_act acts).length_le
          exact .take isGroup acts (ih after.length (by simp; omega) onward rfl)
  · intro taken
    induction taken with
    | nil => rfl
    | keep kept _ ih => simp only [takeFlags_kept kept, ih, ok_bind]; rfl
    | take isGroup acts _ ih => simp only [takeFlags_flag, isGroup, acts, ih, ok_bind]; rfl

namespace Taken

variable {given now final : Given} {words more : List Word} {left others : List Leftover}

/-- **What a round does to some words** it does whatever comes behind them. -/
theorem append (first : Taken given words now left) (second : Taken now more final others) :
    Taken given (words ++ more) final (left ++ others) := by
  induction first with
  | nil => exact second
  | keep kept _ ih => exact .keep kept (ih second)
  | take isGroup acts _ ih => exact .take isGroup (FlagGroup.act_append acts more) (ih second)

theorem unique (first : Taken given words now left) (second : Taken given words final others) :
    final = now ∧ others = left := by
  rw [← takeFlags_eq_ok_iff] at first second
  rw [first] at second
  obtain ⟨rfl, rfl⟩ := Prod.mk.inj (Except.ok.inj second)
  exact ⟨rfl, rfl⟩

/-- Words that are no flags change nothing and all stay. -/
theorem of_no_flags {items : List Leftover} (kept : words.map Word.leftover? = items.map some) :
    Taken given words given items := by
  induction words generalizing items with
  | nil =>
    obtain rfl : items = [] := by simpa using kept.symm
    exact .nil
  | cons word rest ih =>
    cases items with
    | nil => cases kept
    | cons item items =>
      obtain ⟨first, others⟩ := List.cons.inj kept
      exact .keep first (ih others)

/-- What a round leaves is a gap or one of the words. -/
theorem mem_left (taken : Taken given words now left) {item : Leftover} (mem : item ∈ left) :
    item = .gap ∨ ∃ word ∈ words, word.leftover? = some item := by
  induction taken with
  | nil => cases mem
  | keep kept _ ih =>
    rcases List.mem_cons.mp mem with rfl | later
    · exact Or.inr ⟨_, List.mem_cons_self, kept⟩
    · exact (ih later).imp_right fun ⟨word, among, same⟩ =>
        ⟨word, List.mem_cons_of_mem _ among, same⟩
  | take _ acts _ ih =>
    rcases List.mem_cons.mp mem with rfl | later
    · exact Or.inl rfl
    · exact (ih later).imp_right fun ⟨word, among, same⟩ =>
        ⟨word, List.mem_cons_of_mem _ ((FlagGroup.suffix_of_act acts).subset among), same⟩

end Taken

/-! ### Between the rounds -/

namespace Leftover

/-- The second round reads what the first one left as the first one did. There is no separator
among it. -/
def Settled : Leftover → Prop
  | .plain text => text ≠ "--" ∧ Word.classify text = .plain text
  | .unknown text => text ≠ "--" ∧ Word.classify text = .unknown text
  | .separator => False
  | .gap => True

end Leftover

/-- What is left of words without separator is settled. -/
theorem Taken.settled {given now : Given} {texts : List String} {left : List Leftover}
    (taken : Taken given (texts.map Word.read) now left) (noSeparator : "--" ∉ texts) :
    ∀ item ∈ left, item.Settled := by
  intro item mem
  rcases taken.mem_left mem with rfl | ⟨word, among, kept⟩
  · trivial
  obtain ⟨text, isText, rfl⟩ := List.mem_map.mp among
  have differs : Arguments.expandMinify text ≠ "--" :=
    Word.expandMinify_ne_separator (ne_of_mem_of_not_mem isText noSeparator)
  rw [Word.read] at kept
  rcases Word.classify_cases (Arguments.expandMinify text) with plain | unknown |
    ⟨flag, -, isFlag⟩ | ⟨flag, short, front, value, -, -, -, isFlag⟩
  · rw [plain] at kept
    cases kept
    exact ⟨differs, plain⟩
  · rw [unknown] at kept
    cases kept
    exact ⟨differs, unknown⟩
  · rw [isFlag] at kept
    cases kept
  · rw [isFlag] at kept
    cases kept

section Second

variable {left : List Leftover} (settled : ∀ item ∈ left, item.Settled)

include settled

/-- The words that the first round leaves of words without separator, and whether a separator behind
them stays. -/
theorem leftWords_append_of_settled (seen : Bool) (more : List Leftover) :
    leftWords seen (left ++ more) =
      left.filterMap Leftover.strayWord? ++
        leftWords (seen || !(left.filterMap Leftover.runWord?).isEmpty) more := by
  induction left generalizing seen with
  | nil => simp
  | cons item rest ih =>
    obtain ⟨first, others⟩ := List.forall_mem_cons.mp settled
    cases item with
    | separator => exact first.elim
    | plain text | unknown text | gap =>
      simp [leftWords, Leftover.strayWord?, Leftover.runWord?, List.filterMap_cons, ih others]

/-- **The second round** finds the same words again, without the gaps. -/
theorem Taken.again {given now : Given} {more : List String} {others : List Leftover}
    (later : Taken given (Word.ofArguments more) now others) :
    Taken given (Word.ofArguments (left.filterMap Leftover.strayWord? ++ more)) now
      (left.filter (· ≠ .gap) ++ others) := by
  induction left with
  | nil => exact later
  | cons item rest ih =>
    obtain ⟨first, following⟩ := List.forall_mem_cons.mp settled
    cases item with
    | separator => exact first.elim
    | plain text | unknown text =>
      rw [List.filterMap_cons, Leftover.strayWord?]
      dsimp only
      rw [List.cons_append, Word.ofArguments, if_neg first.1, first.2]
      exact .keep rfl (ih following)
    | gap => exact ih following

/-- Without unknown flags, all that is left is one run. -/
theorem inRun_of_settled (known : ∀ text, .unknown text ∉ left) :
    ∀ item ∈ left.filter (· ≠ .gap), item.inRun = true := by
  intro item mem
  obtain ⟨among, noGap⟩ := List.mem_filter.mp mem
  cases item with
  | plain text => rfl
  | unknown text => exact absurd among (known text)
  | separator => exact (settled _ among).elim
  | gap => simp at noGap

end Second

/-- Gaps hold no words. -/
theorem runWords_filter (left : List Leftover) :
    (left.filter (· ≠ .gap)).filterMap Leftover.runWord? = left.filterMap Leftover.runWord? := by
  rw [List.filterMap_filter]
  congr 1
  funext item
  cases item <;> rfl

/-- A single run of plain words, and nothing else. -/
theorem firstRun_of_inRun {left : List Leftover} (inRun : ∀ item ∈ left, item.inRun = true) :
    firstRun left = (left.filterMap Leftover.runWord?, []) := by
  have before : left.takeWhile (fun item => !item.inRun) = [] := by
    cases left with
    | nil => rfl
    | cons item rest => simp [inRun item]
  have whole : left.dropWhile (fun item => !item.inRun) = left := by
    simpa [before] using List.takeWhile_append_dropWhile (p := fun item => !item.inRun) (l := left)
  have run : (left ++ []).takeWhile Leftover.inRun = left ++ [].takeWhile Leftover.inRun :=
    List.takeWhile_append_of_pos inRun
  have after : (left ++ []).dropWhile Leftover.inRun = [].dropWhile Leftover.inRun :=
    List.dropWhile_append_of_pos inRun
  simp only [List.append_nil, List.takeWhile_nil, List.dropWhile_nil] at run after
  simp only [firstRun, before, whole, run, after, List.append_nil, List.filterMap_nil]

/-- An unknown flag is a stray word, wherever it stands. -/
theorem firstRun_ne_nil_of_unknown {left : List Leftover} {text : String}
    (mem : .unknown text ∈ left) : (firstRun left).2 ≠ [] := by
  intro noStrays
  have stays {items : List Leftover} (among : .unknown text ∈ items) :
      Leftover.unknown text ∈ items.dropWhile Leftover.inRun := by
    rw [← List.takeWhile_append_dropWhile (p := Leftover.inRun) (l := items)] at among
    refine (List.mem_append.mp among).resolve_left ?_
    intro run
    cases List.all_eq_true.mp List.all_takeWhile _ run
  have stray : Leftover.unknown text ∈ left.takeWhile (fun item => !item.inRun) ++
      (left.dropWhile fun item => !item.inRun).dropWhile Leftover.inRun := by
    rw [← List.takeWhile_append_dropWhile (p := fun item => !Leftover.inRun item) (l := left)]
      at mem
    exact List.mem_append.mpr ((List.mem_append.mp mem).imp_right stays)
  cases List.filterMap_eq_nil_iff.mp noStrays _ stray

namespace Arguments

/-- A command line that sets options does so in two rounds, and nothing stays behind but one run of
plain words. -/
theorem parse_eq_ok_iff_rounds {words : List String} {arguments : Arguments} :
    parse words = .ok arguments ↔
      ∃ given left last, Taken .nothing (Word.ofArguments (expandSwitches words)) given left ∧
        Taken given (Word.ofArguments (leftWords false left)) arguments.given last ∧
        firstRun last = (arguments.paths, []) := by
  unfold parse
  constructor
  · intro parsed
    obtain ⟨⟨given, left⟩, first, parsed⟩ := exists_of_bind_eq_ok parsed
    obtain ⟨⟨final, last⟩, second, parsed⟩ := exists_of_bind_eq_ok parsed
    dsimp only at parsed
    split at parsed
    · rename_i noStrays
      obtain rfl := Except.ok.inj parsed
      refine ⟨given, left, last, takeFlags_eq_ok_iff.mp first, takeFlags_eq_ok_iff.mp second, ?_⟩
      rw [← List.isEmpty_iff.mp noStrays]
    · cases parsed
  · rintro ⟨given, left, last, first, second, run⟩
    rw [takeFlags_eq_ok_iff.mpr first, ok_bind]
    dsimp only
    rw [takeFlags_eq_ok_iff.mpr second, ok_bind]
    dsimp only
    rw [run]
    rfl

/-- **A command line without separator** is taken apart in one round, when nothing that looks like
a flag is unknown. -/
theorem parse_eq_ok_iff {texts : List String} {arguments : Arguments} (noSeparator : "--" ∉ texts) :
    parse texts = .ok arguments ↔
      ∃ left, Taken .nothing (texts.map Word.read) arguments.given left ∧
        (∀ text, .unknown text ∉ left) ∧ arguments.paths = left.filterMap Leftover.runWord? := by
  have read : Word.ofArguments (expandSwitches texts) = texts.map Word.read := by
    simpa [expandSwitches, Word.ofArguments] using Word.ofArguments_expandSwitches noSeparator []
  rw [parse_eq_ok_iff_rounds, read]
  -- What the second round gives and leaves is known from what the first one left.
  have second {given : Given} {left : List Leftover}
      (first : Taken .nothing (texts.map Word.read) given left) :
      Taken given (Word.ofArguments (leftWords false left)) given (left.filter (· ≠ .gap)) := by
    have settled := first.settled noSeparator
    have words : leftWords false left = left.filterMap Leftover.strayWord? := by
      simpa [leftWords] using leftWords_append_of_settled settled false []
    have nothingBehind : Taken given (Word.ofArguments []) given [] := .nil
    rw [words]
    simpa using Taken.again settled nothingBehind
  constructor
  · rintro ⟨given, left, last, first, again, run⟩
    obtain ⟨same, rfl⟩ := again.unique (second first)
    have known : ∀ text, .unknown text ∉ left := by
      intro text mem
      have stays : Leftover.unknown text ∈ left.filter (· ≠ .gap) := by simpa using mem
      exact firstRun_ne_nil_of_unknown stays (congrArg Prod.snd run)
    have inRun := inRun_of_settled (first.settled noSeparator) known
    rw [firstRun_of_inRun inRun] at run
    refine ⟨left, same ▸ first, known, ?_⟩
    rw [← (Prod.mk.inj run).1, runWords_filter]
  · rintro ⟨left, first, known, paths⟩
    have inRun := inRun_of_settled (first.settled noSeparator) known
    refine ⟨_, left, _, first, second first, ?_⟩
    rw [firstRun_of_inRun inRun, paths, runWords_filter]

end Arguments

end EsmBundle
