import EsmBundle.CommandLine.Options
import EsmBundle.Proofs.CommandLine.Rounds

/-!
Command lines made of items: further entry points, flags with their values, and switches.

An item is one or two words. Whatever the order of the items, a command line of them is
accepted, and it says of every flag the values that the items give to it, in their order
(`Arguments.parse_commandLine`). What is given by a list of items is `Given.saying`; one item
after others is the step (`Taken.item`), and the whole command line the run.
-/

namespace EsmBundle

/-! ### Items -/

/-- A word with no dash in front. -/
structure PlainWord where
  text : String
  dashless : text.toList.head? ≠ some '-'

/-- A spelling of a flag that takes a value. -/
structure ValueSpelling where
  flag : Flag
  text : String
  known : text ∈ flag.spellings
  takes : flag.takesValue = true

/-- An item of a command line: an entry point, a flag with a value behind an equals sign or in the
next word, or a switch about minifying. -/
inductive Item where
  | path (word : PlainWord)
  | attached (spelling : ValueSpelling) (value : String)
  | separate (spelling : ValueSpelling) (value : PlainWord)
  | minify (short : Bool)
  | noMinify
  | minifyAs (value : String)

namespace Item

/-- The words of an item. -/
def words : Item → List String
  | path word => [word.text]
  | attached spelling value => [spelling.text ++ "=" ++ value]
  | separate spelling value => [spelling.text, value.text]
  | minify short => [if short then "-m" else "--minify"]
  | noMinify => ["--no-minify"]
  | minifyAs value => ["--minify" ++ "=" ++ value]

/-- The entry point in an item. -/
def path? : Item → Option String
  | path word => some word.text
  | _ => none

/-- The value that an item gives to a flag. -/
def value? (flag : Flag) : Item → Option String
  | attached spelling value => if spelling.flag = flag then some value else none
  | separate spelling value => if spelling.flag = flag then some value.text else none
  | _ => none

/-- What an item says about minifying. -/
def minifies? : Item → Option Bool
  | minify _ => some true
  | noMinify => some false
  | minifyAs value => some (!Arguments.meansNo value)
  | _ => none

/-- What the first round leaves of an item. -/
def leftover : Item → Leftover
  | path word => .plain word.text
  | _ => .gap

/-- The words of all items. -/
def commandLine (items : List Item) : List String :=
  items.flatMap words

theorem commandLine_cons (item : Item) (items : List Item) :
    commandLine (item :: items) = item.words ++ commandLine items :=
  List.flatMap_cons

/-- The entry points among items. -/
def paths (items : List Item) : List String :=
  items.filterMap path?

/-- The values that items give to a flag. -/
def values (flag : Flag) (items : List Item) : List String :=
  items.filterMap (value? flag)

/-- What items say about minifying. -/
def switches (items : List Item) : List Bool :=
  items.filterMap minifies?

section Append

variable (items others : List Item)

theorem commandLine_append :
    commandLine (items ++ others) = commandLine items ++ commandLine others :=
  List.flatMap_append

theorem paths_append : paths (items ++ others) = paths items ++ paths others :=
  List.filterMap_append

theorem values_append (flag : Flag) :
    values flag (items ++ others) = values flag items ++ values flag others :=
  List.filterMap_append

theorem switches_append : switches (items ++ others) = switches items ++ switches others :=
  List.filterMap_append

end Append

end Item

/-! ### What items give -/

/-- A value as a list takes it up. -/
def OptionValue.shown (value : String) : String :=
  (OptionValue.ofWord value).display

/-- What the items of a command line give, flag by flag. -/
def Given.saying (items : List Item) : Given where
  entrypoints := (Item.values .entrypoints items).map OptionValue.shown
  external := (Item.values .external items).map OptionValue.shown
  replace := (Item.values .replace items).map OptionValue.shown
  outputDir := (Item.values .outputDir items).getLast?.map OptionValue.ofWord
  outputPath := (Item.values .outputPath items).getLast?.map OptionValue.ofWord
  config := (Item.values .config items).getLast?.map OptionValue.ofWord
  deno := (Item.values .deno items).getLast?.map OptionValue.ofWord
  minify := (Item.switches items).contains true
  noMinify := (Item.switches items).contains false

namespace Given

variable (done : List Item)

/-- An item with an entry point gives nothing to flags. -/
theorem saying_path (word : PlainWord) : saying (done ++ [.path word]) = saying done := by
  simp [saying, Item.values, Item.switches, Item.value?, Item.minifies?]

/-- An item with a value gives it to its flag. -/
theorem take_saying (item : Item) {flag : Flag} {value : String} (takes : flag.takesValue = true)
    (gives : ∀ other, item.value? other = if flag = other then some value else none)
    (silent : item.minifies? = none) :
    (saying done).take flag value = .ok (saying (done ++ [item])) := by
  have values (other : Flag) : Item.values other (done ++ [item]) =
      Item.values other done ++ if flag = other then [value] else [] := by
    by_cases same : flag = other <;> simp [Item.values, gives, same]
  have switches : Item.switches (done ++ [item]) = Item.switches done := by
    simp [Item.switches, silent]
  cases flag <;> cases takes <;> simp [take, saying, values, switches, OptionValue.shown]

/-- An item that is a switch does what its switch does. -/
theorem takeSwitches_saying {item : Item} {yes : Bool} (gives : ∀ flag, item.value? flag = none)
    (asks : item.minifies? = some yes) :
    (saying done).takeSwitches [if yes then .minify else .noMinify] =
      .ok (saying (done ++ [item])) := by
  have values (flag : Flag) : Item.values flag (done ++ [item]) = Item.values flag done := by
    simp [Item.values, gives]
  have switches : Item.switches (done ++ [item]) = Item.switches done ++ [yes] := by
    simp [Item.switches, asks]
  cases yes <;> simp [takeSwitches, take, saying, values, switches, ok_bind]

end Given

namespace FlagGroup

variable {flag : Flag}

theorem ofWord_switch (short : Bool) (switch : flag.takesValue = false) :
    ofWord flag short none = .ok ⟨[flag], none⟩ := by
  simp [ofWord, single, switch]

theorem ofWord_separate (short : Bool) (takes : flag.takesValue = true) :
    ofWord flag short none = .ok ⟨[], some (flag, none)⟩ := by
  simp [ofWord, single, takes]

/-- A value with the flag is its value whatever it is, also behind a short spelling. -/
theorem ofWord_attached (short : Bool) (takes : flag.takesValue = true) (value : List Char) :
    ofWord flag short (some value) = .ok ⟨[], some (flag, some (String.ofList value))⟩ := by
  cases short <;> cases value <;> simp [ofWord, ofLetters, takes]

end FlagGroup

namespace Taken

variable (done : List Item)

/-- A switch after other items. -/
theorem switch (yes short : Bool) {item : Item} {text : String} (words : item.words = [text])
    (read : Word.read text = .flag (if yes then .minify else .noMinify) short none)
    (gives : ∀ flag, item.value? flag = none) (asks : item.minifies? = some yes) :
    Taken (.saying done) (item.words.map Word.read) (.saying (done ++ [item])) [.gap] := by
  have group : FlagGroup.ofWord (if yes then .minify else .noMinify) short none =
      .ok ⟨[if yes then .minify else .noMinify], none⟩ :=
    FlagGroup.ofWord_switch short (by cases yes <;> rfl)
  have switched := Given.takeSwitches_saying done gives asks
  rw [words, List.map_cons, List.map_nil, read]
  exact .take group (FlagGroup.act_eq_ok_iff.mpr ⟨_, switched, Or.inl ⟨rfl, rfl, rfl⟩⟩) .nil

/-- **One item** after others adds what it gives, and leaves its entry point or a gap. -/
theorem item (item : Item) :
    Taken (.saying done) (item.words.map Word.read) (.saying (done ++ [item]))
      [item.leftover] := by
  cases item with
  | path word =>
    rw [Given.saying_path]
    refine of_no_flags ?_
    simp [Item.words, Item.leftover, Word.read_of_dashless word.dashless, Word.leftover?]
  | attached spelling value =>
    have takes :=
      Given.take_saying done (.attached spelling value) spelling.takes (fun _ => rfl) rfl
    have group := FlagGroup.ofWord_attached (Word.isShort spelling.text) spelling.takes value.toList
    rw [String.ofList_toList] at group
    rw [Item.words, List.map_cons, List.map_nil, Word.read_attached spelling.known spelling.takes]
    exact .take group (FlagGroup.act_eq_ok_iff.mpr
      ⟨_, rfl, Or.inr (Or.inl ⟨_, _, rfl, takes, rfl⟩)⟩) .nil
  | separate spelling value =>
    have takes :=
      Given.take_saying done (.separate spelling value) spelling.takes (fun _ => rfl) rfl
    have group := FlagGroup.ofWord_separate (Word.isShort spelling.text) spelling.takes
    rw [Item.words, List.map_cons, List.map_cons, List.map_nil,
      Word.read_of_spelling spelling.known, Word.read_of_dashless value.dashless]
    exact .take group (FlagGroup.act_eq_ok_iff.mpr
      ⟨_, rfl, Or.inr (Or.inr ⟨_, _, rfl, takes, rfl⟩)⟩) .nil
  | minify short =>
    have known : (if short then "-m" else "--minify") ∈ Flag.minify.spellings := by
      cases short <;> decide
    exact switch done true _ rfl (Word.read_of_spelling known) (fun _ => rfl) rfl
  | noMinify =>
    have known : "--no-minify" ∈ Flag.noMinify.spellings := by decide
    exact switch done false _ rfl (Word.read_of_spelling known) (fun _ => rfl) rfl
  | minifyAs value =>
    refine switch done (!Arguments.meansNo value) false rfl ?_ (fun _ => rfl) rfl
    rw [Word.read_minify]
    cases Arguments.meansNo value <;> rfl

/-- **A whole command line** of items, after other items. -/
theorem items (items : List Item) :
    Taken (.saying done) ((Item.commandLine items).map Word.read) (.saying (done ++ items))
      (items.map Item.leftover) := by
  induction items generalizing done with
  | nil => simpa [Item.commandLine] using Taken.nil
  | cons item items ih =>
    have rest := ih (done ++ [item])
    rw [List.append_assoc, List.singleton_append] at rest
    have whole := (Taken.item done item).append rest
    rwa [← List.map_append, ← Item.commandLine_cons, List.singleton_append, ← List.map_cons]
      at whole

end Taken

/-! ### The whole command line -/

namespace Item

theorem separator_not_mem_words (item : Item) : "--" ∉ item.words := by
  have notPlain (word : PlainWord) : "--" ≠ word.text := by
    intro same
    exact word.dashless (by rw [← same]; rfl)
  have notAttached (front value : String) : "--" ≠ front ++ "=" ++ value := by
    intro same
    have mem : '=' ∈ "--".toList := by
      rw [same]
      simp
    exact absurd mem (by decide)
  have notSpelling (spelling : ValueSpelling) : "--" ≠ spelling.text := by
    intro same
    have known := Flag.ofSpelling?_eq_some_iff.mpr spelling.known
    rw [← same] at known
    exact absurd known (by simp [show Flag.ofSpelling? "--" = none by decide])
  cases item with
  | path word => simp [words, notPlain]
  | attached spelling value => exact fun mem => notAttached _ _ (List.mem_singleton.mp mem)
  | separate spelling value => simp [words, notSpelling, notPlain]
  | minify short => cases short <;> decide
  | noMinify => decide
  | minifyAs value => exact fun mem => notAttached _ _ (List.mem_singleton.mp mem)

theorem separator_not_mem_commandLine (items : List Item) : "--" ∉ commandLine items := by
  intro mem
  obtain ⟨item, -, among⟩ := List.mem_flatMap.mp mem
  exact separator_not_mem_words item among

end Item

/-- **A command line of items is accepted**, and its meaning is what the items give and their entry
points. -/
theorem Arguments.parse_commandLine (items : List Item) :
    parse (Item.commandLine items) = .ok ⟨.saying items, Item.paths items⟩ := by
  refine (parse_eq_ok_iff (Item.separator_not_mem_commandLine items)).mpr
    ⟨items.map Item.leftover, Taken.items [] items, ?_, ?_⟩
  · intro text mem
    obtain ⟨item, -, same⟩ := List.mem_map.mp mem
    cases item <;> cases same
  · have run : Leftover.runWord? ∘ Item.leftover = Item.path? := by
      funext item
      cases item <;> rfl
    rw [List.filterMap_map, run]
    rfl

end EsmBundle
