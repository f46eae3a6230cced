import EsmBundle.Proofs.CommandLine.Values
import EsmBundle.Proofs.FirstPlaces
import EsmBundle.Settings.Load

/-!
The command line and settings as two ways to write the same preferences.

`Preferences` hold what is wanted of each option of a build, and nothing where it does not
matter. They are written as the words of a command line (`Preferences.words`), one word for each
name, path, switch or replacement, and as settings (`Preferences.settings`). Names are written as
they are, so the commas in them separate names on both sides. A replacement is written as one
word with an equals sign, so its search text can hold none, and neither text can hold a comma.

* `commandLine_like_settings_iff` — the command line is accepted, and it sets the options that the
  settings set exactly when no name and no path is the separator.
* `commandLine_unlike_settings` — a name that is the separator is another name then.
-/

namespace EsmBundle

/-! ### Preferences -/

/-- A replacement that can be written as one word. -/
structure IsWritable (pair : String × String) : Prop where
  search_ne : pair.1 ≠ ""
  equalsless : '=' ∉ pair.1.toList
  searchCommaless : ',' ∉ pair.1.toList
  commaless : ',' ∉ pair.2.toList

instance (pair : String × String) : Decidable (IsWritable pair) :=
  decidable_of_iff
    (pair.1 ≠ "" ∧ '=' ∉ pair.1.toList ∧ ',' ∉ pair.1.toList ∧ ',' ∉ pair.2.toList)
    ⟨fun ⟨search_ne, equalsless, searchCommaless, commaless⟩ =>
      ⟨search_ne, equalsless, searchCommaless, commaless⟩,
    fun writable => ⟨writable.search_ne, writable.equalsless, writable.searchCommaless,
      writable.commaless⟩⟩

/-- What is wanted of each option, if anything. -/
structure Preferences where
  entrypoints : Option (List String)
  external : Option (List String)
  outputDir : Option String
  outputPath : Option String
  minify : Option Bool
  replace : Option Replacements
  writable : ∀ replacements ∈ replace, ∀ pair ∈ replacements.entries, IsWritable pair

/-- The members that are there. -/
def Settings.present : List (String × Option Json) → Settings
  | [] => []
  | (_, none) :: rest => present rest
  | (name, some value) :: rest => (name, value) :: present rest

namespace Preferences

variable (wanted : Preferences)

/-- The replacements that are wanted. -/
def pairs : List (String × String) :=
  (wanted.replace.getD .empty).entries

/-- The words of a command line for the preferences. -/
def words : List String :=
  (wanted.entrypoints.getD []).map ("--entrypoints=" ++ ·) ++
    (wanted.external.getD []).map ("--external=" ++ ·) ++
    wanted.outputDir.toList.map ("--outputDir=" ++ ·) ++
    wanted.outputPath.toList.map ("--outputPath=" ++ ·) ++
    wanted.minify.toList.map (fun yes => if yes then "--minify" else "--no-minify") ++
    wanted.pairs.map fun pair => "--replace=" ++ pair.1 ++ "=" ++ pair.2

/-- The members of settings for the preferences. -/
def members : List (String × Option Json) :=
  [("entrypoints", wanted.entrypoints.map fun names => .array (names.map .string)),
    ("external", wanted.external.map fun names => .array (names.map .string)),
    ("outputDir", wanted.outputDir.map .string),
    ("outputPath", wanted.outputPath.map .string),
    ("minify", wanted.minify.map .bool),
    ("replace", wanted.replace.map fun replacements =>
      .object (replacements.entries.map fun pair => (pair.1, .string pair.2)))]

/-- Settings for the preferences. -/
def settings : Settings :=
  Settings.present wanted.members

/-- No name and no path is the separator. -/
structure Unseparated : Prop where
  entrypoints : "--" ∉ wanted.entrypoints.getD []
  external : "--" ∉ wanted.external.getD []
  outputDir : wanted.outputDir ≠ some "--"
  outputPath : wanted.outputPath ≠ some "--"

end Preferences

/-! ### As settings -/

/-- What is found among the members that are there. -/
theorem Settings.findEntry_present (key : String) {members : List (String × Option Json)}
    (distinct : (members.map Prod.fst).Nodup) :
    findEntry key (present members) = (findEntry key members).join := by
  fun_induction present members with
  | case1 => rfl
  | case2 rest name ih =>
    rw [List.map_cons, List.nodup_cons] at distinct
    rw [ih distinct.2, findEntry]
    split
    · rename_i here
      rw [findEntry_eq_none_iff.mpr (here ▸ distinct.1)]
      rfl
    · rfl
  | case3 rest name value ih =>
    rw [List.map_cons, List.nodup_cons] at distinct
    rw [findEntry, findEntry]
    split
    · rfl
    · exact ih distinct.2

theorem Json.names_strings (names : List String) :
    Json.names (.array (names.map .string)) = names.flatMap commaPieces := by
  rw [Json.names, Json.listValues, List.flatMap_map]
  rfl

/-! ### Replacements in both forms -/

/-- What is read back item by item is all there. -/
theorem filterMap_map_of_inverse {α β : Type} {write : α → β} {read? : β → Option α}
    {items : List α} (back : ∀ item ∈ items, read? (write item) = some item) :
    (items.map write).filterMap read? = items := by
  induction items with
  | nil => rfl
  | cons item rest ih =>
    rw [List.forall_mem_cons] at back
    rw [List.map_cons, List.filterMap_cons_some back.1, ih back.2]

namespace Replacements

/-- Replacements as the members of an object. -/
theorem ofMembers_strings (replacements : Replacements)
    (named : ∀ pair ∈ replacements.entries, pair.1 ≠ "") :
    ofMembers (replacements.entries.map fun pair => (pair.1, .string pair.2)) = replacements := by
  rw [ofMembers, filterMap_map_of_inverse, OrderedMap.ofList_entries]
  intro pair mem
  simp [named pair mem, Json.string?]

/-- Replacements as words. -/
theorem ofWords_written (replacements : Replacements)
    (writable : ∀ pair ∈ replacements.entries, IsWritable pair) :
    ofWords ((replacements.entries.map fun pair => pair.1 ++ "=" ++ pair.2).flatMap commaPieces) =
      replacements := by
  have whole : (replacements.entries.map fun pair => pair.1 ++ "=" ++ pair.2).flatMap commaPieces =
      replacements.entries.map fun pair => pair.1 ++ "=" ++ pair.2 := by
    refine flatMap_commaPieces_of_commaless (List.forall_mem_map.mpr ?_)
    intro pair mem
    have writes := writable pair mem
    constructor
    · simp [writes.searchCommaless, writes.commaless]
    · simp [String.append_eq_empty_iff]
  rw [whole, ofWords_eq, filterMap_map_of_inverse, OrderedMap.ofList_entries]
  intro pair mem
  exact pair?_eq_some_iff.mpr ⟨rfl, (writable pair mem).equalsless, (writable pair mem).search_ne⟩

end Replacements

/-- What the settings for some preferences set. -/
theorem Preferences.ofSettings_settings (wanted : Preferences) :
    BuildOptions.ofSettings wanted.settings =
      ⟨nonemptyList ((wanted.entrypoints.getD []).flatMap commaPieces),
        nonemptyList ((wanted.external.getD []).flatMap commaPieces),
        wanted.outputDir.map .text, wanted.outputPath.map .text, wanted.minify,
        nonemptyReplacements (wanted.replace.getD .empty)⟩ := by
  have distinct : (wanted.members.map Prod.fst).Nodup := by
    simp [members]
  have find (key : String) : findEntry key wanted.settings = (findEntry key wanted.members).join :=
    Settings.findEntry_present key distinct
  have list (names : Option (List String)) :
      ((names.map fun names => Json.array (names.map .string)).bind fun value =>
        nonemptyList value.names) = nonemptyList ((names.getD []).flatMap commaPieces) := by
    cases names with
    | none => rfl
    | some names => exact congrArg nonemptyList (Json.names_strings names)
  have text (path : Option String) : (path.map Json.string).bind Json.string? = path := by
    cases path <;> rfl
  have flag (yes : Option Bool) : (yes.map Json.bool).bind Json.bool? = yes := by
    cases yes <;> rfl
  rw [BuildOptions.ofSettings, find, find, find, find, find, find]
  congr 1
  · exact list wanted.entrypoints
  · exact list wanted.external
  · exact congrArg _ (text wanted.outputDir)
  · exact congrArg _ (text wanted.outputPath)
  · exact flag wanted.minify
  · have writable := wanted.writable
    show ((wanted.replace.map _).bind _) = _
    cases found : wanted.replace with
    | none => rfl
    | some replacements =>
      refine congrArg nonemptyReplacements (Replacements.ofMembers_strings replacements ?_)
      intro pair mem
      exact (writable replacements found pair mem).search_ne

/-! ### As a command line -/

namespace Item

/-- Items that give values to one flag give them to no other. -/
theorem values_attached (flag : Flag) (spelling : ValueSpelling) (texts : List String) :
    values flag (texts.map (.attached spelling)) = if spelling.flag = flag then texts else [] := by
  rw [values]
  split
  · rename_i here
    rw [filterMap_map_of_inverse]
    intro text mem
    simp [value?, here]
  · rename_i other
    rw [List.filterMap_map, List.filterMap_eq_nil_iff]
    intro text mem
    simp [value?, other]

theorem switches_attached (spelling : ValueSpelling) (texts : List String) :
    switches (texts.map (.attached spelling)) = [] := by
  rw [switches, List.filterMap_map, List.filterMap_eq_nil_iff]
  intro text mem
  rfl

theorem paths_attached (spelling : ValueSpelling) (texts : List String) :
    paths (texts.map (.attached spelling)) = [] := by
  rw [paths, List.filterMap_map, List.filterMap_eq_nil_iff]
  intro text mem
  rfl

theorem commandLine_attached (spelling : ValueSpelling) (texts : List String) :
    commandLine (texts.map (.attached spelling)) = texts.map (spelling.text ++ "=" ++ ·) := by
  rw [commandLine, List.flatMap_map]
  exact List.map_eq_flatMap.symm

/-- The item for a switch. -/
def ofSwitch (yes : Bool) : Item :=
  if yes then .minify false else .noMinify

end Item

namespace Preferences

variable (wanted : Preferences)

/-- The items of a command line for the preferences. -/
def items : List Item :=
  (wanted.entrypoints.getD []).map
      (.attached ⟨.entrypoints, "--entrypoints", by decide, by decide⟩) ++
    (wanted.external.getD []).map (.attached ⟨.external, "--external", by decide, by decide⟩) ++
    wanted.outputDir.toList.map (.attached ⟨.outputDir, "--outputDir", by decide, by decide⟩) ++
    wanted.outputPath.toList.map (.attached ⟨.outputPath, "--outputPath", by decide, by decide⟩) ++
    wanted.minify.toList.map Item.ofSwitch ++
    (wanted.pairs.map fun pair => pair.1 ++ "=" ++ pair.2).map
      (.attached ⟨.replace, "--replace", by decide, by decide⟩)

theorem commandLine_items : Item.commandLine wanted.items = wanted.words := by
  have switch : Item.commandLine (wanted.minify.toList.map Item.ofSwitch) =
      wanted.minify.toList.map fun yes => if yes then "--minify" else "--no-minify" := by
    rcases wanted.minify with _ | _ | _ <;> rfl
  have replace : (wanted.pairs.map fun pair => "--replace=" ++ pair.1 ++ "=" ++ pair.2) =
      (wanted.pairs.map fun pair => pair.1 ++ "=" ++ pair.2).map ("--replace=" ++ ·) := by
    simp [String.append_assoc]
  rw [items, words, replace, ← switch]
  simp only [Item.commandLine_append, Item.commandLine_attached]
  rfl

theorem paths_items : Item.paths wanted.items = [] := by
  have switch : Item.paths (wanted.minify.toList.map Item.ofSwitch) = [] := by
    rcases wanted.minify with _ | _ | _ <;> rfl
  simp only [items, Item.paths_append, Item.paths_attached, switch, List.append_nil]

theorem switches_items : Item.switches wanted.items = wanted.minify.toList := by
  have switch : Item.switches (wanted.minify.toList.map Item.ofSwitch) = wanted.minify.toList := by
    rcases wanted.minify with _ | _ | _ <;> rfl
  simp only [items, Item.switches_append, Item.switches_attached, switch, List.append_nil,
    List.nil_append]

theorem values_items (flag : Flag) :
    Item.values flag wanted.items =
      match flag with
      | .entrypoints => wanted.entrypoints.getD []
      | .external => wanted.external.getD []
      | .outputDir => wanted.outputDir.toList
      | .outputPath => wanted.outputPath.toList
      | .replace => wanted.pairs.map fun pair => pair.1 ++ "=" ++ pair.2
      | _ => [] := by
  have switch : Item.values flag (wanted.minify.toList.map Item.ofSwitch) = [] := by
    rcases wanted.minify with _ | _ | _ <;> rfl
  simp only [items, Item.values_append, Item.values_attached, switch]
  cases flag <;> simp

/-- What the command line for some preferences sets. -/
theorem options_items :
    Arguments.options ⟨.saying wanted.items, Item.paths wanted.items⟩ =
      ⟨nonemptyList (((wanted.entrypoints.getD []).map OptionValue.shown).flatMap commaPieces),
        nonemptyList (((wanted.external.getD []).map OptionValue.shown).flatMap commaPieces),
        wanted.outputDir.map .ofWord, wanted.outputPath.map .ofWord, wanted.minify,
        nonemptyReplacements (wanted.replace.getD .empty)⟩ := by
  have replace :
      Replacements.ofWords ((wanted.pairs.map fun pair => pair.1 ++ "=" ++ pair.2).flatMap
        commaPieces) = wanted.replace.getD .empty := by
    refine Replacements.ofWords_written _ ?_
    have writable := wanted.writable
    cases found : wanted.replace with
    | none => exact fun pair mem => absurd mem List.not_mem_nil
    | some replacements => exact writable replacements found
  have last (path : Option String) : path.toList.getLast? = path := by
    cases path <;> rfl
  simp only [Arguments.options, Given.saying, paths_items, switches_items, values_items,
    List.append_nil, last, Replacements.ofWords_shown, replace]
  congr 1
  rcases wanted.minify with _ | _ | _ <;> rfl

end Preferences

/-! ### Both -/

/-- **The command line and the settings for the same preferences set the same options** exactly when
no name and no path is the separator. Either way the command line is accepted. -/
theorem commandLine_like_settings_iff (wanted : Preferences) :
    ∃ arguments, Arguments.parse wanted.words = .ok arguments ∧
      (arguments.options = .ofSettings wanted.settings ↔ wanted.Unseparated) := by
  refine ⟨_, wanted.commandLine_items ▸ Arguments.parse_commandLine wanted.items, ?_⟩
  rw [wanted.options_items, wanted.ofSettings_settings, BuildOptions.mk.injEq, nonemptyList_inj,
    nonemptyList_inj, OptionValue.pieces_shown_eq_iff, OptionValue.pieces_shown_eq_iff,
    OptionValue.map_ofWord_eq_iff, OptionValue.map_ofWord_eq_iff]
  -- The switch and the replacements are the same in any case.
  constructor
  · rintro ⟨entrypoints, external, outputDir, outputPath, -, -⟩
    exact ⟨entrypoints, external, outputDir, outputPath⟩
  · rintro ⟨entrypoints, external, outputDir, outputPath⟩
    exact ⟨entrypoints, external, outputDir, outputPath, rfl, rfl⟩

/-- Names with commas, dashes and equals signs, an empty list, an empty path, and a replacement
that has equals signs in its new text. -/
theorem commandLine_like_settings_of_marks :
    let wanted : Preferences :=
      { entrypoints := some ["a.ts,,b.ts", "-i", ""], external := some [], outputDir := some "-o",
        outputPath := some "", minify := some false,
        replace := some (.ofList [("Deno.env", "a==b"), ("-", "")])
        writable := fun replacements found => by
          obtain rfl := Option.some.inj found
          decide +kernel }
    ∃ arguments,
      Arguments.parse ["--entrypoints=a.ts,,b.ts", "--entrypoints=-i", "--entrypoints=",
        "--outputDir=-o", "--outputPath=", "--no-minify", "--replace=Deno.env=a==b",
        "--replace=-="] = .ok arguments ∧
      arguments.options = .ofSettings wanted.settings ∧
      arguments.options.entrypoints = some ["a.ts", "b.ts", "-i"] ∧
      arguments.options.external = none := by
  intro wanted
  obtain ⟨arguments, parsed, same⟩ := commandLine_like_settings_iff wanted
  have unseparated : wanted.Unseparated := ⟨by decide, by decide, by decide, by decide⟩
  have words : wanted.words = ["--entrypoints=a.ts,,b.ts", "--entrypoints=-i", "--entrypoints=",
      "--outputDir=-o", "--outputPath=", "--no-minify", "--replace=Deno.env=a==b",
      "--replace=-="] := by
    decide +kernel
  have set := same.mpr unseparated
  refine ⟨arguments, words ▸ parsed, set, ?_, ?_⟩
  · rw [set]
    decide +kernel
  · rw [set]
    decide +kernel

/-- A name that is the separator is kept in settings, and on a command line it is another one. -/
theorem commandLine_unlike_settings :
    let wanted : Preferences :=
      { entrypoints := some ["--"], external := none, outputDir := none, outputPath := none,
        minify := none, replace := none, writable := fun _ found => by cases found }
    wanted.words = ["--entrypoints=--"] ∧
      (BuildOptions.ofSettings wanted.settings).entrypoints = some ["--"] ∧
      ∃ arguments, Arguments.parse wanted.words = .ok arguments ∧
        arguments.options.entrypoints = some ["[]"] ∧
        arguments.options ≠ .ofSettings wanted.settings := by
  intro wanted
  have parsed := wanted.commandLine_items ▸ Arguments.parse_commandLine wanted.items
  refine ⟨by decide +kernel, by decide +kernel, _, parsed, by decide +kernel, ?_⟩
  intro same
  exact absurd (congrArg BuildOptions.entrypoints same) (by decide +kernel)

end EsmBundle
