import EsmBundle.Proofs.CommandLine.Values
import EsmBundle.Proofs.Precedence
import EsmBundle.Proofs.Text.Split
import Mathlib.Data.List.Flatten

/-!
The names that settings give for a list option.

The names are meant to be the pieces between commas of strings and numbers: of the value of the
setting, or of the items of its list. A value of another type is meant to give none. But an
object gives the names of its members, a truth value its word, and an item of a list that is
neither string nor number its own text, so such values make up names.

* `Json.ownNames`, `Json.MakesUpNames` — the names that are meant, and the values that give others.
* `Json.names_eq_ownNames_iff` — a value gives the names that are meant exactly when it makes up
  none.
* `Settings.ignoresWrongTypes_iff` — the same of settings, for both list options.
-/

namespace EsmBundle

namespace Json

/-! ### Strings and numbers -/

/-- A string or a number. -/
def isNameValue : Json → Bool
  | .string _ | .int _ | .real _ => true
  | _ => false

/-- The strings and numbers that a list option is given: the items of a list that are one, or else
the value itself if it is one. -/
def ownValues : Json → List Json
  | .array items => items.filter isNameValue
  | value => if value.isNameValue then [value] else []

/-- The names in the strings and numbers of a list option. -/
def ownNames (value : Json) : List String :=
  value.ownValues.flatMap fun item => commaPieces item.display

/-- A value that gives names without being a string or a number, or a list of those. -/
inductive MakesUpNames : Json → Prop
  | bool (flag : Bool) : MakesUpNames (.bool flag)
  | member {members : List (String × Json)} {member : String × Json} (mem : member ∈ members)
      (visible : commaPieces member.1 ≠ []) : MakesUpNames (.object members)
  | item {items : List Json} {item : Json} (mem : item ∈ items)
      (wrong : item.isNameValue = false) : MakesUpNames (.array items)

theorem commaPieces_ne_nil {text : String} {c : Char} (mem : c ∈ text.toList)
    (visible : c ≠ ',') : commaPieces text ≠ [] := by
  intro none
  have whole := flatten_commaPieces text
  rw [none, List.flatMap_nil] at whole
  have kept : c ∈ text.toList.filter (· ≠ ',') := List.mem_filter.mpr ⟨mem, by simpa using visible⟩
  rw [← whole] at kept
  cases kept

/-- The text of a value that is neither string nor number is never blank. -/
theorem commaPieces_display_ne_nil {item : Json} (wrong : item.isNameValue = false) :
    commaPieces item.display ≠ [] := by
  cases item with
  | null => exact commaPieces_ne_nil (c := 'N') (by decide) (by decide)
  | bool flag =>
    cases flag with
    | true => exact commaPieces_ne_nil (c := 'T') (by decide) (by decide)
    | false => exact commaPieces_ne_nil (c := 'F') (by decide) (by decide)
  | array items =>
    exact commaPieces_ne_nil (c := '[') (by simp [display, displayInner]) (by decide)
  | object members =>
    exact commaPieces_ne_nil (c := '\x7b') (by simp [display, displayInner]) (by decide)
  | int n => cases wrong
  | real x => cases wrong
  | string text => cases wrong

/-! ### The names that a value gives -/

/-- The names that are meant are among those that are given, in their order. -/
theorem ownNames_sublist (value : Json) : value.ownNames.Sublist value.names := by
  cases value with
  | array items => exact List.Sublist.flatMap List.filter_sublist _
  | int n => exact List.Sublist.refl _
  | real x => exact List.Sublist.refl _
  | string text => exact List.Sublist.refl _
  | null => exact List.nil_sublist _
  | bool flag => exact List.nil_sublist _
  | object members => exact List.nil_sublist _

/-- Items left out of a list are missed in what all items give, unless they give nothing. -/
theorem flatMap_filter_eq_iff {α β : Type} {keep : α → Bool} {give : α → List β} {xs : List α} :
    (xs.filter keep).flatMap give = xs.flatMap give ↔
      ∀ x ∈ xs, keep x = false → give x = [] := by
  induction xs with
  | nil => simp
  | cons x rest ih =>
    rw [List.forall_mem_cons, ← ih]
    cases kept : keep x with
    | true => simp [kept]
    | false =>
      have shorter : ((rest.filter keep).flatMap give).length ≤ (rest.flatMap give).length :=
        (List.Sublist.flatMap List.filter_sublist give).length_le
      rw [List.filter_cons_of_neg (by simp [kept]), List.flatMap_cons]
      constructor
      · intro same
        have lengths := congrArg List.length same
        rw [List.length_append] at lengths
        have nothing : give x = [] := List.eq_nil_of_length_eq_zero (by omega)
        rw [nothing, List.nil_append] at same
        exact ⟨fun _ => nothing, same⟩
      · rintro ⟨nothing, same⟩
        rw [nothing rfl, List.nil_append, same]

/-- **A value gives the names that are meant** exactly when it makes up none. -/
theorem names_eq_ownNames_iff {value : Json} :
    value.names = value.ownNames ↔ ¬ value.MakesUpNames := by
  cases value with
  | null => exact iff_of_true rfl (by rintro ⟨⟩)
  | int n => exact iff_of_true rfl (by rintro ⟨⟩)
  | real x => exact iff_of_true rfl (by rintro ⟨⟩)
  | string text => exact iff_of_true rfl (by rintro ⟨⟩)
  | bool flag =>
    refine iff_of_false ?_ (not_not_intro (.bool flag))
    have word : (Json.bool flag).names = commaPieces (Json.bool flag).display :=
      List.flatMap_singleton _ _
    rw [word]
    exact commaPieces_display_ne_nil rfl
  | array items =>
    have given : (Json.array items).names = items.flatMap fun item => commaPieces item.display :=
      rfl
    rw [given, eq_comm, ownNames, ownValues, flatMap_filter_eq_iff]
    constructor
    · intro none makesUp
      cases makesUp with
      | item mem wrong => exact commaPieces_display_ne_nil wrong (none _ mem wrong)
    · intro honest item mem wrong
      exact absurd (MakesUpNames.item mem wrong) honest
  | object members =>
    have given : (Json.object members).names =
        members.flatMap fun member => commaPieces member.1 := by
      rw [names, listValues, List.flatMap_map]
      rfl
    have meant : (Json.object members).ownNames = [] := rfl
    rw [given, meant, List.flatMap_eq_nil_iff]
    constructor
    · intro none makesUp
      cases makesUp with
      | member mem visible => exact visible (none _ mem)
    · intro honest member mem
      exact Decidable.byContradiction fun visible => honest (.member mem visible)

end Json

/-! ### Settings -/

namespace Settings

/-- The names that are meant by a list option among settings, none if it is not there. -/
def ownNames (settings : Settings) (key : String) : List String :=
  ((findEntry key settings).map Json.ownNames).getD []

/-- **Values of the wrong type are ignored**: a list option is set to the names in the strings and
numbers that it is given, and is left unset if there are none, for another source to set it. -/
structure IgnoresWrongTypes (settings : Settings) : Prop where
  entrypoints :
    (BuildOptions.ofSettings settings).entrypoints = nonemptyList (settings.ownNames "entrypoints")
  external :
    (BuildOptions.ofSettings settings).external = nonemptyList (settings.ownNames "external")

/-- A list option of settings is set to the names that are meant exactly when its value makes up
none. -/
theorem names_eq_ownNames_iff (settings : Settings) (key : String) :
    settings.names key = settings.ownNames key ↔
      ∀ value, findEntry key settings = some value → ¬ value.MakesUpNames := by
  rw [names, ownNames]
  cases findEntry key settings with
  | none => simp
  | some value => simp [Json.names_eq_ownNames_iff]

theorem ownNames_sublist (settings : Settings) (key : String) :
    (settings.ownNames key).Sublist (settings.names key) := by
  rw [names, ownNames]
  cases findEntry key settings with
  | none => exact List.Sublist.refl _
  | some value => exact value.ownNames_sublist

/-- **Settings that ignore wrong types** are those in which neither list option has a value that
makes up names. In all settings the names that are meant are among those that are set, in their
order. -/
theorem ignoresWrongTypes_iff (settings : Settings) :
    (settings.IgnoresWrongTypes ↔
      ∀ key ∈ ["entrypoints", "external"], ∀ value,
        findEntry key settings = some value → ¬ value.MakesUpNames) ∧
      (settings.ownNames "entrypoints").Sublist
        ((BuildOptions.ofSettings settings).entrypoints.getD []) ∧
      (settings.ownNames "external").Sublist
        ((BuildOptions.ofSettings settings).external.getD []) := by
  have meant : settings.IgnoresWrongTypes ↔
      settings.names "entrypoints" = settings.ownNames "entrypoints" ∧
        settings.names "external" = settings.ownNames "external" := by
    rw [← nonemptyList_inj, ← @nonemptyList_inj _ (settings.names "external")]
    have set := BuildOptions.ofSettings_eq settings
    constructor
    · rintro ⟨entrypoints, external⟩
      rw [set] at entrypoints external
      exact ⟨entrypoints, external⟩
    · rintro ⟨entrypoints, external⟩
      exact ⟨by rw [set, ← entrypoints], by rw [set, ← external]⟩
  refine ⟨?_, ?_, ?_⟩
  · rw [meant, names_eq_ownNames_iff, names_eq_ownNames_iff]
    simp
  · rw [BuildOptions.ofSettings_eq, getD_nonemptyList]
    exact settings.ownNames_sublist "entrypoints"
  · rw [BuildOptions.ofSettings_eq, getD_nonemptyList]
    exact settings.ownNames_sublist "external"

/-- A truth value is taken for the name of a package, and an item that is `null` or a list for entry
points. -/
theorem not_ignoresWrongTypes_of_words :
    let settings : Settings :=
      [("entrypoints", .array [.null, .array [.string "a.ts"]]), ("external", .bool true)]
    (BuildOptions.ofSettings settings).entrypoints = some ["None", "['a.ts']"] ∧
      (BuildOptions.ofSettings settings).external = some ["True"] ∧
      settings.ownNames "entrypoints" = [] ∧ settings.ownNames "external" = [] ∧
      ¬ settings.IgnoresWrongTypes := by
  intro settings
  have set : (BuildOptions.ofSettings settings).external = some ["True"] := by decide +kernel
  refine ⟨by decide +kernel, set, by decide +kernel, by decide +kernel, ?_⟩
  intro ignores
  have meant : nonemptyList (settings.ownNames "external") = none := by decide +kernel
  rw [ignores.external, meant] at set
  cases set

end Settings

end EsmBundle
