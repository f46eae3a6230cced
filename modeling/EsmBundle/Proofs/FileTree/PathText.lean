import EsmBundle.FileTree.Path
import EsmBundle.Proofs.Text.Split

/-!
Paths as texts, cut into names and put together again.

* `Path.names_intercalate` — names joined by single slashes are cut into the same names.
* `Path.ofString_join` — the path of a name below a path takes the steps of both.
* `Path.names_directory_append`, `Path.absolute_directory` — the directory part of a path
  starts where the path does, and takes all its steps but the last name.
-/

namespace EsmBundle

namespace Path

/-! ### Names -/

/-- A name that a path can take: it is not empty and has no slash. -/
def IsName (name : String) : Prop :=
  name.toList ≠ [] ∧ '/' ∉ name.toList

theorem isName_of_mem_names {cs : List Char} {name : String} (mem : name ∈ names cs) :
    IsName name := by
  obtain ⟨piece, kept, rfl⟩ := List.mem_map.mp mem
  obtain ⟨isPiece, nonempty⟩ := List.mem_filter.mp kept
  rw [IsName, String.toList_ofList]
  exact ⟨by simpa using nonempty, not_mem_of_mem_splitAt isPiece⟩

theorem names_append_slash (before after : List Char) :
    names (before ++ '/' :: after) = names before ++ names after := by
  rw [names, splitAt_append_separator, List.filter_append, List.map_append]
  rfl

theorem names_nil : names [] = [] := rfl

theorem names_toList {name : String} (isName : IsName name) : names name.toList = [name] := by
  rw [names, splitAt_of_not_mem isName.2]
  simp [isName.1]

/-- Names joined by single slashes are cut into the same names. -/
theorem names_intercalate {parts : List String} (areNames : ∀ name ∈ parts, IsName name) :
    names ("/".intercalate parts).toList = parts := by
  induction parts with
  | nil => rfl
  | cons name rest ih =>
    obtain ⟨isName, others⟩ := List.forall_mem_cons.mp areNames
    cases rest with
    | nil => rw [String.intercalate_singleton, names_toList isName]
    | cons next rest =>
      have slash : "/".toList = ['/'] := rfl
      rw [String.intercalate_cons_cons, String.toList_append, String.toList_append, slash,
        List.append_assoc, List.singleton_append, names_append_slash, names_toList isName,
        ih others, List.singleton_append]

/-- Joined names do not begin with a slash. -/
theorem head?_intercalate_ne {parts : List String} (areNames : ∀ name ∈ parts, IsName name) :
    ("/".intercalate parts).toList.head? ≠ some '/' := by
  have noSlash {name : String} (rest : List Char) (isName : IsName name) :
      (name.toList ++ rest).head? ≠ some '/' := by
    cases chars : name.toList with
    | nil => exact absurd chars isName.1
    | cons c cs =>
      intro first
      obtain rfl : c = '/' := by simpa using first
      exact isName.2 (chars ▸ List.mem_cons_self)
  match parts, areNames with
  | [], _ => simp
  | [name], areNames =>
    rw [String.intercalate_singleton, ← List.append_nil name.toList]
    exact noSlash [] (areNames name List.mem_cons_self)
  | name :: next :: rest, areNames =>
    rw [String.intercalate_cons_cons, String.toList_append, String.toList_append,
      List.append_assoc]
    exact noSlash _ (areNames name List.mem_cons_self)

/-! ### Joining -/

/-- The three ways to put a relative name below a path. -/
theorem join_of_relative (path : String) {name : String}
    (relative : name.toList.head? ≠ some '/') :
    (path = "" ∧ join path name = name) ∨
      (∃ before, path.toList = before ++ ['/'] ∧
        (join path name).toList = before ++ '/' :: name.toList) ∨
      (path ≠ "" ∧ (join path name).toList = path.toList ++ '/' :: name.toList) := by
  rw [join, if_neg relative]
  by_cases empty : path = ""
  · subst empty
    exact Or.inl ⟨rfl, by simp⟩
  · by_cases slash : path.toList.getLast? = some '/'
    · obtain ⟨before, same⟩ := List.getLast?_eq_some_iff.mp slash
      exact Or.inr (Or.inl ⟨before, same, by simp [same]⟩)
    · refine Or.inr (Or.inr ⟨empty, ?_⟩)
      have visible : path.isEmpty = false := by simpa using empty
      simp [slash, visible]

/-- A relative name below a path starts where the path does and takes the steps of both. -/
theorem ofString_join (path : String) {name : String} (relative : name.toList.head? ≠ some '/') :
    (ofString (join path name)).absolute = (ofString path).absolute ∧
      (ofString (join path name)).steps = (ofString path).steps ++ (ofString name).steps := by
  simp only [ofString]
  rcases join_of_relative path relative with ⟨rfl, same⟩ | ⟨before, whole, same⟩ | ⟨nonempty, same⟩
  · rw [same]
    exact ⟨by simpa using relative, rfl⟩
  · rw [same, whole, names_append_slash, names_append_slash, names_nil, List.append_nil]
    exact ⟨by cases before <;> simp, rfl⟩
  · rw [same, names_append_slash]
    refine ⟨?_, rfl⟩
    cases chars : path.toList with
    | nil => exact absurd (String.toList_eq_nil_iff.mp chars) nonempty
    | cons c cs => simp

/-! ### Directory parts -/

theorem slash_not_mem_lastName (cs : List Char) : '/' ∉ lastName cs := by
  intro mem
  rw [lastName, List.mem_reverse] at mem
  simpa using List.all_eq_true.mp (List.all_takeWhile (p := (· ≠ '/'))) '/' mem

/-- What leads up to the last slash is nothing or ends in that slash. -/
theorem upToSlash_eq_nil_or_concat (cs : List Char) :
    upToSlash cs = [] ∨ ∃ before, upToSlash cs = before ++ ['/'] := by
  have first := List.head?_dropWhile_not (· ≠ '/') cs.reverse
  rw [upToSlash]
  cases behind : cs.reverse.dropWhile (· ≠ '/') with
  | nil => exact Or.inl rfl
  | cons c rest =>
    rw [behind] at first
    obtain rfl : c = '/' := by simpa using first
    exact Or.inr ⟨rest.reverse, List.reverse_cons⟩

/-- Slashes at the end of a path are no names. -/
theorem names_append_slashes (before : List Char) {slashes : List Char}
    (areSlashes : ∀ c ∈ slashes, c = '/') : names (before ++ slashes) = names before := by
  induction slashes generalizing before with
  | nil => rw [List.append_nil]
  | cons c rest ih =>
    obtain ⟨rfl, others⟩ := List.forall_mem_cons.mp areSlashes
    have none : names rest = [] := ih [] others
    rw [names_append_slash, none, List.append_nil]

theorem exists_stripSlashes_append (cs : List Char) :
    ∃ slashes, (∀ c ∈ slashes, c = '/') ∧ stripSlashes cs ++ slashes = cs := by
  rw [stripSlashes]
  split
  · exact ⟨[], by simp, List.append_nil cs⟩
  · refine ⟨(cs.reverse.takeWhile (· = '/')).reverse, ?_, ?_⟩
    · intro c mem
      rw [List.mem_reverse] at mem
      simpa using List.all_eq_true.mp List.all_takeWhile c mem
    · rw [← List.reverse_append, List.takeWhile_append_dropWhile, List.reverse_reverse]

theorem names_stripSlashes (cs : List Char) : names (stripSlashes cs) = names cs := by
  obtain ⟨slashes, areSlashes, whole⟩ := exists_stripSlashes_append cs
  rw [← names_append_slashes _ areSlashes, whole]

/-- The names of a path are those of its directory part, and its last name. -/
theorem names_directory_append (cs : List Char) :
    names (directory cs) ++ names (lastName cs) = names cs := by
  have whole := upToSlash_append_lastName cs
  rw [directory, names_stripSlashes]
  rcases upToSlash_eq_nil_or_concat cs with none | ⟨before, some⟩
  · rw [none, List.nil_append] at whole
    rw [none, whole, names_nil, List.nil_append]
  · have cut : names (before ++ ['/']) = names before := by
      rw [names_append_slash, names_nil, List.append_nil]
    rw [some, List.append_assoc, List.singleton_append] at whole
    rw [some, cut, ← names_append_slash, whole]

/-- The last name of a path is a name unless there is none. -/
theorem names_lastName {cs : List Char} (nonempty : lastName cs ≠ []) :
    names (lastName cs) = [String.ofList (lastName cs)] := by
  rw [names, splitAt_of_not_mem (slash_not_mem_lastName cs)]
  simp [nonempty]

/-- Without its slashes at the end a path has a last name, unless it has no names. -/
theorem names_of_lastName_stripSlashes {cs : List Char} (none : lastName (stripSlashes cs) = []) :
    names cs = [] := by
  rw [stripSlashes] at none
  split at none
  · rename_i slashes
    exact names_append_slashes [] (by simpa [allSlashes] using slashes)
  · rename_i other
    have first := List.head?_dropWhile_not (· = '/') cs.reverse
    have whole := List.takeWhile_append_dropWhile (p := (· = '/')) (l := cs.reverse)
    rw [lastName, List.reverse_reverse, List.reverse_eq_nil_iff] at none
    cases kept : cs.reverse.dropWhile (· = '/') with
    | nil =>
      rw [kept, List.append_nil] at whole
      have all := List.all_takeWhile (p := (· = '/')) (l := cs.reverse)
      rw [whole, List.all_reverse] at all
      exact absurd all other
    | cons c rest =>
      rw [kept] at first none
      have noSlash : c ≠ '/' := by simpa using first
      simp [noSlash] at none

/-- A path is made of its directory part, slashes, and its last name. -/
theorem mem_directory {cs : List Char} {c : Char} (mem : c ∈ cs) :
    c ∈ directory cs ∨ c = '/' ∨ c ∈ lastName cs := by
  rw [← upToSlash_append_lastName cs, List.mem_append] at mem
  rcases mem with before | last
  · obtain ⟨slashes, areSlashes, whole⟩ := exists_stripSlashes_append (upToSlash cs)
    rw [← whole, List.mem_append] at before
    rcases before with part | slash
    · exact Or.inl part
    · exact Or.inr (Or.inl (areSlashes c slash))
  · exact Or.inr (Or.inr last)

/-- The directory part of a path is how the path begins. -/
theorem directory_begins (cs : List Char) : directory cs <+: cs := by
  obtain ⟨slashes, -, whole⟩ := exists_stripSlashes_append (upToSlash cs)
  refine List.IsPrefix.trans ⟨slashes, whole⟩ ⟨lastName cs, upToSlash_append_lastName cs⟩

theorem stripSlashes_ne_nil {cs : List Char} (nonempty : cs ≠ []) : stripSlashes cs ≠ [] := by
  intro empty
  obtain ⟨slashes, areSlashes, whole⟩ := exists_stripSlashes_append cs
  rw [empty, List.nil_append] at whole
  have all : allSlashes cs = true := by simpa [allSlashes, whole] using areSlashes
  rw [stripSlashes, if_pos all] at empty
  exact nonempty empty

/-- The directory part of a path starts where the path does. -/
theorem absolute_directory (cs : List Char) :
    (directory cs).head? = some '/' ↔ cs.head? = some '/' := by
  have whole := upToSlash_append_lastName cs
  rcases upToSlash_eq_nil_or_concat cs with none | ⟨before, some⟩
  · have noSlash := slash_not_mem_lastName cs
    rw [none, List.nil_append] at whole
    rw [whole] at noSlash
    have relative : cs.head? ≠ Option.some '/' := fun first => noSlash (List.mem_of_head? first)
    rw [directory, none]
    simpa [stripSlashes, allSlashes] using relative
  · have nonempty : directory cs ≠ [] := stripSlashes_ne_nil (by simp [some])
    obtain ⟨rest, same⟩ := directory_begins cs
    cases part : directory cs with
    | nil => exact absurd part nonempty
    | cons c others => rw [← same, part, List.cons_append, List.head?_cons, List.head?_cons]

/-- The directory part of a path starts where the path does and takes its first steps. -/
theorem ofString_directoryOf (text : String) :
    (ofString (directoryOf text)).absolute = (ofString text).absolute ∧
      (ofString (directoryOf text)).steps <+: (ofString text).steps := by
  simp only [ofString, directoryOf, String.toList_ofList, decide_eq_decide]
  exact ⟨absolute_directory _, ⟨_, names_directory_append _⟩⟩

end Path

end EsmBundle
