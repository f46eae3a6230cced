import EsmBundle.Proofs.FileTree.PathText
import EsmBundle.Proofs.FileTree.Walk

/-!
How long paths are, and what they lead through.

The names that a path leads down by were all written in it. So a path that leads to names below
another path is at least as long as that path with just these names behind it, in whatever
way it goes there.

* `Path.foldl_join` — names that are joined to a path one after another.
* `exists_of_followAll` — where steps lead: the beginning of a location, and some of the steps.
* `FileSystem.size_foldl_join_le` — names below a path are no longer than what leads to them.
-/

namespace EsmBundle

namespace Path

variable {path name : String} {names : List String}

/-! ### Joining -/

theorem IsName.relative (isName : IsName name) : name.toList.head? ≠ some '/' :=
  fun first => isName.2 (List.mem_of_mem_head? first)

theorem IsName.getLast? (isName : IsName name) : name.toList.getLast? ≠ some '/' :=
  fun last => isName.2 (List.mem_of_getLast? last)

/-- What is put between a path and a relative name. -/
def gap (path : String) : String :=
  if path.isEmpty || path.toList.getLast? = some '/' then "" else "/"

/-- A relative name is put behind the path and what is between them. -/
theorem join_eq_append (path : String) (relative : name.toList.head? ≠ some '/') :
    join path name = path ++ gap path ++ name := by
  rw [join, if_neg relative, gap]
  split <;> simp

/-- Behind a name comes a slash. -/
theorem gap_append (before : String) (isName : IsName name) : gap (before ++ name) = "/" := by
  have visible : (before ++ name).isEmpty = false := by
    have some : name ≠ "" := fun empty => isName.1 (by rw [empty]; rfl)
    simp [some]
  have last : (before ++ name).toList.getLast? ≠ some '/' := by
    obtain ⟨c, ends⟩ := Option.ne_none_iff_exists'.mp (mt List.getLast?_eq_none_iff.mp isName.1)
    rw [String.toList_append, List.getLast?_append, ends, Option.some_or, ← ends]
    exact isName.getLast?
  rw [gap, visible, Bool.false_or, decide_eq_false last, if_neg Bool.false_ne_true]

/-- **Names that are joined to a path one after another** are joined to it by single slashes. -/
theorem foldl_join (path : String) (some : names ≠ []) (areNames : ∀ name ∈ names, IsName name) :
    names.foldl join path = join path ("/".intercalate names) := by
  induction names generalizing path with
  | nil => exact absurd rfl some
  | cons name rest ih =>
    obtain ⟨isName, others⟩ := List.forall_mem_cons.mp areNames
    rw [List.foldl_cons]
    cases rest with
    | nil => rw [List.foldl_nil, String.intercalate_singleton]
    | cons next rest =>
      have first := head?_intercalate_ne areNames
      rw [ih _ (List.cons_ne_nil _ _) others, join_eq_append _ (head?_intercalate_ne others),
        join_eq_append _ isName.relative, gap_append _ isName, join_eq_append _ first,
        String.intercalate_cons_cons]
      simp only [String.append_assoc]

/-! ### Lengths -/

/-- How many bytes names take with a slash for each of them. -/
def extent : List String → Nat
  | [] => 0
  | name :: rest => name.utf8ByteSize + 1 + extent rest

theorem extent_append (names more : List String) :
    extent (names ++ more) = extent names + extent more := by
  induction names with
  | nil => simp [extent]
  | cons name rest ih =>
    rw [List.cons_append, extent, extent, ih]
    omega

theorem extent_le_of_sublist {more : List String} (sublist : names.Sublist more) :
    extent names ≤ extent more := by
  induction sublist with
  | slnil => exact Nat.le_refl _
  | cons name _ ih => exact Nat.le_add_left_of_le ih
  | cons_cons name _ ih => exact Nat.add_le_add_left ih _

/-- The pieces of a text take as many bytes as the text and one more separator. -/
theorem extent_splitAt (cs : List Char) :
    extent ((splitAt '/' cs).map String.ofList) = (String.ofList cs).utf8ByteSize + 1 := by
  induction cs with
  | nil => rfl
  | cons c rest ih =>
    have whole : (String.ofList (c :: rest)).utf8ByteSize =
        (String.ofList [c]).utf8ByteSize + (String.ofList rest).utf8ByteSize := by
      rw [← String.utf8ByteSize_append, ← String.ofList_append, List.singleton_append]
    rw [whole, splitAt]
    split
    · rename_i slash
      have one : (String.ofList ['/']).utf8ByteSize = 1 := rfl
      have none : (String.ofList []).utf8ByteSize = 0 := rfl
      rw [slash, one, List.map_cons, extent, none, ih]
      omega
    · cases pieces : splitAt '/' rest with
      | nil => exact absurd pieces (splitAt_ne_nil '/' rest)
      | cons piece others =>
        have longer : (String.ofList (c :: piece)).utf8ByteSize =
            (String.ofList [c]).utf8ByteSize + (String.ofList piece).utf8ByteSize := by
          rw [← String.utf8ByteSize_append, ← String.ofList_append, List.singleton_append]
        rw [pieces, List.map_cons, extent] at ih
        dsimp only
        rw [List.map_cons, extent, longer]
        omega

/-- The names of a path are no longer than the path, save for one slash. -/
theorem extent_names_le (cs : List Char) :
    extent (Path.names cs) ≤ (String.ofList cs).utf8ByteSize + 1 := by
  rw [← extent_splitAt]
  exact extent_le_of_sublist (List.filter_sublist.map _)

/-- The names of an absolute path are no longer than the path. -/
theorem extent_steps_le (absolute : (ofString name).absolute = true) :
    extent (ofString name).steps ≤ name.utf8ByteSize := by
  obtain ⟨rest, chars⟩ : ∃ rest, name.toList = '/' :: rest :=
    List.head?_eq_some_iff.mp (by simpa [ofString] using absolute)
  have below : (ofString name).steps = Path.names rest := by
    rw [ofString, chars, ← List.nil_append ('/' :: rest), names_append_slash]
    rfl
  have whole : name.utf8ByteSize = 1 + (String.ofList rest).utf8ByteSize := by
    rw [← String.ofList_toList (s := name), chars, ← List.singleton_append, String.ofList_append,
      String.utf8ByteSize_append]
    rfl
  rw [below, whole, Nat.add_comm]
  exact extent_names_le rest

/-- How many bytes names take that are joined by single slashes. -/
theorem size_intercalate (some : names ≠ []) :
    ("/".intercalate names).utf8ByteSize + 1 = extent names := by
  induction names with
  | nil => exact absurd rfl some
  | cons name rest ih =>
    cases rest with
    | nil => simp [extent]
    | cons next rest =>
      have one : "/".utf8ByteSize = 1 := rfl
      have later := ih (List.cons_ne_nil next rest)
      rw [String.intercalate_cons_cons, String.utf8ByteSize_append, String.utf8ByteSize_append,
        extent, one]
      omega

/-- A path is no longer than with names joined to it. -/
theorem size_le_foldl_join (path : String) (areNames : ∀ name ∈ names, IsName name) :
    path.utf8ByteSize ≤ (names.foldl join path).utf8ByteSize := by
  induction names generalizing path with
  | nil => exact Nat.le_refl _
  | cons name rest ih =>
    obtain ⟨isName, others⟩ := List.forall_mem_cons.mp areNames
    refine Nat.le_trans ?_ (ih (join path name) others)
    rw [join_eq_append path isName.relative, String.utf8ByteSize_append,
      String.utf8ByteSize_append]
    omega

/-- A path that writes its steps without a needless slash. -/
def IsTight (path : String) : Prop :=
  path = (if (ofString path).absolute then "/" else "") ++ "/".intercalate (ofString path).steps

instance (path : String) : Decidable (IsTight path) :=
  inferInstanceAs (Decidable (_ = _))

/-- Such a path is no longer than its steps. -/
theorem IsTight.size_le (tight : IsTight path) :
    path.utf8ByteSize + (gap path).utf8ByteSize ≤ extent (ofString path).steps + 1 := by
  have root : (if (ofString path).absolute then "/" else "").utf8ByteSize ≤ 1 := by
    split <;> decide
  have between : (gap path).utf8ByteSize ≤ 1 := by
    rw [gap]
    split <;> decide
  have whole := congrArg String.utf8ByteSize tight
  rw [String.utf8ByteSize_append] at whole
  by_cases none : (ofString path).steps = []
  · -- Without steps the path is the root, or nothing.
    rw [IsTight, none] at tight
    have noGap : gap path = "" := by
      rw [tight]
      split <;> rfl
    have empty : ("/".intercalate []).utf8ByteSize = 0 := rfl
    have zero : "".utf8ByteSize = 0 := rfl
    rw [none, empty] at whole
    rw [noGap, zero]
    omega
  · have joined := size_intercalate none
    omega

end Path

/-! ### Where steps lead -/

/-- **Where steps lead**: to the beginning of the location that they start from, and from there down
by some of the steps. -/
theorem exists_of_followAll (location : Location) (steps : List String) :
    ∃ kept taken, kept <+: location ∧
      taken.Sublist (steps.filter fun step => !FileSystem.isDots step) ∧
      followAll location steps = kept ++ taken := by
  induction steps generalizing location with
  | nil => exact ⟨location, [], List.prefix_rfl, List.Sublist.slnil, (List.append_nil _).symm⟩
  | cons step rest ih =>
    obtain ⟨kept, taken, begins, sublist, ends⟩ := ih (followStep location step)
    rw [followAll, List.foldl_cons]
    cases dots : FileSystem.isDots step with
    | false =>
      rw [List.filter_cons_of_pos (by simp [dots])]
      rw [followStep_of_plain location dots, List.prefix_concat_iff] at begins
      rcases begins with rfl | begins
      · exact ⟨location, step :: taken, List.prefix_rfl, sublist.cons_cons step,
          ends.trans (List.append_cons location step taken).symm⟩
      · exact ⟨kept, taken, begins, sublist.cons step, ends⟩
    | true =>
      rw [List.filter_cons_of_neg (by simp [dots])]
      refine ⟨kept, taken, begins.trans ?_, sublist, ends⟩
      unfold followStep
      split
      · exact List.prefix_rfl
      · rename_i notHere
        have up : step = ".." := by simpa [FileSystem.isDots, notHere] using dots
        rw [if_pos up]
        exact List.dropLast_prefix location

namespace FileSystem

variable {fs : FileSystem} {path name : String} {names : List String}

/-- Names below a path were written in what leads to them. -/
theorem sublist_of_target_join
    (leads : fs.target (Path.join path name) = fs.target path ++ names) :
    names.Sublist ((Path.ofString name).steps.filter fun step => !isDots step) ∧
      ((Path.ofString name).absolute = true →
        (fs.target path ++ names).Sublist
          ((Path.ofString name).steps.filter fun step => !isDots step)) := by
  cases absolute : (Path.ofString name).absolute with
  | true =>
    have alone : Path.join path name = name := by
      rw [Path.join, if_pos (by simpa [Path.ofString] using absolute)]
    obtain ⟨kept, taken, begins, sublist, ends⟩ := exists_of_followAll [] (Path.ofString name).steps
    obtain rfl := List.prefix_nil.mp begins
    rw [alone, target, start, absolute, if_pos rfl, ends, List.nil_append] at leads
    have whole : (fs.target path ++ names).Sublist
        ((Path.ofString name).steps.filter fun step => !isDots step) := leads ▸ sublist
    exact ⟨(List.sublist_append_right _ _).trans whole, fun _ => whole⟩
  | false =>
    have relative : name.toList.head? ≠ some '/' := by
      simpa [Path.ofString] using absolute
    obtain ⟨same, steps⟩ := Path.ofString_join path relative
    rw [target, steps, followAll_append, start, same] at leads
    obtain ⟨kept, taken, begins, sublist, ends⟩ :=
      exists_of_followAll (fs.target path) (Path.ofString name).steps
    have split : kept ++ taken = fs.target path ++ names := ends.symm.trans leads
    obtain ⟨more, rest⟩ := begins
    rw [← rest, List.append_assoc, List.append_cancel_left_eq] at split
    refine ⟨(List.sublist_append_right more names).trans (split ▸ sublist), ?_⟩
    rintro ⟨⟩

/-- **Names below a path**, joined to it one after another, are no longer than what leads to
them. -/
theorem size_foldl_join_le
    (plain : ∀ step ∈ (Path.ofString path).steps, isDots step = false)
    (tight : Path.IsTight path)
    (leads : fs.target (Path.join path name) = fs.target path ++ names) (some : names ≠ []) :
    (names.foldl Path.join path).utf8ByteSize ≤ (Path.join path name).utf8ByteSize := by
  obtain ⟨sublist, whole⟩ := sublist_of_target_join leads
  have areNames : ∀ name ∈ names, Path.IsName name := fun name mem =>
    Path.isName_of_mem_names (List.mem_filter.mp (sublist.subset mem)).1
  have extents := Path.size_intercalate some
  rw [Path.foldl_join path some areNames,
    Path.join_eq_append path (Path.head?_intercalate_ne areNames), String.utf8ByteSize_append,
    String.utf8ByteSize_append]
  cases absolute : (Path.ofString name).absolute with
  | true =>
    have alone : Path.join path name = name := by
      rw [Path.join, if_pos (by simpa [Path.ofString] using absolute)]
    have below := Path.extent_le_of_sublist ((whole absolute).trans List.filter_sublist)
    have steps : Path.extent (Path.ofString path).steps ≤ Path.extent (fs.target path) := by
      rw [target, followAll_of_plain _ plain]
      exact Path.extent_le_of_sublist (List.sublist_append_right _ _)
    have short := tight.size_le
    have length := Path.extent_steps_le absolute
    rw [Path.extent_append] at below
    rw [alone]
    omega
  | false =>
    have relative : name.toList.head? ≠ Option.some '/' := by
      simpa [Path.ofString] using absolute
    have below := Path.extent_le_of_sublist (sublist.trans List.filter_sublist)
    have length := Path.extent_names_le name.toList
    rw [String.ofList_toList] at length
    have length : Path.extent (Path.ofString name).steps ≤ name.utf8ByteSize + 1 := length
    rw [Path.join_eq_append path relative, String.utf8ByteSize_append, String.utf8ByteSize_append]
    omega

end FileSystem

end EsmBundle
