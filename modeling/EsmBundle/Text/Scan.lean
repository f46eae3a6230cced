/-!
Scanning a text from left to right, and putting something else in the place of
what was found.

A scan takes the first find, goes on behind its end, and so never returns two
finds that overlap. Splicing replaces stretches of a text and keeps all that
lies between them.
-/

namespace EsmBundle

/-! ### Scanning -/

/-- The finds in a text, each with its position, from left to right. `find?` says
what begins at the front of a text and `width` how long a find is; `position`
is that of the text, whose first `skip` characters lie inside the last find. -/
def scan {α : Type} (find? : List Char → Option α) (width : α → Nat) :
    (position skip : Nat) → List Char → List (Nat × α)
  | _, _, [] => []
  | position, skip + 1, _ :: rest => scan find? width (position + 1) skip rest
  | position, 0, c :: rest =>
    match find? (c :: rest) with
    | some found => (position, found) :: scan find? width (position + 1) (width found - 1) rest
    | none => scan find? width (position + 1) 0 rest

/-- Every find is what `find?` says of the text at its position. -/
theorem find?_of_mem_scan {α : Type} {find? : List Char → Option α} {width : α → Nat}
    {cs : List Char} {position skip place : Nat} {found : α}
    (mem : (place, found) ∈ scan find? width position skip cs) :
    position ≤ place ∧ find? (cs.drop (place - position)) = some found := by
  induction cs generalizing position skip with
  | nil => simp [scan] at mem
  | cons c rest ih =>
    have later {skip : Nat} (mem : (place, found) ∈ scan find? width (position + 1) skip rest) :
        position ≤ place ∧ find? ((c :: rest).drop (place - position)) = some found := by
      obtain ⟨le, eq⟩ := ih mem
      refine ⟨by omega, ?_⟩
      rwa [show place - position = place - (position + 1) + 1 by omega, List.drop_succ_cons]
    cases skip with
    | succ skip => exact later (by simpa [scan] using mem)
    | zero =>
      simp only [scan] at mem
      split at mem
      · rename_i first here
        rcases List.mem_cons.1 mem with eq | mem
        · obtain ⟨rfl, rfl⟩ := Prod.mk.inj eq
          simpa using here
        · exact later mem
      · exact later mem

/-! ### Splicing -/

/-- A stretch of a text: the characters from `start` up to but not including `stop`. -/
structure Span where
  start : Nat
  stop : Nat
deriving DecidableEq, Repr

/-- A text that begins at `position`, with every span replaced; the spans come in order. -/
def splice (replacement : List Char) : (position : Nat) → List Char → List Span → List Char
  | _, cs, [] => cs
  | position, cs, span :: spans =>
    cs.take (span.start - position) ++ replacement ++
      splice replacement span.stop (cs.drop (span.stop - position)) spans

/-- Without spans a text stays as it is. -/
@[simp]
theorem splice_nil (replacement : List Char) (position : Nat) (cs : List Char) :
    splice replacement position cs [] = cs := rfl

end EsmBundle
