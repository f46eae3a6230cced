/-!
Steps that may fail, seen from a success: what succeeded before it, and what it gave.
-/

namespace EsmBundle

/-- A step that succeeds passes its result on. -/
theorem ok_bind {α β ε : Type} (a : α) (next : α → Except ε β) : (.ok a >>= next) = next a := rfl

/-- A chain of steps that succeeds does so in each of them. -/
theorem exists_of_bind_eq_ok {α β ε : Type} {first : Except ε α} {next : α → Except ε β} {b : β}
    (chain : (first >>= next) = .ok b) : ∃ a, first = .ok a ∧ next a = .ok b := by
  cases first with
  | error e => cases chain
  | ok a => exact ⟨a, rfl, chain⟩

/-- A chain of steps succeeds exactly when each of them does. -/
theorem bind_eq_ok_iff {α β ε : Type} {first : Except ε α} {next : α → Except ε β} {b : β} :
    (first >>= next) = .ok b ↔ ∃ a, first = .ok a ∧ next a = .ok b := by
  constructor
  · intro chain
    exact exists_of_bind_eq_ok chain
  · rintro ⟨a, rfl, last⟩
    exact last

/-- What is left of a result is the result unless it is an error. -/
theorem eq_ok_of_toOption {α ε : Type} {result : Except ε α} {a : α}
    (some : result.toOption = some a) : result = .ok a := by
  cases result with
  | error e => cases some
  | ok b => exact congrArg Except.ok (Option.some.inj some)

/-- So is what is left of the first of two results. -/
theorem eq_ok_pair_of_toOption {α β ε : Type} {results : Except ε α × β} {a : α}
    (some : results.1.toOption = some a) : results = (.ok a, results.2) := by
  obtain ⟨first, second⟩ := results
  obtain rfl : first = .ok a := eq_ok_of_toOption some
  rfl

end EsmBundle
