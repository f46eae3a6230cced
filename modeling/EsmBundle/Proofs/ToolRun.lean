import EsmBundle.Process

/-!
When a run of the external tool succeeds.
-/

namespace EsmBundle

/-- A run succeeds exactly when its process exits with status zero, with what that printed. -/
theorem Tool.result_eq_ok_iff {tool : Tool} {command : List String} {outcome : Outcome}
    {output : String} :
    tool.result command outcome = .ok output ↔
      ∃ stdout stderr emitted, outcome = .exited 0 stdout stderr emitted ∧
        output = outputText stdout := by
  cases outcome with
  | refused => simp [Tool.result]
  | notStarted code text subject => simp [Tool.result]
  | exited status stdout stderr emitted =>
    by_cases zero : status = 0
    · subst zero
      simp [Tool.result, eq_comm]
    · simp [Tool.result, zero]

/-- A run is refused exactly when its command is. -/
theorem Tool.result_eq_refused_iff {tool : Tool} {command : List String} {outcome : Outcome} :
    tool.result command outcome = .error .refused ↔ outcome = .refused := by
  cases outcome with
  | refused => simp [Tool.result]
  | notStarted code text subject => simp [Tool.result]
  | exited status stdout stderr emitted =>
    by_cases zero : status = 0 <;> simp [Tool.result, zero]

end EsmBundle
