import KeyIntrospection.Run.Report

/-!
The statements that are executed, one after the other, when a script is run: all of them, or those up to
the first error that is not a failed expectation. The report and the environment at the end are made of
what came of each.
-/

namespace KeyIntrospection

open Script (Statement)

/-- A statement that was executed, what came of it, and the environment after it. -/
structure Execution where
  statement : Located Statement
  result : Except RunError Outcome
  environment : Environment

def Execution.report (e : Execution) : Report :=
  match e.result with
  | .ok outcome => .ofOutcome e.statement.span outcome
  | .error e => .ofError e

namespace Environment

/-- What is executed when statements are run. -/
def executions (env : Environment) : List (Located Statement) → List Execution
  | [] => []
  | s :: rest =>
    match env.execute s with
    | .ok (outcome, env') => ⟨s, .ok outcome, env'⟩ :: env'.executions rest
    | .error e => ⟨s, .error e, env⟩ :: if e.isExpectationFailure then env.executions rest else []

theorem run_eq_executions (env : Environment) (statements : List (Located Statement)) :
    env.run statements =
      ((env.executions statements).foldr (fun e r => e.report ++ r) {},
        (env.executions statements).foldl (fun _ e => e.environment) env) := by
  induction statements generalizing env with
  | nil => rfl
  | cons s rest ih =>
    rw [run, executions]
    cases env.execute s with
    | ok r =>
      obtain ⟨outcome, env'⟩ := r
      dsimp only
      rw [ih]
      rfl
    | error e =>
      dsimp only
      by_cases expectation : e.isExpectationFailure
      · rw [if_pos expectation, if_pos expectation, ih]
        rfl
      · rw [if_neg expectation, if_neg expectation]
        have alone : Report.ofError e ++ {} = Report.ofError e := by
          show Report.append _ _ = _
          simp [Report.append]
        exact congrArg (·, env) alone.symm

/-- Statements are executed in order from the first one on. -/
theorem executions_prefix (env : Environment) (statements : List (Located Statement)) :
    (env.executions statements).map Execution.statement <+: statements := by
  induction statements generalizing env with
  | nil => exact List.prefix_rfl
  | cons s rest ih =>
    unfold executions
    split
    · exact (List.prefix_cons_inj s).mpr (ih _)
    · refine (List.prefix_cons_inj s).mpr ?_
      split
      · exact ih _
      · exact List.nil_prefix

end Environment

end KeyIntrospection
