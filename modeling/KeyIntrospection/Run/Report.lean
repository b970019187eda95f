import KeyIntrospection.Run.Expectation

/-!
Executing statements. A statement either has an outcome and a new environment, or an error and no
effect. A script is executed up to its first error that is not a failed expectation, and its report
has the texts of the queries, the counts of the expectations and the errors, in the order of the
statements.
-/

namespace KeyIntrospection

/-- What an executed statement did. -/
inductive Outcome where
  | bound (name : String) (v : Value)
  | classDefined (name : String)
  | updated (name : String)
  | query (a : Answer)
  | passed

namespace Environment

open Script (Statement)

def execute (env : Environment) (s : Located Statement) :
    Except RunError (Outcome × Environment) := do
  match s.value with
  | .assign name e =>
    let v ← env.evaluate e.value
    return (.bound name.value v, env.bind name v)
  | .defineClass name declarations =>
    return (.classDefined name.value, env.defineClass name declarations)
  | .setAttribute object name value =>
    let o ← env.object object
    let o ← raiseAt s.span (o.setAttribute name.value value.value.toValue)
    return (.updated object.value, env.bind object (.object o))
  | .freeze object =>
    let o ← env.object object
    return (.updated object.value, env.bind object (.object o.freeze))
  | .query q => return (.query (← env.answer q), env)
  | .expect q m =>
    m.check (← env.answer q) s.span
    return (.passed, env)

end Environment

structure Report where
  /-- The texts of the queries that stand on their own, with their places. -/
  outputs : List (Located String) := []
  passed : Nat := 0
  failed : Nat := 0
  errors : List RunError := []
deriving DecidableEq

namespace Report

def append (r t : Report) : Report :=
  ⟨r.outputs ++ t.outputs, r.passed + t.passed, r.failed + t.failed, r.errors ++ t.errors⟩

instance : Append Report := ⟨append⟩

def isSuccess (r : Report) : Bool := r.errors.isEmpty

/-- The report on one statement that was executed. -/
def ofOutcome (span : Span) : Outcome → Report
  | .query a => { outputs := [⟨a.display, span⟩] }
  | .passed => { passed := 1 }
  | _ => {}

/-- The report on one statement that had an error. -/
def ofError (e : RunError) : Report :=
  { failed := if e.isExpectationFailure then 1 else 0, errors := [e] }

end Report

namespace Environment

open Script (Statement)

/-- Executes statements in order, up to the first error that is not a failed expectation. -/
def run (env : Environment) : List (Located Statement) → Report × Environment
  | [] => ({}, env)
  | s :: rest =>
    match env.execute s with
    | .ok (outcome, env') =>
      let (report, last) := env'.run rest
      (.ofOutcome s.span outcome ++ report, last)
    | .error e =>
      if e.isExpectationFailure then
        let (report, last) := env.run rest
        (.ofError e ++ report, last)
      else (.ofError e, env)

end Environment

end KeyIntrospection
