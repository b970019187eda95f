import KeyIntrospection.Proofs.Run.Execution
import KeyIntrospection.Proofs.Object.Lifecycle
import KeyIntrospection.Proofs.Script.Continuation
import Mathlib.Data.List.Forall2

/-!
What the report on a script says. Every statement is executed in the environment that the ones before it
left, up to the first that has an error other than a failed expectation. The report has an entry for each
of these executions and nothing else, so that of two scripts in a row the second is reported on as if it
were run alone, from where the first one ended.
-/

namespace KeyIntrospection

open Script (Statement Expression Name Query Literal)

namespace Report

variable (r t : Report)

theorem nil_append : ({} : Report) ++ r = r := by
  show Report.append _ _ = _
  simp [Report.append]

theorem append_assoc (u : Report) : r ++ t ++ u = r ++ (t ++ u) := by
  show Report.append (Report.append _ _) _ = Report.append _ (Report.append _ _)
  simp [Report.append, Nat.add_assoc]

end Report

/-- The result is no failed expectation. -/
def Unfailing {α : Type} (result : Except RunError α) : Prop :=
  ∀ e, result = .error e → e.isExpectationFailure = false

namespace Unfailing

variable {α β : Type}

theorem ok (a : α) : Unfailing (.ok a : Except RunError α) := fun _ same => by cases same

theorem error {e : RunError} (other : e.isExpectationFailure = false) : Unfailing (.error e : Except RunError α) :=
  fun _ same => Except.error.inj same ▸ other

theorem bind {result : Except RunError α} {f : α → Except RunError β} (first : Unfailing result)
    (second : ∀ a, Unfailing (f a)) : Unfailing (result >>= f) := by
  cases result with
  | error e => exact error (first e rfl)
  | ok a => exact second a

theorem map {result : Except RunError α} (f : α → β) (inner : Unfailing result) : Unfailing (result.map f) := by
  cases result with
  | error e => exact error (inner e rfl)
  | ok a => exact ok (f a)

theorem raiseAt (span : Span) (result : Except AccessError α) : Unfailing (Environment.raiseAt span result) := by
  cases result with
  | error e => exact error rfl
  | ok a => exact ok a

end Unfailing

namespace Environment

variable (env : Environment)

theorem unfailing_value (name : Name) : Unfailing (env.value name) := by
  unfold value
  split
  · exact .ok _
  · exact .error rfl

theorem unfailing_object (name : Name) : Unfailing (env.object name) := by
  refine (env.unfailing_value name).bind fun v => ?_
  cases v with
  | object o => exact .ok o
  | _ => exact .error rfl

theorem unfailing_instantiate (className : Name) (attributes : List Script.AttributeInit) :
    Unfailing (env.instantiate className attributes) := by
  unfold instantiate
  split
  · refine (Unfailing.raiseAt _ _).bind fun o => ?_
    induction attributes generalizing o with
    | nil => exact .ok o
    | cons a attributes ih =>
      rw [List.foldlM_cons]
      exact (Unfailing.raiseAt _ _).bind ih
  · exact .error rfl

theorem unfailing_evaluate (e : Expression) : Unfailing (env.evaluate e) := by
  cases e with
  | new className attributes => exact (env.unfailing_instantiate className attributes).map _
  | _ => exact .ok _

theorem unfailing_literalKey (key : Located Literal) : Unfailing (literalKey key) := by
  unfold literalKey
  split
  · exact .ok _
  · exact .error rfl

theorem unfailing_answer (q : Located Query) : Unfailing (env.answer q) := by
  obtain ⟨q, span⟩ := q
  cases q with
  | keyInfo object key => exact (env.unfailing_value object).bind fun v => (Unfailing.raiseAt _ _).bind fun _ => .ok _
  | keys object withInternal => exact (env.unfailing_object object).bind fun o => .ok _
  | read object key =>
    exact (env.unfailing_object object).bind fun o => (unfailing_literalKey key).bind fun _ =>
      (Unfailing.raiseAt _ _).bind fun _ => .ok _

end Environment

def Script.Statement.isExpectation : Statement → Bool
  | expect _ _ => true
  | _ => false

namespace Execution

def error? (e : Execution) : Option RunError :=
  match e.result with
  | .error e => some e
  | .ok _ => none

/-- What came of a statement that did not stop its script: a query has an answer, an expectation passed or
failed, and any other statement was done, with nothing to report. -/
def Fits (e : Execution) : Prop :=
  match e.statement.value with
  | .query _ => ∃ a, e.result = .ok (.query a)
  | .expect _ _ => e.result = .ok .passed ∨ ∃ x, e.result = .error x ∧ x.isExpectationFailure
  | _ => ∃ outcome, e.result = .ok outcome ∧ Report.ofOutcome e.statement.span outcome = {}

/-- The output is the text of what the query was answered, with the place of the statement. -/
def Shows (e : Execution) (output : Located String) : Prop :=
  output.span = e.statement.span ∧ ∃ a, e.result = .ok (.query a) ∧ output.value = a.display

end Execution

namespace Environment

variable {env env' last : Environment} {s : Located Statement} {done : List Execution} {stop : Option RunError}
  {statements : List (Located Statement)}

theorem fits_of_ok {outcome : Outcome} (done : env.execute s = .ok (outcome, env')) :
    Execution.Fits ⟨s, .ok outcome, env'⟩ := by
  obtain ⟨s, span⟩ := s
  cases s with
  | assign name e =>
    obtain ⟨v, _, same⟩ := exists_of_bind_eq_ok done
    cases same
    exact ⟨_, rfl, rfl⟩
  | defineClass name declarations =>
    cases done
    exact ⟨_, rfl, rfl⟩
  | setAttribute object name value =>
    obtain ⟨o, _, done⟩ := exists_of_bind_eq_ok done
    obtain ⟨o', _, same⟩ := exists_of_bind_eq_ok done
    cases same
    exact ⟨_, rfl, rfl⟩
  | freeze object =>
    obtain ⟨o, _, same⟩ := exists_of_bind_eq_ok done
    cases same
    exact ⟨_, rfl, rfl⟩
  | query q =>
    obtain ⟨a, _, same⟩ := exists_of_bind_eq_ok done
    cases same
    exact ⟨a, rfl⟩
  | expect q m =>
    obtain ⟨a, _, done⟩ := exists_of_bind_eq_ok done
    obtain ⟨_, _, same⟩ := exists_of_bind_eq_ok done
    cases same
    exact .inl rfl

/-- Only an expectation can fail as one. -/
theorem fits_of_failure {e : RunError} (failed : env.execute s = .error e) (expectation : e.isExpectationFailure) :
    Execution.Fits ⟨s, .error e, env⟩ := by
  obtain ⟨s, span⟩ := s
  have absurd {result : Except RunError (Outcome × Environment)} (unfailing : Unfailing result)
      (same : result = .error e) : False := by
    rw [unfailing e same] at expectation
    cases expectation
  cases s with
  | assign name e => exact (absurd ((env.unfailing_evaluate e.value).bind fun _ => .ok _) failed).elim
  | defineClass name declarations => cases failed
  | setAttribute object name value =>
    exact (absurd ((env.unfailing_object object).bind fun _ => (Unfailing.raiseAt _ _).bind fun _ => .ok _) failed).elim
  | freeze object => exact (absurd ((env.unfailing_object object).bind fun _ => .ok _) failed).elim
  | query q => exact (absurd ((env.unfailing_answer q).bind fun _ => .ok _) failed).elim
  | expect q m => exact .inr ⟨e, rfl, expectation⟩

/-- Statements that are executed one after the other, none of which stops the script. -/
inductive Completes : Environment → List Execution → Environment → Prop
  | nil (env : Environment) : Completes env [] env
  | done {env env' last : Environment} {s : Located Statement} {outcome : Outcome} {rest : List Execution} :
      env.execute s = .ok (outcome, env') → Completes env' rest last →
      Completes env (⟨s, .ok outcome, env'⟩ :: rest) last
  | failed {env last : Environment} {s : Located Statement} {e : RunError} {rest : List Execution} :
      env.execute s = .error e → e.isExpectationFailure → Completes env rest last →
      Completes env (⟨s, .error e, env⟩ :: rest) last

/-- The statements of a script that were executed without stopping it are all of its statements, or those
before the one with the error that stopped it. -/
def Ends (last : Environment) (statements : List (Located Statement)) (done : List Execution) :
    Option RunError → Prop
  | none => statements = done.map Execution.statement
  | some e => e.isExpectationFailure = false ∧
      ∃ s after, statements = done.map Execution.statement ++ s :: after ∧ last.execute s = .error e

theorem Completes.fits (completes : env.Completes done last) : ∀ e ∈ done, e.Fits := by
  induction completes with
  | nil => exact List.forall_mem_nil _
  | done ok _ ih => exact List.forall_mem_cons.mpr ⟨fits_of_ok ok, ih⟩
  | failed error expectation _ ih => exact List.forall_mem_cons.mpr ⟨fits_of_failure error expectation, ih⟩

theorem Ends.cons (ends : Ends last statements done stop) (e : Execution) :
    Ends last (e.statement :: statements) (e :: done) stop := by
  cases stop with
  | none => exact congrArg (e.statement :: ·) ends
  | some error =>
    obtain ⟨other, s, after, split, executed⟩ := ends
    exact ⟨other, s, after, congrArg (e.statement :: ·) split, executed⟩

theorem exists_completes (env : Environment) (statements : List (Located Statement)) :
    ∃ done stop last, env.Completes done last ∧ Ends last statements done stop := by
  induction statements generalizing env with
  | nil => exact ⟨[], none, env, .nil env, rfl⟩
  | cons s rest ih =>
    cases executed : env.execute s with
    | ok r =>
      obtain ⟨done, stop, last, completes, ends⟩ := ih r.2
      exact ⟨_, stop, last, .done executed completes, ends.cons ⟨s, .ok r.1, r.2⟩⟩
    | error e =>
      cases expectation : e.isExpectationFailure with
      | true =>
        obtain ⟨done, stop, last, completes, ends⟩ := ih env
        exact ⟨_, stop, last, .failed executed expectation completes, ends.cons ⟨s, .error e, env⟩⟩
      | false => exact ⟨[], some e, env, .nil env, expectation, s, rest, rfl, executed⟩

/-- The reports on executions, and after them another report. -/
def reportThen (done : List Execution) (r : Report) : Report := done.foldr (fun e r => e.report ++ r) r

theorem reportThen_append (done : List Execution) (r t : Report) :
    reportThen done (r ++ t) = reportThen done r ++ t := by
  induction done with
  | nil => rfl
  | cons e done ih =>
    show e.report ++ reportThen done (r ++ t) = _
    rw [ih, ← Report.append_assoc]
    rfl

/-- What does not stop a script is executed, and after it what the rest of the script executes. -/
theorem Completes.executions_append (completes : env.Completes done last) (rest : List (Located Statement)) :
    env.executions (done.map Execution.statement ++ rest) = done ++ last.executions rest := by
  induction completes with
  | nil => rfl
  | done executed _ ih =>
    rw [List.map_cons, List.cons_append, executions, executed]
    exact congrArg (_ :: ·) ih
  | failed executed expectation _ ih =>
    rw [List.map_cons, List.cons_append, executions, executed]
    dsimp only
    rw [if_pos expectation, ih]
    rfl

theorem Completes.last_eq (completes : env.Completes done last) : done.foldl (fun _ e => e.environment) env = last := by
  induction completes with
  | nil => rfl
  | done _ _ ih => exact ih
  | failed _ _ _ ih => exact ih

/-- Statements that do not stop a script are reported on, and what follows them is run from where they
ended. -/
theorem Completes.run_append (completes : env.Completes done last) (rest : List (Located Statement)) :
    env.run (done.map Execution.statement ++ rest) = (reportThen done (last.run rest).1, (last.run rest).2) := by
  rw [run_eq_executions, run_eq_executions last, completes.executions_append, List.foldr_append, List.foldl_append,
    completes.last_eq]
  rfl

theorem run_of_stopped {e : RunError} (executed : env.execute s = .error e)
    (other : e.isExpectationFailure = false) (rest : List (Located Statement)) :
    env.run (s :: rest) = (.ofError e, env) := by
  rw [run, executed]
  dsimp only
  rw [if_neg (by simp [other])]

/-- The report on the error that stopped a script, if one did. -/
def reportStop : Option RunError → Report
  | none => {}
  | some e => .ofError e

theorem Completes.run_eq (completes : env.Completes done last) (ends : Ends last statements done stop) :
    env.run statements = (reportThen done (reportStop stop), last) := by
  cases stop with
  | none =>
    have whole := completes.run_append []
    rw [List.append_nil] at whole
    rw [show statements = _ from ends, whole]
    rfl
  | some e =>
    obtain ⟨other, s, after, rfl, executed⟩ := ends
    rw [completes.run_append, run_of_stopped executed other]
    rfl

end Environment

/-- What the report on a script says about the statements that did not stop it, and about the error of the
one that did. -/
structure Report.Accounts (r : Report) (done : List Execution) (stop : Option RunError) : Prop where
  outputs : List.Forall₂ Execution.Shows (done.filter (·.statement.value.isQuery)) r.outputs
  expectations : r.passed + r.failed = done.countP (·.statement.value.isExpectation)
  failures : ∀ e ∈ done.filterMap Execution.error?, e.isExpectationFailure
  failed : r.failed = (done.filterMap Execution.error?).length
  errors : r.errors = done.filterMap Execution.error? ++ stop.toList

namespace Report.Accounts

variable {r : Report} {done : List Execution} {stop : Option RunError}

theorem isSuccess (accounts : r.Accounts done stop) : r.isSuccess ↔ r.failed = 0 ∧ stop = none := by
  rw [Report.isSuccess, accounts.errors, accounts.failed, List.isEmpty_iff, List.append_eq_nil_iff,
    List.length_eq_zero_iff, Option.toList_eq_nil_iff]

theorem ofStop (other : ∀ e ∈ stop, e.isExpectationFailure = false) :
    (Environment.reportStop stop).Accounts [] stop := by
  have uncounted : (Environment.reportStop stop).failed = 0 := by
    cases stop with
    | none => rfl
    | some e => simp [Environment.reportStop, Report.ofError, other e rfl]
  refine ⟨?_, ?_, List.forall_mem_nil _, uncounted, ?_⟩
  · cases stop <;> exact .nil
  · rw [uncounted]
    cases stop <;> rfl
  · cases stop <;> rfl

/-- One more execution before the others. -/
theorem cons {e : Execution} (fits : e.Fits) (accounts : r.Accounts done stop) :
    (e.report ++ r).Accounts (e :: done) stop := by
  obtain ⟨⟨s, span⟩, result, environment⟩ := e
  obtain ⟨outputs, expectations, failures, failed, errors⟩ := accounts
  cases s with
  | query q =>
    obtain ⟨a, rfl⟩ := fits
    refine ⟨.cons ⟨rfl, a, rfl, rfl⟩ outputs, ?_, failures, ?_, errors⟩
    · rw [List.countP_cons_of_neg Bool.false_ne_true, ← expectations]
      show 0 + r.passed + (0 + r.failed) = _
      omega
    · show 0 + r.failed = (done.filterMap Execution.error?).length
      omega
  | expect q m =>
    rcases fits with passed | ⟨x, failure, expectation⟩
    · cases passed
      refine ⟨outputs, ?_, failures, ?_, errors⟩
      · rw [List.countP_cons_of_pos rfl, ← expectations]
        show 1 + r.passed + (0 + r.failed) = _
        omega
      · show 0 + r.failed = (done.filterMap Execution.error?).length
        omega
    · cases failure
      have counted : (Report.ofError x).failed = 1 := if_pos expectation
      refine ⟨outputs, ?_, List.forall_mem_cons.mpr ⟨expectation, failures⟩, ?_, congrArg (x :: ·) errors⟩
      · rw [List.countP_cons_of_pos rfl, ← expectations]
        show 0 + r.passed + ((Report.ofError x).failed + r.failed) = _
        omega
      · show (Report.ofError x).failed + r.failed = (done.filterMap Execution.error?).length + 1
        omega
  | _ =>
    obtain ⟨outcome, rfl, nothing⟩ := fits
    have silent : Execution.report ⟨⟨_, span⟩, .ok outcome, environment⟩ = {} := nothing
    rw [silent, Report.nil_append]
    exact ⟨outputs, by rw [List.countP_cons_of_neg Bool.false_ne_true, expectations], failures, failed, errors⟩

theorem reportThen (fits : ∀ e ∈ done, e.Fits) (accounts : r.Accounts [] stop) :
    (Environment.reportThen done r).Accounts done stop := by
  induction done with
  | nil => exact accounts
  | cons e done ih =>
    obtain ⟨first, others⟩ := List.forall_mem_cons.mp fits
    exact (ih others).cons first

end Report.Accounts

namespace Environment

/-- Two scripts in a row are run as the first and then, if nothing stopped it, the second from where it
ended; after the statement that stops a script no other has any effect. The report accounts for what was
executed: the texts of the queries, the counts of the expectations, the failures in order and after them
the error that stopped the script. -/
theorem run_append_accounted (env : Environment) (statements : List (Located Statement)) :
    ∃ done stop, env.Completes done (env.run statements).2 ∧ Ends (env.run statements).2 statements done stop ∧
      (env.run statements).1.Accounts done stop ∧
      ((env.run statements).1.isSuccess ↔ (env.run statements).1.failed = 0 ∧ stop = none) ∧
      (stop = none → ∀ more, env.run (statements ++ more) =
        ((env.run statements).1 ++ ((env.run statements).2.run more).1, ((env.run statements).2.run more).2)) ∧
      (stop ≠ none → (∀ more, env.run (statements ++ more) = env.run statements) ∧
        ∀ s after other, statements = done.map Execution.statement ++ s :: after →
          env.run (done.map Execution.statement ++ s :: other) = env.run statements) := by
  obtain ⟨done, stop, last, completes, ends⟩ := exists_completes env statements
  have whole := completes.run_eq ends
  have other : ∀ e ∈ stop, e.isExpectationFailure = false := by
    rintro e rfl
    exact ends.1
  have accounts := Report.Accounts.reportThen completes.fits (.ofStop other)
  rw [whole]
  refine ⟨done, stop, completes, ends, accounts, accounts.isSuccess, ?_, ?_⟩
  · rintro rfl more
    rw [show statements = _ from ends, completes.run_append]
    refine Prod.ext ?_ rfl
    show reportThen done _ = reportThen done {} ++ _
    rw [← reportThen_append, Report.nil_append]
  · intro stopped
    obtain ⟨e, rfl⟩ := Option.ne_none_iff_exists'.mp stopped
    obtain ⟨other, s, after, rfl, executed⟩ := ends
    have same (rest : List (Located Statement)) :
        env.run (done.map Execution.statement ++ s :: rest) = (reportThen done (reportStop (some e)), last) := by
      rw [completes.run_append, run_of_stopped executed other]
      rfl
    refine ⟨fun more => ?_, fun s' after' rest split => ?_⟩
    · rw [List.append_assoc, List.cons_append]
      exact same _
    · obtain ⟨rfl, _⟩ := List.cons.inj (List.append_cancel_left split)
      exact same rest

end Environment

end KeyIntrospection
