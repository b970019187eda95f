import KeyIntrospection.Proofs.Object.InPlace
import KeyIntrospection.Proofs.Run.States
import KeyIntrospection.Proofs.Run.Tables

/-!
What a statement does to the environment that it is executed in. Its effect is known before anything is
changed, so that a statement that fails has none; this is also so where the environment and its objects
are changed in their places, one change after another, and stay changed when an error comes up.
-/

namespace KeyIntrospection

theorem ok_bind {ε α β : Type} (a : α) (f : α → Except ε β) : (Except.ok a >>= f) = f a := rfl

open Script (Name Statement)

/-- What a statement does to an environment. -/
inductive Effect where
  | none
  | bind (name : String) (v : Value)
  | define (name : String) (accessors : Table Accessor)

namespace Effect

def apply : Effect → Environment → Environment
  | none, env => env
  | bind name v, env => { env with bindings := env.bindings.set name v }
  | define name accessors, env => { env with classes := env.classes.set name accessors }

end Effect

namespace Environment

/-- What comes of a statement, and what it does to the environment. -/
def effect (env : Environment) (s : Located Statement) : Except RunError (Outcome × Effect) := do
  match s.value with
  | .assign name e =>
    let v ← env.evaluate e.value
    return (.bound name.value v, .bind name.value v)
  | .defineClass name declarations =>
    let accessors := (env.classes.get? name.value).getD .empty
    return (.classDefined name.value, .define name.value (declare accessors declarations))
  | .setAttribute object name value =>
    let o ← env.object object
    let o ← raiseAt s.span (o.setAttribute name.value value.value.toValue)
    return (.updated object.value, .bind object.value (.object o))
  | .freeze object =>
    let o ← env.object object
    return (.updated object.value, .bind object.value (.object o.freeze))
  | .query q => return (.query (← env.answer q), .none)
  | .expect q m =>
    m.check (← env.answer q) s.span
    return (.passed, .none)

theorem execute_eq_effect (env : Environment) (s : Located Statement) :
    env.execute s = (fun r => (r.1, r.2.apply env)) <$> env.effect s := by
  obtain ⟨s, span⟩ := s
  cases s <;> simp [execute, effect, Effect.apply, Environment.bind, defineClass]

/-- What comes of a statement, and the environment after it. A statement that fails leaves the environment as
it is. -/
def attempt (env : Environment) (s : Located Statement) : Except RunError Outcome × Environment :=
  match env.execute s with
  | .ok (outcome, next) => (.ok outcome, next)
  | .error e => (.error e, env)

theorem attempt_cases (env : Environment) (s : Located Statement) :
    (∃ e, env.attempt s = (.error e, env)) ∨
      ∃ outcome next, env.execute s = .ok (outcome, next) ∧ env.attempt s = (.ok outcome, next) := by
  rw [attempt]
  cases env.execute s with
  | ok r => exact .inr ⟨r.1, r.2, rfl, rfl⟩
  | error e => exact .inl ⟨e, rfl⟩

theorem attempt_eq_effect (env : Environment) (s : Located Statement) :
    env.attempt s =
      match env.effect s with
      | .ok (outcome, e) => (.ok outcome, e.apply env)
      | .error e => (.error e, env) := by
  rw [attempt, execute_eq_effect]
  cases env.effect s <;> rfl

/-- The environment after some statements, where one that fails is passed over. -/
def afterAll (env : Environment) (statements : List (Located Statement)) : Environment :=
  statements.foldl (fun env s => (env.attempt s).2) env

/-- What comes of the statements. -/
def results (env : Environment) : List (Located Statement) → List (Except RunError Outcome)
  | [] => []
  | s :: rest => (env.attempt s).1 :: (env.attempt s).2.results rest

theorem afterAll_append (env : Environment) (statements rest : List (Located Statement)) :
    env.afterAll (statements ++ rest) = (env.afterAll statements).afterAll rest := List.foldl_append

theorem results_append (env : Environment) (statements rest : List (Located Statement)) :
    env.results (statements ++ rest) = env.results statements ++ (env.afterAll statements).results rest := by
  induction statements generalizing env with
  | nil => rfl
  | cons s statements ih => exact congrArg ((env.attempt s).1 :: ·) (ih _)

section InPlace

/-- The accessors of a class, none if there is no class of that name yet. -/
def openClass (env : Environment) (name : String) : Environment :=
  { env with classes := env.classes.set name ((env.classes.get? name).getD .empty) }

/-- Declares one more accessor of a class. -/
def declareOne (name : String) (kind : Script.AccessorKind) (env : Environment) (accessor : Name) : Environment :=
  { env with
    classes := env.classes.set name
      (((env.classes.get? name).getD .empty).addAccessor accessor.value kind.halves) }

/-- Work on the object that a variable is bound to. -/
def onObject {α : Type} (object : Name) (span : Span) (work : InPlace (Object Value) AccessError α) :
    InPlace Environment RunError α := do
  let (result, o) := work.on (← liftExcept ((← get).object object))
  modify (·.bind object (.object o))
  liftExcept (raiseAt span result)

/-- Executes a statement by changes to the environment in its place, one after the other. -/
def perform (s : Located Statement) : InPlace Environment RunError Outcome := do
  match s.value with
  | .assign name e =>
    let v ← liftExcept ((← get).evaluate e.value)
    modify (·.bind name v)
    return .bound name.value v
  | .defineClass name declarations =>
    modify (·.openClass name.value)
    declarations.forM fun d => d.value.names.forM fun accessor =>
      modify (declareOne name.value d.value.kind · accessor)
    return .classDefined name.value
  | .setAttribute object name value =>
    onObject object s.span (Object.putAttribute name.value value.value.toValue)
    return .updated object.value
  | .freeze object =>
    onObject object s.span (modify (·.freeze))
    return .updated object.value
  | .query q => return .query (← liftExcept ((← get).answer q))
  | .expect q m =>
    liftExcept (m.check (← liftExcept ((← get).answer q)) s.span)
    return .passed

variable {env : Environment}

theorem foldl_declareOne (name : String) (kind : Script.AccessorKind) (names : List Name) (t : Table Accessor) :
    names.foldl (declareOne name kind) { env with classes := env.classes.set name t } =
      { env with
        classes := env.classes.set name
          (names.foldl (fun t accessor => t.addAccessor accessor.value kind.halves) t) } := by
  induction names generalizing t with
  | nil => rfl
  | cons accessor names ih =>
    rw [List.foldl_cons, List.foldl_cons, ← ih, declareOne]
    simp [Table.set_set]

theorem foldl_declare (name : String) (declarations : List (Located Script.AccessorDeclaration)) (t : Table Accessor) :
    declarations.foldl (fun env d => d.value.names.foldl (declareOne name d.value.kind) env)
        { env with classes := env.classes.set name t } =
      { env with classes := env.classes.set name (declare t declarations) } := by
  induction declarations generalizing t with
  | nil => rfl
  | cons d declarations ih =>
    rw [List.foldl_cons, foldl_declareOne, ih]
    rfl

theorem on_onObject_of_ok {α : Type} {object : Name} {o : Object Value} (found : env.object object = .ok o)
    (span : Span) (work : InPlace (Object Value) AccessError α) :
    (onObject object span work).on env =
      (raiseAt span (work.on o).1, env.bind object (.object (work.on o).2)) := by
  rw [onObject, InPlace.on_get_bind, InPlace.on_liftExcept_bind_of_ok found]
  exact InPlace.on_liftExcept _ _

theorem on_onObject_of_error {α : Type} {object : Name} {e : RunError} (missing : env.object object = .error e)
    (span : Span) (work : InPlace (Object Value) AccessError α) :
    (onObject object span work).on env = (.error e, env) := by
  rw [onObject, InPlace.on_get_bind, InPlace.on_liftExcept_bind_of_error missing]

/-- An object that is bound again to its variable changes nothing. -/
theorem bind_eq_self {object : Name} {o : Object Value} (found : env.object object = .ok o) :
    env.bind object (.object o) = env := by
  rw [bind, Table.set_eq_self (object_eq_ok found)]

theorem on_perform (s : Located Statement) (env : Environment) : (perform s).on env = env.attempt s := by
  rw [attempt_eq_effect]
  obtain ⟨s, span⟩ := s
  cases s with
  | assign name e =>
    simp only [perform, effect, InPlace.on_get_bind]
    cases evaluated : env.evaluate e.value with
    | error e => exact InPlace.on_liftExcept_bind_of_error rfl _ _
    | ok v => exact InPlace.on_liftExcept_bind_of_ok rfl _ _
  | defineClass name declarations =>
    simp only [perform, effect, InPlace.on_modify_bind]
    have each : ∀ (d : Located Script.AccessorDeclaration) (env : Environment),
        (d.value.names.forM fun accessor => modify (declareOne name.value d.value.kind · accessor) :
            InPlace Environment RunError PUnit).on env =
          (.ok ⟨⟩, d.value.names.foldl (declareOne name.value d.value.kind) env) :=
      fun d env => InPlace.on_forM (fun _ _ => rfl) d.value.names env
    rw [InPlace.on_bind_of_ok (InPlace.on_forM each declarations _), openClass, foldl_declare]
    rfl
  | setAttribute object name value =>
    simp only [perform, effect]
    cases found : env.object object with
    | error e => exact InPlace.on_bind_of_error (on_onObject_of_error found _ _) _
    | ok o =>
      have worked := on_onObject_of_ok found span (Object.putAttribute name.value value.value.toValue)
      rw [Object.on_putAttribute] at worked
      cases changed : o.setAttribute name.value value.value.toValue with
      | error e =>
        rw [changed, settle, bind_eq_self found] at worked
        rw [ok_bind, changed]
        exact InPlace.on_bind_of_error worked _
      | ok next =>
        rw [changed, settle] at worked
        rw [ok_bind, changed]
        exact InPlace.on_bind_of_ok worked _
  | freeze object =>
    simp only [perform, effect]
    cases found : env.object object with
    | error e => exact InPlace.on_bind_of_error (on_onObject_of_error found _ _) _
    | ok o => exact InPlace.on_bind_of_ok (on_onObject_of_ok found _ _) _
  | query q =>
    simp only [perform, effect, InPlace.on_get_bind]
    cases answered : env.answer q with
    | error e => exact InPlace.on_liftExcept_bind_of_error rfl _ _
    | ok a => exact InPlace.on_liftExcept_bind_of_ok rfl _ _
  | expect q m =>
    simp only [perform, effect, InPlace.on_get_bind]
    cases answered : env.answer q with
    | error e => exact InPlace.on_liftExcept_bind_of_error rfl _ _
    | ok a =>
      rw [InPlace.on_liftExcept_bind_of_ok rfl, ok_bind]
      cases m.check a span with
      | error e => exact InPlace.on_liftExcept_bind_of_error rfl _ _
      | ok u => exact InPlace.on_liftExcept_bind_of_ok rfl _ _

end InPlace

/-- All that a statement changes when it succeeds. An expression gives a variable its value, an object that
is set or frozen stays bound to its variable, and a class is open to more accessors. -/
def Changes (env next : Environment) : Statement → Prop
  | .assign name e =>
    next.classes = env.classes ∧ ∃ v, env.evaluate e.value = .ok v ∧
      Table.Rebinds name.value (env.bindings.get? name.value) v env.bindings next.bindings
  | .defineClass name declarations =>
    next.bindings = env.bindings ∧
      Table.Rebinds name.value (env.classes.get? name.value)
        (declare ((env.classes.get? name.value).getD .empty) declarations) env.classes next.classes
  | .setAttribute object name value =>
    next.classes = env.classes ∧ ∃ o o', o.setAttribute name.value value.value.toValue = .ok o' ∧
      Table.Rebinds object.value (some (.object o)) (.object o') env.bindings next.bindings
  | .freeze object =>
    next.classes = env.classes ∧ ∃ o : Object Value,
      Table.Rebinds object.value (some (.object o)) (.object o.freeze) env.bindings next.bindings
  | .query _ => next = env
  | .expect _ _ => next = env

theorem rebinds_of_object {env : Environment} {object : Name} {o : Object Value} (found : env.object object = .ok o)
    (v : Value) : Table.Rebinds object.value (some (.object o)) v env.bindings (env.bind object v).bindings := by
  rw [← object_eq_ok found]
  exact env.bindings.rebinds_set object.value v

theorem changes_of_execute {env next : Environment} {s : Located Statement} {outcome : Outcome}
    (executed : env.execute s = .ok (outcome, next)) : Changes env next s.value := by
  obtain ⟨s, span⟩ := s
  cases s with
  | assign name e =>
    obtain ⟨v, evaluated, same⟩ := exists_of_bind_eq_ok executed
    cases same
    exact ⟨rfl, v, evaluated, env.bindings.rebinds_set name.value v⟩
  | defineClass name declarations =>
    cases executed
    exact ⟨rfl, env.classes.rebinds_set name.value _⟩
  | setAttribute object name value =>
    obtain ⟨o, found, rest⟩ := exists_of_bind_eq_ok executed
    obtain ⟨o', changed, same⟩ := exists_of_bind_eq_ok rest
    cases same
    exact ⟨rfl, o, o', eq_ok_of_raiseAt changed, rebinds_of_object found _⟩
  | freeze object =>
    obtain ⟨o, found, same⟩ := exists_of_bind_eq_ok executed
    cases same
    exact ⟨rfl, o, rebinds_of_object found _⟩
  | query q =>
    obtain ⟨a, _, same⟩ := exists_of_bind_eq_ok executed
    cases same
    rfl
  | expect q m =>
    obtain ⟨a, _, rest⟩ := exists_of_bind_eq_ok executed
    obtain ⟨_, _, same⟩ := exists_of_bind_eq_ok rest
    cases same
    rfl

/-- A statement that fails leaves every variable and every class as it was, also when it is executed by changes in
place; one that succeeds changes what it names, and nothing else. -/
theorem execute_changes_or_fails (env : Environment) (s : Located Statement) :
    match env.execute s with
    | .ok (outcome, next) => (perform s).on env = (.ok outcome, next) ∧ Changes env next s.value
    | .error e => (perform s).on env = (.error e, env) := by
  rw [on_perform, attempt]
  cases executed : env.execute s with
  | ok r => exact ⟨rfl, changes_of_execute executed⟩
  | error e => rfl

end Environment

end KeyIntrospection
