import KeyIntrospection.Proofs.Script.Alignment
import KeyIntrospection.Run.Report

/-!
Where a statement stands in its source makes no difference to what it does. Only the errors know the
place, so statements that are alike have the same outcomes and effects and errors that are alike.
-/

namespace KeyIntrospection

instance : Placed RunError where
  move f
    | .undefinedVariable name => .undefinedVariable (move f name)
    | .undefinedClass name => .undefinedClass (move f name)
    | .unknownCapability symbol => .unknownCapability (move f symbol)
    | .access cause span => .access cause (move f span)
    | .expectationFailed expected actual span => .expectationFailed expected actual (move f span)
  move_id e := by cases e <;> simp

theorem mapError_bind {ε ε' α β : Type} (h : ε → ε') (x : Except ε α) (g : α → Except ε β) :
    (x >>= g).mapError h = x.mapError h >>= fun a => (g a).mapError h := by
  cases x <;> rfl

namespace Script.Matcher

variable (f : Nat → Nat)

theorem capability_move (symbol : Name) :
    capability (move f symbol) = (capability symbol).mapError (move f) := by
  unfold capability
  have same : (move f symbol).value = symbol.value := rfl
  rw [same]
  split <;> rfl

theorem mentions_move (symbol : Name) (a : Answer) :
    mentions (move f symbol) a = (mentions symbol a).mapError (move f) := by
  cases a with
  | capabilities s =>
    simp only [mentions, capability_move]
    cases capability symbol <;> rfl
  | keys names => rfl
  | value v => rfl

theorem mapM_capability_move (symbols : List Name) :
    (symbols.map (move f)).mapM capability = (symbols.mapM capability).mapError (move f) := by
  induction symbols with
  | nil => rfl
  | cons symbol symbols ih =>
    rw [List.map_cons, List.mapM_cons, List.mapM_cons, ih, capability_move, mapError_bind]
    simp only [mapError_bind]
    rfl

theorem capabilitySet_move (symbols : List Name) :
    capabilitySet (symbols.map (move f)) = (capabilitySet symbols).mapError (move f) := by
  rw [capabilitySet_eq, capabilitySet_eq, mapM_capability_move]
  cases symbols.mapM capability <;> rfl

theorem values_move (symbols : List Name) : (symbols.map (move f)).map Located.value = symbols.map Located.value := by
  rw [List.map_map]
  rfl

theorem holds_move (m : Matcher) (a : Answer) : (move f m).holds a = (m.holds a).mapError (move f) := by
  cases m with
  | equalsSymbols symbols =>
    cases a with
    | capabilities s =>
      show (capabilitySet (symbols.map (move f))).map _ = _
      rw [capabilitySet_move]
      simp only [holds]
      cases capabilitySet symbols <;> rfl
    | keys names =>
      show Except.ok (decide (names = (symbols.map (move f)).map Located.value)) = _
      rw [values_move]
      rfl
    | value v => rfl
  | equals l => cases a <;> rfl
  | includes symbol => exact mentions_move f symbol a
  | excludes symbol =>
    cases a with
    | value v => rfl
    | capabilities s =>
      show (mentions (move f symbol) (.capabilities s)).map _ = _
      rw [mentions_move]
      simp only [holds]
      cases mentions symbol (.capabilities s) <;> rfl
    | keys names => rfl
  | isEmpty => cases a <;> rfl

theorem expected_move (m : Matcher) : (move f m).expected = m.expected := by
  cases m with
  | equalsSymbols symbols => exact congrArg displaySymbols (values_move f symbols)
  | _ => rfl

theorem check_move (m : Matcher) (a : Answer) (span : Span) :
    (move f m).check a (move f span) = (m.check a span).mapError (move f) := by
  unfold check
  rw [holds_move, expected_move]
  cases m.holds a with
  | error e => rfl
  | ok b => cases b <;> rfl

end Script.Matcher

namespace Environment

open Script

variable (f : Nat → Nat) (env : Environment)

theorem value_move (name : Name) : env.value (move f name) = (env.value name).mapError (move f) := by
  unfold value
  have same : (move f name).value = name.value := rfl
  rw [same]
  split <;> rfl

theorem object_move (name : Name) : env.object (move f name) = (env.object name).mapError (move f) := by
  unfold object
  rw [value_move]
  cases env.value name with
  | error e => rfl
  | ok v => cases v <;> rfl

theorem raiseAt_move {α : Type} (span : Span) (result : Except AccessError α) :
    raiseAt (move f span) result = (raiseAt span result).mapError (move f) := by
  cases result <;> rfl

theorem instantiate_move (className : Name) (attributes : List AttributeInit) :
    env.instantiate (move f className) (move f attributes) =
      (env.instantiate className attributes).mapError (move f) := by
  unfold instantiate
  have same : (move f className).value = className.value := rfl
  rw [same]
  cases env.classes.get? className.value with
  | none => rfl
  | some accessors =>
    have span : (move f className).span = move f className.span := rfl
    dsimp only
    rw [mapError_bind, span, raiseAt_move]
    congr 1
    funext o
    induction attributes generalizing o with
    | nil => rfl
    | cons a attributes ih =>
      rw [move_cons, List.foldlM_cons, List.foldlM_cons, mapError_bind]
      have step : raiseAt (move f a).name.span (o.setAttribute (move f a).name.value (move f a).value.value.toValue) =
          (raiseAt a.name.span (o.setAttribute a.name.value a.value.value.toValue)).mapError (move f) :=
        raiseAt_move f a.name.span _
      rw [step]
      congr 1
      funext o
      exact ih o

theorem toPair_move (entries : List HashEntry) : (move f entries).map (·.toPair) = entries.map (·.toPair) := by
  rw [move_list, List.map_map]
  rfl

theorem evaluate_move (e : Expression) : env.evaluate (move f e) = (env.evaluate e).mapError (move f) := by
  cases e with
  | hash entries =>
    show Except.ok (Value.object (.mapping (.ofEntries ((move f entries.value).map (·.toPair))))) = _
    rw [toPair_move]
    rfl
  | descriptor properties =>
    show Except.ok (Value.object (.descriptor (.ofProperties ((move f properties.value).map (·.toPair))))) = _
    rw [toPair_move]
    rfl
  | new className attributes =>
    show (env.instantiate (move f className) (move f attributes)).map _ = _
    rw [instantiate_move]
    simp only [evaluate]
    cases env.instantiate className attributes <;> rfl
  | literal l => rfl

theorem literalKey_move (key : Located Literal) : literalKey (move f key) = (literalKey key).mapError (move f) := by
  unfold literalKey
  have same : (move f key).value = key.value := rfl
  rw [same]
  split <;> rfl

theorem answer_move (q : Located Query) : env.answer (move f q) = (env.answer q).mapError (move f) := by
  obtain ⟨q, span⟩ := q
  cases q with
  | keyInfo object key =>
    show (do return Answer.capabilities (← raiseAt (move f span)
      (keyInfo (← env.value (move f object)) key.value.toValue))) = _
    rw [value_move]
    simp only [answer, raiseAt_move]
    cases env.value object with
    | error e => rfl
    | ok v => simp only [mapError_bind]; rfl
  | keys object withInternal =>
    show (do return Answer.keys ((← env.object (move f object)).keys withInternal)) = _
    rw [object_move]
    simp only [answer, mapError_bind]
    rfl
  | read object key =>
    show (do
      let o ← env.object (move f object)
      return Answer.value (← raiseAt (move f span) (o.read (← literalKey (move f key))))) = _
    rw [object_move, literalKey_move]
    simp only [answer, raiseAt_move, mapError_bind]
    rfl

theorem declare_move (accessors : Table Accessor) (declarations : List (Located AccessorDeclaration)) :
    declare accessors (move f declarations) = declare accessors declarations := by
  unfold declare
  rw [move_list, List.foldl_map]
  congr 1
  funext t d
  show (move f d.value.names).foldl _ t = _
  rw [move_list, List.foldl_map]
  rfl

/-- Executing a statement that stands elsewhere. -/
theorem execute_move (s : Located Statement) : env.execute (move f s) = (env.execute s).mapError (move f) := by
  obtain ⟨s, span⟩ := s
  cases s with
  | assign name e =>
    show (do
      let v ← env.evaluate (move f e.value)
      return (Outcome.bound name.value v, env.bind name v) : Except RunError _) = _
    rw [evaluate_move]
    simp only [execute, mapError_bind]
    rfl
  | defineClass name declarations =>
    show Except.ok (Outcome.classDefined name.value, env.defineClass name (move f declarations)) = _
    simp only [defineClass, declare_move]
    rfl
  | setAttribute object name value =>
    show (do
      let o ← env.object (move f object)
      let o ← raiseAt (move f span) (o.setAttribute name.value value.value.toValue)
      return (Outcome.updated object.value, env.bind object (.object o)) : Except RunError _) = _
    rw [object_move]
    simp only [execute, raiseAt_move, mapError_bind]
    rfl
  | freeze object =>
    show (do
      let o ← env.object (move f object)
      return (Outcome.updated object.value, env.bind object (.object o.freeze)) : Except RunError _) = _
    rw [object_move]
    simp only [execute, mapError_bind]
    rfl
  | query q =>
    show (do return (Outcome.query (← env.answer (move f q)), env) : Except RunError _) = _
    rw [answer_move]
    simp only [execute, mapError_bind]
    rfl
  | expect q m =>
    show (do
      (move f m).check (← env.answer (move f q)) (move f span)
      return (Outcome.passed, env) : Except RunError _) = _
    rw [answer_move]
    simp only [execute, Matcher.check_move, mapError_bind]
    rfl

/-- Statements that are alike do the same, or have errors that are alike. -/
theorem execute_of_alike {s s' : Located Statement} (alike : Alike s' s) :
    (∃ r, env.execute s = .ok r ∧ env.execute s' = .ok r) ∨
      ∃ e e', env.execute s = .error e ∧ env.execute s' = .error e' ∧ Alike e' e := by
  have same : (env.execute s').mapError (move fun _ => 0) = (env.execute s).mapError (move fun _ => 0) := by
    rw [← execute_move, ← execute_move, show move (fun _ => 0) s' = move (fun _ => 0) s from alike]
  cases first : env.execute s with
  | ok r =>
    cases second : env.execute s' with
    | ok r' =>
      rw [first, second] at same
      cases same
      exact .inl ⟨r, rfl, rfl⟩
    | error e' =>
      rw [first, second] at same
      cases same
  | error e =>
    cases second : env.execute s' with
    | ok r' =>
      rw [first, second] at same
      cases same
    | error e' =>
      rw [first, second] at same
      exact .inr ⟨e, e', rfl, rfl, Except.error.inj same⟩

end Environment

end KeyIntrospection
