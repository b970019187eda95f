import KeyIntrospection.Proofs.Run.Effects

/-!
Statements that have no variable and no class in common. What comes of a statement depends on nothing
but what it touches, and so do its effects; two such statements can trade places.
-/

namespace KeyIntrospection

namespace Table

variable {α : Type}

/-- Two tables that grew from `base`: they have the same values under the same names, and the names of
`base` come first in both, in their order. -/
structure Reordered (base t u : Table α) : Prop where
  get?_eq : ∀ name, u.get? name = t.get? name
  names_perm : u.names.Perm t.names
  prefix_left : base.names <+: t.names
  prefix_right : base.names <+: u.names

variable {base : Table α} {name other : String}

theorem prefix_names_set (t : Table α) (name : String) (a : α) : t.names <+: (t.set name a).names := by
  rw [names_set]
  split
  · exact List.prefix_rfl
  · exact List.prefix_append _ _

theorem Reordered.of_grown {t : Table α} (grown : base.names <+: t.names) : Reordered base t t :=
  ⟨fun _ => rfl, .refl _, grown, grown⟩

theorem names_set_eq_append (t : Table α) (name : String) (a : α) :
    (t.set name a).names = t.names ++ if name ∈ t.names then [] else [name] := by
  rw [names_set]
  split <;> simp

theorem names_set_set (t : Table α) (different : name ≠ other) (a b : α) :
    ((t.set name a).set other b).names =
      t.names ++ (if name ∈ t.names then [] else [name]) ++ if other ∈ t.names then [] else [other] := by
  have later : other ∈ (t.set name a).names ↔ other ∈ t.names := by
    simp only [← contains_iff_mem_names, contains_set, different.symm, false_or]
  rw [names_set_eq_append (t.set name a), names_set_eq_append t]
  rw [names_set_eq_append t] at later
  simp only [later]

/-- Two names that get values can do so in either order. -/
theorem reordered_set_set (t : Table α) (different : name ≠ other) (a b : α) :
    Reordered t ((t.set name a).set other b) ((t.set other b).set name a) where
  get?_eq n := by
    simp only [get?_set]
    by_cases first : n = name
    · rw [if_pos first, if_neg (first ▸ different), if_pos first]
    · simp only [if_neg first]
  names_perm := by
    rw [names_set_set t different, names_set_set t different.symm, List.append_assoc, List.append_assoc]
    exact (List.perm_append_left_iff _).mpr List.perm_append_comm
  prefix_left := (prefix_names_set t name a).trans (prefix_names_set _ other b)
  prefix_right := (prefix_names_set t other b).trans (prefix_names_set _ name a)

end Table

namespace Script

/-- The variable whose object a query asks. -/
def Query.objectName : Query → String
  | keyInfo object _ => object.value
  | keys object _ => object.value
  | read object _ => object.value

/-- The class that an expression instantiates. -/
def Expression.classes : Expression → List String
  | new className _ => [className.value]
  | _ => []

namespace Statement

/-- The variable that a statement assigns, sets, freezes or queries. -/
def touchedVariables : Statement → List String
  | assign name _ => [name.value]
  | defineClass _ _ => []
  | setAttribute object _ _ => [object.value]
  | freeze object => [object.value]
  | query q => [q.value.objectName]
  | expect q _ => [q.value.objectName]

/-- The class that a statement defines or instantiates. -/
def touchedClasses : Statement → List String
  | assign _ e => e.value.classes
  | defineClass name _ => [name.value]
  | _ => []

/-- The statements touch no variable and no class in common. -/
structure Independent (s t : Statement) : Prop where
  bindings : ∀ x ∈ s.touchedVariables, x ∉ t.touchedVariables
  classes : ∀ c ∈ s.touchedClasses, c ∉ t.touchedClasses

theorem Independent.symm {s t : Statement} (independent : s.Independent t) : t.Independent s where
  bindings x inside outside := independent.bindings x outside inside
  classes c inside outside := independent.classes c outside inside

end Statement

end Script

open Script (Name Statement)

/-- The effect is on something that the statement touches. -/
def Effect.Within : Effect → Statement → Prop
  | none, _ => True
  | bind name _, s => name ∈ s.touchedVariables
  | define name _, s => name ∈ s.touchedClasses

namespace Environment

/-- The environments have the same values and accessors for what the statement touches. -/
structure AgreesOn (env other : Environment) (s : Statement) : Prop where
  bindings : ∀ x ∈ s.touchedVariables, other.bindings.get? x = env.bindings.get? x
  classes : ∀ c ∈ s.touchedClasses, other.classes.get? c = env.classes.get? c

variable {env other : Environment} {s t : Located Statement}

theorem AgreesOn.refl (env : Environment) (s : Statement) : env.AgreesOn env s := ⟨fun _ _ => rfl, fun _ _ => rfl⟩

theorem value_congr {name : Name} (same : other.bindings.get? name.value = env.bindings.get? name.value) :
    other.value name = env.value name := by
  rw [value, same, value]

theorem object_congr {name : Name} (same : other.bindings.get? name.value = env.bindings.get? name.value) :
    other.object name = env.object name := by
  rw [object, value_congr same, object]

theorem instantiate_congr {className : Name} {attributes : List Script.AttributeInit}
    (same : other.classes.get? className.value = env.classes.get? className.value) :
    other.instantiate className attributes = env.instantiate className attributes := by
  rw [instantiate, same, instantiate]

theorem evaluate_congr {e : Script.Expression} (same : ∀ c ∈ e.classes, other.classes.get? c = env.classes.get? c) :
    other.evaluate e = env.evaluate e := by
  cases e with
  | new className attributes =>
    rw [evaluate, instantiate_congr (same className.value List.mem_cons_self), evaluate]
  | _ => rfl

theorem answer_congr {q : Located Script.Query}
    (same : other.bindings.get? q.value.objectName = env.bindings.get? q.value.objectName) : other.answer q = env.answer q := by
  obtain ⟨q, span⟩ := q
  cases q with
  | keyInfo object key => simp only [answer, value_congr same]
  | keys object withInternal => simp only [answer, object_congr same]
  | read object key => simp only [answer, object_congr same]

/-- A statement does the same in environments that agree on what it touches. -/
theorem AgreesOn.effect_eq (agree : env.AgreesOn other s.value) : other.effect s = env.effect s := by
  obtain ⟨s, span⟩ := s
  cases s with
  | assign name e => simp only [effect, evaluate_congr agree.classes]
  | defineClass name declarations => simp only [effect, agree.classes name.value List.mem_cons_self]
  | setAttribute object name value => simp only [effect, object_congr (agree.bindings object.value List.mem_cons_self)]
  | freeze object => simp only [effect, object_congr (agree.bindings object.value List.mem_cons_self)]
  | query q => simp only [effect, answer_congr (agree.bindings q.value.objectName List.mem_cons_self)]
  | expect q m => simp only [effect, answer_congr (agree.bindings q.value.objectName List.mem_cons_self)]

theorem within_of_effect {outcome : Outcome} {e : Effect} (ok : env.effect s = .ok (outcome, e)) : e.Within s.value := by
  obtain ⟨s, span⟩ := s
  cases s with
  | assign name e =>
    obtain ⟨v, _, same⟩ := exists_of_bind_eq_ok ok
    cases same
    exact List.mem_cons_self
  | defineClass name declarations =>
    cases ok
    exact List.mem_cons_self
  | setAttribute object name value =>
    obtain ⟨o, _, rest⟩ := exists_of_bind_eq_ok ok
    obtain ⟨o', _, same⟩ := exists_of_bind_eq_ok rest
    cases same
    exact List.mem_cons_self
  | freeze object =>
    obtain ⟨o, _, same⟩ := exists_of_bind_eq_ok ok
    cases same
    exact List.mem_cons_self
  | query q =>
    obtain ⟨a, _, same⟩ := exists_of_bind_eq_ok ok
    cases same
    exact trivial
  | expect q m =>
    obtain ⟨a, _, rest⟩ := exists_of_bind_eq_ok ok
    obtain ⟨_, _, same⟩ := exists_of_bind_eq_ok rest
    cases same
    exact trivial

/-- What comes of a statement, and what it does, are the same wherever what it touches is the same. -/
theorem exists_effect (env : Environment) (s : Located Statement) :
    ∃ (result : Except RunError Outcome) (e : Effect), e.Within s.value ∧
      ∀ other, env.AgreesOn other s.value → other.attempt s = (result, e.apply other) := by
  cases done : env.effect s with
  | ok r =>
    refine ⟨.ok r.1, r.2, within_of_effect done, fun other agree => ?_⟩
    rw [attempt_eq_effect, agree.effect_eq, done]
  | error e =>
    refine ⟨.error e, .none, trivial, fun other agree => ?_⟩
    rw [attempt_eq_effect, agree.effect_eq, done]
    rfl

/-- A statement's effect is not seen by statements that are independent of it. -/
theorem agreesOn_apply {e : Effect} (within : e.Within s.value) (independent : s.value.Independent t.value) :
    env.AgreesOn (e.apply env) t.value := by
  cases e with
  | none => exact .refl env t.value
  | bind name v =>
    refine ⟨fun x touched => ?_, fun _ _ => rfl⟩
    exact (Table.get?_set _ _ _ _).trans (if_neg fun same => independent.bindings name within (by rwa [← same]))
  | define name accessors =>
    refine ⟨fun _ _ => rfl, fun c touched => ?_⟩
    exact (Table.get?_set _ _ _ _).trans (if_neg fun same => independent.classes name within (by rwa [← same]))

/-- The tables of two environments that grew from `base` have the same values under the same names. -/
structure Reordered (base env other : Environment) : Prop where
  bindings : base.bindings.Reordered env.bindings other.bindings
  classes : base.classes.Reordered env.classes other.classes

theorem reordered_apply (e : Effect) (env : Environment) : env.Reordered (e.apply env) (e.apply env) := by
  cases e with
  | none => exact ⟨.of_grown List.prefix_rfl, .of_grown List.prefix_rfl⟩
  | bind name v => exact ⟨.of_grown (Table.prefix_names_set _ _ _), .of_grown List.prefix_rfl⟩
  | define name accessors => exact ⟨.of_grown List.prefix_rfl, .of_grown (Table.prefix_names_set _ _ _)⟩

theorem reordered_apply_apply {e f : Effect} (first : e.Within s.value) (second : f.Within t.value)
    (independent : s.value.Independent t.value) (env : Environment) :
    env.Reordered (f.apply (e.apply env)) (e.apply (f.apply env)) := by
  cases e with
  | none => exact reordered_apply f env
  | bind x v =>
    cases f with
    | none => exact reordered_apply (.bind x v) env
    | bind y w =>
      have different : x ≠ y := fun same => independent.bindings x first (same ▸ second)
      exact ⟨Table.reordered_set_set _ different v w, .of_grown List.prefix_rfl⟩
    | define c accessors =>
      exact ⟨.of_grown (Table.prefix_names_set _ _ _), .of_grown (Table.prefix_names_set _ _ _)⟩
  | define c accessors =>
    cases f with
    | none => exact reordered_apply (.define c accessors) env
    | bind y w => exact ⟨.of_grown (Table.prefix_names_set _ _ _), .of_grown (Table.prefix_names_set _ _ _)⟩
    | define d others =>
      have different : c ≠ d := fun same => independent.classes c first (same ▸ second)
      exact ⟨.of_grown List.prefix_rfl, Table.reordered_set_set _ different accessors others⟩

/-- Statements that touch no variable and no class in common can be executed in either order: the same comes of each of
them, be it an error, and in the end every variable has the same value and every class the same accessors. -/
theorem attempt_comm (independent : s.value.Independent t.value) (env : Environment) :
    let afterFirst := (env.attempt s).2
    let afterSecond := (env.attempt t).2
    (afterSecond.attempt s).1 = (env.attempt s).1 ∧ (afterFirst.attempt t).1 = (env.attempt t).1 ∧
      env.Reordered (afterFirst.attempt t).2 (afterSecond.attempt s).2 := by
  obtain ⟨result, e, within, attempt⟩ := exists_effect env s
  obtain ⟨result', f, within', attempt'⟩ := exists_effect env t
  dsimp only
  rw [attempt env (.refl env _), attempt' env (.refl env _)]
  dsimp only
  rw [attempt (f.apply env) (agreesOn_apply within' independent.symm),
    attempt' (e.apply env) (agreesOn_apply within independent)]
  exact ⟨rfl, rfl, reordered_apply_apply within within' independent env⟩

/-- `p = new P {}`, and `set h @n = 1`. -/
def newPoint : Located Statement := ⟨.assign ⟨"p", 0, 1⟩ ⟨.new ⟨"P", 8, 9⟩ [], 4, 12⟩, 0, 12⟩

def setCount : Located Statement := ⟨.setAttribute ⟨"h", 4, 5⟩ ⟨"@n", 6, 8⟩ ⟨.int 1, 11, 12⟩, 0, 12⟩

/-- A variable with a mapping, and no class. -/
def mappingOnly : Environment := ({} : Environment).bind ⟨"h", 0, 1⟩ (.object (.mapping (.ofEntries [])))

theorem attempt_comm_undefinedClass :
    newPoint.value.Independent setCount.value ∧
      ((mappingOnly.attempt setCount).2.attempt newPoint).1 = .error (.undefinedClass ⟨"P", 8, 9⟩) ∧
      ((mappingOnly.attempt newPoint).2.attempt setCount).1 = .ok (.updated "h") ∧
      mappingOnly.Reordered ((mappingOnly.attempt newPoint).2.attempt setCount).2
        ((mappingOnly.attempt setCount).2.attempt newPoint).2 := by
  have independent : newPoint.value.Independent setCount.value := ⟨by decide, by decide⟩
  obtain ⟨first, second, reordered⟩ := attempt_comm independent mappingOnly
  exact ⟨independent, first.trans rfl, second.trans rfl, reordered⟩

end Environment

end KeyIntrospection
