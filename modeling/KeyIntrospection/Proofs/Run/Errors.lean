import KeyIntrospection.Proofs.Run.Matchers
import KeyIntrospection.Proofs.Run.Names
import KeyIntrospection.Proofs.Script.Regions

/-!
The errors that statements can have. Names that were read are never refused, so that an expression fails only for
want of a class, and an attribute is set unless there is no object to set it on or a frozen one.
-/

namespace KeyIntrospection

theorem eq_error_of_bind {ε α β : Type} {result : Except ε α} {f : α → Except ε β} {e : ε}
    (failed : result >>= f = .error e) : result = .error e ∨ ∃ a, result = .ok a ∧ f a = .error e := by
  cases result with
  | error e' =>
    cases failed
    exact .inl rfl
  | ok a => exact .inr ⟨a, rfl, failed⟩

theorem eq_error_of_map {ε α β : Type} {result : Except ε α} {f : α → β} {e : ε} (failed : result.map f = .error e) :
    result = .error e := by
  cases result with
  | error e' =>
    cases failed
    rfl
  | ok a => cases failed

/-- Steps that keep what they need can all be done. -/
theorem exists_foldlM_ok {ε α β : Type} {P : β → Prop} {f : β → α → Except ε β} {l : List α}
    (step : ∀ {b : β} {a : α}, a ∈ l → P b → ∃ c, f b a = .ok c ∧ P c) {b : β} (start : P b) :
    ∃ c, l.foldlM f b = .ok c ∧ P c := by
  induction l generalizing b with
  | nil => exact ⟨b, rfl, start⟩
  | cons a l ih =>
    obtain ⟨next, done, keeps⟩ := step List.mem_cons_self start
    obtain ⟨last, others, holds⟩ := ih (fun member => step (List.mem_cons_of_mem a member)) keeps
    refine ⟨last, ?_, holds⟩
    rw [List.foldlM_cons, done]
    exact others

/-- Why an object may refuse what a script asks of it. That a name is none, or that a key may not be written, is no
such reason. -/
def AccessError.Arises : AccessError → Prop
  | unsupportedReceiver _ | invalidKey _ | unknownIdentifier _ | notReadable _ | frozenTarget _ _ => True
  | invalidInternalName _ | invalidAccessorName _ | notWritable _ => False

def RunError.Arises : RunError → Prop
  | access cause _ => cause.Arises
  | undefinedVariable _ | undefinedClass _ | unknownCapability _ | expectationFailed _ _ _ => True

open Script

/-- What the error of a statement can be. An expression can only fail for want of a class, and an attribute can only
not be set for want of an object that is not frozen. -/
structure Script.Statement.Permits (s : Statement) (error : RunError) : Prop where
  arises : error.Arises
  builds : ∀ name e, s = .assign name e →
    ∃ className attributes, e.value = .new className attributes ∧ error = .undefinedClass className
  sets : ∀ object name value, s = .setAttribute object name value →
    error = .undefinedVariable object ∨ (∃ typeName, error = .access (.unsupportedReceiver typeName) object.span) ∨
      ∃ kind span, error = .access (.frozenTarget name.value kind) span

theorem Object.eq_frozenTarget_of_setAttribute {α : Type} {o : Object α} {name : String} (internal : Key.isInternalName name)
    {a : α} {cause : AccessError} (refused : o.setAttribute name a = .error cause) :
    ∃ kind, cause = .frozenTarget name kind := by
  have table {attributes : Table α} {owner : ObjectKind} {frozen : Bool}
      (refused : attributes.setAttribute owner frozen name a = .error cause) : ∃ kind, cause = .frozenTarget name kind := by
    rw [setAttribute_of_isInternalName _ _ _ internal] at refused
    split at refused
    · cases refused
      exact ⟨_, rfl⟩
    · cases refused
  cases o with
  | mapping m => exact table (eq_error_of_map (eq_error_of_map refused))
  | attributed o => exact table (eq_error_of_map (eq_error_of_map refused))
  | descriptor d =>
    cases refused
    exact ⟨_, rfl⟩

namespace Environment

variable {env : Environment} {s : Located Statement} {error : RunError}

theorem raiseAt_eq_error {α : Type} {span : Span} {result : Except AccessError α}
    (failed : raiseAt span result = .error error) : ∃ cause, result = .error cause ∧ error = .access cause span := by
  cases result with
  | ok a => cases failed
  | error cause =>
    cases failed
    exact ⟨cause, rfl, rfl⟩

theorem value_eq_error {name : Name} (failed : env.value name = .error error) : error = .undefinedVariable name := by
  unfold value at failed
  split at failed
  · cases failed
  · cases failed
    rfl

theorem object_eq_error {name : Name} (failed : env.object name = .error error) :
    error = .undefinedVariable name ∨ ∃ typeName, error = .access (.unsupportedReceiver typeName) name.span := by
  rcases eq_error_of_bind failed with missing | ⟨v, _, failed⟩
  · exact .inl (value_eq_error missing)
  · cases v with
    | object o => cases failed
    | _ =>
      cases failed
      exact .inr ⟨_, rfl⟩

theorem arises_of_object {name : Name} (failed : env.object name = .error error) : error.Arises := by
  rcases object_eq_error failed with rfl | ⟨_, rfl⟩ <;> trivial

/-- A query fails for want of the object or of a key, or because the object refuses it as a whole. -/
theorem answer_eq_error {q : Located Query} (failed : env.answer q = .error error) :
    (∃ object, nameAt object ∈ q.value.regions ∧
      (error = .undefinedVariable object ∨ ∃ typeName, error = .access (.unsupportedReceiver typeName) object.span)) ∨
    (∃ key typeName, literalAt key ∈ q.value.regions ∧ error = .access (.invalidKey typeName) key.span) ∨
    ∃ cause, cause.Arises ∧ error = .access cause q.span := by
  obtain ⟨q, span⟩ := q
  cases q with
  | keyInfo object key =>
    rcases eq_error_of_bind failed with missing | ⟨v, _, failed⟩
    · exact .inl ⟨object, List.mem_cons_self, .inl (value_eq_error missing)⟩
    · rcases eq_error_of_bind failed with refused | ⟨_, _, failed⟩
      · obtain ⟨cause, unasked, rfl⟩ := raiseAt_eq_error refused
        refine .inr (.inr ⟨cause, ?_, rfl⟩)
        unfold keyInfo at unasked
        split at unasked <;> cases unasked <;> trivial
      · cases failed
  | keys object withInternal =>
    rcases eq_error_of_bind failed with missing | ⟨o, _, failed⟩
    · exact .inl ⟨object, List.mem_cons_self, object_eq_error missing⟩
    · cases failed
  | read object key =>
    rcases eq_error_of_bind failed with missing | ⟨o, _, failed⟩
    · exact .inl ⟨object, List.mem_cons_self, object_eq_error missing⟩
    · rcases eq_error_of_bind failed with invalid | ⟨name, _, failed⟩
      · unfold literalKey at invalid
        split at invalid <;> cases invalid
        exact .inr (.inl ⟨key, _, List.mem_cons_of_mem _ List.mem_cons_self, rfl⟩)
      · rcases eq_error_of_bind failed with refused | ⟨_, _, failed⟩
        · obtain ⟨cause, unread, rfl⟩ := raiseAt_eq_error refused
          refine .inr (.inr ⟨cause, ?_, rfl⟩)
          rcases o.read_cases name with ⟨_, same⟩ | ⟨_, _, same⟩ | ⟨_, _, v, same⟩
          · cases same.symm.trans unread
            trivial
          · cases same.symm.trans unread
            trivial
          · cases same.symm.trans unread
        · cases failed

theorem arises_of_answer {q : Located Query} (failed : env.answer q = .error error) : error.Arises := by
  obtain ⟨_, _, rfl | ⟨_, rfl⟩⟩ | ⟨_, _, _, rfl⟩ | ⟨cause, arises, rfl⟩ := answer_eq_error failed
  · trivial
  · trivial
  · trivial
  · exact arises

theorem capability_eq_error {symbol : Name} (failed : Matcher.capability symbol = .error error) :
    error = .unknownCapability symbol := by
  unfold Matcher.capability at failed
  split at failed
  · cases failed
  · cases failed
    rfl

/-- A matcher has no verdict only for want of a capability that one of its symbols names. -/
theorem holds_eq_error {m : Matcher} {a : Answer} (failed : m.holds a = .error error) :
    ∃ symbol, symbolAt symbol ∈ m.regions ∧ error = .unknownCapability symbol := by
  have mentioned {symbol : Name} (failed : Matcher.mentions symbol a = .error error) :
      error = .unknownCapability symbol := by
    cases a with
    | capabilities s => exact capability_eq_error (eq_error_of_map failed)
    | _ => cases failed
  cases m with
  | equalsSymbols symbols =>
    cases a with
    | capabilities s =>
      obtain ⟨before, symbol, after, rfl, _, _, same⟩ := Matcher.capabilitySet_eq_error (eq_error_of_map failed)
      exact ⟨symbol, List.mem_map_of_mem (List.mem_append_right _ List.mem_cons_self), same⟩
    | _ => cases failed
  | equals l => cases a <;> cases failed
  | includes symbol => exact ⟨symbol, List.mem_cons_self, mentioned failed⟩
  | excludes symbol =>
    refine ⟨symbol, List.mem_cons_self, mentioned ?_⟩
    cases a with
    | value v => cases failed
    | _ => exact eq_error_of_map failed
  | isEmpty => cases a <;> cases failed

theorem check_eq_error {m : Matcher} {a : Answer} {span : Span} (failed : m.check a span = .error error) :
    m.holds a = .error error ∨ ∃ expected actual, error = .expectationFailed expected actual span := by
  rcases eq_error_of_bind failed with unknown | ⟨holds, _, failed⟩
  · exact .inl unknown
  · cases holds with
    | true => cases failed
    | false =>
      cases failed
      exact .inr ⟨_, _, rfl⟩

theorem arises_of_check {m : Matcher} {a : Answer} {span : Span} (failed : m.check a span = .error error) :
    error.Arises := by
  rcases check_eq_error failed with unknown | ⟨_, _, rfl⟩
  · obtain ⟨_, _, rfl⟩ := holds_eq_error unknown
    trivial
  · trivial

/-- A class that is there can be instantiated. -/
theorem WellNamed.exists_instantiate (named : env.WellNamed) {className : Name} {t : Table Accessor}
    (found : env.classes.get? className.value = some t) {attributes : List AttributeInit}
    (wellFormed : ∀ a ∈ attributes, a.WellFormed) : ∃ o, env.instantiate className attributes = .ok o := by
  have names := (named.classes _ t found).forall_valid
  obtain ⟨fresh, built, thawed⟩ : ∃ fresh : Attributed Value,
      Attributed.ofAccessors className.value t.entries = .ok fresh ∧ fresh.frozen = false := by
    refine exists_foldlM_ok (fun {o entry} member thawed => ?_) rfl
    have isName := names entry.1 (List.mem_map_of_mem member)
    exact ⟨_, if_pos isName, thawed⟩
  obtain ⟨o, filled, _⟩ := exists_foldlM_ok (P := fun o : Attributed Value => o.frozen = false)
    (f := fun o a => raiseAt a.name.span (o.setAttribute a.name.value a.value.value.toValue)) (l := attributes)
    (fun {o a} member thawed => by
      have internal := isInternalName_key (wellFormed a member).1
      have set : o.setAttribute a.name.value a.value.value.toValue =
          .ok { o with attributes := o.attributes.set a.name.value a.value.value.toValue } := by
        rw [Attributed.setAttribute, Object.setAttribute_of_isInternalName _ _ _ internal, thawed]
        rfl
      exact ⟨_, congrArg (raiseAt a.name.span) set, thawed⟩) thawed
  refine ⟨o, ?_⟩
  rw [instantiate, found]
  dsimp only
  rw [built]
  exact filled

/-- The entries of a hash, with their keys read as those of queries are, which refuses what is no name. -/
def readPairs (entries : List HashEntry) : Except RunError (List (String × Value)) :=
  entries.mapM fun e => do return (← literalKey (e.key.map KeyLiteral.toLiteral), e.value.value.toValue)

/-- The value of an expression, with the keys of its entries checked. -/
def build (env : Environment) : Expression → Except RunError Value
  | .hash entries => do return .object (.mapping (.ofEntries (← readPairs entries.value)))
  | .descriptor properties => do return .object (.descriptor (.ofProperties (← readPairs properties.value)))
  | .new className attributes => env.evaluate (.new className attributes)
  | .literal l => env.evaluate (.literal l)

theorem readPairs_eq_ok (entries : List HashEntry) : readPairs entries = .ok (entries.map (·.toPair)) := by
  induction entries with
  | nil => rfl
  | cons e entries ih =>
    have key : literalKey (e.key.map KeyLiteral.toLiteral) = .ok e.key.value.name := by
      obtain ⟨⟨key, span⟩, value⟩ := e
      cases key <;> rfl
    rw [readPairs, List.mapM_cons, key, ← readPairs, ih]
    rfl

/-- The keys of entries are names, so that checking them refuses none. -/
theorem build_eq_evaluate (env : Environment) (e : Expression) : env.build e = env.evaluate e := by
  cases e with
  | hash entries =>
    rw [build, readPairs_eq_ok]
    rfl
  | descriptor properties =>
    rw [build, readPairs_eq_ok]
    rfl
  | _ => rfl

theorem WellNamed.eq_undefinedClass_of_evaluate (named : env.WellNamed) {e : Expression} (wellFormed : e.WellFormed)
    (failed : env.evaluate e = .error error) :
    ∃ className attributes, e = .new className attributes ∧ error = .undefinedClass className := by
  cases e with
  | new className attributes =>
    refine ⟨className, attributes, rfl, ?_⟩
    have unbuilt := eq_error_of_map failed
    cases found : env.classes.get? className.value with
    | none =>
      rw [instantiate, found] at unbuilt
      cases unbuilt
      rfl
    | some t =>
      obtain ⟨o, built⟩ := named.exists_instantiate found wellFormed.2
      cases built.symm.trans unbuilt
  | _ => cases failed

theorem WellNamed.permits_of_execute (named : env.WellNamed) (wellFormed : s.value.WellFormed)
    (failed : env.execute s = .error error) : s.value.Permits error := by
  obtain ⟨s, span⟩ := s
  cases s with
  | assign name e =>
    rcases eq_error_of_bind failed with unbuilt | ⟨v, _, failed⟩
    · obtain ⟨className, attributes, same, rfl⟩ := named.eq_undefinedClass_of_evaluate wellFormed.2 unbuilt
      exact ⟨trivial, fun _ _ this => by cases this; exact ⟨className, attributes, same, rfl⟩, fun _ _ _ => nofun⟩
    · cases failed
  | defineClass name declarations => cases failed
  | setAttribute object name value =>
    rcases eq_error_of_bind failed with missing | ⟨o, _, failed⟩
    · refine ⟨arises_of_object missing, fun _ _ => nofun, fun _ _ _ this => ?_⟩
      cases this
      exact (object_eq_error missing).imp_right .inl
    · rcases eq_error_of_bind failed with refused | ⟨_, _, failed⟩
      · obtain ⟨cause, unset, rfl⟩ := raiseAt_eq_error refused
        obtain ⟨kind, rfl⟩ := Object.eq_frozenTarget_of_setAttribute (isInternalName_key wellFormed.2.1) unset
        refine ⟨trivial, fun _ _ => nofun, fun _ _ _ this => ?_⟩
        cases this
        exact .inr (.inr ⟨kind, _, rfl⟩)
      · cases failed
  | freeze object =>
    rcases eq_error_of_bind failed with missing | ⟨o, _, failed⟩
    · exact ⟨arises_of_object missing, fun _ _ => nofun, fun _ _ _ => nofun⟩
    · cases failed
  | query q =>
    rcases eq_error_of_bind failed with unanswered | ⟨a, _, failed⟩
    · exact ⟨arises_of_answer unanswered, fun _ _ => nofun, fun _ _ _ => nofun⟩
    · cases failed
  | expect q m =>
    rcases eq_error_of_bind failed with unanswered | ⟨a, _, failed⟩
    · exact ⟨arises_of_answer unanswered, fun _ _ => nofun, fun _ _ _ => nofun⟩
    · rcases eq_error_of_bind failed with unmet | ⟨_, _, failed⟩
      · exact ⟨arises_of_check unmet, fun _ _ => nofun, fun _ _ _ => nofun⟩
      · cases failed

/-- The errors in the report on a script are errors of its statements. -/
theorem Reached.permits_of_run {statements : List (Located Statement)} (reached : env.Reached)
    (parsed : ∀ s ∈ statements, Parsed s) (raised : error ∈ (env.run statements).1.errors) :
    ∃ s ∈ statements, s.value.Permits error := by
  induction statements generalizing env with
  | nil => cases raised
  | cons s rest ih =>
    obtain ⟨first, others⟩ := List.forall_mem_cons.mp parsed
    have later {next : Environment} (reached : next.Reached) (raised : error ∈ (next.run rest).1.errors) :
        ∃ t ∈ s :: rest, t.value.Permits error := by
      obtain ⟨t, member, permits⟩ := ih reached others raised
      exact ⟨t, List.mem_cons_of_mem s member, permits⟩
    rw [Environment.run] at raised
    cases executed : env.execute s with
    | ok r =>
      have none : (Report.ofOutcome s.span r.1).errors = [] := by cases r.1 <;> rfl
      rw [executed] at raised
      replace raised : error ∈ (Report.ofOutcome s.span r.1).errors ++ (r.2.run rest).1.errors := raised
      rw [none] at raised
      exact later (reached.next first executed) raised
    | error e =>
      have now : s.value.Permits e := reached.wellNamed.permits_of_execute first.wellFormed executed
      rw [executed] at raised
      dsimp only at raised
      split at raised
      · rcases List.mem_cons.mp raised with rfl | raised
        · exact ⟨s, List.mem_cons_self, now⟩
        · exact later reached raised
      · cases List.mem_singleton.mp raised
        exact ⟨s, List.mem_cons_self, now⟩

/-- Whatever statements were read and executed, failed ones among them, no name in them is refused: a statement has
none of the errors that say so, an expression fails only for want of a class, also when its keys are checked, and an
attribute can be set unless there is no object or a frozen one. So it is with a script that is run, up to the error
that stops it. -/
theorem names_and_errors_afterAll {statements : List (Located Statement)} (parsed : ∀ s ∈ statements, Parsed s) :
    (({} : Environment).afterAll statements).KeepsNames ∧ (({} : Environment).run statements).2.KeepsNames ∧
      (∀ s, Parsed s → ∀ error, ((({} : Environment).afterAll statements).attempt s).1 = .error error →
        s.value.Permits error) ∧
      (∀ env : Environment, env.build = env.evaluate) ∧
      ∀ error ∈ (({} : Environment).run statements).1.errors, ∃ s ∈ statements, s.value.Permits error := by
  have reached : (({} : Environment).afterAll statements).Reached := Reached.start.afterAll parsed
  refine ⟨reached.keepsNames, (Reached.start.run parsed).keepsNames, fun s read error failed => ?_,
    fun env => funext env.build_eq_evaluate, fun error => Reached.start.permits_of_run parsed⟩
  rw [attempt] at failed
  cases executed : (({} : Environment).afterAll statements).execute s with
  | ok r =>
    rw [executed] at failed
    cases failed
  | error e =>
    rw [executed] at failed
    cases failed
    exact reached.wellNamed.permits_of_execute read.wellFormed executed

/-- `class P { attr_reader :x }`, `p = new P { @y = 1 }` and `freeze p`, on three lines. -/
def frozenPoint : List (Located Statement) :=
  [⟨.defineClass ⟨"P", 6, 7⟩ [⟨⟨.reader, [⟨"x", 23, 24⟩]⟩, 10, 25⟩], 0, 26⟩,
    ⟨.assign ⟨"p", 27, 28⟩ ⟨.new ⟨"P", 35, 36⟩ [⟨⟨"@y", 39, 41⟩, ⟨.int 1, 44, 45⟩⟩], 31, 47⟩, 27, 47⟩,
    ⟨.freeze ⟨"p", 55, 56⟩, 48, 56⟩]

/-- `set p @z = 2`. -/
def lateSet : Located Statement := ⟨.setAttribute ⟨"p", 4, 5⟩ ⟨"@z", 6, 8⟩ ⟨.int 2, 11, 12⟩, 0, 12⟩

theorem names_and_errors_frozenPoint :
    (∀ s ∈ frozenPoint, Parsed s) ∧ Parsed lateSet ∧ (({} : Environment).afterAll frozenPoint).KeepsNames ∧
      ((({} : Environment).afterAll frozenPoint).attempt lateSet).1 =
        .error (.access (.frozenTarget "@z" "Object") ⟨0, 12⟩) ∧
      lateSet.value.Permits (.access (.frozenTarget "@z" "Object") ⟨0, 12⟩) := by
  have whole : Script.parse "class P \x7b attr_reader :x \x7d\np = new P \x7b @y = 1 \x7d\nfreeze p" none =
      .ok ⟨frozenPoint, none, 0, 56⟩ := by rfl
  have parsed : ∀ s ∈ frozenPoint, Parsed s := fun s member => .within whole member
  have late : Parsed lateSet := .alone (show Statement.parse "set p @z = 2" = .ok lateSet by rfl)
  have refused : ((({} : Environment).afterAll frozenPoint).attempt lateSet).1 =
      .error (.access (.frozenTarget "@z" "Object") ⟨0, 12⟩) := by rfl
  obtain ⟨names, _, errors, _⟩ := names_and_errors_afterAll parsed
  exact ⟨parsed, late, names, refused, errors lateSet late _ refused⟩

end Environment

end KeyIntrospection
