import KeyIntrospection.Proofs.Script.Single

/-!
Well-formed statements. What the grammar promises about names and literals is a property of the syntax
trees, which every statement that is read has.
-/

namespace KeyIntrospection.Script

namespace Word

/-- A character of the given kind, and after it letters, digits and underscores. -/
def isWord (first : Char → Bool) : List Char → Bool
  | [] => false
  | c :: s => first c && s.all isPart

end Word

def isVariableName (s : String) : Bool := Word.isWord Word.isLowerStart s.toList && !Word.isKeyword s.toList

def isClassName (s : String) : Bool := Word.isWord Char.isUpper s.toList

def isAccessorName (s : String) : Bool := Word.isWord Word.isStart s.toList

def isAttributeName (s : String) : Bool :=
  match s.toList with
  | '@' :: rest => Word.isWord Word.isStart rest
  | _ => false

/-- The name of an attribute or of an accessor. -/
def isSymbolName (s : String) : Bool := isAttributeName s || isAccessorName s

/-- Integers have 64 bits and symbols are names; all other literals can be written as they are. -/
def Literal.WellFormed : Literal → Prop
  | int n => Int64.minValue.toInt ≤ n ∧ n ≤ Int64.maxValue.toInt
  | symbol name => isSymbolName name
  | nil | bool _ | float _ | string _ => True

def KeyLiteral.WellFormed (key : KeyLiteral) : Prop := key.toLiteral.WellFormed

def HashEntry.WellFormed (e : HashEntry) : Prop := e.key.value.WellFormed ∧ e.value.value.WellFormed

def AttributeInit.WellFormed (a : AttributeInit) : Prop := isAttributeName a.name.value ∧ a.value.value.WellFormed

def Expression.WellFormed : Expression → Prop
  | hash entries => ∀ e ∈ entries.value, e.WellFormed
  | descriptor properties => ∀ e ∈ properties.value, e.WellFormed
  | new className attributes => isClassName className.value ∧ ∀ a ∈ attributes, a.WellFormed
  | literal l => l.value.WellFormed

def AccessorDeclaration.WellFormed (d : AccessorDeclaration) : Prop :=
  d.names ≠ [] ∧ ∀ name ∈ d.names, isAccessorName name.value

def Query.WellFormed : Query → Prop
  | keyInfo object key => isVariableName object.value ∧ key.value.WellFormed
  | keys object _ => isVariableName object.value
  | read object key => isVariableName object.value ∧ key.value.WellFormed

def Matcher.WellFormed : Matcher → Prop
  | equalsSymbols symbols => ∀ symbol ∈ symbols, isSymbolName symbol.value
  | equals l => l.value.WellFormed
  | includes symbol => isSymbolName symbol.value
  | excludes symbol => isSymbolName symbol.value
  | isEmpty => True

def Statement.WellFormed : Statement → Prop
  | assign name e => isVariableName name.value ∧ e.value.WellFormed
  | defineClass name accessors => isClassName name.value ∧ ∀ d ∈ accessors, d.value.WellFormed
  | setAttribute object name value =>
    isVariableName object.value ∧ isAttributeName name.value ∧ value.value.WellFormed
  | freeze object => isVariableName object.value
  | query q => q.value.WellFormed
  | expect q m => q.value.WellFormed ∧ m.WellFormed

/-- Every value that the rule gives has the property. -/
def Yields {α : Type} (p : Rule α) (P : α → Prop) : Prop :=
  ∀ ⦃c : Cursor⦄ ⦃m : Match LiteralFault α⦄ ⦃x : α⦄, p.accept? c = some m → m.value = .ok x → P x

namespace Yields

variable {α β : Type} {P : α → Prop} {Q : β → Prop} {p : Rule α} {q : Rule β}

theorem any : Yields p fun _ => True := fun _ _ _ _ _ => trivial

theorem token {name : Phrase} {t : Token} {read : Located (List Char) → Except LiteralFault α}
    (reads : ∀ {s x r : List Char} {span : Span} {v : α}, t.take? s = some (x, r) → read ⟨x, span⟩ = .ok v → P v) :
    Yields (.token name t read) P := by
  intro c m v accepted value
  obtain ⟨⟨x, next⟩, takes, rfl⟩ := Option.map_eq_some_iff.mp accepted
  obtain ⟨⟨taken, rest⟩, found, same⟩ := Option.map_eq_some_iff.mp takes
  cases same
  exact reads found value

theorem seq {gap : Gap} (first : Yields p P) (second : Yields q Q) :
    Yields (Grammar.seq gap p q) fun x => P x.1 ∧ Q x.2 := by
  intro c k x accepted value
  obtain ⟨m, acceptedFirst, accepted⟩ := Option.bind_eq_some_iff.mp accepted
  obtain ⟨n, acceptedSecond, rfl⟩ := Option.map_eq_some_iff.mp accepted
  obtain ⟨valueFirst, valueSecond⟩ := Match.value_pair_eq_ok.mp value
  exact ⟨first acceptedFirst valueFirst, second acceptedSecond valueSecond⟩

theorem choice {p' : Rule α} (first : Yields p P) (second : Yields p' P) : Yields (.choice p p') P := by
  intro c k x accepted value
  rw [Grammar.accept?] at accepted
  split at accepted
  · next found =>
    cases accepted
    exact first found value
  · exact second accepted value

theorem map {f : α → β} (inner : Yields p P) (values : ∀ x, P x → Q (f x)) : Yields (.map f p) Q := by
  intro c k x accepted value
  obtain ⟨m, found, rfl⟩ := Option.map_eq_some_iff.mp accepted
  obtain ⟨y, valueInside, rfl⟩ := Match.value_map_eq_ok.mp value
  exact values y (inner found valueInside)

theorem located {name : Phrase} (inner : Yields p P) : Yields (Grammar.phrase name p) fun x => P x.value := by
  intro c k x accepted value
  obtain ⟨m, found, rfl⟩ := Option.map_eq_some_iff.mp accepted
  obtain ⟨y, valueInside, rfl⟩ := Match.value_map_eq_ok.mp value
  exact inner found valueInside

theorem phrase {name : Phrase} {f : α → β} (inner : Yields p P) (values : ∀ x, P x → Q (f x)) :
    Yields (Rule.phrase name p f) fun x => Q x.value := .map inner.located fun x => values x.value

theorem either {name : Phrase} (inner : Yields p P) : Yields (Rule.either name p) P := .map inner.located fun _ => id

theorem optional (inner : Yields p P) : Yields (.optional p) fun x => ∀ y ∈ x, P y := by
  intro c k x accepted value
  rw [Grammar.accept?] at accepted
  split at accepted
  · next m found =>
    cases accepted
    obtain ⟨y, valueInside, rfl⟩ := Match.value_map_eq_ok.mp value
    intro z mem
    cases mem
    exact inner found valueInside
  · cases accepted
    cases value
    intro y mem
    cases mem

/-- What holds of the first value and of the further ones holds of all. -/
theorem of_cons {m : Match LiteralFault α} {n : Match LiteralFault (List α)} {l : List α}
    (value : (m.cons n).value = .ok l) (first : ∀ x, m.value = .ok x → P x)
    (others : ∀ l, n.value = .ok l → ∀ x ∈ l, P x) : ∀ x ∈ l, P x := by
  obtain ⟨x, rest, valueFirst, valueOthers, rfl⟩ := Match.value_cons_eq_ok.mp value
  exact List.forall_mem_cons.mpr ⟨first x valueFirst, others rest valueOthers⟩

theorem further (inner : Yields p P) (bound : List Char) (c : Cursor) {l : List α}
    (value : (Grammar.further p.accept? bound c).value = .ok l) : ∀ x ∈ l, P x := by
  induction bound generalizing c l with
  | nil =>
    cases value
    exact List.forall_mem_nil P
  | cons b bound ih =>
    rw [Grammar.further] at value
    split at value
    · cases value
      exact List.forall_mem_nil P
    · next m found =>
      split at value
      · exact of_cons value (fun x => inner found) fun l => ih m.next
      · cases value
        exact List.forall_mem_nil P

theorem many (inner : Yields p P) : Yields (.many p) fun l => ∀ x ∈ l, P x := by
  intro c k l accepted value
  rw [Grammar.accept?] at accepted
  split at accepted
  · next m found =>
    cases accepted
    exact of_cons value (fun x => inner found) fun l => inner.further _ m.next
  · cases accepted
    cases value
    exact List.forall_mem_nil P

end Yields

namespace Word

theorem isWord_of_take?_run {first : Char → Bool} {s x r : List Char}
    (takes : (Token.run first isPart).take? s = some (x, r)) : isWord first x := by
  obtain ⟨head, rfl, _⟩ := take?_run_eq_some_iff.mp takes
  rcases s with _ | ⟨c, s⟩
  · cases head
  · have start : first c := by simpa using head
    simp [isWord, start]

theorem isVariableName_of_take? {s x r : List Char} (takes : variableName.take? s = some (x, r)) :
    isVariableName (.ofList x) := by
  obtain ⟨takes, free⟩ := Option.filter_eq_some_iff.mp takes
  simpa [isVariableName, isWord_of_take?_run takes] using free

theorem isClassName_of_take? {s x r : List Char} (takes : className.take? s = some (x, r)) :
    isClassName (.ofList x) := by
  simpa [isClassName] using isWord_of_take?_run takes

theorem isAccessorName_of_take? {s x r : List Char} (takes : accessorName.take? s = some (x, r)) :
    isAccessorName (.ofList x) := by
  simpa [isAccessorName] using isWord_of_take?_run takes

theorem isAttributeName_of_take? {s x r : List Char} (takes : attributeName.take? s = some (x, r)) :
    isAttributeName (.ofList x) := by
  simp only [attributeName, Token.append, Token.text, Token.exactly, Option.bind_eq_some_iff,
    Option.map_eq_some_iff, Prod.exists, Prod.mk.injEq, Option.ite_none_right_eq_some,
    Option.some.injEq] at takes
  obtain ⟨_, _, ⟨_, rfl, _⟩, name, _, takes, rfl, _⟩ := takes
  have sign : "@".toList = ['@'] := by decide
  simpa [isAttributeName, sign] using isWord_of_take?_run takes

theorem isSymbolName_of_take? {s x r : List Char} (takes : symbolName.take? s = some (x, r)) :
    isSymbolName (.ofList x) := by
  simp only [symbolName, Token.append, Option.bind_eq_some_iff, Option.map_eq_some_iff, Prod.exists,
    Prod.mk.injEq] at takes
  obtain ⟨sign, _, found, name, _, takes, rfl, _⟩ := takes
  have word := isWord_of_take?_run takes
  rcases Token.eq_of_take?_optional found with rfl | rfl
  · simp [isSymbolName, isAttributeName, word]
  · simp [isSymbolName, isAccessorName, word]

end Word

namespace Yields

open Rule

theorem name {p : Phrase} {t : Token} {kind : String → Bool}
    (takes : ∀ {s x r : List Char}, t.take? s = some (x, r) → kind (.ofList x)) :
    Yields (Rule.name p t) fun n => kind n.value := by
  refine token fun found value => ?_
  cases value
  exact takes found

theorem variableName : Yields Rule.variableName fun n => isVariableName n.value :=
  name Word.isVariableName_of_take?

theorem className : Yields Rule.className fun n => isClassName n.value := name Word.isClassName_of_take?

theorem attributeName : Yields Rule.attributeName fun n => isAttributeName n.value :=
  name Word.isAttributeName_of_take?

theorem symbol : Yields Rule.symbol fun n => isSymbolName n.value :=
  phrase (Q := (isSymbolName ·)) (any.seq (name Word.isSymbolName_of_take?)) fun _ found => found.2

theorem accessorSymbol : Yields Rule.accessorSymbol fun n => isAccessorName n.value :=
  map (any.seq (name Word.isAccessorName_of_take?)).located fun _ found => found.2

theorem listed {α : Type} {P : α → Prop} {first next : Rule α} (one : Yields first P) (more : Yields next P) :
    Yields (Rule.listed first next) fun l => ∀ x ∈ l, P x := by
  have items : Yields (.many (.map Prod.snd (Rule.seq (mark ",") next))) fun l => ∀ x ∈ l, P x :=
    many (map (any.seq more) fun _ found => found.2)
  refine map (optional (one.seq (items.seq any))) fun x found => ?_
  cases x with
  | none => exact List.forall_mem_nil P
  | some x =>
    obtain ⟨first, others, _⟩ := found x rfl
    exact List.forall_mem_cons.mpr ⟨first, others⟩

theorem block {α : Type} {P : α → Prop} {item : Rule α} (inner : Yields item P) :
    Yields (Rule.block item) fun l => ∀ x ∈ l, P x := by
  have next : Yields (.map Prod.snd (Rule.seq lineBreaks item)) P := map (any.seq inner) fun _ found => found.2
  exact map (any.seq (any.seq ((listed inner next).seq any))) fun _ found => found.2.2.1

theorem integer : Yields (.token .integer Word.integer fun x => (readInteger x).map (⟨.int ·, x.span⟩) : Rule (Located Literal))
    fun l => l.value.WellFormed := by
  refine token fun {s x r span v} _ value => ?_
  unfold readInteger at value
  dsimp only at value
  split at value
  · next range =>
    cases value
    exact range
  · cases value

theorem literal : Yields Rule.literal fun l => l.value.WellFormed := by
  have float : Yields (.token .float Word.float fun x => .ok ⟨.float (readFloat x), x.span⟩ : Rule (Located Literal))
      fun l => l.value.WellFormed := by
    refine token fun _ value => ?_
    cases value
    trivial
  have strings : Yields (.map (Located.map Literal.string) Rule.string) fun l => l.value.WellFormed :=
    map any fun _ _ => trivial
  have symbols : Yields (.map (Located.map Literal.symbol) Rule.symbol) fun l => l.value.WellFormed :=
    map symbol fun _ found => found
  exact either (.choice float (.choice integer (.choice strings (.choice symbols
    (.choice (phrase any fun _ _ => trivial) (phrase any fun _ _ => trivial))))))

theorem symbolList : Yields Rule.symbolList fun l => ∀ n ∈ l, isSymbolName n.value :=
  either (map (any.seq ((listed symbol symbol).seq any)) fun _ found => found.2.1)

theorem hashEntry : Yields Rule.hashEntry HashEntry.WellFormed := by
  have key : Yields (Grammar.choice (.map (Located.map KeyLiteral.string) Rule.string)
      (.map (Located.map KeyLiteral.symbol) Rule.symbol)) fun key => key.value.WellFormed :=
    .choice (map any fun _ _ => trivial) (map symbol fun _ found => found)
  exact either (map (key.seq (any.seq literal)) fun _ found => ⟨found.1, found.2.2⟩)

theorem hash : Yields Rule.hash fun l => ∀ e ∈ l.value, e.WellFormed := (block hashEntry).located

theorem descriptor : Yields Rule.descriptor fun l => ∀ e ∈ l.value, e.WellFormed :=
  either (map (any.seq hash) fun _ found => found.2)

theorem attributeInit : Yields Rule.attributeInit AttributeInit.WellFormed :=
  either (map (attributeName.seq (any.seq literal)) fun _ found => ⟨found.1, found.2.2⟩)

theorem newObject : Yields Rule.newObject Expression.WellFormed := by
  refine either (map (any.seq (className.seq (optional (either (block attributeInit))))) fun x found => ?_)
  obtain ⟨_, name, attributes⟩ := x
  obtain ⟨_, isName, wellFormed⟩ := found
  refine ⟨isName, ?_⟩
  cases attributes with
  | none => exact List.forall_mem_nil _
  | some l => exact wellFormed l rfl

theorem expression : Yields Rule.expression fun e => e.value.WellFormed :=
  located (.choice (map hash fun _ found => found) (.choice (map descriptor fun _ found => found)
    (.choice newObject (map literal fun _ found => found))))

theorem assignment : Yields Rule.assignment fun s => s.value.WellFormed :=
  phrase (variableName.seq (any.seq expression)) fun _ found => ⟨found.1, found.2.2⟩

theorem accessorDeclaration : Yields Rule.accessorDeclaration fun d => d.value.WellFormed := by
  have more : Yields (.many (.map Prod.snd (Rule.seq (mark ",") Rule.accessorSymbol)))
      fun l => ∀ n ∈ l, isAccessorName n.value := many (map (any.seq accessorSymbol) fun _ found => found.2)
  exact phrase (any.seq (accessorSymbol.seq more)) fun _ found =>
    ⟨List.cons_ne_nil _ _, List.forall_mem_cons.mpr found.2⟩

theorem classDefinition : Yields Rule.classDefinition fun s => s.value.WellFormed := by
  have item : Yields classItem fun d => ∀ x ∈ d, x.value.WellFormed := by
    refine .choice (map any fun _ _ x mem => by cases mem) (map accessorDeclaration fun _ found x mem => ?_)
    cases mem
    exact found
  refine phrase (any.seq (className.seq (any.seq (item.many.seq any)))) fun x found => ?_
  refine ⟨found.2.1, fun d mem => ?_⟩
  obtain ⟨d', inside, same⟩ := List.mem_filterMap.mp mem
  exact found.2.2.2.1 d' inside d same

theorem setAttribute : Yields Rule.setAttribute fun s => s.value.WellFormed :=
  phrase (any.seq (variableName.seq (attributeName.seq (any.seq literal)))) fun _ found =>
    ⟨found.2.1, found.2.2.1, found.2.2.2.2⟩

theorem freeze : Yields Rule.freeze fun s => s.value.WellFormed :=
  phrase (any.seq variableName) fun _ found => found.2

theorem keyQuery (p : Phrase) (k : Keyword) {f : Name → Located Literal → Query}
    (wellFormed : ∀ object key, isVariableName object.value → key.value.WellFormed → (f object key).WellFormed) :
    Yields (Rule.keyQuery p k f) Query.WellFormed :=
  either (map (any.seq (any.seq (variableName.seq (any.seq (literal.seq any))))) fun _ found =>
    wellFormed _ _ found.2.2.1 found.2.2.2.2.1)

theorem keysQuery : Yields Rule.keysQuery Query.WellFormed :=
  either (map (any.seq (any.seq (variableName.seq (any.seq any)))) fun _ found => found.2.2.1)

theorem query : Yields Rule.query fun q => q.value.WellFormed :=
  located (.choice (keyQuery _ _ fun _ _ object key => ⟨object, key⟩)
    (.choice keysQuery (keyQuery _ _ fun _ _ object key => ⟨object, key⟩)))

theorem matcher : Yields Rule.matcher Matcher.WellFormed := by
  have equals : Yields (Grammar.choice (.map Matcher.equalsSymbols Rule.symbolList)
      (.map Matcher.equals Rule.literal)) Matcher.WellFormed :=
    .choice (map symbolList fun _ found => found) (map literal fun _ found => found)
  exact either (.choice (either (map (any.seq equals) fun _ found => found.2))
    (.choice (either (map (any.seq symbol) fun _ found => found.2))
      (.choice (either (map (any.seq symbol) fun _ found => found.2)) (either (map any fun _ _ => trivial)))))

theorem expectation : Yields Rule.expectation fun s => s.value.WellFormed :=
  phrase (any.seq (query.seq matcher)) fun _ found => found.2

/-- Every statement that is read is well-formed. -/
theorem statement : Yields Rule.statement fun s => s.value.WellFormed :=
  .choice classDefinition (.choice setAttribute (.choice freeze (.choice expectation
    (.choice (map query fun _ found => found) assignment))))

theorem script : Yields Rule.script fun l => ∀ s ∈ l.value, s.value.WellFormed := by
  have statements : Yields (.many (.map Prod.fst (Rule.seq Rule.statement statementEnd)))
      fun l => ∀ s ∈ l, s.value.WellFormed := many (map (statement.seq any) fun _ found => found.1)
  exact phrase (Q := fun (l : List (Located Statement)) => ∀ s ∈ l, s.value.WellFormed) (any.seq (any.seq (statements.seq any)))
    fun _ found => found.2.2.1

end Yields

theorem wellFormed_of_parse {source : String} {s : Located Statement} (parsed : Statement.parse source = .ok s) :
    s.value.WellFormed := by
  obtain ⟨m, found, value, _⟩ := Rule.exists_statement_of_parse parsed
  exact Yields.statement found value

theorem wellFormed_of_parse_script {source : String} {file : Option String} {script : Script}
    (parsed : Script.parse source file = .ok script) : ∀ s ∈ script.statements, s.value.WellFormed := by
  obtain ⟨l, whole, rfl⟩ := Rule.exists_parse_of_script parsed
  obtain ⟨m, found, value⟩ := Rule.exists_accept_of_parse whole
  exact Yields.script found value

end KeyIntrospection.Script
