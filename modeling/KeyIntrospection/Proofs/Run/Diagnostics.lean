import KeyIntrospection.Proofs.Run.Composition
import KeyIntrospection.Proofs.Run.Errors
import KeyIntrospection.Proofs.Script.Spans

/-!
Where the errors of a run point to. Each is about a region of the statement that raised it, and where it names
something that is not there, this is what the source says in that place.
-/

namespace KeyIntrospection

open Script

theorem exists_of_foldlM_error {ε α β : Type} {f : β → α → Except ε β} {l : List α} {b : β} {e : ε}
    (failed : l.foldlM f b = .error e) : ∃ a ∈ l, ∃ c, f c a = .error e := by
  induction l generalizing b with
  | nil => cases failed
  | cons a l ih =>
    rw [List.foldlM_cons] at failed
    rcases eq_error_of_bind failed with first | ⟨c, _, later⟩
    · exact ⟨a, List.mem_cons_self, b, first⟩
    · obtain ⟨d, member, found⟩ := ih later
      exact ⟨d, List.mem_cons_of_mem a member, found⟩

namespace Script.Region

/-- A region, or one of the regions in it, and so on. -/
inductive Within : Region → Region → Prop
  | refl (r : Region) : Within r r
  | inside {span : Span} {label : Label} {l : List Region} {r part : Region} : r ∈ l → Within part r →
      Within part (.node span label l)

theorem Fits.of_within {source : String} {r part : Region} (within : part.Within r) (fits : r.Fits source) :
    part.Fits source ∧ r.span.start ≤ part.span.start ∧ part.span.stop ≤ r.span.stop := by
  induction within with
  | refl r => exact ⟨fits, Nat.le_refl _, Nat.le_refl _⟩
  | @inside span label l r part member _ ih =>
    cases fits with
    | node _ _ _ _ bounds others =>
      obtain ⟨lower, upper⟩ := bounds r member
      obtain ⟨fits, lower', upper'⟩ := ih (others r member)
      exact ⟨fits, Nat.le_trans lower lower', Nat.le_trans upper' upper⟩

end Script.Region

/-- What is missing is named in the region; the object that refuses something, or the whole request, is the region. -/
inductive RunError.IsAbout : RunError → Region → Prop
  | undefinedVariable (name : Name) : IsAbout (.undefinedVariable name) (nameAt name)
  | undefinedClass (name : Name) : IsAbout (.undefinedClass name) (nameAt name)
  | unknownCapability (symbol : Name) : IsAbout (.unknownCapability symbol) (symbolAt symbol)
  | access (cause : AccessError) (r : Region) : IsAbout (.access cause r.span) r
  | expectationFailed (expected actual : String) (r : Region) : IsAbout (.expectationFailed expected actual r.span) r

theorem RunError.IsAbout.span_eq {e : RunError} {r : Region} (about : e.IsAbout r) : e.span = r.span := by
  cases about <;> rfl

namespace Environment

variable {env : Environment} {error : RunError}

/-- The error is about something in the regions. -/
def Sited (error : RunError) (l : List Region) : Prop := ∃ r ∈ l, ∃ part, Region.Within part r ∧ error.IsAbout part

theorem Sited.mono {l l' : List Region} (sited : Sited error l) (included : ∀ r ∈ l, r ∈ l') : Sited error l' := by
  obtain ⟨r, member, found⟩ := sited
  exact ⟨r, included r member, found⟩

theorem Sited.of_mem {l : List Region} {r : Region} (member : r ∈ l) (about : error.IsAbout r) : Sited error l :=
  ⟨r, member, r, .refl r, about⟩

theorem Sited.inside {span : Span} {label : Script.Label} {l : List Region} (sited : Sited error l) :
    Sited error [.node span label l] := by
  obtain ⟨r, member, part, within, about⟩ := sited
  exact ⟨_, List.mem_singleton_self _, part, .inside member within, about⟩

theorem sited_of_object {name : Name} {l : List Region} (member : nameAt name ∈ l)
    (failed : env.object name = .error error) : Sited error l := by
  rcases object_eq_error failed with rfl | ⟨typeName, rfl⟩
  · exact .of_mem member (.undefinedVariable name)
  · exact .of_mem member (.access _ (nameAt name))

theorem sited_of_answer {q : Located Query} (failed : env.answer q = .error error) :
    Sited error [phraseAt Query.regions q] := by
  obtain ⟨object, member, rfl | ⟨typeName, rfl⟩⟩ | ⟨key, typeName, member, rfl⟩ | ⟨cause, _, rfl⟩ :=
    answer_eq_error failed
  · exact .inside (.of_mem member (.undefinedVariable object))
  · exact .inside (.of_mem member (.access _ (nameAt object)))
  · exact .inside (.of_mem member (.access _ (literalAt key)))
  · exact .of_mem List.mem_cons_self (.access cause (phraseAt Query.regions q))

theorem sited_of_instantiate {className : Name} {attributes : List AttributeInit}
    (failed : env.instantiate className attributes = .error error) :
    Sited error (Expression.new className attributes).regions := by
  unfold instantiate at failed
  split at failed
  · rcases eq_error_of_bind failed with unfit | ⟨o, _, failed⟩
    · obtain ⟨cause, _, rfl⟩ := raiseAt_eq_error unfit
      exact .of_mem List.mem_cons_self (.access cause (nameAt className))
    · obtain ⟨a, member, _, unset⟩ := exists_of_foldlM_error failed
      obtain ⟨cause, _, rfl⟩ := raiseAt_eq_error unset
      have inside : nameAt a.name ∈ attributes.flatMap AttributeInit.regions :=
        List.mem_flatMap.mpr ⟨a, member, List.mem_cons_self⟩
      exact .of_mem (List.mem_cons_of_mem _ inside) (.access cause (nameAt a.name))
  · cases failed
    exact .of_mem List.mem_cons_self (.undefinedClass className)

theorem sited_of_evaluate {e : Located Expression} (failed : env.evaluate e.value = .error error) :
    Sited error [phraseAt Expression.regions e] := by
  obtain ⟨e, span⟩ := e
  cases e with
  | new className attributes => exact .inside (sited_of_instantiate (eq_error_of_map failed))
  | _ => cases failed

/-- The error of a statement is about something in it. -/
theorem sited_of_execute {a : Located Statement} (failed : env.execute a = .error error) :
    Sited error [phraseAt Statement.regions a] := by
  obtain ⟨s, span⟩ := a
  cases s with
  | assign name e =>
    rcases eq_error_of_bind failed with unbuilt | ⟨v, _, failed⟩
    · exact .inside ((sited_of_evaluate unbuilt).mono fun _ => List.mem_cons_of_mem _)
    · cases failed
  | defineClass name declarations => cases failed
  | setAttribute object name value =>
    rcases eq_error_of_bind failed with missing | ⟨o, _, failed⟩
    · exact .inside (sited_of_object List.mem_cons_self missing)
    · rcases eq_error_of_bind failed with refused | ⟨_, _, failed⟩
      · obtain ⟨cause, _, rfl⟩ := raiseAt_eq_error refused
        exact .of_mem List.mem_cons_self
          (.access cause (phraseAt Statement.regions ⟨.setAttribute object name value, span⟩))
      · cases failed
  | freeze object =>
    rcases eq_error_of_bind failed with missing | ⟨o, _, failed⟩
    · exact .inside (sited_of_object List.mem_cons_self missing)
    · cases failed
  | query q =>
    rcases eq_error_of_bind failed with unanswered | ⟨a, _, failed⟩
    · exact .inside (sited_of_answer unanswered)
    · cases failed
  | expect q m =>
    rcases eq_error_of_bind failed with unanswered | ⟨a, _, failed⟩
    · exact .inside ((sited_of_answer unanswered).mono (by simp [Statement.regions]))
    · rcases eq_error_of_bind failed with unmet | ⟨_, _, failed⟩
      · rcases check_eq_error unmet with unknown | ⟨expected, actual, rfl⟩
        · obtain ⟨symbol, member, rfl⟩ := holds_eq_error unknown
          exact .inside (.of_mem (List.mem_cons_of_mem _ member) (.unknownCapability symbol))
        · exact .of_mem List.mem_cons_self (.expectationFailed _ _ (phraseAt Statement.regions ⟨.expect q m, span⟩))
      · cases failed

/-- The symbol of a list that is refused is the first that names no capability. -/
theorem unknown_of_execute {q : Located Query} {symbols : List Name} {span : Span} {symbol : Name}
    (failed : env.execute ⟨.expect q (.equalsSymbols symbols), span⟩ = .error (.unknownCapability symbol)) :
    ∃ before after, symbols = before ++ symbol :: after ∧ (∀ t ∈ before, NamesCapability t) ∧
      ¬NamesCapability symbol := by
  rcases eq_error_of_bind failed with unanswered | ⟨a, _, failed⟩
  · obtain ⟨_, _, other | ⟨_, other⟩⟩ | ⟨_, _, _, other⟩ | ⟨_, _, other⟩ := answer_eq_error unanswered <;> cases other
  · rcases eq_error_of_bind failed with unmet | ⟨_, _, failed⟩
    · rcases check_eq_error unmet with unknown | ⟨_, _, other⟩
      · cases a with
        | capabilities s =>
          obtain ⟨before, t, after, split, known, unknown, same⟩ :=
            Matcher.capabilitySet_eq_error (eq_error_of_map unknown)
          cases same
          exact ⟨before, after, split, known, unknown⟩
        | _ => cases unknown
      · cases other
    · cases failed

/-- The errors that are raised when statements are run, each with the statement that raises it. -/
def raised (env : Environment) (statements : List (Located Statement)) : List (Located Statement × RunError) :=
  (env.executions statements).filterMap fun e => e.error?.map (e.statement, ·)

theorem errors_run (env : Environment) (statements : List (Located Statement)) :
    (env.run statements).1.errors = (env.raised statements).map Prod.snd := by
  rw [run_eq_executions, raised]
  induction env.executions statements with
  | nil => rfl
  | cons e done ih =>
    have first : e.report.errors = e.error?.toList := by
      obtain ⟨s, error | outcome, _⟩ := e
      · rfl
      · cases outcome <;> rfl
    show e.report.errors ++ (done.foldr (fun (e : Execution) r => e.report ++ r) ({} : Report)).errors = _
    rw [ih, first, List.filterMap_cons]
    cases e.error? <;> rfl

theorem raised_sublist (env : Environment) (statements : List (Located Statement)) :
    ((env.raised statements).map Prod.fst).Sublist statements := by
  refine .trans ?_ (env.executions_prefix statements).sublist
  rw [raised]
  induction env.executions statements with
  | nil => exact .slnil
  | cons e done ih =>
    rw [List.filterMap_cons]
    cases e.error? with
    | none => exact ih.cons _
    | some error => exact ih.cons_cons _

/-- A statement that raises an error does so in the environment that is left as it is. -/
theorem execute_of_mem_executions {statements : List (Located Statement)} {x : Execution}
    (member : x ∈ env.executions statements) (failed : x.error? = some error) :
    x.environment.execute x.statement = .error error := by
  induction statements generalizing env with
  | nil => cases member
  | cons s rest ih =>
    rw [executions] at member
    cases executed : env.execute s with
    | ok r =>
      rw [executed] at member
      rcases List.mem_cons.mp member with rfl | later
      · cases failed
      · exact ih later
    | error e =>
      rw [executed] at member
      rcases List.mem_cons.mp member with rfl | later
      · cases failed
        exact executed
      · split at later
        · exact ih later
        · cases later

theorem execute_of_mem_raised {statements : List (Located Statement)} {a : Located Statement}
    (member : (a, error) ∈ env.raised statements) : ∃ state : Environment, state.execute a = .error error := by
  obtain ⟨x, inside, raises⟩ := List.mem_filterMap.mp member
  obtain ⟨e, failed, same⟩ := Option.map_eq_some_iff.mp raises
  cases same
  exact ⟨x.environment, execute_of_mem_executions inside failed⟩

end Environment

/-- The label of an error of a statement is at the right place of the source. -/
structure RunError.PointsAt (e : RunError) (source : String) (a : Located Statement) : Prop where
  label : ∃ text, e.diagnostic.labels = [⟨text, e.span.start, e.span.length⟩]
  nonempty : e.span.start < e.span.stop
  within : a.span.start ≤ e.span.start ∧ e.span.stop ≤ a.span.stop
  undefinedVariable : ∀ name, e = .undefinedVariable name → e.span.Covers source name.value
  undefinedClass : ∀ name, e = .undefinedClass name → e.span.Covers source name.value
  unknownCapability : ∀ symbol, e = .unknownCapability symbol → e.span.Covers source (":" ++ symbol.value)
  /-- Of a list of symbols the first that names no capability is reported. -/
  listed : ∀ symbol q symbols, e = .unknownCapability symbol → a.value = .expect q (.equalsSymbols symbols) →
    ∃ before after, symbols = before ++ symbol :: after ∧ (∀ t ∈ before, NamesCapability t) ∧ ¬NamesCapability symbol

/-- A name or symbol that is a region stands in its place. -/
theorem Script.Region.Fits.covers {source : String} {span : Span} {label : Script.Label} {l : List Region}
    {text : String} (fits : (Region.node span label l).Fits source)
    (spells : ∀ {offset t}, label.Spells offset t → t = text) : span.Covers source text := by
  cases fits with
  | node covers _ spelled =>
    rw [← spells spelled]
    exact covers

namespace Environment

variable {env : Environment} {error : RunError}

theorem pointsAt_of_execute {source : String} {a : Located Statement}
    (fits : (phraseAt Statement.regions a).Fits source) (failed : env.execute a = .error error) :
    error.PointsAt source a := by
  obtain ⟨r, member, part, within, about⟩ := sited_of_execute failed
  rw [List.mem_singleton.mp member] at within
  obtain ⟨there, lower, upper⟩ := fits.of_within within
  have place := about.span_eq
  constructor
  case label => exact ⟨error.labelText, rfl⟩
  case nonempty =>
    rw [place]
    exact there.start_lt_stop
  case within =>
    rw [place]
    exact ⟨lower, upper⟩
  case undefinedVariable =>
    rintro name rfl
    cases about
    exact there.covers id
  case undefinedClass =>
    rintro name rfl
    cases about
    exact there.covers id
  case unknownCapability =>
    rintro symbol rfl
    cases about
    exact there.covers id
  case listed =>
    rintro symbol q symbols rfl value
    obtain ⟨s, span⟩ := a
    cases value
    exact unknown_of_execute failed

/-- The errors of a script that is run, in whatever environment, are those of some of its statements, in their order,
and point at what they are about in them. Of a symbol that names no capability the place is always found again. -/
theorem diagnostics_of_run {source : String} {file : Option String} {s : Script}
    (parsed : Script.parse source file = .ok s) (env : Environment) :
    (env.run s.statements).1.errors = (env.raised s.statements).map Prod.snd ∧
      ((env.raised s.statements).map Prod.fst).Sublist s.statements ∧
      (env.run s.statements).1.errors.Pairwise (fun e e' => e.span.stop ≤ e'.span.start) ∧
      (∀ r ∈ env.raised s.statements, (∃ state : Environment, state.execute r.1 = .error r.2) ∧
        r.2.PointsAt source r.1) ∧
      ∀ (symbols : List Name) (unknown : String), CapabilitySet.ofSymbols (symbols.map Located.value) = .error unknown →
        ∃ symbol, symbols.find? (·.value = unknown) = some symbol := by
  obtain ⟨_, _, order, fits⟩ := spans_of_parse parsed
  have sublist := env.raised_sublist s.statements
  have points : ∀ r ∈ env.raised s.statements, (∃ state : Environment, state.execute r.1 = .error r.2) ∧
      r.2.PointsAt source r.1 := by
    rintro ⟨a, e⟩ member
    obtain ⟨state, failed⟩ := execute_of_mem_raised member
    have inside : a ∈ s.statements := sublist.subset (List.mem_map_of_mem member)
    exact ⟨⟨state, failed⟩, pointsAt_of_execute (fits a inside) failed⟩
  refine ⟨env.errors_run s.statements, sublist, ?_, points, fun symbols unknown failed => ?_⟩
  · rw [env.errors_run s.statements, List.pairwise_map]
    refine (List.pairwise_map.mp (order.sublist sublist)).imp_of_mem fun {r r'} member member' apart => ?_
    have first := (points r member).2.within.2
    have second := (points r' member').2.within.1
    omega
  · obtain ⟨symbol, member, same⟩ := List.mem_map.mp (CapabilitySet.ofSymbols_eq_error failed).1
    refine Option.isSome_iff_exists.mp (List.find?_isSome.mpr ⟨symbol, member, ?_⟩)
    exact decide_eq_true same

/-- A string and a comment with characters of two bytes before a failed expectation, and a list with a symbol that names
no capability. -/
theorem diagnostics_of_run_list :
    ∃ s, Script.parse "h = \x7b \"é\" => 1 \x7d   # ü\nexpect read(h, \"é\") == 2\nexpect key_info(h, \"é\") == [:existing, :big]"
        none = .ok s ∧
      (({} : Environment).run s.statements).1.errors =
        [.expectationFailed "2" "1" ⟨25, 50⟩, .unknownCapability ⟨"big", 91, 95⟩] ∧
      ∀ r ∈ ({} : Environment).raised s.statements, r.2.PointsAt
        "h = \x7b \"é\" => 1 \x7d   # ü\nexpect read(h, \"é\") == 2\nexpect key_info(h, \"é\") == [:existing, :big]" r.1 := by
  let s : Script :=
    ⟨[⟨.assign ⟨"h", 0, 1⟩ ⟨.hash ⟨[⟨⟨.string "é", 6, 10⟩, ⟨.int 1, 14, 15⟩⟩], 4, 17⟩, 4, 17⟩, 0, 17⟩,
      ⟨.expect ⟨.read ⟨"h", 37, 38⟩ ⟨.string "é", 40, 44⟩, 32, 45⟩ (.equals ⟨.int 2, 49, 50⟩), 25, 50⟩,
      ⟨.expect ⟨.keyInfo ⟨"h", 67, 68⟩ ⟨.string "é", 70, 74⟩, 58, 75⟩
        (.equalsSymbols [⟨"existing", 80, 89⟩, ⟨"big", 91, 95⟩]), 51, 96⟩], none, 0, 96⟩
  have parsed : Script.parse
      "h = \x7b \"é\" => 1 \x7d   # ü\nexpect read(h, \"é\") == 2\nexpect key_info(h, \"é\") == [:existing, :big]" none =
        .ok s := by rfl
  exact ⟨s, parsed, by rfl, fun r member => ((diagnostics_of_run parsed {}).2.2.2.1 r member).2⟩

end Environment

end KeyIntrospection
