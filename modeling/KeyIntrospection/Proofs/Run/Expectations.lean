import KeyIntrospection.Proofs.Run.Places
import KeyIntrospection.Proofs.Run.States
import KeyIntrospection.Proofs.Script.Printed

/-!
Answers as expectations. What is printed for an answer can be written after `==` in an expectation about
the same query, which then passes. Left aside are numbers with a fraction, objects, strings with hidden
characters and keys that are no names of symbols.
-/

namespace KeyIntrospection

/-- The value is displayed as a literal, in which no character is written as its code point. -/
def Value.IsExpectable : Value → Prop
  | nil | bool _ | int _ | symbol _ => True
  | string s => ∀ c ∈ s.toList, ¬['\\', 'u'] <+: Text.inspectChar c
  | float _ | object _ => False

/-- The answer is displayed as something that an expectation can ask for. -/
def Answer.IsExpectable : Answer → Prop
  | capabilities _ => True
  | keys names => ∀ name ∈ names, Script.isSymbolName name
  | value v => v.IsExpectable

theorem Capability.isSymbolName_symbol (c : Capability) : Script.isSymbolName c.symbol := by
  cases c <;> decide

theorem CapabilitySet.ofList_toList (s : CapabilitySet) : ofList s.toList = s := by
  refine ext fun c => ?_
  rw [mem_ofList, toList, List.mem_filter]
  exact ⟨And.right, fun held => ⟨c.mem_all, held⟩⟩

namespace Script

/-- Names somewhere in a source. -/
def namesOf (l : List String) : List Name := l.map (⟨·, 0, 0⟩)

theorem values_namesOf (l : List String) : (namesOf l).map Located.value = l := by
  rw [namesOf, List.map_map]
  exact List.map_id l

theorem mem_namesOf {l : List String} {n : Name} (mem : n ∈ namesOf l) : n.value ∈ l := by
  obtain ⟨s, inside, rfl⟩ := List.mem_map.mp mem
  exact inside

theorem Matcher.mapM_capability_namesOf (l : List Capability) :
    (namesOf (l.map (·.symbol))).mapM capability = .ok l := by
  induction l with
  | nil => rfl
  | cons c l ih =>
    have first : capability ⟨c.symbol, 0, 0⟩ = .ok c := by simp [capability]
    have split : namesOf ((c :: l).map (·.symbol)) = ⟨c.symbol, 0, 0⟩ :: namesOf (l.map (·.symbol)) := rfl
    rw [split, List.mapM_cons, first, ih]
    rfl

end Script

open Script

/-- The display of a literal's value is a literal for an equal value. -/
theorem Value.reads_display {v : Value} (literal : v.IsLiteral) (expectable : v.IsExpectable) :
    ∃ l : Located Literal, Reads Rule.literal [v.display] l anything ∧ v.equals l.value.toValue := by
  obtain ⟨l, wellFormed, rfl⟩ := literal
  have same (free : l.isFloat = false) (text : l.toValue.display = l.word) (equal : l.toValue.equals l.toValue) :
      ∃ k : Located Literal, Reads Rule.literal [l.toValue.display] k anything ∧
        l.toValue.equals k.value.toValue := by
    rw [text]
    exact ⟨⟨l, 0, 0⟩, Reads.literal (l := ⟨l, 0, 0⟩) wellFormed free, equal⟩
  cases l with
  | float x => cases expectable
  | string s =>
    have quoted : Reads Rule.string [Text.inspect s] ⟨s, 0, 0⟩ anything :=
      Reads.string_inspect (s := ⟨s, 0, 0⟩) expectable
    exact ⟨⟨.string s, 0, 0⟩, Reads.literal_of_string quoted, by simp [Literal.toValue, Value.equals]⟩
  | nil => exact same rfl rfl rfl
  | bool b => exact same rfl (by cases b <;> rfl) (by simp [Literal.toValue, Value.equals])
  | int n => exact same rfl rfl (by simp [Literal.toValue, Value.equals])
  | symbol name => exact same rfl rfl (by simp [Literal.toValue, Value.equals])

/-- The display of an answer is read as what holds of it. -/
theorem Answer.reads_display {a : Answer} (literal : ∀ v, a = .value v → v.IsLiteral) (expectable : a.IsExpectable) :
    ∃ m : Matcher, Reads Rule.matcher ["==", a.display] m anything ∧ m.holds a = .ok true := by
  have list {names : List String} (areNames : ∀ name ∈ names, isSymbolName name) :
      Reads Rule.matcher ["==", displaySymbols names] (.equalsSymbols (namesOf names)) anything := by
    have read := Reads.symbolList_display (l := namesOf names) fun n mem => areNames _ (mem_namesOf mem)
    rw [values_namesOf] at read
    exact Reads.matcher_equalsSymbols read
  cases a with
  | capabilities s =>
    have areNames : ∀ name ∈ s.symbols, isSymbolName name := by
      intro name mem
      obtain ⟨c, _, rfl⟩ := List.mem_map.mp mem
      exact c.isSymbolName_symbol
    refine ⟨_, list areNames, ?_⟩
    rw [Matcher.holds, Matcher.capabilitySet_eq, CapabilitySet.symbols, Matcher.mapM_capability_namesOf]
    simp [Except.map, CapabilitySet.ofList_toList]
  | keys names =>
    refine ⟨_, list expectable, ?_⟩
    rw [Matcher.holds, values_namesOf, decide_eq_true rfl]
  | value v =>
    obtain ⟨l, read, equal⟩ := v.reads_display (literal v rfl) expectable
    refine ⟨.equals l, Reads.matcher_equals read, ?_⟩
    rw [Matcher.holds, equal]

namespace Environment

/-- An expectation about a query with an answer is the check of that answer, and changes nothing. -/
theorem execute_expect_eq {env : Environment} {q : Located Query} {a : Answer} (answered : env.answer q = .ok a)
    {span : Span} (m : Matcher) : env.execute ⟨.expect q m, span⟩ = (m.check a span).map fun _ => (.passed, env) := by
  show (do m.check (← env.answer q) span; return (Outcome.passed, env) : Except RunError _) = _
  rw [answered]
  show (do m.check a span; return (Outcome.passed, env) : Except RunError _) = _
  cases m.check a span <;> rfl

/-- An expectation that its answer meets passes and changes nothing. -/
theorem execute_expect {env : Environment} {q : Located Query} {a : Answer} {m : Matcher}
    (answered : env.answer q = .ok a) (holds : m.holds a = .ok true) (span : Span) :
    env.execute ⟨.expect q m, span⟩ = .ok (.passed, env) := by
  rw [execute_expect_eq answered, Matcher.check, holds]
  rfl

/-- The text of a query, `==` and what is printed for its answer are an expectation that passes. -/
theorem Reached.expect_answer {env : Environment} (reached : env.Reached) {text : String} {q : Located Query}
    (isText : IsQueryText text q) {a : Answer} (answered : env.answer q = .ok a) (expectable : a.IsExpectable) :
    ∃ s, Statement.parse ("expect " ++ text ++ " == " ++ a.display) = .ok s ∧
      env.execute s = .ok (.passed, env) := by
  have literal (v : Value) (same : a = .value v) : v.IsLiteral := by
    rw [same] at answered
    exact reached.isLiteral_of_answer answered
  obtain ⟨m, read, holds⟩ := a.reads_display literal expectable
  obtain ⟨s, parsed, alike⟩ := parse_expect isText read ⟨0, 0⟩
  have passed := execute_expect answered holds ⟨0, 0⟩
  refine ⟨s, parsed, ?_⟩
  rcases env.execute_of_alike alike with ⟨r, first, second⟩ | ⟨e, _, first, _⟩
  · rw [second, ← first, passed]
  · rw [passed] at first
    cases first

/-- A variable with a mapping that holds a string with a line break. -/
def noted : Environment :=
  ({} : Environment).bind ⟨"h", 0, 1⟩ (.object (.mapping (.ofEntries [("a", .string "x\n")])))

def notedQuery : Located Query := ⟨.read ⟨"h", 5, 6⟩ ⟨.symbol "a", 8, 10⟩, 0, 11⟩

theorem expect_answer_noted :
    noted.Reached ∧ IsQueryText "read(h, :a) " notedQuery ∧
      noted.answer notedQuery = .ok (.value (.string "x\n")) ∧ (Answer.value (.string "x\n")).IsExpectable ∧
      ∃ s, Statement.parse "expect read(h, :a)  == \"x\\n\"" = .ok s ∧ noted.execute s = .ok (.passed, noted) := by
  have assigned : Statement.parse "h = \x7b :a => \"x\\n\" \x7d" = .ok ⟨.assign ⟨"h", 0, 1⟩
      ⟨.hash ⟨[⟨⟨.symbol "a", 6, 8⟩, ⟨.string "x\n", 12, 17⟩⟩], 4, 19⟩, 4, 19⟩, 0, 19⟩ := by rfl
  have reached : noted.Reached := .next .start (.alone assigned) rfl
  have parsed : Statement.parse "read(h, :a) " =
      .ok ⟨.query notedQuery, notedQuery.span⟩ := by rfl
  have isText : IsQueryText "read(h, :a) " notedQuery :=
    ⟨parsed, [], "read(h, :a)".toList, [' '], by decide, by decide, List.forall_mem_singleton.mpr (by decide)⟩
  have answered : noted.answer notedQuery = .ok (.value (.string "x\n")) := by rfl
  have expectable : (Answer.value (.string "x\n")).IsExpectable := by
    show ∀ c ∈ "x\n".toList, ¬['\\', 'u'] <+: Text.inspectChar c
    have split : "x\n".toList = ['x', '\n'] := by decide
    rw [split]
    exact List.forall_mem_cons.mpr ⟨by decide, List.forall_mem_singleton.mpr (by decide)⟩
  have printed : "expect " ++ "read(h, :a) " ++ " == " ++ (Answer.value (.string "x\n")).display =
      "expect read(h, :a)  == \"x\\n\"" := by decide
  have passes := reached.expect_answer isText answered expectable
  rw [printed] at passes
  exact ⟨reached, isText, answered, expectable, passes⟩

end Environment

end KeyIntrospection
