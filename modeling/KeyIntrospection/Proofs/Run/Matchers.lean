import KeyIntrospection.Proofs.Run.Expectations

/-!
How the matchers of expectations go together. For one answer each of them says in its own way what the others say:
`includes` and `excludes` are opposites, `is_empty` is `==` with no symbols, and `==` with symbols is about the symbols
that are included, in any order where the answer is a set.
-/

namespace KeyIntrospection

open Script

/-- The symbol names a capability. -/
def Script.NamesCapability (symbol : Name) : Prop := ∃ c : Capability, symbol.value = c.symbol

namespace CapabilitySet

/-- Symbols of capabilities have the set of these capabilities, whatever their order and repetitions. -/
theorem exists_ofSymbols {symbols : List String} (known : ∀ symbol ∈ symbols, ∃ c : Capability, symbol = c.symbol) :
    ∃ s, ofSymbols symbols = .ok s ∧ ∀ c : Capability, c ∈ s ↔ c.symbol ∈ symbols := by
  induction symbols with
  | nil => exact ⟨empty, rfl, by simp⟩
  | cons symbol rest ih =>
    obtain ⟨⟨d, rfl⟩, others⟩ := List.forall_mem_cons.mp known
    obtain ⟨s, read, members⟩ := ih others
    refine ⟨(singleton d).union s, ?_, fun c => ?_⟩
    · rw [ofSymbols, Capability.ofSymbol?_symbol]
      simp only [read, Except.map]
    · have same : c.symbol = d.symbol ↔ c = d := by
        refine ⟨fun symbols => ?_, congrArg _⟩
        have found := Capability.ofSymbol?_symbol c
        rw [symbols, Capability.ofSymbol?_symbol] at found
        exact (Option.some.inj found).symm
      rw [mem_union, mem_singleton, members, List.mem_cons, same]

/-- The first text that is the symbol of no capability is reported. -/
theorem ofSymbols_append_cons {before : List String} (known : ∀ symbol ∈ before, ∃ c : Capability, symbol = c.symbol)
    {unknown : String} (isNone : Capability.ofSymbol? unknown = none) (after : List String) :
    ofSymbols (before ++ unknown :: after) = .error unknown := by
  induction before with
  | nil => rw [List.nil_append, ofSymbols, isNone]
  | cons symbol before ih =>
    obtain ⟨⟨c, rfl⟩, others⟩ := List.forall_mem_cons.mp known
    rw [List.cons_append, ofSymbols, Capability.ofSymbol?_symbol]
    simp only [ih others, Except.map]

end CapabilitySet

/-- Of symbols that do not all name capabilities one is the first that names none. -/
theorem Script.exists_unknown {symbols : List Name} (some : ¬∀ t ∈ symbols, NamesCapability t) :
    ∃ before s after, symbols = before ++ s :: after ∧ (∀ t ∈ before, NamesCapability t) ∧ ¬NamesCapability s := by
  induction symbols with
  | nil => exact absurd (List.forall_mem_nil _) some
  | cons t rest ih =>
    by_cases first : NamesCapability t
    · obtain ⟨before, s, after, rfl, known, unknown⟩ :=
        ih fun others => some (List.forall_mem_cons.mpr ⟨first, others⟩)
      exact ⟨t :: before, s, after, rfl, List.forall_mem_cons.mpr ⟨first, known⟩, unknown⟩
    · exact ⟨[], t, rest, rfl, List.forall_mem_nil _, first⟩

namespace Script.Matcher

variable {symbol : Name} {symbols before after : List Name}

theorem capability_of_names {c : Capability} (names : symbol.value = c.symbol) : capability symbol = .ok c := by
  rw [capability, names, Capability.ofSymbol?_symbol]

theorem ofSymbol?_eq_none (unknown : ¬NamesCapability symbol) : Capability.ofSymbol? symbol.value = none := by
  cases found : Capability.ofSymbol? symbol.value with
  | none => rfl
  | some c => exact absurd ⟨c, Capability.ofSymbol?_eq_some_iff.mp found⟩ unknown

theorem capability_of_unknown (unknown : ¬NamesCapability symbol) :
    capability symbol = .error (.unknownCapability symbol) := by
  rw [capability, ofSymbol?_eq_none unknown]

theorem exists_capabilitySet (known : ∀ symbol ∈ symbols, NamesCapability symbol) :
    ∃ s, capabilitySet symbols = .ok s ∧ ∀ c : Capability, c ∈ s ↔ c.symbol ∈ symbols.map Located.value := by
  obtain ⟨s, read, members⟩ := CapabilitySet.exists_ofSymbols (List.forall_mem_map.mpr known)
  exact ⟨s, by rw [capabilitySet, read]; rfl, members⟩

/-- The symbol that is refused is the first one that names no capability, with the place where it stands. -/
theorem capabilitySet_append_cons (known : ∀ symbol ∈ before, NamesCapability symbol)
    (unknown : ¬NamesCapability symbol) (after : List Name) :
    capabilitySet (before ++ symbol :: after) = .error (.unknownCapability symbol) := by
  rw [capabilitySet, List.map_append, List.map_cons,
    CapabilitySet.ofSymbols_append_cons (List.forall_mem_map.mpr known) (ofSymbol?_eq_none unknown)]
  have absent : before.find? (·.value = symbol.value) = none := by
    refine List.find?_eq_none.mpr fun other member same => unknown ?_
    obtain ⟨c, names⟩ := known other member
    exact ⟨c, (of_decide_eq_true same).symm.trans names⟩
  have found : (before ++ symbol :: after).find? (·.value = symbol.value) = some symbol := by
    rw [List.find?_append, absent, Option.none_or, List.find?_cons_of_pos (by simp)]
  show Except.error (RunError.unknownCapability
    ⟨symbol.value, ((before ++ symbol :: after).find? (·.value = symbol.value)).elim ⟨0, 0⟩ Located.span⟩) = _
  rw [found]
  rfl

/-- What is excluded is what is not mentioned. -/
theorem holds_excludes_keys {names : List String} :
    (excludes symbol).holds (.keys names) = .ok (!decide (symbol.value ∈ names)) := rfl

theorem holds_excludes_capabilities {set : CapabilitySet} :
    (excludes symbol).holds (.capabilities set) = ((capability symbol).map (set.contains ·)).map (! ·) := rfl

theorem capabilitySet_eq_error {error : RunError} (failed : capabilitySet symbols = .error error) :
    ∃ before symbol after, symbols = before ++ symbol :: after ∧ (∀ t ∈ before, NamesCapability t) ∧
      ¬NamesCapability symbol ∧ error = .unknownCapability symbol := by
  by_cases known : ∀ symbol ∈ symbols, NamesCapability symbol
  · obtain ⟨s, read, _⟩ := exists_capabilitySet known
    cases read.symm.trans failed
  · obtain ⟨before, symbol, after, rfl, known, unknown⟩ := exists_unknown known
    rw [capabilitySet_append_cons known unknown] at failed
    cases failed
    exact ⟨before, symbol, after, rfl, known, unknown, rfl⟩

end Script.Matcher

namespace Environment

/-- The expectation about the query is met. -/
def Passes (env : Environment) (q : Located Query) (span : Span) (m : Matcher) : Prop :=
  env.execute ⟨.expect q m, span⟩ = .ok (.passed, env)

/-- The expectation about the query is not met, and fails as an expectation. -/
def Fails (env : Environment) (q : Located Query) (span : Span) (m : Matcher) : Prop :=
  ∃ expected actual, env.execute ⟨.expect q m, span⟩ = .error (.expectationFailed expected actual span)

/-- The expectation about the query is refused because the symbol names no capability. -/
def Refuses (env : Environment) (q : Located Query) (span : Span) (m : Matcher) (symbol : Name) : Prop :=
  env.execute ⟨.expect q m, span⟩ = .error (.unknownCapability symbol)

/-- How the matchers go together, where the answer to the query is `a`. -/
structure Concord (env : Environment) (q : Located Query) (span : Span) (a : Answer) : Prop where
  /-- A key is either included or excluded. -/
  ofKeys : ∀ names, a = .keys names →
    ∀ s, env.Passes q span (.includes s) ↔ ¬env.Passes q span (.excludes s)
  /-- A capability is either included or excluded, and what is none is refused. -/
  ofCapabilities : ∀ set, a = .capabilities set → ∀ s,
    (NamesCapability s → (env.Passes q span (.includes s) ↔ ¬env.Passes q span (.excludes s))) ∧
      (¬NamesCapability s → env.Refuses q span (.includes s) s ∧ env.Refuses q span (.excludes s) s)
  isEmpty_iff : env.Passes q span .isEmpty ↔ env.Passes q span (.equalsSymbols [])
  /-- Of symbols that are compared with capabilities the first that names none is refused. -/
  unknown : ∀ set, a = .capabilities set → ∀ before s after, (∀ t ∈ before, NamesCapability t) → ¬NamesCapability s →
    env.Refuses q span (.equalsSymbols (before ++ s :: after)) s
  /-- Otherwise they are compared with what is included, -/
  capabilities_iff : ∀ set, a = .capabilities set → ∀ symbols, (∀ t ∈ symbols, NamesCapability t) →
    (env.Passes q span (.equalsSymbols symbols) ↔
      ∀ s, NamesCapability s → (env.Passes q span (.includes s) ↔ s.value ∈ symbols.map Located.value))
  /-- so that their order and repetitions make no difference. -/
  capabilities_congr : ∀ set, a = .capabilities set → ∀ symbols symbols' : List Name,
    (∀ name, name ∈ symbols.map Located.value ↔ name ∈ symbols'.map Located.value) →
      (env.Passes q span (.equalsSymbols symbols) ↔ env.Passes q span (.equalsSymbols symbols'))
  /-- Symbols that are compared with keys are the keys in their order, and none of them is refused. -/
  keys_iff : ∀ names, a = .keys names → ∀ symbols,
    (env.Passes q span (.equalsSymbols symbols) ↔ symbols.map Located.value = names) ∧
      ∀ s, ¬env.Refuses q span (.equalsSymbols symbols) s
  /-- No symbols say anything about a value. -/
  ofValue : ∀ v, a = .value v → ∀ s symbols, env.Fails q span (.includes s) ∧ env.Fails q span (.excludes s) ∧
    env.Fails q span .isEmpty ∧ env.Fails q span (.equalsSymbols symbols)
  /-- A literal is compared with a value. -/
  equals_iff : ∀ l : Located Literal,
    (env.Passes q span (.equals l) ↔ ∃ v, a = .value v ∧ v.equals l.value.toValue) ∧
      (¬env.Passes q span (.equals l) → env.Fails q span (.equals l))

section Answered

variable {env : Environment} {q : Located Query} {a : Answer} {span : Span}
  (answered : env.answer q = .ok a)

include answered

theorem passes_iff {m : Matcher} : env.Passes q span m ↔ m.holds a = .ok true := by
  rw [Passes, execute_expect_eq answered, Matcher.check]
  rcases m.holds a with e | _ | _
  · constructor <;> intro passes <;> cases passes
  · constructor <;> intro passes <;> cases passes
  · exact ⟨fun _ => rfl, fun _ => rfl⟩

theorem fails_of_holds {m : Matcher} (missed : m.holds a = .ok false) : env.Fails q span m := by
  refine ⟨m.expected, a.display, ?_⟩
  rw [execute_expect_eq answered, Matcher.check, missed]
  rfl

theorem refuses_iff {m : Matcher} {symbol : Name} :
    env.Refuses q span m symbol ↔ m.holds a = .error (.unknownCapability symbol) := by
  rw [Refuses, execute_expect_eq answered, Matcher.check]
  rcases m.holds a with e | _ | _
  all_goals
    constructor <;> intro refused <;> cases refused
  all_goals rfl

end Answered

section Answers

variable {env : Environment} {q : Located Query} {set : CapabilitySet} {names : List String} {v : Value}
  {span : Span} {s : Name} {symbols : List Name}

theorem passes_includes_key_iff (answered : env.answer q = .ok (.keys names)) :
    env.Passes q span (.includes s) ↔ s.value ∈ names := by
  rw [passes_iff answered, Matcher.holds, Matcher.mentions]
  simp

theorem passes_excludes_key_iff (answered : env.answer q = .ok (.keys names)) :
    env.Passes q span (.excludes s) ↔ s.value ∉ names := by
  rw [passes_iff answered, Matcher.holds_excludes_keys]
  simp

theorem passes_equals_keys_iff (answered : env.answer q = .ok (.keys names)) :
    env.Passes q span (.equalsSymbols symbols) ↔ symbols.map Located.value = names := by
  rw [passes_iff answered, Matcher.holds]
  simp [eq_comm]

theorem passes_includes_capability_iff (answered : env.answer q = .ok (.capabilities set)) {c : Capability}
    (isSymbol : s.value = c.symbol) : env.Passes q span (.includes s) ↔ c ∈ set := by
  rw [passes_iff answered, Matcher.holds, Matcher.mentions, Matcher.capability_of_names isSymbol]
  simp [Except.map, Membership.mem]

theorem passes_excludes_capability_iff (answered : env.answer q = .ok (.capabilities set)) {c : Capability}
    (isSymbol : s.value = c.symbol) : env.Passes q span (.excludes s) ↔ c ∉ set := by
  rw [passes_iff answered, Matcher.holds_excludes_capabilities, Matcher.capability_of_names isSymbol]
  simp [Except.map, Membership.mem]

/-- Known symbols are compared with a set as the set of what they name. -/
theorem passes_equals_capabilities_iff (answered : env.answer q = .ok (.capabilities set))
    (known : ∀ t ∈ symbols, NamesCapability t) :
    env.Passes q span (.equalsSymbols symbols) ↔ ∀ c : Capability, c ∈ set ↔ c.symbol ∈ symbols.map Located.value := by
  obtain ⟨t, read, members⟩ := Matcher.exists_capabilitySet known
  rw [passes_iff answered, Matcher.holds, read]
  simp only [Except.map, Except.ok.injEq, decide_eq_true_eq]
  constructor
  · rintro rfl c
    exact members c
  · exact fun same => CapabilitySet.ext fun c => (same c).trans (members c).symm

theorem refuses_equals_of_unknown (answered : env.answer q = .ok (.capabilities set)) {before after : List Name}
    (known : ∀ t ∈ before, NamesCapability t) (unknown : ¬NamesCapability s) :
    env.Refuses q span (.equalsSymbols (before ++ s :: after)) s := by
  rw [refuses_iff answered, Matcher.holds, Matcher.capabilitySet_append_cons known unknown]
  rfl

theorem passes_isEmpty_iff {a : Answer} (answered : env.answer q = .ok a) :
    env.Passes q span .isEmpty ↔ env.Passes q span (.equalsSymbols []) := by
  rw [passes_iff answered, passes_iff answered]
  cases a with
  | capabilities set => exact Iff.rfl
  | keys names => cases names <;> exact Iff.rfl
  | value v => exact Iff.rfl

theorem passes_equals_iff {a : Answer} (answered : env.answer q = .ok a) {l : Located Literal} :
    env.Passes q span (.equals l) ↔ ∃ v, a = .value v ∧ v.equals l.value.toValue := by
  rw [passes_iff answered]
  cases a with
  | value v => simp [Matcher.holds]
  | _ =>
    refine ⟨fun holds => (by cases holds), fun same => ?_⟩
    obtain ⟨v, same, _⟩ := same
    cases same

end Answers

theorem known_of_passes {env : Environment} {q : Located Query} {set : CapabilitySet} {span : Span} {symbols : List Name}
    (answered : env.answer q = .ok (.capabilities set)) (passes : env.Passes q span (.equalsSymbols symbols)) :
    ∀ t ∈ symbols, NamesCapability t := by
  by_cases all : ∀ t ∈ symbols, NamesCapability t
  · exact all
  obtain ⟨before, s, after, rfl, known, unknown⟩ := exists_unknown all
  have refuses : env.Refuses q span (.equalsSymbols (before ++ s :: after)) s :=
    refuses_equals_of_unknown answered known unknown
  rw [refuses_iff answered] at refuses
  rw [passes_iff answered, refuses] at passes
  cases passes

/-- Symbols with the same names are as good as each other in a comparison with a set. -/
theorem passes_of_sameNames {env : Environment} {q : Located Query} {set : CapabilitySet} {span : Span}
    {symbols symbols' : List Name} (answered : env.answer q = .ok (.capabilities set))
    (same : ∀ name, name ∈ symbols.map Located.value ↔ name ∈ symbols'.map Located.value)
    (passes : env.Passes q span (.equalsSymbols symbols)) : env.Passes q span (.equalsSymbols symbols') := by
  have known := known_of_passes answered passes
  have known' : ∀ t ∈ symbols', NamesCapability t := fun t member => by
    obtain ⟨u, inside, equal⟩ := List.mem_map.mp ((same t.value).mpr (List.mem_map_of_mem member))
    obtain ⟨c, isSymbol⟩ := known u inside
    exact ⟨c, equal ▸ isSymbol⟩
  rw [passes_equals_capabilities_iff answered known] at passes
  rw [passes_equals_capabilities_iff answered known']
  exact fun c => (passes c).trans (same c.symbol)

/-- In every environment the matchers go together for every query that has an answer. -/
theorem concord_of_answer {env : Environment} {q : Located Query} {a : Answer} (answered : env.answer q = .ok a)
    (span : Span) : env.Concord q span a where
  ofKeys names isKeys s := by
    subst isKeys
    rw [passes_includes_key_iff answered, passes_excludes_key_iff answered, Classical.not_not]
  ofCapabilities set isSet s := by
    subst isSet
    refine ⟨fun known => ?_, fun unknown => ?_⟩
    · obtain ⟨c, isSymbol⟩ := known
      rw [passes_includes_capability_iff answered isSymbol, passes_excludes_capability_iff answered isSymbol,
        Classical.not_not]
    · rw [refuses_iff answered, refuses_iff answered, Matcher.holds_excludes_capabilities, Matcher.holds,
        Matcher.mentions, Matcher.capability_of_unknown unknown]
      exact ⟨rfl, rfl⟩
  isEmpty_iff := passes_isEmpty_iff answered
  unknown set isSet before s after known unknown := by
    subst isSet
    exact refuses_equals_of_unknown answered known unknown
  capabilities_iff set isSet symbols known := by
    subst isSet
    rw [passes_equals_capabilities_iff answered known]
    constructor
    · rintro same s ⟨c, isSymbol⟩
      rw [passes_includes_capability_iff answered isSymbol, same c, isSymbol]
    · intro same c
      have included := same ⟨c.symbol, 0, 0⟩ ⟨c, rfl⟩
      rwa [passes_includes_capability_iff answered (s := ⟨c.symbol, 0, 0⟩) rfl] at included
  capabilities_congr set isSet symbols symbols' same := by
    subst isSet
    exact ⟨passes_of_sameNames answered same, passes_of_sameNames answered fun name => (same name).symm⟩
  keys_iff names isKeys symbols := by
    subst isKeys
    refine ⟨passes_equals_keys_iff answered, fun s refuses => ?_⟩
    rw [refuses_iff answered, Matcher.holds] at refuses
    cases refuses
  ofValue v isValue s symbols := by
    subst isValue
    exact ⟨fails_of_holds answered rfl, fails_of_holds answered rfl, fails_of_holds answered rfl,
      fails_of_holds answered rfl⟩
  equals_iff l := by
    refine ⟨passes_equals_iff answered, fun missed => ?_⟩
    rw [passes_iff answered] at missed
    refine fails_of_holds answered ?_
    cases a with
    | capabilities set | keys names => rfl
    | value v =>
      rw [Matcher.holds, Except.ok.injEq, Bool.not_eq_true] at missed
      rw [Matcher.holds, missed]

/-- `key_info(h, "a")`, as the query of an expectation. -/
def notedInfo : Located Query := ⟨.keyInfo ⟨"h", 16, 17⟩ ⟨.string "a", 19, 22⟩, 7, 23⟩

theorem concord_of_notedInfo :
    noted.answer notedInfo = .ok (.capabilities (.ofList [.existing, .readable, .writable])) ∧
      noted.Concord notedInfo ⟨0, 54⟩ (.capabilities (.ofList [.existing, .readable, .writable])) := by
  have answered : noted.answer notedInfo = .ok (.capabilities (.ofList [.existing, .readable, .writable])) := by rfl
  exact ⟨answered, concord_of_answer answered ⟨0, 54⟩⟩

end Environment

end KeyIntrospection
