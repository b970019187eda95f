import KeyIntrospection.Run.Environment

/-!
Expectations about the answers to queries. Symbols name capabilities when they are compared with a set
of capabilities and keys when they are compared with keys; no symbol says anything about a value, so
that neither `includes` nor `excludes` holds of one.
-/

namespace KeyIntrospection.Script.Matcher

/-- The capability that a symbol of a script names. -/
def capability (symbol : Name) : Except RunError Capability :=
  match Capability.ofSymbol? symbol.value with
  | some c => .ok c
  | none => .error (.unknownCapability symbol)

/-- The capabilities that the symbols of a list name. Of a symbol that names none only the name is handed on, so that
its place is looked up again. -/
def capabilitySet (symbols : List Name) : Except RunError CapabilitySet :=
  (CapabilitySet.ofSymbols (symbols.map Located.value)).mapError fun unknown =>
    .unknownCapability ⟨unknown, (symbols.find? (·.value = unknown)).elim ⟨0, 0⟩ Located.span⟩

/-- The symbol that is found again is the one that names no capability. -/
theorem capabilitySet_eq (symbols : List Name) :
    capabilitySet symbols = (symbols.mapM capability).map CapabilitySet.ofList := by
  induction symbols with
  | nil => rfl
  | cons symbol rest ih =>
    rw [List.mapM_cons, capabilitySet, List.map_cons, CapabilitySet.ofSymbols, capability]
    cases known : Capability.ofSymbol? symbol.value with
    | none =>
      show Except.error (RunError.unknownCapability
        ⟨symbol.value, ((symbol :: rest).find? (·.value = symbol.value)).elim ⟨0, 0⟩ Located.span⟩) = _
      rw [List.find?_cons_of_pos (by simp)]
      rfl
    | some c =>
      rw [capabilitySet] at ih
      cases others : CapabilitySet.ofSymbols (rest.map Located.value) with
      | ok s =>
        rw [others] at ih
        cases read : rest.mapM capability with
        | error e =>
          rw [read] at ih
          cases ih
        | ok cs =>
          rw [read] at ih
          cases ih
          rfl
      | error unknown =>
        have other : symbol.value ≠ unknown := by
          rintro rfl
          have none := (CapabilitySet.ofSymbols_eq_error others).2
          rw [known] at none
          cases none
        rw [others] at ih
        cases read : rest.mapM capability with
        | ok cs =>
          rw [read] at ih
          cases ih
        | error e =>
          rw [read] at ih
          show Except.error (RunError.unknownCapability
            ⟨unknown, ((symbol :: rest).find? (·.value = unknown)).elim ⟨0, 0⟩ Located.span⟩) = _
          rw [List.find?_cons_of_neg (by simpa using other)]
          exact ih

/-- Whether the answer has the symbol among its capabilities or keys. -/
def mentions (symbol : Name) : Answer → Except RunError Bool
  | .capabilities s => (capability symbol).map (s.contains ·)
  | .keys names => .ok (symbol.value ∈ names)
  | .value _ => .ok false

def holds : Matcher → Answer → Except RunError Bool
  | equalsSymbols symbols, .capabilities s => (capabilitySet symbols).map fun t => s = t
  | equalsSymbols symbols, .keys names => .ok (names = symbols.map Located.value)
  | equalsSymbols _, .value _ => .ok false
  | equals l, .value v => .ok (v.equals l.value.toValue)
  | equals _, _ => .ok false
  | includes symbol, a => mentions symbol a
  | excludes _, .value _ => .ok false
  | excludes symbol, a => (mentions symbol a).map (! ·)
  | isEmpty, .capabilities s => .ok s.isEmpty
  | isEmpty, .keys names => .ok names.isEmpty
  | isEmpty, .value _ => .ok false

/-- What the matcher asks for, in words. -/
def expected : Matcher → String
  | equalsSymbols symbols => displaySymbols (symbols.map Located.value)
  | equals l => l.value.toValue.display
  | includes symbol => s!"to include :{symbol.value}"
  | excludes symbol => s!"not to include :{symbol.value}"
  | isEmpty => "to be empty"

/-- Checks an answer; a failure is reported at `span`. -/
def check (m : Matcher) (a : Answer) (span : Span) : Except RunError Unit := do
  unless ← m.holds a do throw (.expectationFailed m.expected a.display span)

end KeyIntrospection.Script.Matcher
