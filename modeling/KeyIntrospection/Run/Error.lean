import KeyIntrospection.Script.Statement

/-!
Why a statement could not be executed. Each error knows the part of the source that it is about. An
expectation that fails is an error too, but not one that stops a script.
-/

namespace KeyIntrospection

inductive RunError where
  | undefinedVariable (name : Script.Name)
  | undefinedClass (name : Script.Name)
  | unknownCapability (symbol : Script.Name)
  /-- An object refused a request. -/
  | access (cause : AccessError) (span : Span)
  | expectationFailed (expected actual : String) (span : Span)
deriving DecidableEq, Repr

namespace RunError

def isExpectationFailure : RunError → Bool
  | expectationFailed _ _ _ => true
  | _ => false

def message : RunError → String
  | undefinedVariable name => s!"Undefined variable: {name.value}"
  | undefinedClass name => s!"Undefined class: {name.value}"
  | unknownCapability symbol => s!"Unknown capability: :{symbol.value}"
  | access _ _ => "Interop call failed"
  | expectationFailed expected actual _ =>
    s!"Expectation failed: expected {expected}, got {actual}"

def code : RunError → String
  | undefinedVariable _ => "interop::run::undefined_variable"
  | undefinedClass _ => "interop::run::undefined_class"
  | unknownCapability _ => "interop::run::unknown_capability"
  | access _ _ => "interop::run::interop_error"
  | expectationFailed _ _ _ => "interop::run::expectation_failed"

def help? : RunError → Option String
  | undefinedVariable _ => some "Assign the variable before using it"
  | undefinedClass name =>
    some ("Define the class with `class " ++ name.value ++
      " \x7b ... \x7d` before instantiating it")
  | unknownCapability _ =>
    some ("Capabilities are :existing, :readable, :writable, :invocable, :internal, " ++
      ":insertable, :removable and :modifiable")
  | access _ _ => none
  | expectationFailed _ _ _ => none

/-- The part of the source that the error is about. -/
def span : RunError → Span
  | undefinedVariable name => name.span
  | undefinedClass name => name.span
  | unknownCapability symbol => symbol.span
  | access _ span => span
  | expectationFailed _ _ span => span

def labelText : RunError → String
  | undefinedVariable _ => "not defined"
  | undefinedClass _ => "not defined"
  | unknownCapability _ => "not a capability"
  | access _ _ => "raised here"
  | expectationFailed expected _ _ => s!"expected {expected}"

def diagnostic (e : RunError) : Diagnostic :=
  ⟨e.message, e.code, e.help?, [⟨e.labelText, e.span.start, e.span.length⟩]⟩

end RunError

end KeyIntrospection
