import KeyIntrospection.Object.Access
import KeyIntrospection.Run.Error

/-!
The bindings that statements work on, and the evaluation of expressions and queries in them. Variables
and classes are kept in the order in which they were first given.
-/

namespace KeyIntrospection

namespace Script

def Literal.toValue : Literal → Value
  | nil => .nil
  | bool b => .bool b
  | int n => .int n
  | float x => .float x
  | string s => .string s
  | symbol name => .symbol name

def HashEntry.toPair (e : HashEntry) : String × Value := (e.key.value.name, e.value.value.toValue)

end Script

/-- What a query gives. -/
inductive Answer where
  | capabilities (s : CapabilitySet)
  | keys (names : List String)
  | value (v : Value)

/-- Symbols in brackets. -/
def displaySymbols (names : List String) : String :=
  "[" ++ ", ".intercalate (names.map (":" ++ ·)) ++ "]"

def Answer.display : Answer → String
  | capabilities s => s.display
  | keys names => displaySymbols names
  | value v => v.display

/-- Variables with their values, and classes with the accessors they declare. -/
structure Environment where
  bindings : Table Value := .empty
  classes : Table (Table Accessor) := .empty

namespace Environment

open Script (Name Expression Query AccessorDeclaration)

/-- An access error as an error of the part of the source at `span`. -/
def raiseAt {α : Type} (span : Span) (result : Except AccessError α) : Except RunError α :=
  result.mapError (.access · span)

def value (env : Environment) (name : Name) : Except RunError Value :=
  match env.bindings.get? name.value with
  | some v => .ok v
  | none => .error (.undefinedVariable name)

/-- The object that a variable is bound to. -/
def object (env : Environment) (name : Name) : Except RunError (Object Value) := do
  match ← env.value name with
  | .object o => return o
  | v => throw (.access (.unsupportedReceiver v.typeName) name.span)

/-- A new object of a class, with the accessors that the class has by now. -/
def instantiate (env : Environment) (className : Name) (attributes : List Script.AttributeInit) :
    Except RunError (Attributed Value) := do
  let some accessors := env.classes.get? className.value | throw (.undefinedClass className)
  let o ← raiseAt className.span (Attributed.ofAccessors className.value accessors.entries)
  attributes.foldlM (fun o a =>
    raiseAt a.name.span (o.setAttribute a.name.value a.value.value.toValue)) o

def evaluate (env : Environment) : Expression → Except RunError Value
  | .hash entries => .ok (.object (.mapping (.ofEntries (entries.value.map (·.toPair)))))
  | .descriptor properties =>
    .ok (.object (.descriptor (.ofProperties (properties.value.map (·.toPair)))))
  | .new className attributes =>
    (env.instantiate className attributes).map fun o => .object (.attributed o)
  | .literal l => .ok l.value.toValue

/-- The key that a literal names. -/
def literalKey (key : Located Script.Literal) : Except RunError String :=
  match key.value.toValue.key? with
  | some name => .ok name
  | none => .error (.access (.invalidKey key.value.toValue.typeName) key.span)

def answer (env : Environment) (q : Located Query) : Except RunError Answer := do
  match q.value with
  | .keyInfo object key =>
    return .capabilities (← raiseAt q.span (keyInfo (← env.value object) key.value.toValue))
  | .keys object withInternal => return .keys ((← env.object object).keys withInternal)
  | .read object key =>
    let o ← env.object object
    return .value (← raiseAt q.span (o.read (← literalKey key)))

/-- The accessors of a class after some more were declared. -/
def declare (accessors : Table Accessor) (declarations : List (Located AccessorDeclaration)) :
    Table Accessor :=
  declarations.foldl (fun t d =>
    d.value.names.foldl (fun t name => t.addAccessor name.value d.value.kind.halves) t) accessors

/-- A class is defined, or, if there is one of that name, gets more accessors. -/
def defineClass (env : Environment) (name : Name) (declarations : List (Located AccessorDeclaration)) :
    Environment :=
  let accessors := (env.classes.get? name.value).getD .empty
  { env with classes := env.classes.set name.value (declare accessors declarations) }

def bind (env : Environment) (name : Name) (v : Value) : Environment :=
  { env with bindings := env.bindings.set name.value v }

end Environment

end KeyIntrospection
