import KeyIntrospection.Unicode.Alphabetic
import KeyIntrospection.Unicode.Numeric

/-!
Keys: the names that are looked up on objects. The form of a name alone tells an internal name, a
single `@` before an identifier, from a plain one; an accessor's name is an identifier, so that `@`
before it makes the name of the internal attribute that backs the accessor.
-/

namespace KeyIntrospection

/-- What a key is about: ordinary data, or the state an object keeps to itself. -/
inductive KeyMode where
  | plain
  | internal
deriving DecidableEq, Repr

namespace Key

def isIdentifierStart (c : Char) : Bool := Unicode.isAlphabetic c || c == '_'

def isIdentifierPart (c : Char) : Bool :=
  Unicode.isAlphabetic c || Unicode.isNumeric c || c == '_'

def isIdentifier : List Char → Bool
  | [] => false
  | c :: rest => isIdentifierStart c && rest.all isIdentifierPart

def isInternalName (name : String) : Bool :=
  match name.toList with
  | '@' :: rest => isIdentifier rest
  | _ => false

def isAccessorName (name : String) : Bool := isIdentifier name.toList

def mode (name : String) : KeyMode := if isInternalName name then .internal else .plain

/-- The internal attribute in which the accessor `name` keeps its value. -/
def backing (name : String) : String := "@" ++ name

@[simp] theorem isInternalName_backing (name : String) :
    isInternalName (backing name) = isAccessorName name := by
  simp [isInternalName, isAccessorName, backing]

theorem isInternalName_eq_false_of_isAccessorName {name : String} (accessor : isAccessorName name) :
    isInternalName name = false := by
  simp only [isAccessorName] at accessor
  simp only [isInternalName]
  split
  · next h =>
    rw [h] at accessor
    exact absurd accessor (by simp [isIdentifier, show isIdentifierStart '@' = false from by decide])
  · rfl

/-- The names in the order of their code points, each once. -/
def sort (names : List String) : List String := names.mergeSort.eraseReps

end Key

end KeyIntrospection
