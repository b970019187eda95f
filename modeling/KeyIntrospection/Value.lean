import KeyIntrospection.Decimal.Layout
import KeyIntrospection.Object.Basic
import KeyIntrospection.Text.Inspect

/-!
Values: what objects hold and what their keys are given as. Two values are equal if they are of one
type and their parts are equal; the order of the names in a table makes no difference, and a number
that is no number is equal to nothing, itself included.
-/

namespace KeyIntrospection

inductive Value where
  | nil
  | bool (b : Bool)
  | int (n : Int)
  | float (x : Binary64)
  | string (s : String)
  | symbol (name : String)
  | object (o : Object Value)

instance : Inhabited Value := ⟨.nil⟩

namespace Value

def typeName : Value → String
  | nil => "NilClass"
  | bool true => "TrueClass"
  | bool false => "FalseClass"
  | int _ => "Integer"
  | float _ => "Float"
  | string _ => "String"
  | symbol _ => "Symbol"
  | object o => o.kind.name

/-- The key that a value names, if it is a string or a symbol. -/
def key? : Value → Option String
  | string s => some s
  | symbol name => some name
  | _ => none

def object? : Value → Option (Object Value)
  | object o => some o
  | _ => none

end Value

mutual

/-- The text that people are shown for a value, with strings in quotes. -/
def Value.display : Value → String
  | .nil => "nil"
  | .bool true => "true"
  | .bool false => "false"
  | .int n => toString n
  | .float x => x.displayText
  | .string s => Text.inspect s
  | .symbol name => ":" ++ name
  | .object o => displayObject o

/-- A mapping shows its entries, an attributed object its internal attributes. -/
def displayObject : Object Value → String
  | .mapping ⟨⟨entries⟩, _, _⟩ =>
    "\x7b" ++ ", ".intercalate (displayEntries (fun name => Text.inspect name ++ " => ") entries) ++
      "\x7d"
  | .attributed ⟨className, _, ⟨attributes⟩, _⟩ =>
    if attributes.isEmpty then "#<" ++ className ++ ">"
    else
      "#<" ++ className ++ " " ++ ", ".intercalate (displayEntries (· ++ "=") attributes) ++ ">"
  | .descriptor ⟨⟨properties⟩⟩ =>
    "#<meta " ++ ", ".intercalate (displayEntries (· ++ ": ") properties) ++ ">"

def displayEntries (head : String → String) : List (String × Value) → List String
  | [] => []
  | (name, v) :: rest => (head name ++ v.display) :: displayEntries head rest

end

mutual

def Value.equals : Value → Value → Bool
  | .nil, .nil => true
  | .bool a, .bool b => a == b
  | .int m, .int n => m == n
  | .float x, .float y => x.equals y
  | .string s, .string t => s == t
  | .symbol s, .symbol t => s == t
  | .object o, .object p => objectEquals o p
  | _, _ => false

def objectEquals : Object Value → Object Value → Bool
  | .mapping ⟨⟨entries⟩, ⟨attributes⟩, frozen⟩, .mapping m =>
    entries.length == m.entries.size && entriesEqual entries m.entries &&
      (attributes.length == m.attributes.size && entriesEqual attributes m.attributes) &&
      frozen == m.frozen
  | .attributed ⟨className, accessors, ⟨attributes⟩, frozen⟩, .attributed o =>
    className == o.className && accessors.sameAs o.accessors &&
      (attributes.length == o.attributes.size && entriesEqual attributes o.attributes) &&
      frozen == o.frozen
  | .descriptor ⟨⟨properties⟩⟩, .descriptor d =>
    properties.length == d.properties.size && entriesEqual properties d.properties
  | _, _ => false

/-- Whether the table has an equal value for each entry. -/
def entriesEqual : List (String × Value) → Table Value → Bool
  | [], _ => true
  | (name, v) :: rest, t =>
    (match t.get? name with
      | some w => v.equals w
      | none => false) && entriesEqual rest t

end

instance : BEq Value := ⟨Value.equals⟩

end KeyIntrospection
