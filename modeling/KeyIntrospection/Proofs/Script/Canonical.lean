import KeyIntrospection.Decimal.Layout
import KeyIntrospection.Proofs.Script.WellFormed

/-!
The canonical text of a statement: its words with single spaces between them. In strings only quotes and
backslashes are escaped, and an object without attributes is written without braces.
-/

namespace KeyIntrospection.Script

/-- The characters of a string between its quotes. -/
def escaped (s : List Char) : List Char := s.flatMap fun c => if c = '"' ∨ c = '\\' then ['\\', c] else [c]

def quote (s : String) : String := .ofList ('"' :: (escaped s.toList ++ ['"']))

/-- Items with commas between them. -/
def separated (items : List (List String)) : List String := [","].intercalate items

def braced (items : List (List String)) : List String := "\x7b" :: (separated items ++ ["\x7d"])

def Literal.word : Literal → String
  | nil => "nil"
  | bool b => if b then "true" else "false"
  | int n => toString n
  | float x => x.literalText
  | string s => quote s
  | symbol name => ":" ++ name

def HashEntry.words (e : HashEntry) : List String := [e.key.value.toLiteral.word, "=>", e.value.value.word]

def AttributeInit.words (a : AttributeInit) : List String := [a.name.value, "=", a.value.value.word]

def Expression.words : Expression → List String
  | hash entries => braced (entries.value.map HashEntry.words)
  | descriptor properties => "meta" :: braced (properties.value.map HashEntry.words)
  | new className attributes =>
    "new" :: className.value :: if attributes.isEmpty then [] else braced (attributes.map AttributeInit.words)
  | literal l => [l.value.word]

def AccessorKind.keyword : AccessorKind → Keyword
  | reader => .attrReader
  | writer => .attrWriter
  | accessor => .attrAccessor

def AccessorDeclaration.words (d : AccessorDeclaration) : List String :=
  d.kind.keyword.text :: separated (d.names.map fun name => [":" ++ name.value])

def Query.words : Query → List String
  | keyInfo object key => ["key_info", "(", object.value, ",", key.value.word, ")"]
  | keys object withInternal =>
    ["keys", "(", object.value] ++ (if withInternal then [",", "internal"] else []) ++ [")"]
  | read object key => ["read", "(", object.value, ",", key.value.word, ")"]

def Matcher.words : Matcher → List String
  | equalsSymbols symbols => "==" :: "[" :: (separated (symbols.map fun symbol => [":" ++ symbol.value]) ++ ["]"])
  | equals l => ["==", l.value.word]
  | includes symbol => ["includes", ":" ++ symbol.value]
  | excludes symbol => ["excludes", ":" ++ symbol.value]
  | isEmpty => ["is_empty"]

def Statement.words : Statement → List String
  | assign name e => name.value :: "=" :: e.value.words
  | defineClass name accessors =>
    "class" :: name.value :: "\x7b" :: (accessors.flatMap (·.value.words) ++ ["\x7d"])
  | setAttribute object name value => ["set", object.value, name.value, "=", value.value.word]
  | freeze object => ["freeze", object.value]
  | query q => q.value.words
  | expect q m => "expect" :: (q.value.words ++ m.words)

/-- The canonical text. -/
def Statement.text (s : Statement) : String := " ".intercalate s.words

def Literal.isFloat : Literal → Bool
  | float _ => true
  | _ => false

def Expression.literals : Expression → List Literal
  | hash entries => entries.value.map (·.value.value)
  | descriptor properties => properties.value.map (·.value.value)
  | new _ attributes => attributes.map (·.value.value)
  | literal l => [l.value]

def Query.literals : Query → List Literal
  | keyInfo _ key | read _ key => [key.value]
  | keys _ _ => []

def Matcher.literals : Matcher → List Literal
  | equals l => [l.value]
  | _ => []

/-- The literals of a statement, keys of entries left aside. -/
def Statement.literals : Statement → List Literal
  | assign _ e => e.value.literals
  | setAttribute _ _ value => [value.value]
  | query q => q.value.literals
  | expect q m => q.value.literals ++ m.literals
  | defineClass _ _ | freeze _ => []

def Statement.FloatFree (s : Statement) : Prop := ∀ l ∈ s.literals, l.isFloat = false

end KeyIntrospection.Script
