import KeyIntrospection.Decimal.Binary64
import KeyIntrospection.Grammar.Source
import KeyIntrospection.Object.Basic

/-!
Scripts: lists of statements that build objects, change them, and ask about their keys. Every name,
literal and phrase that an error can be about knows its place in the source.
-/

namespace KeyIntrospection.Script

abbrev Name := Located String

inductive Literal where
  | nil
  | bool (b : Bool)
  | int (n : Int)
  | float (x : Binary64)
  | string (s : String)
  | symbol (name : String)
deriving DecidableEq

/-- What an entry of a hash can be keyed by. -/
inductive KeyLiteral where
  | string (s : String)
  | symbol (name : String)
deriving DecidableEq, Repr

def KeyLiteral.name : KeyLiteral → String
  | string s => s
  | symbol name => name

def KeyLiteral.toLiteral : KeyLiteral → Literal
  | string s => .string s
  | symbol name => .symbol name

structure HashEntry where
  key : Located KeyLiteral
  value : Located Literal
deriving DecidableEq

/-- A first value for an internal attribute of a new object. -/
structure AttributeInit where
  name : Name
  value : Located Literal
deriving DecidableEq

inductive Expression where
  | hash (entries : Located (List HashEntry))
  | descriptor (properties : Located (List HashEntry))
  | new (className : Name) (attributes : List AttributeInit)
  | literal (l : Located Literal)
deriving DecidableEq

inductive AccessorKind where
  | reader
  | writer
  | accessor
deriving DecidableEq, Repr

def AccessorKind.halves : AccessorKind → Accessor
  | reader => ⟨true, false⟩
  | writer => ⟨false, true⟩
  | accessor => ⟨true, true⟩

structure AccessorDeclaration where
  kind : AccessorKind
  names : List Name
deriving DecidableEq

inductive Query where
  | keyInfo (object : Name) (key : Located Literal)
  | keys (object : Name) (withInternal : Bool)
  | read (object : Name) (key : Located Literal)
deriving DecidableEq

inductive Matcher where
  | equalsSymbols (symbols : List Name)
  | equals (l : Located Literal)
  | includes (symbol : Name)
  | excludes (symbol : Name)
  | isEmpty
deriving DecidableEq

inductive Statement where
  | assign (name : Name) (e : Located Expression)
  | defineClass (name : Name) (accessors : List (Located AccessorDeclaration))
  | setAttribute (object name : Name) (value : Located Literal)
  | freeze (object : Name)
  | query (q : Located Query)
  | expect (q : Located Query) (m : Matcher)
deriving DecidableEq

end KeyIntrospection.Script

namespace KeyIntrospection

structure Script where
  statements : List (Located Script.Statement)
  /-- Where the source comes from, if that is known. -/
  file : Option String
  span : Span
deriving DecidableEq

end KeyIntrospection
