import KeyIntrospection.Decimal.Layout
import KeyIntrospection.Script.Statement
import KeyIntrospection.Text.SExpr

/-!
Scripts as s-expressions. Every statement becomes a form that is named for what it does; places in the
source are left out. A script with several statements, a class with accessors and a hash with long
entries are laid out over several lines.
-/

namespace KeyIntrospection.Script

open Text (SExpr)

def symbolAtom (name : String) : SExpr := .atom (":" ++ name)

def Literal.toSExpr : Literal → SExpr
  | nil => .atom "nil"
  | bool true => .atom "true"
  | bool false => .atom "false"
  | int n => .atom (toString n)
  | float x => .atom x.literalText
  | string s => .quoted s
  | symbol name => symbolAtom name

def HashEntry.toSExpr (e : HashEntry) : SExpr :=
  .line [.atom "=>", e.key.value.toLiteral.toSExpr, e.value.value.toSExpr]

/-- A hash whose entries take at least this many bytes gets a line for each. -/
def longEntries : Nat := 50

def hashForm (head : String) (entries : List HashEntry) : SExpr :=
  let items := entries.map HashEntry.toSExpr
  if (" ".intercalate (items.map (SExpr.render 0))).utf8ByteSize < longEntries then
    .line (.atom head :: items)
  else .block [.atom head] items false

def Expression.toSExpr : Expression → SExpr
  | hash entries => hashForm "hash" entries.value
  | descriptor properties => hashForm "meta" properties.value
  | new className attributes =>
    .line (.atom "new" :: .atom className.value ::
      attributes.map fun a => .line [.atom a.name.value, a.value.value.toSExpr])
  | literal l => l.value.toSExpr

def AccessorKind.text : AccessorKind → String
  | reader => "attr_reader"
  | writer => "attr_writer"
  | accessor => "attr_accessor"

def AccessorDeclaration.toSExpr (d : AccessorDeclaration) : SExpr :=
  .line (.atom d.kind.text :: d.names.map fun n => symbolAtom n.value)

def Query.toSExpr : Query → SExpr
  | keyInfo object key => .line [.atom "key-info", .atom object.value, key.value.toSExpr]
  | keys object true => .line [.atom "keys", .atom object.value, symbolAtom "internal"]
  | keys object false => .line [.atom "keys", .atom object.value]
  | read object key => .line [.atom "read", .atom object.value, key.value.toSExpr]

def Matcher.toSExpr : Matcher → SExpr
  | equalsSymbols symbols =>
    .line [.atom "==", .vector (symbols.map fun s => symbolAtom s.value)]
  | equals l => .line [.atom "==", l.value.toSExpr]
  | includes symbol => .line [.atom "includes", symbolAtom symbol.value]
  | excludes symbol => .line [.atom "excludes", symbolAtom symbol.value]
  | isEmpty => .line [.atom "is-empty"]

def Statement.toSExpr : Statement → SExpr
  | assign name e => .line [.atom "assign", .atom name.value, e.value.toSExpr]
  | defineClass name [] => .line [.atom "class", .atom name.value]
  | defineClass name accessors =>
    .block [.atom "class", .atom name.value] (accessors.map (·.value.toSExpr)) false
  | setAttribute object name value =>
    .line [.atom "set", .atom object.value, .atom name.value, value.value.toSExpr]
  | freeze object => .line [.atom "freeze", .atom object.value]
  | query q => q.value.toSExpr
  | expect q m => .line [.atom "expect", q.value.toSExpr, m.toSExpr]

end KeyIntrospection.Script

namespace KeyIntrospection

def Script.toSExpr (s : Script) : Text.SExpr :=
  match s.statements.map (·.value.toSExpr) with
  | [] => .line [.atom "script"]
  | [one] => .line [.atom "script", one]
  | several => .block [.atom "script"] several true

end KeyIntrospection
