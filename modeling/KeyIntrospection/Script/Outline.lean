import KeyIntrospection.Decimal.Layout
import KeyIntrospection.Script.Statement
import KeyIntrospection.Text.Inspect
import KeyIntrospection.Text.Outline

/-!
Scripts as outlines, which show everything that was read, places in the source included. Strings and
names are written in inspected form.
-/

namespace KeyIntrospection

open Text (Outline)

def Span.outline (s : Span) : Outline :=
  .record "Span" [("start", .leaf (toString s.start)), ("end", .leaf (toString s.stop))]

def textLeaf (s : String) : Outline := .leaf (Text.inspect s)

/-- A part of a script with the given fields, and its place as the last one. -/
def placed (name : String) (fields : List (String × Outline)) (s : Span) : Outline :=
  .record name (fields ++ [("span", s.outline)])

namespace Script

def Name.outline (n : Name) : Outline := placed "Identifier" [("name", textLeaf n.value)] n.span

def Literal.outline : Literal → Outline
  | nil => .leaf "Nil"
  | bool true => .variant "Boolean" (.leaf "true")
  | bool false => .variant "Boolean" (.leaf "false")
  | int n => .variant "Integer" (.leaf (toString n))
  | float x => .variant "Float" (.leaf x.literalText)
  | string s => .variant "String" (textLeaf s)
  | symbol name => .variant "Symbol" (textLeaf name)

def literalOutline (l : Located Literal) : Outline := placed "Literal" [("kind", l.value.outline)] l.span

def symbolOutline (n : Name) : Outline := literalOutline (n.map .symbol)

def HashEntry.outline (e : HashEntry) : Outline :=
  .record "HashEntry"
    [("key", literalOutline (e.key.map KeyLiteral.toLiteral)), ("value", literalOutline e.value)]

def hashOutline (entries : Located (List HashEntry)) : Outline :=
  placed "HashLiteral" [("entries", .list (entries.value.map HashEntry.outline))] entries.span

def AttributeInit.outline (a : AttributeInit) : Outline :=
  .record "InternalInit" [("name", Name.outline a.name), ("value", literalOutline a.value)]

def Expression.outline : Expression → Outline
  | hash entries => .variant "Hash" (hashOutline entries)
  | descriptor properties => .variant "Meta" (hashOutline properties)
  | new className attributes =>
    .variant "New" (.record "NewObject" [("class_name", Name.outline className),
      ("internals", .list (attributes.map AttributeInit.outline))])
  | literal l => .variant "Literal" (literalOutline l)

def AccessorKind.outline : AccessorKind → Outline
  | reader => .leaf "Reader"
  | writer => .leaf "Writer"
  | accessor => .leaf "Accessor"

def declarationOutline (d : Located AccessorDeclaration) : Outline :=
  placed "AccessorDeclaration"
    [("kind", d.value.kind.outline), ("names", .list (d.value.names.map Name.outline))] d.span

def Query.outline : Query → Outline
  | keyInfo object key =>
    .record "KeyInfo" [("object", Name.outline object), ("key", literalOutline key)]
  | keys object withInternal =>
    .record "Keys" [("object", Name.outline object),
      ("include_internal", .leaf (if withInternal then "true" else "false"))]
  | read object key => .record "Read" [("object", Name.outline object), ("key", literalOutline key)]

def queryOutline (q : Located Query) : Outline := placed "Query" [("kind", q.value.outline)] q.span

def Matcher.outline : Matcher → Outline
  | equalsSymbols symbols =>
    .variant "Equals" (.variant "SymbolList" (.list (symbols.map symbolOutline)))
  | equals l => .variant "Equals" (.variant "Literal" (literalOutline l))
  | includes symbol => .variant "Includes" (symbolOutline symbol)
  | excludes symbol => .variant "Excludes" (symbolOutline symbol)
  | isEmpty => .leaf "IsEmpty"

/-- The outline of a statement that stands at `span`. -/
def Statement.outline (span : Span) : Statement → Outline
  | assign name e =>
    .variant "Assignment" (.record "Assignment" [("variable", Name.outline name),
      ("expression", placed "Expression" [("kind", e.value.outline)] e.span)])
  | defineClass name accessors =>
    .variant "ClassDefinition" (.record "ClassDefinition" [("name", Name.outline name),
      ("accessors", .list (accessors.map declarationOutline))])
  | setAttribute object name value =>
    .variant "SetInternal" (.record "SetInternal" [("object", Name.outline object),
      ("name", Name.outline name), ("value", literalOutline value)])
  | freeze object => .variant "Freeze" (Name.outline object)
  | query q => .variant "Query" (queryOutline q)
  | expect q m =>
    .variant "Expect" (placed "Expectation" [("query", queryOutline q), ("matcher", m.outline)] span)

def statementOutline (s : Located Statement) : Outline :=
  placed "Statement" [("kind", s.value.outline s.span)] s.span

end Script

def Script.outline (s : Script) : Outline :=
  placed "Script" [("statements", .list (s.statements.map Script.statementOutline)),
    ("source_file", match s.file with
      | some file => .variant "Some" (textLeaf file)
      | none => .leaf "None")] s.span

end KeyIntrospection
