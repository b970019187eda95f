/-!
The names of the phrases and tokens of scripts, in the order in which they are listed when something
else was found, and the words in which they are described.
-/

namespace KeyIntrospection.Script

inductive Keyword where
  | classWord
  | set
  | freeze
  | expect
  | keyInfo
  | keys
  | read
  | new
  | metaWord
  | internal
  | includes
  | excludes
  | isEmpty
  | attrReader
  | attrWriter
  | attrAccessor
  | trueWord
  | falseWord
  | nilWord
deriving DecidableEq, Repr

namespace Keyword

def text : Keyword → String
  | classWord => "class"
  | set => "set"
  | freeze => "freeze"
  | expect => "expect"
  | keyInfo => "key_info"
  | keys => "keys"
  | read => "read"
  | new => "new"
  | metaWord => "meta"
  | internal => "internal"
  | includes => "includes"
  | excludes => "excludes"
  | isEmpty => "is_empty"
  | attrReader => "attr_reader"
  | attrWriter => "attr_writer"
  | attrAccessor => "attr_accessor"
  | trueWord => "true"
  | falseWord => "false"
  | nilWord => "nil"

def all : List Keyword :=
  [classWord, set, freeze, expect, keyInfo, keys, read, new, metaWord, internal, includes, excludes,
    isEmpty, attrReader, attrWriter, attrAccessor, trueWord, falseWord, nilWord]

theorem mem_all (k : Keyword) : k ∈ all := by cases k <;> decide

end Keyword

inductive Phrase where
  | endOfInput
  | script
  | singleStatement
  | keyword (k : Keyword)
  | variableName
  | className
  | attributeName
  | float
  | integer
  | string
  | symbol
  | symbolName
  | boolean
  | nil
  | literal
  | symbolList
  | hash
  | hashEntry
  | descriptor
  | newObject
  | attributeBlock
  | attributeInit
  | expression
  | assignment
  | classDefinition
  | accessorDeclaration
  | accessorSymbol
  | accessorName
  | accessorKind
  | setAttribute
  | freeze
  | query
  | keyInfoQuery
  | keysQuery
  | readQuery
  | expectation
  | matcher
  | equals
  | includes
  | excludes
  | isEmpty
deriving DecidableEq, Repr

namespace Phrase

/-- All names, in the order in which they are listed. -/
def all : List Phrase :=
  [endOfInput, script, singleStatement] ++ Keyword.all.map keyword ++
  [variableName, className, attributeName, float, integer, string, symbol, symbolName, boolean, nil,
    literal, symbolList, hash, hashEntry, descriptor, newObject, attributeBlock, attributeInit,
    expression, assignment, classDefinition, accessorDeclaration, accessorSymbol, accessorName,
    accessorKind, setAttribute, freeze, query, keyInfoQuery, keysQuery, readQuery, expectation,
    matcher, equals, includes, excludes, isEmpty]

def describe : Phrase → String
  | endOfInput => "end of input"
  | script => "script"
  | singleStatement => "single_statement"
  | keyword .internal => "'internal'"
  | keyword k => "kw_" ++ k.text
  | variableName => "a variable name (like hash)"
  | className => "a class name (like KeyInfoFixture)"
  | attributeName => "an instance variable name (like @exists)"
  | float => "a float (like 3.14)"
  | integer => "an integer (like 42)"
  | string => "a string (like \"a\")"
  | symbol => "a symbol (like :ro or :@exists)"
  | symbolName => "symbol_name"
  | boolean => "a boolean (true or false)"
  | nil => "nil"
  | literal => "a literal value"
  | symbolList => "a symbol list (like [:existing, :readable])"
  | hash => "a hash (like \x7b\"a\" => 1\x7d)"
  | hashEntry => "a hash entry (like \"a\" => 1)"
  | descriptor => "a meta object (like meta \x7b\"name\" => \"Hash\"\x7d)"
  | newObject => "an object (like new KeyInfoFixture)"
  | attributeBlock => "internal_block"
  | attributeInit => "an instance variable assignment (like @exists = 14)"
  | expression => "an object or literal"
  | assignment => "an assignment"
  | classDefinition => "a class definition"
  | accessorDeclaration | accessorKind =>
    "an accessor declaration (attr_reader, attr_writer or attr_accessor)"
  | accessorSymbol | accessorName => "an accessor name without '@' (like :ro)"
  | setAttribute => "a set statement"
  | freeze => "a freeze statement"
  | query | keyInfoQuery | keysQuery | readQuery => "a query (key_info, keys or read)"
  | expectation => "an expect statement"
  | matcher | equals | includes | excludes | isEmpty =>
    "a matcher (==, includes, excludes or is_empty)"

/-- The names of a list in the listing order, each once. -/
def sorted (l : List Phrase) : List Phrase := all.filter (· ∈ l)

/-- What is said about a place where one of these phrases could have stood. Phrases that are listed
next to each other and have one description are mentioned once. -/
def expected (l : List Phrase) : String :=
  match ((sorted l).map describe).eraseReps with
  | [] => "Unexpected input"
  | [one] => "Expected " ++ one
  | several => "Expected one of: " ++ ", ".intercalate several

end Phrase

end KeyIntrospection.Script
