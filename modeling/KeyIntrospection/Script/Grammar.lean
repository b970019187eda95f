import KeyIntrospection.Grammar.Attempts
import KeyIntrospection.Script.Literal
import KeyIntrospection.Script.Word

/-!
The grammar of scripts. Statements end at line breaks; only blocks in braces go over several lines.
Of the statements the query comes before the assignment and the keyword statements before both, so
that a keyword is never taken for the name of a variable.
-/

namespace KeyIntrospection.Script

/-- Grammars for parts of scripts. -/
abbrev Rule (α : Type) := Grammar Phrase LiteralFault α

namespace Rule

variable {α β : Type}

def mark (s : String) : Rule Unit := .plain (.text s)

def lineBreaks : Rule (List Unit) := .many (.plain .lineBreak)

def endOfInput : Rule Unit := .token .endOfInput .endOfText fun _ => .ok ()

def keyword (k : Keyword) : Rule Unit := .token (.keyword k) (Word.keyword k) fun _ => .ok ()

/-- A token whose value is its text. -/
def name (p : Phrase) (t : Token) : Rule Name := .token p t fun x => .ok (x.map .ofList)

/-- One part after the other, with blanks between them. -/
def seq (p : Rule α) (q : Rule β) : Rule (α × β) := Grammar.seq .blanks p q

/-- A phrase whose value is made from the value of its parts. -/
def phrase (p : Phrase) (parts : Rule α) (f : α → β) : Rule (Located β) :=
  .map (Located.map f) (Grammar.phrase p parts)

/-- A phrase that is one of its parts. -/
def either (p : Phrase) (parts : Rule α) : Rule α := .map Located.value (Grammar.phrase p parts)

/-- No items, or items with commas between them and perhaps one at the end. The items after the first
may be read in another way. -/
def listed (first next : Rule α) : Rule (List α) :=
  .map (fun | some (a, l, _) => a :: l | none => [])
    (.optional (seq first <| seq (.many (.map Prod.snd (seq (mark ",") next)))
      (.optional (mark ","))))

/-- Items in braces, on one line or several. -/
def block (item : Rule α) : Rule (List α) :=
  .map (fun (_, _, l, _) => l)
    (seq (mark "\x7b") <| seq lineBreaks <|
      seq (listed item (.map Prod.snd (seq lineBreaks item))) <| seq lineBreaks (mark "\x7d"))

def variableName : Rule Name := name .variableName Word.variableName

def className : Rule Name := name .className Word.className

def attributeName : Rule Name := name .attributeName Word.attributeName

def symbol : Rule Name :=
  phrase .symbol (Grammar.seq .nothing (mark ":") (name .symbolName Word.symbolName)) fun (_, x) => x.value

def string : Rule (Located String) :=
  .token .string Word.string fun x => (readString x).map (⟨·, x.span⟩)

def literal : Rule (Located Literal) :=
  either .literal <|
    .choice (.token .float Word.float fun x => .ok ⟨.float (readFloat x), x.span⟩) <|
    .choice (.token .integer Word.integer fun x => (readInteger x).map (⟨.int ·, x.span⟩)) <|
    .choice (.map (Located.map .string) string) <|
    .choice (.map (Located.map .symbol) symbol) <|
    .choice
      (phrase .boolean
        (.choice (.map (fun _ => true) (keyword .trueWord)) (.map (fun _ => false) (keyword .falseWord)))
        .bool) <|
    phrase .nil (keyword .nilWord) fun _ => .nil

def symbolList : Rule (List Name) :=
  either .symbolList
    (.map (fun (_, l, _) => l) (seq (mark "[") <| seq (listed symbol symbol) (mark "]")))

def hashEntry : Rule HashEntry :=
  either .hashEntry
    (.map (fun (key, _, value) => ⟨key, value⟩)
      (seq (.choice (.map (Located.map .string) string) (.map (Located.map .symbol) symbol)) <|
        seq (mark "=>") literal))

def hash : Rule (Located (List HashEntry)) := Grammar.phrase .hash (block hashEntry)

def descriptor : Rule (Located (List HashEntry)) :=
  either .descriptor (.map Prod.snd (seq (keyword .metaWord) hash))

def attributeInit : Rule AttributeInit :=
  either .attributeInit
    (.map (fun (n, _, value) => ⟨n, value⟩) (seq attributeName <| seq (mark "=") literal))

def newObject : Rule Expression :=
  either .newObject
    (.map (fun (_, n, attributes) => .new n (attributes.getD []))
      (seq (keyword .new) <|
        seq className (.optional (either .attributeBlock (block attributeInit)))))

def expression : Rule (Located Expression) :=
  Grammar.phrase .expression <|
    .choice (.map .hash hash) <|
    .choice (.map .descriptor descriptor) <|
    .choice newObject (.map .literal literal)

def assignment : Rule (Located Statement) :=
  phrase .assignment (seq variableName <| seq (mark "=") expression) fun (n, _, e) => .assign n e

def accessorSymbol : Rule Name :=
  .map (·.value.2)
    (Grammar.phrase .accessorSymbol (Grammar.seq .nothing (mark ":") (name .accessorName Word.accessorName)))

def accessorKind : Rule AccessorKind :=
  either .accessorKind <|
    .choice (.map (fun _ => .reader) (keyword .attrReader)) <|
    .choice (.map (fun _ => .writer) (keyword .attrWriter)) <|
    .map (fun _ => .accessor) (keyword .attrAccessor)

def accessorDeclaration : Rule (Located AccessorDeclaration) :=
  phrase .accessorDeclaration
    (seq accessorKind <|
      seq accessorSymbol (.many (.map Prod.snd (seq (mark ",") accessorSymbol))))
    fun (kind, n, more) => ⟨kind, n :: more⟩

def classDefinition : Rule (Located Statement) :=
  phrase .classDefinition
    (seq (keyword .classWord) <| seq className <| seq (mark "\x7b") <|
      seq (.many (.choice (.map (fun _ => none) (.plain .lineBreak)) (.map some accessorDeclaration)))
        (mark "\x7d"))
    fun (_, n, _, declarations, _) => .defineClass n (declarations.filterMap id)

def setAttribute : Rule (Located Statement) :=
  phrase .setAttribute
    (seq (keyword .set) <| seq variableName <| seq attributeName <| seq (mark "=") literal)
    fun (_, object, n, _, value) => .setAttribute object n value

def freeze : Rule (Located Statement) :=
  phrase .freeze (seq (keyword .freeze) variableName) fun (_, object) => .freeze object

/-- A query about one key: a keyword, and the object and the key in parentheses. -/
def keyQuery (p : Phrase) (k : Keyword) (f : Name → Located Literal → Query) : Rule Query :=
  either p
    (.map (fun (_, _, object, _, key, _) => f object key)
      (seq (keyword k) <| seq (mark "(") <| seq variableName <| seq (mark ",") <|
        seq literal (mark ")")))

def keysQuery : Rule Query :=
  either .keysQuery
    (.map (fun (_, _, object, internal, _) => .keys object internal.isSome)
      (seq (keyword .keys) <| seq (mark "(") <| seq variableName <|
        seq (.optional (seq (mark ",") (keyword .internal))) (mark ")")))

def query : Rule (Located Query) :=
  Grammar.phrase .query <|
    .choice (keyQuery .keyInfoQuery .keyInfo .keyInfo) <|
    .choice keysQuery (keyQuery .readQuery .read .read)

def matcher : Rule Matcher :=
  either .matcher <|
    .choice
      (either .equals
        (.map Prod.snd
          (seq (mark "==") (.choice (.map .equalsSymbols symbolList) (.map .equals literal))))) <|
    .choice (either .includes (.map (fun (_, s) => .includes s) (seq (keyword .includes) symbol))) <|
    .choice (either .excludes (.map (fun (_, s) => .excludes s) (seq (keyword .excludes) symbol))) <|
    either .isEmpty (.map (fun _ => .isEmpty) (keyword .isEmpty))

def expectation : Rule (Located Statement) :=
  phrase .expectation (seq (keyword .expect) <| seq query matcher) fun (_, q, m) => .expect q m

def statement : Rule (Located Statement) :=
  .choice classDefinition <|
  .choice setAttribute <|
  .choice freeze <|
  .choice expectation <|
  .choice (.map (fun q => ⟨.query q, q.span⟩) query)
  assignment

/-- What ends a statement of a script: line breaks, or the end of the source, which is not taken. -/
def statementEnd : Rule Unit :=
  .choice (.map (fun _ => ()) (seq (.plain .lineBreak) lineBreaks)) (.ahead endOfInput)

def script : Rule (Located (List (Located Statement))) :=
  phrase .script
    (seq (.plain .nothing) <| seq lineBreaks <|
      seq (.many (.map Prod.fst (seq statement statementEnd))) endOfInput)
    fun (_, _, statements, _) => statements

def singleStatement : Rule (Located Statement) :=
  either .singleStatement
    (.map (fun (_, _, s, _) => s)
      (seq (.plain .nothing) <| seq lineBreaks <| seq statement <| seq lineBreaks endOfInput))

end Rule

end KeyIntrospection.Script
