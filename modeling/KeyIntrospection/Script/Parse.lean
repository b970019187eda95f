import KeyIntrospection.Script.Grammar

/-!
From source text to scripts. A source that the grammar does not accept is refused before its literals
are read; of the literals without a value the first in the source is reported.
-/

namespace KeyIntrospection.Script

/-- Why a source text is no script. -/
inductive ParseError where
  /-- At `offset` one of `phrases` should have stood. -/
  | unexpected (offset : Nat) (phrases : List Phrase)
  | literal (fault : LiteralFault)
deriving DecidableEq, Repr

def ParseError.diagnostic : ParseError → Diagnostic
  | unexpected offset phrases =>
    { message := "Parse error"
      code := "interop::parse::pest_error"
      help := some (Phrase.expected phrases)
      labels := [⟨"error occurred here", offset, 1⟩] }
  | literal fault => fault.diagnostic

/-- Reads a text by a rule. -/
def Rule.parse {α : Type} (rule : Rule α) (source : String) : Except ParseError α :=
  let start := Cursor.ofText source
  match rule.accept? start with
  | some m => m.value.mapError .literal
  | none =>
    let attempts := rule.blame start
    .error (.unexpected attempts.offset attempts.tried)

/-- Reads a text that is exactly one statement. -/
def Statement.parse (source : String) : Except ParseError (Located Statement) :=
  Rule.singleStatement.parse source

end KeyIntrospection.Script

namespace KeyIntrospection

def Script.parse (source : String) (file : Option String) : Except Script.ParseError Script :=
  (Script.Rule.script.parse source).map fun s => ⟨s.value, file, s.span⟩

end KeyIntrospection
