import KeyIntrospection.Grammar.Source
import KeyIntrospection.Script.Phrase

/-!
The tokens of scripts: keywords, names and the texts of literals. Names and keywords are made of ASCII
letters, digits and underscores, and a keyword is never read as the beginning of a longer name.
-/

namespace KeyIntrospection.Script.Word

def isPart (c : Char) : Bool := c.isAlphanum || c == '_'

def isStart (c : Char) : Bool := c.isAlpha || c == '_'

def isLowerStart (c : Char) : Bool := c.isLower || c == '_'

def isKeyword (word : List Char) : Bool := Keyword.all.any (·.text.toList == word)

def keyword (k : Keyword) : Token := (Token.run isPart isPart).filter (· == k.text.toList)

def variableName : Token := (Token.run isLowerStart isPart).filter (!isKeyword ·)

def className : Token := .run Char.isUpper isPart

def accessorName : Token := .run isStart isPart

def attributeName : Token := (Token.text "@").append accessorName

def symbolName : Token := (Token.optional '@').append accessorName

def digits : Token := .run Char.isDigit Char.isDigit

def integer : Token := (Token.optional '-').append digits

def float : Token := (integer.append (.text ".")).append digits

/-- The characters up to the first quote that no backslash stands before, and what follows them. -/
def splitQuoted : List Char → List Char × List Char
  | '\\' :: c :: rest => let (x, r) := splitQuoted rest; ('\\' :: c :: x, r)
  | c :: rest =>
    if c = '"' ∨ c = '\\' then ([], c :: rest)
    else let (x, r) := splitQuoted rest; (c :: x, r)
  | [] => ([], [])

theorem splitQuoted_append (s : List Char) : (splitQuoted s).1 ++ (splitQuoted s).2 = s := by
  fun_induction splitQuoted s <;> simp_all

/-- The content of a string, with its escapes as they are written. -/
def quoted : Token where
  take? s := some (splitQuoted s)
  append_eq {s taken rest} h := by
    rw [Option.some.injEq] at h
    simpa [h] using splitQuoted_append s

def string : Token := ((Token.text "\"").append quoted).append (.text "\"")

end KeyIntrospection.Script.Word
