/-!
The lines of a text that arrives line by line: each without the line feed at its end and without one
carriage return before that. What follows the last line feed is a line if there is anything.
-/

namespace KeyIntrospection.Text

/-- The lines of a text, where `line` holds the characters of the first one so far, last first. -/
def linesFrom (line : List Char) : List Char → List (List Char)
  | [] => if line.isEmpty then [] else [line.reverse]
  | c :: rest =>
    if c = '\n' then
      (if line.head? = some '\r' then line.drop 1 else line).reverse :: linesFrom [] rest
    else linesFrom (c :: line) rest

def lines (s : String) : List String := (linesFrom [] s.toList).map .ofList

end KeyIntrospection.Text
