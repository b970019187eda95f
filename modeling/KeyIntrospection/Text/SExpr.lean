/-!
S-expressions and their layout. A line holds its items side by side; a block puts the items of its
body on lines of their own, two spaces deeper than the block. In a quoted text a backslash stands
before each quote and nothing else is changed.
-/

namespace KeyIntrospection.Text

inductive SExpr where
  | atom (text : String)
  | quoted (text : String)
  /-- Items in parentheses, on one line. -/
  | line (items : List SExpr)
  /-- Items in brackets, on one line. -/
  | vector (items : List SExpr)
  /-- A head on the first line and a body below it; an open block ends on a line of its own. -/
  | block (head body : List SExpr) (isOpen : Bool)

namespace SExpr

def quote (s : String) : String :=
  .ofList ('"' :: s.toList.flatMap (fun c => if c = '"' then ['\\', '"'] else [c]) ++ ['"'])

def newLine (indent : Nat) : String := .ofList ('\n' :: .replicate indent ' ')

mutual

/-- The text of an expression whose line is indented by `indent`. -/
def render (indent : Nat) : SExpr → String
  | atom text => text
  | quoted text => quote text
  | line items => "(" ++ " ".intercalate (renderAll (indent + 2) items) ++ ")"
  | vector items => "[" ++ " ".intercalate (renderAll (indent + 2) items) ++ "]"
  | block head body isOpen =>
    "(" ++ " ".intercalate (renderAll (indent + 2) head) ++
      String.join ((renderAll (indent + 2) body).map (newLine (indent + 2) ++ ·)) ++
      (if isOpen then newLine indent else "") ++ ")"

def renderAll (indent : Nat) : List SExpr → List String
  | [] => []
  | e :: rest => e.render indent :: renderAll indent rest

end

end SExpr

end KeyIntrospection.Text
