import KeyIntrospection.Text.Blank

/-!
Putting lines together until they make a whole statement. Lines are held back while a bracket or a
string is open; a blank line counts only when nothing is held back.
-/

namespace KeyIntrospection.Session

/-- What is open after some characters. -/
structure Nesting where
  /-- The open brackets, counted in 32 bits. -/
  depth : Int32 := 0
  inString : Bool := false
  escaped : Bool := false
  inComment : Bool := false
deriving DecidableEq, Repr

namespace Nesting

def next (n : Nesting) (c : Char) : Nesting :=
  if n.inComment then { n with inComment := c != '\n' }
  else if n.escaped then { n with escaped := false }
  else if c = '"' then { n with inString := !n.inString }
  else if n.inString then { n with escaped := c == '\\' }
  else if c = '#' then { n with inComment := true }
  else if c = '\x7b' ∨ c = '[' ∨ c = '(' then { n with depth := n.depth + 1 }
  else if c = '\x7d' ∨ c = ']' ∨ c = ')' then { n with depth := n.depth - 1 }
  else n

/-- Whether nothing is open. Closing brackets without an opening one leave nothing open either. -/
def isClosed (n : Nesting) : Bool := n.depth ≤ 0 && !n.inString

end Nesting

def isComplete (s : String) : Bool := (s.toList.foldl Nesting.next {}).isClosed

/-- Takes a line into the text held back so far. The result is what is held back from now on, and the
input that the line completes, if it does. -/
def addLine (pending : Option String) (line : String) : Option String × Option String :=
  let whole :=
    match pending with
    | some text => text ++ "\n" ++ line
    | none => line
  if pending.isNone ∧ Text.trim line = "" then (none, some "")
  else if isComplete whole then (none, some whole)
  else (some whole, none)

/-- The inputs that lines make, and what is held back after the last one. -/
def assemble (pending : Option String) : List String → List String × Option String
  | [] => ([], pending)
  | line :: rest =>
    let (held, input) := addLine pending line
    let (inputs, last) := assemble held rest
    (input.toList ++ inputs, last)

end KeyIntrospection.Session
