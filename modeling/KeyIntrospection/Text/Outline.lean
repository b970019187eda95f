/-!
Outlines: trees of named parts, written with one part on a line and four spaces more for every level.
-/

namespace KeyIntrospection.Text

inductive Outline where
  | leaf (text : String)
  | record (name : String) (fields : List (String × Outline))
  | variant (name : String) (content : Outline)
  | list (items : List Outline)

namespace Outline

def padding (depth : Nat) : String := .ofList (.replicate (4 * depth) ' ')

mutual

def render (depth : Nat) : Outline → String
  | leaf text => text
  | record name fields =>
    name ++ " \x7b\n" ++ renderFields (depth + 1) fields ++ padding depth ++ "\x7d"
  | variant name content =>
    name ++ "(\n" ++ padding (depth + 1) ++ content.render (depth + 1) ++ ",\n" ++ padding depth ++ ")"
  | list [] => "[]"
  | list items => "[\n" ++ renderItems (depth + 1) items ++ padding depth ++ "]"

def renderFields (depth : Nat) : List (String × Outline) → String
  | [] => ""
  | (name, o) :: rest =>
    padding depth ++ name ++ ": " ++ o.render depth ++ ",\n" ++ renderFields depth rest

def renderItems (depth : Nat) : List Outline → String
  | [] => ""
  | o :: rest => padding depth ++ o.render depth ++ ",\n" ++ renderItems depth rest

end

end Outline

end KeyIntrospection.Text
