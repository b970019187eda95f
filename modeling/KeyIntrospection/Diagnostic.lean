/-!
What a reader is told about an error: a message, a code to look the error up by, advice where there is
some, and the places in the source that the error is about.
-/

namespace KeyIntrospection

/-- A place in a source text, in bytes, and what is said about it. -/
structure Label where
  text : String
  offset : Nat
  length : Nat
deriving DecidableEq, Repr

structure Diagnostic where
  message : String
  code : String
  help : Option String := none
  labels : List Label := []
deriving DecidableEq, Repr

end KeyIntrospection
