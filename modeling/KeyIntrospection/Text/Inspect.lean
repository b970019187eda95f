import KeyIntrospection.Unicode.Unprintable
import KeyIntrospection.Unicode.Extender

/-!
The inspected form of a text: between double quotes, with every character that would not show on its
own written as an escape. Quotes, backslashes, line breaks, tabs and the null character have escapes
of two characters; any other character that has no printed form, or that joins the one before it, is
written as its code point in hexadecimal.
-/

namespace KeyIntrospection.Text

def hexadecimal (n : Nat) : List Char := Nat.toDigits 16 n

/-- Whether a character is written as its code point. -/
def isHidden (c : Char) : Bool := Unicode.isUnprintable c || Unicode.isExtender c

def inspectChar : Char → List Char
  | '"' => ['\\', '"']
  | '\\' => ['\\', '\\']
  | '\n' => ['\\', 'n']
  | '\t' => ['\\', 't']
  | '\r' => ['\\', 'r']
  | '\x00' => ['\\', '0']
  | c => if isHidden c then '\\' :: 'u' :: '{' :: hexadecimal c.toNat ++ ['}'] else [c]

def inspect (s : String) : String := .ofList ('"' :: s.toList.flatMap inspectChar ++ ['"'])

end KeyIntrospection.Text
