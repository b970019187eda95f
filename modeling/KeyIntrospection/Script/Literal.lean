import KeyIntrospection.Decimal.Numeral
import KeyIntrospection.Script.Statement

/-!
From the text of a literal to its value. The grammar lets through integers of any length and any
character after a backslash; both are checked here.
-/

namespace KeyIntrospection.Script

/-- Why a literal that is written as the grammar demands has no value. -/
inductive LiteralFault where
  | integerOutOfRange (text : Located (List Char))
  | unknownEscape (offset : Nat) (escaped : Char)
deriving DecidableEq, Repr

namespace LiteralFault

/-- The text that has no value. -/
def found : LiteralFault → String
  | integerOutOfRange text => .ofList text.value
  | unknownEscape _ c => .ofList ['\\', c]

def diagnostic : LiteralFault → Diagnostic
  | integerOutOfRange text =>
    { message := "Invalid integer literal"
      code := "interop::parse::invalid_integer"
      help := some "Integer literals must fit in a signed 64-bit integer"
      labels := [⟨"invalid integer", text.span.start, text.span.length⟩] }
  | unknownEscape offset c =>
    { message := "Invalid string escape sequence"
      code := "interop::parse::invalid_string_escape"
      help := some "Valid escape sequences: \\n, \\t, \\r, \\0, \\\\, \\\""
      labels := [⟨"invalid escape sequence", offset, 1 + c.utf8Size⟩] }

end LiteralFault

/-- The character that an escape stands for, by the character after the backslash. -/
def escape? : Char → Option Char
  | 'n' => some '\n'
  | 't' => some '\t'
  | 'r' => some '\r'
  | '0' => some '\x00'
  | '\\' => some '\\'
  | '"' => some '"'
  | _ => none

/-- The characters between the quotes of a string that starts at `offset`, with escapes replaced from
left to right. -/
def unescape (offset : Nat) : List Char → Except LiteralFault (List Char)
  | [] => .ok []
  | '\\' :: c :: rest =>
    match escape? c with
    | some d => (unescape (offset + 1 + c.utf8Size) rest).map (d :: ·)
    | none => .error (.unknownEscape offset c)
  | c :: rest => (unescape (offset + c.utf8Size) rest).map (c :: ·)

def readString (text : Located (List Char)) : Except LiteralFault String :=
  (unescape (text.span.start + 1) (text.value.drop 1).dropLast).map .ofList

/-- The number that decimal digits with or without a minus stand for. -/
def integerValue (text : List Char) : Int :=
  let (negative, digits) := Decimal.splitSign text
  let n : Int := readDigits 0 digits
  if negative then -n else n

/-- Integers have 64 bits, one of them for the sign. -/
def readInteger (text : Located (List Char)) : Except LiteralFault Int :=
  let n := integerValue text.value
  if Int64.minValue.toInt ≤ n ∧ n ≤ Int64.maxValue.toInt then .ok n
  else .error (.integerOutOfRange text)

/-- The number that digits, a point and digits stand for. -/
def readFloat (text : Located (List Char)) : Binary64 :=
  let (negative, rest) := Decimal.splitSign text.value
  let whole := rest.takeWhile Char.isDigit
  let fraction := (rest.dropWhile Char.isDigit).drop 1
  .ofDecimal ⟨negative, readDigits (readDigits 0 whole) fraction, -fraction.length⟩

end KeyIntrospection.Script
