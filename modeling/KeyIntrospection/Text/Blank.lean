/-!
White space in texts that people type: the characters with the property White_Space of Unicode.
`trim` takes them off both ends of a text, `words` splits a text at runs of them.
-/

namespace KeyIntrospection.Text

def isBlank (c : Char) : Bool :=
  let n := c.toNat
  (0x9 ≤ n && n ≤ 0xD) || n == 0x20 || n == 0x85 || n == 0xA0 || n == 0x1680 ||
    (0x2000 ≤ n && n ≤ 0x200A) || n == 0x2028 || n == 0x2029 || n == 0x202F || n == 0x205F ||
    n == 0x3000

def trim (s : String) : String :=
  .ofList ((s.toList.dropWhile isBlank).reverse.dropWhile isBlank).reverse

/-- The runs of other characters between the blanks. -/
def words (s : String) : List String :=
  ((s.toList.splitBy (isBlank · == isBlank ·)).filter (·.all (!isBlank ·))).map .ofList

end KeyIntrospection.Text
