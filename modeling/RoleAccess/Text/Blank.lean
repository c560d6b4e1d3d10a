/-!
# Blank characters

A character is blank if it has the Unicode property White_Space. Trimming takes the blank
characters off both ends of a text.
-/

namespace RoleAccess.Text

def isBlank (c : Char) : Bool :=
  let n := c.toNat
  (9 ≤ n && n ≤ 13) || n == 0x20 || n == 0x85 || n == 0xA0 || n == 0x1680 ||
    (0x2000 ≤ n && n ≤ 0x200A) || n == 0x2028 || n == 0x2029 || n == 0x202F || n == 0x205F ||
    n == 0x3000

/-- A space, tab, form feed or line end of ASCII. -/
def isAsciiBlank (c : Char) : Bool :=
  c = ' ' || c = '\t' || c = '\n' || c = '\x0c' || c = '\r'

def trim (cs : List Char) : List Char := ((cs.dropWhile isBlank).reverse.dropWhile isBlank).reverse

example : trim ['\x0b', 'a', ' ', 'b', '\u3000'] = ['a', ' ', 'b'] := by decide

end RoleAccess.Text
