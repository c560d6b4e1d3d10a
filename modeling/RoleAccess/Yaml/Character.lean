/-!
# Characters of a YAML text

A text is read as the list of its characters, each with its place. Line ends are made uniform, and
a NUL, which no text may hold, stands at the end.
-/

namespace RoleAccess.Yaml

/-- A character with its place in the text. -/
structure Placed where
  char : Char
  /-- How many bytes are before it. -/
  index : Nat
  line : Nat
  column : Nat

abbrev Chars := List Placed

/-- Whether a character may occur in a text. -/
def isAllowed (c : Char) : Bool :=
  let n := c.toNat
  n == 0x9 || n == 0xA || n == 0xD || (0x20 ≤ n && n ≤ 0x7E) || n == 0x85 ||
    (0xA0 ≤ n && n ≤ 0xFFFD) || 0x10000 ≤ n

def isBreak (c : Char) : Bool := c = '\n' || c = '\u2028' || c = '\u2029'

def isSpace (c : Char) : Bool := c = ' ' || c = '\t'

def isEnd (c : Char) : Bool := c = '\x00'

/-- Whether the character is between words. -/
def isGap (c : Char) : Bool := isSpace c || isBreak c

def endsLine (c : Char) : Bool := isBreak c || isEnd c

def endsWord (c : Char) : Bool := isGap c || isEnd c

/-- The characters of names: ASCII letters and digits, underscore and hyphen. -/
def isNameChar (c : Char) : Bool := c.isAlphanum || c = '_' || c = '-'

/-- Gives the characters their places. A carriage return, a line feed, both together and a next-line
character are one line end each; line and paragraph separators end a line and stay what they are. -/
def place (index line column : Nat) : List Char → Chars
  | [] => [⟨'\x00', index, line, column⟩]
  | '\r' :: '\n' :: cs => ⟨'\n', index, line, column⟩ :: place (index + 2) (line + 1) 0 cs
  | c :: cs =>
    if c = '\r' || c = '\n' || c = '\u0085' then
      ⟨'\n', index, line, column⟩ :: place (index + c.utf8Size) (line + 1) 0 cs
    else if isBreak c then ⟨c, index, line, column⟩ :: place (index + c.utf8Size) (line + 1) 0 cs
    else ⟨c, index, line, column⟩ :: place (index + c.utf8Size) line (column + 1) cs

namespace Chars

def ofText? (text : String) : Option Chars :=
  if text.toList.all isAllowed then some (place 0 0 0 text.toList) else none

/-- The character after `n` others; past the end it is the end. -/
def charAt (cs : Chars) (n : Nat) : Char := (cs[n]?.map (·.char)).getD '\x00'

def column (cs : Chars) : Nat := (cs.head?.map (·.column)).getD 0

def text (cs : Chars) : List Char := cs.map (·.char)

/-- Whether a line begins with three times the mark as a word. -/
def isAtMark (cs : Chars) (mark : Char) : Bool :=
  cs.column = 0 && text (cs.take 3) = [mark, mark, mark] && endsWord (cs.charAt 3)

/-- Whether a mark of the start or the end of a document comes next. -/
def isAtDocumentMark (cs : Chars) : Bool := cs.isAtMark '-' || cs.isAtMark '.'

/-- The first characters that satisfy `p`, and the rest. -/
def spanText (cs : Chars) (p : Char → Bool) : List Char × Chars :=
  (text (cs.takeWhile (p ·.char)), cs.dropWhile (p ·.char))

def skip (cs : Chars) (p : Char → Bool) : Chars := cs.dropWhile (p ·.char)

theorem length_skip_le (cs : Chars) (p : Char → Bool) : (cs.skip p).length ≤ cs.length :=
  (List.dropWhile_sublist _).length_le

/-- What follows on a line that may hold a comment but nothing else; the line end is taken too. -/
def lineEnd? (cs : Chars) : Option Chars :=
  let cs := cs.skip isSpace
  let cs := if cs.charAt 0 = '#' then cs.skip (!endsLine ·) else cs
  if isBreak (cs.charAt 0) then some (cs.drop 1)
  else if isEnd (cs.charAt 0) then some cs
  else none

end Chars

end RoleAccess.Yaml
