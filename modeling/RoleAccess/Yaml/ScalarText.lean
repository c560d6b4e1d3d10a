import RoleAccess.Text.Number
import RoleAccess.Yaml.Character

/-!
# Texts of YAML scalars

A scalar is written plainly, in quotes or as a block of lines. Each reader gives the text that is
meant and the characters after the scalar. Between two words of a plain or quoted scalar a line end
counts as a space, and further line ends count as themselves.
-/

namespace RoleAccess.Yaml

open Chars

/-- What spaces and line ends between two words stand for. After an escaped line end the spaces do
not count. -/
def foldGap (escaped : Bool) (gap : List Char) : List Char :=
  match gap.filter isBreak with
  | [] => if escaped then [] else gap
  | b :: more =>
    if escaped || b ≠ '\n' then b :: more else if more.isEmpty then [' '] else more

example : foldGap false [' ', '\n', ' '] = [' '] ∧ foldGap false ['\n', '\n'] = ['\n'] := by decide

/-! ## Quoted scalars -/

/-- The characters for which an escape has a letter of its own. -/
def escapes : List (Char × Char) :=
  [('0', '\x00'), ('a', '\x07'), ('b', '\x08'), ('t', '\t'), ('\t', '\t'), ('n', '\n'),
    ('v', '\x0b'), ('f', '\x0c'), ('r', '\r'), ('e', '\x1b'), (' ', ' '), ('"', '"'), ('/', '/'),
    ('\\', '\\'), ('N', '\u0085'), ('_', '\u00a0'), ('L', '\u2028'), ('P', '\u2029')]

/-- How many hexadecimal digits follow the letter of an escape by code point. -/
def escapeWidth? : Char → Option Nat
  | 'x' => some 2
  | 'u' => some 4
  | 'U' => some 8
  | _ => none

def charOfCode? (n : Nat) : Option Char := if n.isValidChar then some (Char.ofNat n) else none

/-- The character of an escape, given what follows the backslash, and how long the escape is. -/
def escaped? (cs : Chars) : Option (Char × Nat) :=
  match escapes.lookup (charAt cs 0) with
  | some c => some (c, 1)
  | none => do
    let width ← escapeWidth? (charAt cs 0)
    return (← charOfCode? (← Text.natural? 16 (text ((cs.drop 1).take width))), width + 1)

/-- Reads up to the closing quote. In single quotes the quote is written twice and nothing else is
escaped. -/
def quoted? (quote : Char) (read : List Char) : Chars → Option (List Char × Chars)
  | [] => none
  | c :: cs =>
    if isEnd c.char || isAtDocumentMark (c :: cs) then none
    else if isGap c.char then
      quoted? quote (read ++ foldGap false (c.char :: (spanText cs isGap).1)) (skip cs isGap)
    else if c.char = quote then
      if quote = '\'' && charAt cs 0 = quote then quoted? quote (read ++ [quote]) (cs.drop 1)
      else some (read, cs)
    else if quote = '"' && c.char = '\\' then
      if isBreak (charAt cs 0) then
        quoted? quote (read ++ foldGap true (spanText (cs.drop 1) isGap).1)
          (skip (cs.drop 1) isGap)
      else do
        let (e, width) ← escaped? cs
        quoted? quote (read ++ [e]) (cs.drop width)
    else quoted? quote (read ++ [c.char]) cs
termination_by cs => cs.length
decreasing_by
  all_goals
    have := length_skip_le cs isGap
    have := length_skip_le (cs.drop 1) isGap
    simp only [List.length_cons, List.length_drop] at *
    omega

/-! ## Plain scalars -/

/-- The marks that end a plain scalar inside brackets and braces. -/
def flowMarks : List Char := [',', '[', ']', '{', '}']

/-- The next word of a plain scalar and what follows it. A colon ends a word if a gap follows;
inside brackets it may not stand before a mark. -/
def plainWord? (flow : Bool) : Chars → Option (List Char × Chars)
  | [] => some ([], [])
  | c :: cs =>
    if endsWord c.char then some ([], c :: cs)
    else if flow && c.char = ':' && ('?' :: flowMarks).contains (charAt cs 0) then none
    else if c.char = ':' && endsWord (charAt cs 0) || flow && flowMarks.contains c.char then
      some ([], c :: cs)
    else do
      let (word, rest) ← plainWord? flow cs
      return (c.char :: word, rest)

/-- Whether a gap has a tab in the indentation of one of its lines. -/
def hasTabIndent (indent : Nat) (gap : Chars) : Bool :=
  (skip gap (!isBreak ·)).any fun c => c.char = '\t' && c.column < indent

/-- A plain scalar that has been read: its text, whether a line end follows, and the rest. -/
structure PlainText where
  text : List Char
  endsLine : Bool
  rest : Chars

/-- Reads a plain scalar from the word after `gap` on. Its lines are indented by `indent` at least,
except inside brackets and braces. -/
def plain? (flow : Bool) (indent : Nat) : Nat → List Char → List Char → Chars → Option PlainText
  | 0, _, _, _ => none
  | fuel + 1, read, gap, cs => do
    let stop : PlainText := ⟨read, gap.any isBreak, cs⟩
    if isAtDocumentMark cs || charAt cs 0 = '#' then return stop
    let (word, rest) ← plainWord? flow cs
    if word.isEmpty then return stop
    let read := read ++ foldGap false gap ++ word
    if hasTabIndent indent (rest.takeWhile (isGap ·.char)) then none
    else
      let (gap, rest) := spanText rest isGap
      if gap.isEmpty || !flow && column rest < indent then
        return ⟨read, gap.any isBreak, rest⟩
      else plain? flow indent fuel read gap rest

/-! ## Block scalars -/

/-- What happens to the line ends at the end of a block: all go, the first stays, or all stay. -/
inductive Chomping where
  | strip | clip | keep

def Chomping.ofChar? : Char → Option Chomping
  | '-' => some strip
  | '+' => some keep
  | _ => none

/-- The digit of an indentation. -/
def indentDigit? (c : Char) : Option Nat := do
  let n ← Text.digit? 10 c
  if n = 0 then none else some n

/-- Reads what follows the mark of a block on its line: the chomping and the indentation, in either
order, and a comment. -/
def blockHeader? (cs : Chars) : Option (Chomping × Option Nat × Chars) := do
  let first := charAt cs 0
  let second := charAt cs 1
  match Chomping.ofChar? first with
  | some chomping =>
    if second.isDigit then return (chomping, some (← indentDigit? second), ← lineEnd? (cs.drop 2))
    else return (chomping, none, ← lineEnd? (cs.drop 1))
  | none =>
    if first.isDigit then
      let indent ← indentDigit? first
      match Chomping.ofChar? second with
      | some chomping => return (chomping, some indent, ← lineEnd? (cs.drop 2))
      | none => return (.clip, some indent, ← lineEnd? (cs.drop 1))
    else return (.clip, none, ← lineEnd? cs)

/-- Reads indentation and empty lines up to the next content: the line ends, the deepest column that
was come to, and the rest. A tab may not stand in the indentation. -/
def emptyLines? (indent : Option Nat) (deepest : Nat) (breaks : List Char) :
    Chars → Option (List Char × Nat × Chars)
  | [] => some (breaks, deepest, [])
  | c :: cs =>
    let indenting := indent.all (c.column < ·)
    if indenting && c.char = ' ' then emptyLines? indent deepest breaks cs
    else if indenting && c.char = '\t' then none
    else if isBreak c.char then
      emptyLines? indent (max deepest c.column) (breaks ++ [c.char]) cs
    else some (breaks, max deepest c.column, c :: cs)

/-- The content of a block that has been read, apart from the line ends after it: the end of its last
line, and those of the empty lines that follow. -/
structure BlockText where
  text : List Char := []
  lineEnd : Option Char := none
  emptyLines : List Char := []
  /-- Whether the last line begins with a space. -/
  indented : Bool := false

/-- Adds a line to a block. In a folded block the line end between two lines that do not begin with a
space counts as a space. -/
def BlockText.addLine (b : BlockText) (literal : Bool) (line : List Char) : BlockText :=
  let indented := line.head?.any isSpace
  let joint :=
    if !literal && b.lineEnd = some '\n' && !b.indented && !indented then
      if b.emptyLines.isEmpty then [' '] else b.emptyLines
    else b.lineEnd.toList ++ b.emptyLines
  { text := b.text ++ joint ++ line, indented }

/-- Reads the lines of a block at the given indentation. -/
def blockLines? (literal : Bool) (indent : Nat) : Nat → BlockText → Chars → Option (BlockText × Chars)
  | 0, _, _ => none
  | fuel + 1, b, cs =>
    if column cs = indent && !isEnd (charAt cs 0) then do
      let (line, rest) := spanText cs (!endsLine ·)
      let lineEnd := if isBreak (charAt rest 0) then some (charAt rest 0) else none
      let (emptyLines, _, rest) ← emptyLines? (some indent) 0 [] (rest.drop lineEnd.toList.length)
      blockLines? literal indent fuel { b.addLine literal line with lineEnd, emptyLines } rest
    else some (b, cs)

def BlockText.chomp (b : BlockText) : Chomping → List Char
  | .strip => b.text
  | .clip => b.text ++ b.lineEnd.toList
  | .keep => b.text ++ b.lineEnd.toList ++ b.emptyLines

/-- Reads a block after its mark. Without an indentation of its own it is indented like its first
line that is not empty. `outer` is the indentation of what the block stands in. -/
def block? (literal : Bool) (outer : Option Nat) (cs : Chars) : Option (List Char × Chars) := do
  let (chomping, given, cs) ← blockHeader? cs
  let indent := given.map (outer.getD 0 + ·)
  let (emptyLines, deepest, cs) ← emptyLines? indent 0 [] cs
  let least := match outer with
    | some column => column + 1
    | none => 1
  let (b, rest) ← blockLines? literal (indent.getD (max deepest least)) cs.length { emptyLines } cs
  return (b.chomp chomping, rest)

end RoleAccess.Yaml
