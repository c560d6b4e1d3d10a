import RoleAccess.Json
import RoleAccess.Text.Blank
import RoleAccess.Text.Number

/-!
# Settings in environment variables

The name of a variable is `CONTENT_ACL_`, in any case, and a key. Its value is a flag, a number, a
quoted text or character, a list in brackets or a dictionary in braces; a value that is none of
these is a text, and so is all of a value of which only the beginning is one.
-/

namespace RoleAccess.Settings

open Text

/-! ## Quoted texts -/

/-- The characters for which an escape has a letter of its own. -/
def escapes : List (Char × Char) :=
  [('"', '"'), ('\\', '\\'), ('b', '\x08'), ('f', '\x0c'), ('n', '\n'), ('r', '\r'), ('t', '\t')]

/-- How many hexadecimal digits follow the letter of an escape by code point. -/
def escapeWidth? : Char → Option Nat
  | 'u' => some 4
  | 'U' => some 8
  | _ => none

/-- The character of an escape, given what follows the backslash, and how long the escape is. -/
def escaped? (cs : List Char) : Option (Char × Nat) := do
  let letter ← cs.head?
  match escapes.lookup letter with
  | some c => return (c, 1)
  | none =>
    let width ← escapeWidth? letter
    let digits := cs.tail.take width
    let code ← natural? 16 digits
    if digits.length = width && code.isValidChar then return (Char.ofNat code, width + 1)
    else none

/-- The first characters of a text that are no longer than `size` bytes together. -/
def fitting (size : Nat) : List Char → List Char
  | [] => []
  | c :: cs => if c.utf8Size ≤ size then c :: fitting (size - c.utf8Size) cs else []

/-- Reads a text up to its closing quote. Controls other than the tab are not allowed in it. Of the
text before the first escape only as many bytes count as it has characters. -/
def quoted? (escaped : Bool) (read : List Char) : List Char → Option (String × List Char)
  | [] => none
  | '"' :: cs => some (String.ofList read, cs)
  | '\\' :: cs => do
    let (c, width) ← escaped? cs
    let read := if escaped then read else fitting read.length read
    quoted? true (read ++ [c]) (cs.drop width)
  | c :: cs =>
    if c = '\t' || 0x20 ≤ c.toNat && c ≠ '\x7f' then quoted? escaped (read ++ [c]) cs else none
termination_by cs => cs.length
decreasing_by
  all_goals
    simp only [List.length_cons, List.length_drop]
    omega

example : quoted? false [] ['é', 'a', '\\', 'n', '"'] = some ("é\n", []) := by decide +kernel

/-! ## Values -/

/-- Stands for every number; no setting is one. -/
def number : Json := .int 0

/-- Whether a text spells an integer of 64 bits, or a decimal number with a point. -/
def isNumber (cs : List Char) : Bool :=
  (integer? 10 cs).any (fun n => -9223372036854775808 ≤ n && n ≤ 18446744073709551615) ||
    cs.contains '.' && (decimal? cs).isSome

/-- The value of a text that stands alone between marks. -/
def bareValue (cs : List Char) : Json :=
  let cs := trim cs
  if isNumber cs then number else .str (String.ofList cs)

/-- The characters that end a bare text. -/
def isMark (c : Char) : Bool := [',', '[', ']', '{', '}'].contains c

def skipBlank (cs : List Char) : List Char := cs.dropWhile isAsciiBlank

/-- The characters of keys in braces. -/
def isKeyChar (c : Char) : Bool := c.isAlphanum || c = '_' || c = '-'

/-- Reads the key of an item in braces and the sign after it. -/
def key? (cs : List Char) : Option (List Char) := do
  let rest ← match skipBlank cs with
    | '"' :: cs => (quoted? false [] cs).map (·.2)
    | cs => if (cs.takeWhile isKeyChar).isEmpty then none else some (cs.dropWhile isKeyChar)
  match skipBlank rest with
  | '=' :: rest => some rest
  | _ => none

mutual

/-- Reads a value and the blanks around it. What a list or a dictionary holds is not kept. -/
def value? : Nat → List Char → Option (Json × List Char)
  | 0, _ => none
  | fuel + 1, cs => do
    let (value, rest) ← match skipBlank cs with
      | 't' :: 'r' :: 'u' :: 'e' :: rest => some (Json.bool true, rest)
      | 'f' :: 'a' :: 'l' :: 's' :: 'e' :: rest => some (Json.bool false, rest)
      | '[' :: rest => (items? false ']' fuel rest).map (Json.arr [], ·)
      | '{' :: rest => (items? true '}' fuel rest).map (Json.obj [], ·)
      | '"' :: rest => (quoted? false [] rest).map fun (text, rest) => (Json.str text, rest)
      | '\'' :: c :: '\'' :: rest => some (Json.str (String.singleton c), rest)
      | '\'' :: _ => none
      | cs => some (bareValue (cs.takeWhile (!isMark ·)), cs.dropWhile (!isMark ·))
    return (value, skipBlank rest)

/-- Reads the items up to the closing mark; a comma may stand after the last one. -/
def items? (keyed : Bool) (close : Char) : Nat → List Char → Option (List Char)
  | 0, _ => none
  | fuel + 1, cs =>
    if cs.head? = some close then some cs.tail
    else do
      let start ← if keyed then key? cs else some cs
      let (_, rest) ← value? fuel start
      match rest with
      | ',' :: rest => items? keyed close fuel rest
      | c :: rest => if c = close then some rest else none
      | [] => none

end

/-- The value of a variable: what its whole text reads as, or else the text. -/
def variableValue (text : String) : Json :=
  let cs := text.toList
  match value? (2 * cs.length + 2) cs with
  | some (value, []) => value
  | _ => .str text

/-! ## Names -/

/-- The text before the key in the name of a variable, in lower case. -/
def variableStart : List Char := "content_acl_".toList

/-- The parts of a key that are separated by points. -/
def keyParts? (name : String) : Option (List (List Char)) :=
  let cs := (trim name.toList).map Char.toLower
  if cs.take variableStart.length = variableStart then
    some ((trim (cs.drop variableStart.length)).splitOn '.')
  else none

/-- The member that a variable gives. A key with points leads into a dictionary, and one with an
empty part does not count. -/
def variableMember? (name text : String) : Option (String × Json) := do
  match ← keyParts? name with
  | [] => none
  | key :: parts =>
    if (key :: parts).any (·.isEmpty) then none
    else
      return (String.ofList key, if parts.isEmpty then variableValue text else .obj [])

def ofEnvironment (environment : List (String × String)) : Members :=
  environment.filterMap fun v => variableMember? v.1 v.2

end RoleAccess.Settings
