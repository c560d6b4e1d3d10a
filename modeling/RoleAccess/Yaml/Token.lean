import RoleAccess.Yaml.ScalarText
import RoleAccess.Yaml.Tag

/-!
# Tokens of a YAML text

A token is a mark, a scalar, a name or a directive. The structure that a text has by its indentation
is made explicit: block collections have tokens for their start and end, and a key of a mapping has
one before it. That a scalar or collection is a key shows only at the colon after it, so the place
of the last one that may be a key is kept, and the tokens of the key are put there later.
-/

namespace RoleAccess.Yaml

open Chars

/-- A flow collection is written in brackets or braces, with a separator between its items. -/
inductive Token where
  | version (major minor : Nat)
  | tagHandle (handle : String) (uri : Octets)
  | documentStart
  | documentEnd
  | blockSequence
  | blockMapping
  | blockEnd
  | flowSequence
  | flowSequenceEnd
  | flowMapping
  | flowMappingEnd
  | entry
  | separator
  | key
  | value
  | alias (name : String)
  | anchor (name : String)
  | tag (handle : String) (suffix : Octets)
  | scalar (plain : Bool) (text : String)
deriving DecidableEq

/-! ## Names and directives -/

/-- A name and the rest. -/
def name? (cs : Chars) : Option (String × Chars) :=
  let (name, rest) := spanText cs isNameChar
  if name.isEmpty then none else some (String.ofList name, rest)

/-- The marks that may follow the name of an anchor. -/
def anchorEnds : List Char := ['?', ':', ',', ']', '}', '%', '@', '\x60']

def anchorName? (cs : Chars) : Option (String × Chars) := do
  let (name, rest) ← name? cs
  if endsWord (charAt rest 0) || anchorEnds.contains (charAt rest 0) then return (name, rest)
  else none

def isUriChar (c : Char) : Bool :=
  isNameChar c || [';', '/', '?', ':', '@', '&', '=', '+', '$', '.', '!', '~', '*', '\'', '(',
    ')', '%'].contains c

/-- In a verbatim tag and in a directive these stand for themselves too. -/
def isVerbatimChar (c : Char) : Bool := isUriChar c || c = ',' || c = '[' || c = ']'

/-- A URI of the given characters and the rest. What follows a zero octet does not count. -/
def uri? (isPart : Char → Bool) (cs : Chars) : Option (Octets × Chars) := do
  let (text, rest) := spanText cs isPart
  if text.isEmpty then none else return ((← unescape? 0 text).takeWhile (· ≠ 0), rest)

/-- A tag after its exclamation mark: verbatim in angle brackets, or after a handle. -/
def tag? (flow : Bool) (cs : Chars) : Option (Token × Chars) := do
  let (token, rest) ←
    if charAt cs 0 = '<' then do
      let (uri, rest) ← uri? isVerbatimChar (cs.drop 1)
      if charAt rest 0 ≠ '>' then none else some (Token.tag "" uri, rest.drop 1)
    else do
      let (name, rest) := spanText cs isNameChar
      if charAt rest 0 = '!' then do
        let (suffix, rest) ← uri? isUriChar (rest.drop 1)
        some (Token.tag (String.ofList (['!'] ++ name ++ ['!'])) suffix, rest)
      else do
        let (suffix, rest) ← if isUriChar (charAt cs 0) then uri? isUriChar cs else some ([], cs)
        some (if suffix.isEmpty then .tag "" (octets "!") else .tag "!" suffix, rest)
  if endsWord (charAt rest 0) || flow && charAt rest 0 = ',' then return (token, rest) else none

/-- A part of a version number. -/
def versionPart? (cs : Chars) : Option (Nat × Chars) := do
  let (digits, rest) := spanText cs Char.isDigit
  if digits.length ≤ 9 then return (← Text.natural? 10 digits, rest) else none

/-- A directive after its percent sign. -/
def directive? (cs : Chars) : Option (Token × Chars) := do
  let (name, after) ← name? cs
  let rest := skip after isSpace
  if !endsWord (charAt after 0) then none
  else if name = "YAML" then
    let (major, rest) ← versionPart? rest
    if charAt rest 0 ≠ '.' then none
    else
      let (minor, rest) ← versionPart? (rest.drop 1)
      return (.version major minor, ← lineEnd? rest)
  else if name = "TAG" then
    let (handle, after) := spanText (rest.drop 1) isNameChar
    let closed := charAt after 0 = '!'
    if charAt rest 0 ≠ '!' || !closed && !handle.isEmpty then none
    else
      let rest := if closed then after.drop 1 else after
      let (uri, after) ← uri? isVerbatimChar (skip rest isSpace)
      if !isSpace (charAt rest 0) || !endsWord (charAt after 0) then none
      else
        let close := if closed then ['!'] else []
        return (.tagHandle (String.ofList (['!'] ++ handle ++ close)) uri, ← lineEnd? after)
  else none

/-! ## Reading tokens -/

/-- The place of a scalar or collection that may turn out to be a key. -/
structure Candidate where
  /-- Whether nothing but a key can stand there. -/
  required : Bool
  /-- How many tokens are before it. -/
  before : Nat
  start : Placed

/-- What has been read of a text. -/
structure Reading where
  /-- The tokens, the latest first. -/
  tokens : List Token := []
  /-- The columns of the open block collections, the innermost first. -/
  indents : List Nat := []
  /-- Whether a key may come next. -/
  keyAllowed : Bool := true
  candidate : Option Candidate := none
  /-- The candidates around the open brackets and braces, the innermost first. -/
  outer : List (Option Candidate) := []

namespace Reading

def inFlow (r : Reading) : Bool := !r.outer.isEmpty

def emit (r : Reading) (token : Token) : Reading := { r with tokens := token :: r.tokens }

/-- Opens a block collection at a column that is deeper than the open ones. `starts` are its first
tokens, the latest first, put after `before` tokens. -/
def openBlock (r : Reading) (before column : Nat) (start : Token) : Reading :=
  if r.inFlow || r.indents.head?.any (column ≤ ·) then r
  else
    let later := r.tokens.length - before
    { r with
      tokens := r.tokens.take later ++ [start] ++ r.tokens.drop later
      indents := column :: r.indents }

/-- Closes the block collections for which `closes` holds of their column. -/
def closeBlocks (r : Reading) (closes : Nat → Bool) : Reading :=
  if r.inFlow then r
  else
    let closed := r.indents.takeWhile closes
    { r with
      tokens := closed.map (fun _ => .blockEnd) ++ r.tokens
      indents := r.indents.dropWhile closes }

/-- Gives up the candidate, which is a fault if it had to be a key. -/
def dropCandidate (r : Reading) : Option Reading :=
  if r.candidate.any (·.required) then none else some { r with candidate := none }

/-- Takes note that what begins at `start` may be a key. -/
def noteCandidate (r : Reading) (start : Placed) : Option Reading :=
  if r.keyAllowed then do
    let required := !r.inFlow && r.indents.head?.any (· = start.column)
    return { ← r.dropCandidate with candidate := some ⟨required, r.tokens.length, start⟩ }
  else some r

/-- A key is on one line and not longer than 1024 bytes. -/
def isPast (here : Placed) (c : Candidate) : Bool :=
  c.start.line < here.line || c.start.index + 1024 < here.index

/-- Gives up the candidates that are too far back to be keys. -/
def dropPast (r : Reading) (here : Placed) : Option Reading :=
  let past := (r.candidate :: r.outer).filterMap (·.filter (isPast here))
  if past.any (·.required) then none
  else
    let keep := fun (c : Option Candidate) => c.filter (!isPast here ·)
    some { r with candidate := keep r.candidate, outer := r.outer.map keep }

/-- Reads over spaces, comments and line ends. In block collections a key may come on a new line. -/
def skipGap (r : Reading) (comment : Bool) : Chars → Reading × Chars
  | [] => (r, [])
  | c :: cs =>
    if isBreak c.char then skipGap { r with keyAllowed := r.keyAllowed || !r.inFlow } false cs
    else if comment && !isEnd c.char then skipGap r true cs
    else if c.char = '#' then skipGap r true cs
    else if c.char = ' ' || c.char = '\t' && (r.inFlow || !r.keyAllowed) ||
        c.char = '\ufeff' && c.column = 0 then
      skipGap r false cs
    else (r, c :: cs)

/-- A mark that stands outside of all block collections. -/
def topLevel (r : Reading) : Option Reading := do
  return { ← (r.closeBlocks fun _ => true).dropCandidate with keyAllowed := false }

/-- A scalar, alias, anchor or tag, which begins at `start`. -/
def addNode (r : Reading) (start : Placed) (token : Token) : Option Reading := do
  return { ← r.noteCandidate start with keyAllowed := false }.emit token

def openFlow (r : Reading) (start : Placed) (token : Token) : Option Reading := do
  let r ← r.noteCandidate start
  return { r with outer := r.candidate :: r.outer, candidate := none, keyAllowed := true }.emit token

def closeFlow (r : Reading) (token : Token) : Option Reading := do
  let r ← r.dropCandidate
  let r := match r.outer with
    | candidate :: outer => { r with candidate, outer }
    | [] => r
  return { r with keyAllowed := false }.emit token

def addSeparator (r : Reading) : Option Reading := do
  return { ← r.dropCandidate with keyAllowed := true }.emit .separator

/-- The hyphen of an entry of a block sequence. -/
def addEntry (r : Reading) (start : Placed) : Option Reading := do
  if !r.inFlow && !r.keyAllowed then none
  else
    let r := r.openBlock r.tokens.length start.column .blockSequence
    return { ← r.dropCandidate with keyAllowed := true }.emit .entry

/-- The question mark before a key. -/
def addKey (r : Reading) (start : Placed) : Option Reading := do
  if !r.inFlow && !r.keyAllowed then none
  else
    let r := r.openBlock r.tokens.length start.column .blockMapping
    return { ← r.dropCandidate with keyAllowed := !r.inFlow }.emit .key

/-- The colon before a value. It makes the candidate a key; without one the key is empty. -/
def addValue (r : Reading) (start : Placed) : Option Reading :=
  match r.candidate with
  | some c =>
    let later := r.tokens.length - c.before
    let keyed := { r with
      tokens := r.tokens.take later ++ [Token.key] ++ r.tokens.drop later
      candidate := none
      keyAllowed := false }
    some ((keyed.openBlock c.before c.start.column .blockMapping).emit .value)
  | none =>
    if !r.inFlow && !r.keyAllowed then none
    else
      let r := r.openBlock r.tokens.length start.column .blockMapping
      some ({ r with keyAllowed := !r.inFlow }.emit .value)

/-- The characters that mean something at the beginning of a scalar. -/
def indicators : List Char :=
  ['-', '?', ':', ',', '[', ']', '{', '}', '#', '&', '*', '!', '|', '>', '\'', '"', '%', '@', '\x60']

/-- Whether a plain scalar can begin with a character that `next` follows. -/
def beginsPlain (r : Reading) (first next : Char) : Bool :=
  !isSpace first && (!indicators.contains first || first = '-' && !isSpace next ||
    !r.inFlow && (first = '?' || first = ':') && !endsWord next)

/-- Reads one token, which begins with the character `c`. -/
def next? (r : Reading) (c : Placed) (cs : Chars) : Option (Reading × Chars) := do
  let next := charAt cs 0
  let opensIndicator := r.inFlow || endsWord next
  let text := fun (plain : Bool) (chars : List Char) => Token.scalar plain (String.ofList chars)
  if c.column = 0 && c.char = '%' then
    let r ← r.topLevel
    let (token, rest) ← directive? cs
    return (r.emit token, rest)
  else if isAtMark (c :: cs) '-' then return ((← r.topLevel).emit .documentStart, cs.drop 2)
  else if isAtMark (c :: cs) '.' then return ((← r.topLevel).emit .documentEnd, cs.drop 2)
  else if c.char = '[' then return (← r.openFlow c .flowSequence, cs)
  else if c.char = '{' then return (← r.openFlow c .flowMapping, cs)
  else if c.char = ']' then return (← r.closeFlow .flowSequenceEnd, cs)
  else if c.char = '}' then return (← r.closeFlow .flowMappingEnd, cs)
  else if c.char = ',' then return (← r.addSeparator, cs)
  else if c.char = '-' && endsWord next then return (← r.addEntry c, cs)
  else if c.char = '?' && opensIndicator then return (← r.addKey c, cs)
  else if c.char = ':' && opensIndicator then return (← r.addValue c, cs)
  else if c.char = '*' then
    let (name, rest) ← anchorName? cs
    return (← r.addNode c (.alias name), rest)
  else if c.char = '&' then
    let (name, rest) ← anchorName? cs
    return (← r.addNode c (.anchor name), rest)
  else if c.char = '!' then
    let (token, rest) ← tag? r.inFlow cs
    return (← r.addNode c token, rest)
  else if (c.char = '|' || c.char = '>') && !r.inFlow then
    let r ← r.dropCandidate
    let (chars, rest) ← block? (c.char = '|') r.indents.head? cs
    return ({ r with keyAllowed := true }.emit (text false chars), rest)
  else if c.char = '\'' || c.char = '"' then
    let (chars, rest) ← quoted? c.char [] cs
    return (← r.addNode c (text false chars), rest)
  else if r.beginsPlain c.char next then
    let indent := match r.indents.head? with
      | some column => column + 1
      | none => 0
    let plain ← plain? r.inFlow indent (cs.length + 2) [] [] (c :: cs)
    let r ← r.addNode c (text true plain.text)
    return ({ r with keyAllowed := plain.endsLine }, plain.rest)
  else none

/-- Reads all tokens. Every token takes a character at least, so that their number bounds the
recursion. -/
def readAll? : Nat → Reading → Chars → Option Reading
  | 0, _, _ => none
  | fuel + 1, r, cs =>
    match skipGap r false cs with
    | (_, []) => none
    | (r, c :: cs) => do
      let r ← r.dropPast c
      if isEnd c.char then r.topLevel
      else
        let (r, rest) ← (r.closeBlocks (c.column < ·)).next? c cs
        readAll? fuel r rest

end Reading

/-- The tokens of a text. -/
def Token.ofText? (text : String) : Option (List Token) := do
  let cs ← Chars.ofText? text
  return (← Reading.readAll? cs.length {} cs).tokens.reverse

example : Token.ofText? "a: 'b'" =
    some [.blockMapping, .key, .scalar true "a", .value, .scalar false "b", .blockEnd] := by
  decide +kernel

example : Token.ofText? "a: b: c" = none := by decide +kernel

end RoleAccess.Yaml
