/-!
# UUIDs

A UUID is a word of 32 hexadecimal digits. It is written in lower case with hyphens after the 8th,
12th, 16th and 20th digit, and read in any case from the plain digits, from the hyphenated form,
and from that form in braces or after `urn:uuid:`.
-/

namespace RoleAccess

structure Uuid where
  digits : List (Fin 16)
  length_digits : digits.length = 32
deriving DecidableEq

namespace Uuid

def hexChar (d : Fin 16) : Char :=
  if d.val < 10 then Char.ofNat (48 + d.val) else Char.ofNat (87 + d.val)

def hexDigit? (c : Char) : Option (Fin 16) :=
  let c := c.toLower
  if h : 48 ≤ c.toNat ∧ c.toNat < 58 then some ⟨c.toNat - 48, by omega⟩
  else if h : 97 ≤ c.toNat ∧ c.toNat < 103 then some ⟨c.toNat - 87, by omega⟩
  else none

theorem hexDigit?_hexChar (d : Fin 16) : hexDigit? (hexChar d) = some d := by
  revert d
  decide

/-- The digits in groups of 8, 4, 4, 4 and 12 with a hyphen between two groups. -/
def hyphenate (cs : List Char) : List Char :=
  cs.take 8 ++ ['-'] ++ (cs.drop 8).take 4 ++ ['-'] ++ (cs.drop 12).take 4 ++ ['-'] ++
    (cs.drop 16).take 4 ++ ['-'] ++ cs.drop 20

def ofDigits? (cs : List Char) : Option Uuid := do
  let digits ← cs.mapM hexDigit?
  if h : digits.length = 32 then some ⟨digits, h⟩ else none

/-- Reads the hyphenated form: the text is the hyphenation of what is left without the hyphens. -/
def ofHyphenated? (cs : List Char) : Option Uuid :=
  let bare := cs.filter (· ≠ '-')
  if hyphenate bare = cs then ofDigits? bare else none

/-- The text before a hyphenated UUID in its URN. -/
def urn : List Char := ['u', 'r', 'n', ':', 'u', 'u', 'i', 'd', ':']

def ofChars? (cs : List Char) : Option Uuid :=
  match cs with
  | '{' :: rest => if rest.getLast? = some '}' then ofHyphenated? rest.dropLast else none
  | cs =>
    if (cs.take urn.length).map Char.toLower = urn then ofHyphenated? (cs.drop urn.length)
    else (ofDigits? cs).or (ofHyphenated? cs)

def ofText? (s : String) : Option Uuid := ofChars? s.toList

def toText (u : Uuid) : String := String.ofList (hyphenate (u.digits.map hexChar))

end Uuid

end RoleAccess
