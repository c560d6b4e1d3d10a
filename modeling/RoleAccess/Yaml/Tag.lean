import RoleAccess.Text.Number

/-!
# Tags of YAML nodes

A tag is a sequence of octets, which can be escaped by a percent sign and two hexadecimal digits.
Some tags ask for a kind of scalar. Those that begin with an exclamation mark are the application's
own.
-/

namespace RoleAccess.Yaml

abbrev Octets := List UInt8

def octets (text : String) : Octets := text.toList.flatMap String.utf8EncodeChar

inductive Tag where
  | null
  | flag
  | integer
  | decimal
  /-- An exclamation mark alone. -/
  | bare
  /-- A tag of the application's own, by what follows its exclamation mark. -/
  | own (name : String)
  | other
deriving DecidableEq

namespace Tag

/-- The tag that octets make. A tag of the application's own that is no text does not count. -/
def ofOctets? (tag : Octets) : Option Tag :=
  if tag = octets "tag:yaml.org,2002:null" then some null
  else if tag = octets "tag:yaml.org,2002:bool" then some flag
  else if tag = octets "tag:yaml.org,2002:int" then some integer
  else if tag = octets "tag:yaml.org,2002:float" then some decimal
  else if tag = octets "!" then some bare
  else if tag.take 1 = octets "!" then (String.fromUTF8? (tag.drop 1).toByteArray).map own
  else some other

end Tag

/-! ## Escapes -/

/-- How many octets of a character follow the given one, its first. -/
def following? (octet : Nat) : Option Nat :=
  if octet < 0x80 then some 0
  else if 0xC0 ≤ octet && octet < 0xE0 then some 1
  else if 0xE0 ≤ octet && octet < 0xF0 then some 2
  else if 0xF0 ≤ octet && octet < 0xF8 then some 3
  else none

/-- The octets of an ASCII text with escapes. Of the character that is being read `pending` octets
are missing, and all of a character has to be escaped. -/
def unescape? (pending : Nat) : List Char → Option Octets
  | [] => if pending = 0 then some [] else none
  | '%' :: high :: low :: cs => do
    let octet ← Text.natural? 16 [high, low]
    let pending ←
      if pending = 0 then following? octet
      else if 0x80 ≤ octet && octet < 0xC0 then some (pending - 1)
      else none
    return UInt8.ofNat octet :: (← unescape? pending cs)
  | c :: cs =>
    if pending = 0 && c ≠ '%' then (unescape? 0 cs).map (UInt8.ofNat c.toNat :: ·) else none

example : unescape? 0 "a%C3%A9".toList = some (octets "aé") := by decide +kernel

example : unescape? 0 "%C3a".toList = none ∧ unescape? 0 "%FF".toList = none := by
  decide +kernel

end RoleAccess.Yaml
