import RoleAccess.Text.Unprintable

/-!
# Quoted texts

A text is shown between double quotes. Quotes and backslashes get a backslash, the common controls
have a letter of their own, and every other character without a glyph is written as its code point
in hexadecimal.
-/

namespace RoleAccess.Text

/-- A code point in lower-case hexadecimal without leading zeros, in braces. -/
def codePoint (c : Char) : List Char := ['\\', 'u', '{'] ++ Nat.toDigits 16 c.toNat ++ ['}']

def escape (c : Char) : List Char :=
  match c with
  | '\t' => ['\\', 't']
  | '\n' => ['\\', 'n']
  | '\r' => ['\\', 'r']
  | '\x00' => ['\\', '0']
  | '"' => ['\\', '"']
  | '\\' => ['\\', '\\']
  | c => if isUnprintable c then codePoint c else [c]

def quote (s : String) : String :=
  String.ofList (['"'] ++ s.toList.flatMap escape ++ ['"'])

example : escape '\n' = ['\\', 'n'] ∧ escape '\'' = ['\''] ∧ escape 'é' = ['é'] := by decide

example : escape '\u00ad' = ['\\', 'u', '{', 'a', 'd', '}'] := by decide +kernel

end RoleAccess.Text
