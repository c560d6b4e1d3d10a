import RoleAccess.Json
import RoleAccess.Uuid
import RoleAccess.Text.Quoted

/-!
# Operands of column tests

A scalar is a flag, a 64-bit integer, a UUID or a text. A JSON string that spells a UUID is read as
that UUID and every other string as a text, so a text that spells a UUID can be built but not read.
-/

namespace RoleAccess

inductive Scalar where
  | bool (value : Bool)
  | int (value : Int64)
  | uuid (value : Uuid)
  | text (value : String)
deriving DecidableEq

namespace Scalar

/-- The word of an integer that fits in 64 bits. -/
def word? (n : Int) : Option Int64 :=
  if Int64.minValue.toInt ≤ n ∧ n ≤ Int64.maxValue.toInt then some (Int64.ofInt n) else none

def ofText (s : String) : Scalar :=
  match Uuid.ofText? s with
  | some u => uuid u
  | none => text s

def ofJson? : Json → Option Scalar
  | .bool b => some (bool b)
  | .int n => (word? n).map int
  | .str s => some (ofText s)
  | _ => none

def toJson : Scalar → Json
  | bool b => .bool b
  | int n => .int n.toInt
  | uuid u => .str u.toText
  | text s => .str s

/-- The text shown for a scalar. A text is quoted, all else is plain. -/
def display : Scalar → String
  | bool b => if b then "true" else "false"
  | int n => toString n.toInt
  | uuid u => u.toText
  | text s => Text.quote s

end Scalar

end RoleAccess
