/-!
# Numbers in texts

Which texts spell an integer or a decimal number, and whether a decimal number has a nearest double
precision number or is beyond all of them.
-/

namespace RoleAccess.Text

def digit? (base : Nat) (c : Char) : Option Nat :=
  let n := c.toLower.toNat
  let value := if 48 ≤ n ∧ n < 58 then n - 48 else if 97 ≤ n ∧ n < 123 then n - 87 else base
  if value < base then some value else none

/-- The number that a text of one or more digits spells in the given base. -/
def natural? (base : Nat) (cs : List Char) : Option Nat :=
  if cs.isEmpty then none
  else do return (← cs.mapM (digit? base)).foldl (fun n d => n * base + d) 0

/-- The integer that a text spells, digits in the given base after an optional sign. -/
def integer? (base : Nat) : List Char → Option Int
  | '-' :: cs => (natural? base cs).map fun n => -(n : Int)
  | '+' :: cs => (natural? base cs).map Int.ofNat
  | cs => (natural? base cs).map Int.ofNat

/-- A decimal number without its sign: `digits` shifted by a power of ten. -/
structure Decimal where
  digits : Nat
  exponent : Int

/-- The decimal number spelled by digits with an optional point and an optional exponent. -/
def magnitude? (cs : List Char) : Option Decimal := do
  let whole := cs.takeWhile Char.isDigit
  let afterWhole := cs.dropWhile Char.isDigit
  let (fraction, rest) := match afterWhole with
    | '.' :: rest => (rest.takeWhile Char.isDigit, rest.dropWhile Char.isDigit)
    | rest => ([], rest)
  let digits ← natural? 10 (whole ++ fraction)
  match rest with
  | [] => return ⟨digits, -fraction.length⟩
  | c :: exponent =>
    if c.toLower = 'e' then return ⟨digits, (← integer? 10 exponent) - fraction.length⟩ else none

/-- A decimal number after an optional sign. -/
def decimal? : List Char → Option Decimal
  | '-' :: cs => magnitude? cs
  | '+' :: cs => magnitude? cs
  | cs => magnitude? cs

/-- Half a unit in the last place beyond the largest double: what reaches it rounds to infinity. -/
def doubleLimit : Nat := Nat.pow 2 1024 - Nat.pow 2 970

/-- Whether the number rounds to a finite double. -/
def Decimal.isFinite (d : Decimal) : Bool :=
  let magnitude : Int := (Nat.toDigits 10 d.digits).length + d.exponent
  if d.digits = 0 then true
  else if magnitude < 309 then true
  else if 309 < magnitude then false
  else if d.exponent < 0 then d.digits < doubleLimit * Nat.pow 10 d.exponent.natAbs
  else d.digits * Nat.pow 10 d.exponent.natAbs < doubleLimit

example : (Decimal.mk 1 308).isFinite = true ∧ (Decimal.mk 1 309).isFinite = false := by
  decide +kernel

end RoleAccess.Text
