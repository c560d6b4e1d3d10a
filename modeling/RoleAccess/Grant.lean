import RoleAccess.Predicate

/-!
# Grants

A grant opens rows without a condition, or opens the rows that satisfy every predicate of a list.
Joining two grants is lenient: an unconditional one wins, and lists are strung together without
repeating a predicate. An absent grant is neutral.
-/

namespace RoleAccess

inductive Grant where
  | allow
  | rows (predicates : List Predicate)
deriving DecidableEq

/-- `l` with those predicates of `r` appended in order that are not there yet. -/
def appendMissing (l r : List Predicate) : List Predicate :=
  r.foldl (fun acc p => if p ∈ acc then acc else acc ++ [p]) l

/-- Whether every predicate of `l` occurs in `r`. -/
def occursIn (l r : List Predicate) : Bool := l.all (· ∈ r)

namespace Grant

/-- The list of a conditional grant; an unconditional one asks for nothing. -/
def predicates : Grant → List Predicate
  | allow => []
  | rows ps => ps

def join : Grant → Grant → Grant
  | rows l, rows r => rows (appendMissing l r)
  | _, _ => allow

/-- Joins two grants of which either may be absent. -/
def combine : Option Grant → Option Grant → Option Grant := Option.merge join

@[simp]
theorem combine_none_left (g : Option Grant) : combine none g = g := by cases g <;> rfl

@[simp]
theorem combine_none_right (g : Option Grant) : combine g none = g := by cases g <;> rfl

@[simp]
theorem combine_some (g h : Grant) : combine (some g) (some h) = some (g.join h) := rfl

end Grant

/-- The answer to a question of access. -/
inductive Access where
  | denied
  | allowed
  | conditional (predicates : List Predicate)
deriving DecidableEq

namespace Access

/-- A grant read as an answer. An absent grant and one with an empty list give nothing. -/
def ofGrant : Option Grant → Access
  | none => denied
  | some .allow => allowed
  | some (.rows []) => denied
  | some (.rows ps) => conditional ps

def isPossible (a : Access) : Bool := a ≠ denied

def isAllowed (a : Access) : Bool := a = allowed

def predicates? : Access → Option (List Predicate)
  | conditional ps => some ps
  | _ => none

end Access

end RoleAccess
