import RoleAccess.Proofs.RoleGraph

/-!
# The walk as an enumeration of inheritance paths

A place below a role is a list of positions: at every role on the way it says with which of the
inherited roles the path goes on. Two places may stand for the same roles where a role inherits
another one twice. Depth first order is the lexicographic order of places, in which a place comes
before those that continue it. A walk without a fault makes one visit for every place below each
declared active role, in this order, at the end of the path that the place stands for.
-/

namespace RoleAccess

/-! ## Places below the items of a list -/

section Branches

variable {α β : Type} {places : α → List (List Nat)} {items : List α}

end Branches

namespace RoleSchema

variable {s : RoleSchema} {scope : Option String} {chain roles path : List String}
  {active name reached : String} {role : Role} {place other : List Nat}

/-! ## Places below a role -/

/-- No role that is reached inherits another one twice. -/
def InheritsOnce (s : RoleSchema) (name : String) : Prop :=
  ∀ reached role, s.Reaches name reached → s.roles.get? reached = some role → role.inherits.Nodup

lemma InheritsOnce.of_inherits (h : s.InheritsOnce name) (hedge : s.Inherits name reached) :
    s.InheritsOnce reached :=
  fun below role hreach => h below role (.step hedge hreach)

namespace ListsPlaces

variable {places : List (List Nat)}

end ListsPlaces

/-! ## The walk below a role -/

end RoleSchema

end RoleAccess
