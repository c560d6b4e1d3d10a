import RoleAccess.Role

/-!
# Reachability of roles

A role is reached from another along `inherits`. What an active role list can have an effect on is
told by the roles that are reached from its declared members.
-/

namespace RoleAccess.RoleSchema

variable (s : RoleSchema)

def Declared (name : String) : Prop := ∃ role, s.roles.get? name = some role

/-- The role `name` is declared and inherits `inherited`. -/
def Inherits (name inherited : String) : Prop :=
  ∃ role, s.roles.get? name = some role ∧ inherited ∈ role.inherits

/-- The second role is reached from the first, in any number of steps. -/
inductive Reaches : String → String → Prop
  | refl (name : String) : Reaches name name
  | step {name inherited reached : String} :
    s.Inherits name inherited → Reaches inherited reached → Reaches name reached

/-- The role is reached from a declared member of the list. -/
def Reachable (roles : List String) (name : String) : Prop :=
  ∃ active ∈ roles, s.Declared active ∧ s.Reaches active name

/-- The role inherits itself, directly or through others. -/
def Cyclic (name : String) : Prop :=
  ∃ inherited, s.Inherits name inherited ∧ s.Reaches inherited name

theorem Reaches.trans {s : RoleSchema} {a b c : String} (hab : s.Reaches a b)
    (hbc : s.Reaches b c) : s.Reaches a c := by
  induction hab with
  | refl _ => exact hbc
  | step edge _ ih => exact .step edge (ih hbc)

theorem Reaches.of_inherits {s : RoleSchema} {a b : String} (h : s.Inherits a b) :
    s.Reaches a b :=
  .step h (.refl b)

end RoleAccess.RoleSchema
