import RoleAccess.Condition
import RoleAccess.Model
import RoleAccess.Rule

/-!
# Roles and schemas

A role inherits other roles, declares variables for its predicates, and declares rules for
entities. A schema is a data model with its roles.
-/

namespace RoleAccess

/-- A value that every identity may bring along. -/
inductive IdentityValue where
  | identityId | personId
deriving DecidableEq

/-- Where the value of a variable comes from: the identity itself, the rows assigned to it in a
membership, or a condition assigned to it there. -/
inductive VariableDefinition where
  | predefined (value : IdentityValue)
  | entity (entityName : String) (fallback : Option ColumnTest)
  | condition (fallback : Option ColumnTest)
deriving DecidableEq

/-- The test for identities that bring no value along. -/
def VariableDefinition.fallback? : VariableDefinition → Option ColumnTest
  | predefined _ => none
  | entity _ fallback => fallback
  | condition fallback => fallback

structure Role where
  inherits : List String := []
  variablePrefix : Option String := none
  definitions : NameMap VariableDefinition := .empty
  entities : NameMap EntityRules := .empty
deriving DecidableEq

namespace Role

def inherit (r : Role) (roles : List String) : Role := { r with inherits := r.inherits ++ roles }

def setVariablePrefix (r : Role) (scope : String) : Role := { r with variablePrefix := some scope }

def declareVariable (r : Role) (name : String) (definition : VariableDefinition) : Role :=
  { r with definitions := r.definitions.insert name definition }

def declareEntity (r : Role) (name : String) (rules : EntityRules) : Role :=
  { r with entities := r.entities.insert name rules }

/-- The variable prefix of the role `name`: its own, or else its name. -/
def scope (r : Role) (name : String) : String := r.variablePrefix.getD name

end Role

/-- All declared roles, with the default for letting clients choose primary keys. -/
structure RoleSchema where
  roles : NameMap Role := .empty
  customPrimary : Option Bool := none
deriving DecidableEq

def RoleSchema.declare (s : RoleSchema) (name : String) (role : Role) : RoleSchema :=
  { s with roles := s.roles.insert name role }

structure Schema where
  model : Model
  acl : RoleSchema := {}
deriving DecidableEq

/-- The value of a variable: a test for a column leaf, or a condition for a relation leaf. -/
inductive VariableValue where
  | test (test : ColumnTest)
  | condition (condition : Condition)
deriving DecidableEq

end RoleAccess
