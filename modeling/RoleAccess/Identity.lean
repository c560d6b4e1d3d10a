import RoleAccess.Compilation

/-!
# Identities and their bindings

An identity carries values through its memberships in roles. Binding goes over the same walk as
compilation and gives every variable that has a value its value, under the prefixed name by which
compiled predicates refer to it. Where a name is bound twice the later visit counts.
-/

namespace RoleAccess

structure Membership where
  assigned : NameMap (List Scalar) := .empty
  conditions : NameMap ColumnTest := .empty
deriving DecidableEq

structure Identity where
  identityId : Option Uuid := none
  personId : Option Uuid := none
  memberships : NameMap Membership := .empty
deriving DecidableEq

namespace Identity

def membership (i : Identity) (role : String) : Membership :=
  (i.memberships.get? role).getD {}

def assign (i : Identity) (role name : String) (ids : List Scalar) : Identity :=
  let m := i.membership role
  { i with
    memberships := i.memberships.insert role { m with assigned := m.assigned.insert name ids } }

def assignCondition (i : Identity) (role name : String) (test : ColumnTest) : Identity :=
  let m := i.membership role
  { i with
    memberships := i.memberships.insert role { m with conditions := m.conditions.insert name test } }

/-- The identity's own value of the given kind. -/
def value? (i : Identity) : IdentityValue → Option Uuid
  | .identityId => i.identityId
  | .personId => i.personId

/-- The first of the roles whose membership reads a value. -/
def find? {α : Type} (i : Identity) (roles : List String) (read : Membership → Option α) :
    Option α :=
  roles.findSome? fun role => (i.memberships.get? role).bind read

end Identity

/-- The values of variables, by prefixed name. -/
abbrev Bindings := NameMap VariableValue

/-- The value of the variable `name`, looked for in the memberships of `roles` in order. -/
def VariableDefinition.value? (d : VariableDefinition) (name : String) (i : Identity)
    (roles : List String) : Option ColumnTest :=
  match d with
  | predefined kind => (i.value? kind).map fun id => .oneOf [.uuid id]
  | entity _ fallback => ((i.find? roles (·.assigned.get? name)).map .oneOf).or fallback
  | condition fallback => (i.find? roles (·.conditions.get? name)).or fallback

namespace Visit

/-- The variables of the visited role that have a value: the membership in that role is asked
first, then the one in the active role. -/
def bindings (v : Visit) (i : Identity) : List (String × VariableValue) :=
  v.role.definitions.entries.filterMap fun e =>
    (e.2.value? e.1 i [v.name, v.member]).map fun test => (prefixed v.scope e.1, .test test)

end Visit

namespace Schema

/-- The bindings of an identity for a list of active roles. -/
def bind (s : Schema) (roles : List String) (i : Identity) (scope : Option String) :
    Except Fault Bindings :=
  (s.acl.walk roles scope).foldM
    (fun b v => .ok ((v.bindings i).foldl (fun b e => b.insert e.1 e.2) b)) .empty

def bindEvents (s : Schema) (roles : List String) (scope : Option String) : List Event :=
  (s.acl.walk roles scope).events fun _ => []

end Schema

end RoleAccess
