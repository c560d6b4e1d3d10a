import RoleAccess.GrantTable
import RoleAccess.Model

/-!
# Questions of access

Compiled permissions answer whether an operation can succeed at all on an entity or a field, and
which predicates its rows have to satisfy. The primary key stands for the row as a whole.
-/

namespace RoleAccess

structure Permissions where
  model : Model
  grants : GrantTable
  defaultCustomPrimary : Bool

namespace EntityGrants

/-- The access to one field by a route. -/
def fieldAccess (g : EntityGrants) (action : FieldAction) (field : String) (route : Route) :
    Access :=
  .ofGrant (((g.fields.get action).get? field).bind (·.matching route))

def deleteAccess (g : EntityGrants) (route : Route) : Access := .ofGrant (g.delete.matching route)

end EntityGrants

namespace Permissions

variable (p : Permissions)

def primary? (entity : String) : Option String := p.model.primary? entity

/-- The access that the grants give to a field. -/
def fieldAccess (op : Operation) (entity field : String) (route : Route) : Access :=
  match op, p.grants.entity? entity with
  | .fields action, some g => g.fieldAccess action field route
  | _, _ => .denied

def primaryAccess (op : Operation) (entity : String) (route : Route) : Access :=
  match p.primary? entity with
  | some primary => p.fieldAccess op entity primary route
  | none => .denied

/-- Whether the operation is possible on some field, or for deletion on the entity itself. -/
def canAccessEntity (op : Operation) (entity : String) (route : Route) : Bool :=
  match op, p.grants.entity? entity with
  | _, none => false
  | .delete, some g => (g.deleteAccess route).isPossible
  | .fields action, some g =>
    (g.fields.get action).values.any fun m => (Access.ofGrant (m.matching route)).isPossible

/-- The access to rows: that of the primary key, or for deletion that of the entity. -/
def entityAccess (op : Operation) (entity : String) (route : Route) : Access :=
  match op, p.grants.entity? entity with
  | .delete, some g => g.deleteAccess route
  | .delete, none => .denied
  | .fields _, _ => p.primaryAccess op entity route

def canAccessField (op : Operation) (entity field : String) (route : Route) : Bool :=
  (p.fieldAccess op entity field route).isPossible

/-- What a field asks for beyond its row: predicates that the row satisfies anyway fall away. -/
def fieldCondition (op : Operation) (entity field : String) (route : Route) : Access :=
  match p.fieldAccess op entity field route, p.primaryAccess op entity route with
  | .conditional own, .conditional row => if occursIn own row then .allowed else .conditional own
  | own, _ => own

/-- Whether a field and its row differ in what they ask for. -/
def hasExtraCondition (op : Operation) (entity field : String) (route : Route) : Bool :=
  match p.fieldAccess op entity field route, p.primaryAccess op entity route with
  | .denied, .denied => false
  | .allowed, .allowed => false
  | .conditional own, .conditional row => !occursIn own row
  | _, _ => true

/-- Whether clients may choose the primary key of an entity that they create. -/
def allowsCustomPrimary (entity : String) : Bool :=
  (p.grants.entity? entity).any (·.customPrimary) || p.defaultCustomPrimary

end Permissions

end RoleAccess
