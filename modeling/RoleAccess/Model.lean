import RoleAccess.NameMap

/-!
# Data models

A data model names its entities. An entity has a primary key and fields, each a column or a
relation to another entity. Lookups go by the name under which an entity is filed.
-/

namespace RoleAccess

/-- The side of a relation that a field stands on. -/
inductive RelationSide where
  | owning | inverse
deriving DecidableEq

/-- An edge to the entity `target`. The counterpart is the relation that leads back from there. -/
structure Relation where
  target : String
  side : RelationSide
  counterpart : Option String := none
deriving DecidableEq

inductive Field where
  | column (type : Option String)
  | relation (relation : Relation)
deriving DecidableEq

structure Entity where
  name : String
  primary : String
  fields : NameMap Field
deriving DecidableEq

namespace Entity

/-- An entity with one column, its primary key. -/
def withPrimary (name primary : String) : Entity :=
  ⟨name, primary, NameMap.empty.insert primary (.column (some "uuid"))⟩

def new (name : String) : Entity := withPrimary name "id"

def insertField (e : Entity) (name : String) (field : Field) : Entity :=
  { e with fields := e.fields.insert name field }

def column (e : Entity) (name : String) : Entity := e.insertField name (.column none)

def owning (e : Entity) (name target : String) (counterpart : Option String) : Entity :=
  e.insertField name (.relation ⟨target, .owning, counterpart⟩)

def inverse (e : Entity) (name target counterpart : String) : Entity :=
  e.insertField name (.relation ⟨target, .inverse, some counterpart⟩)

def hasField (e : Entity) (name : String) : Bool := e.fields.contains name

end Entity

structure Model where
  entities : NameMap Entity := .empty
deriving DecidableEq, Inhabited

/-- The way from an entity along one of its relations, with the relation that leads back. -/
structure Traversal where
  entity : String
  relation : String
  back : Option String
deriving DecidableEq

namespace Model

/-- Files an entity under its own name. -/
def insert (m : Model) (e : Entity) : Model := ⟨m.entities.insert e.name e⟩

def entity? (m : Model) (name : String) : Option Entity := m.entities.get? name

def primary? (m : Model) (entity : String) : Option String := (m.entity? entity).map (·.primary)

def field? (m : Model) (entity field : String) : Option Field := do
  (← m.entity? entity).fields.get? field

def relation? (m : Model) (entity field : String) : Option Relation :=
  match m.field? entity field with
  | some (.relation r) => some r
  | _ => none

def isRelation (m : Model) (entity field : String) : Bool := (m.relation? entity field).isSome

def traversal? (m : Model) (entity relation : String) : Option Traversal := do
  return ⟨entity, relation, (← m.relation? entity relation).counterpart⟩

end Model

end RoleAccess
