import RoleAccess.GrantMap
import RoleAccess.Operation

/-!
# Grants by entity

An entity has a grant map for every field of every field action and one for deletion. Tables of
entities are merged name by name; what only one side has is kept as it is.
-/

namespace RoleAccess

abbrev FieldGrants := NameMap GrantMap

structure EntityGrants where
  fields : PerAction FieldGrants := ⟨.empty, .empty, .empty⟩
  delete : GrantMap := .empty
  customPrimary : Bool := false
deriving DecidableEq

def EntityGrants.merge (l r : EntityGrants) : EntityGrants where
  fields := l.fields.zipWith (NameMap.mergeWith GrantMap.merge) r.fields
  delete := l.delete.merge r.delete
  customPrimary := l.customPrimary || r.customPrimary

structure GrantTable where
  entities : NameMap EntityGrants := .empty
deriving DecidableEq

namespace GrantTable

def empty : GrantTable := {}

instance : EmptyCollection GrantTable := ⟨empty⟩
instance : Inhabited GrantTable := ⟨empty⟩

def entity? (t : GrantTable) (name : String) : Option EntityGrants := t.entities.get? name

def isEmpty (t : GrantTable) : Bool := t.entities.isEmpty

def merge (l r : GrantTable) : GrantTable := ⟨l.entities.mergeWith EntityGrants.merge r.entities⟩

end GrantTable

end RoleAccess
