import RoleAccess.RowFilter
import RoleAccess.Settings

/-!
# Resolvers

A resolver hands out permissions and bindings for role lists under one schema and its settings. It
may keep compiled permissions by role list, in the order of the names; what it answers is the same
either way. Role lists that fail to compile are not kept.
-/

namespace RoleAccess

structure Resolver where
  schema : Schema
  settings : Settings
  cache : List (List String × Permissions) := []

namespace Resolver

def new (schema : Schema) (settings : Settings) : Resolver := { schema, settings }

/-- The setting, or else the default of the schema, or else no. -/
def defaultCustomPrimary (r : Resolver) : Bool :=
  (r.settings.defaultCustomPrimary.or r.schema.acl.customPrimary).getD false

/-- Permissions compiled afresh. -/
def compile (r : Resolver) (roles : List String) : Except Fault Permissions := do
  let grants ← r.schema.compile roles r.settings.variablePrefix
  return ⟨r.schema.model, grants, r.defaultCustomPrimary⟩

/-- The permissions that are kept for a role list. -/
def cached? (r : Resolver) (roles : List String) : Option Permissions :=
  if r.settings.cacheRoleSets then r.cache.lookup roles else none

/-- Keeps permissions for a role list, if permissions are kept at all. -/
def keep (r : Resolver) (roles : List String) (p : Permissions) : Resolver :=
  if r.settings.cacheRoleSets then { r with cache := (roles, p) :: r.cache } else r

/-- The permissions of a role list, and the resolver afterwards. -/
def permissions (r : Resolver) (roles : List String) : Except Fault Permissions × Resolver :=
  match r.cached? roles with
  | some p => (.ok p, r)
  | none =>
    match r.compile roles with
    | .ok p => (.ok p, r.keep roles p)
    | .error fault => (.error fault, r)

/-- The bindings of an identity for a role list. -/
def bindings (r : Resolver) (roles : List String) (i : Identity) : Except Fault Bindings :=
  r.schema.bind roles i r.settings.variablePrefix

/-- The injector of bindings over the model of the resolver. -/
def injector (r : Resolver) (b : Bindings) : Injector := ⟨r.schema.model, b⟩

def cachedRoleSets (r : Resolver) : Nat := r.cache.length

def clear (r : Resolver) : Resolver := { r with cache := [] }

/-! ## Events -/

def readyEvent (r : Resolver) : Event :=
  .resolverReady r.schema.acl.roles.size r.schema.model.entities.size r.settings.cacheRoleSets

def permissionsEvents (r : Resolver) (roles : List String) : List Event :=
  match r.cached? roles with
  | some _ => [.servedFromCache]
  | none =>
    r.schema.compileEvents roles r.settings.variablePrefix ++
      ((faultOf (r.compile roles)).map .compilationFailed).toList

def bindingsEvents (r : Resolver) (roles : List String) : List Event :=
  r.schema.bindEvents roles r.settings.variablePrefix

end Resolver

end RoleAccess
