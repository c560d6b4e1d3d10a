import RoleAccess.Fault
import RoleAccess.Json
import RoleAccess.Operation

/-!
# Events

What the library reports while it works, in order. Events change no result.
-/

namespace RoleAccess

inductive Event where
  | resolverReady (roles entities : Nat) (cacheRoleSets : Bool)
  | servedFromCache
  | compilationFailed (fault : Fault)
  | undeclaredRole (role : String)
  | unknownField (role entity field : String) (action : FieldAction)
  | unboundVariable (name : String)
  | conditionOnColumn (name : String)
  | unknownTarget (name : String)

/-- How much an event matters. -/
inductive Level where
  | debug | info | warn

namespace Event

def level : Event → Level
  | resolverReady .. => .info
  | servedFromCache => .debug
  | compilationFailed _ => .warn
  | undeclaredRole _ => .debug
  | unknownField .. => .warn
  | unboundVariable _ => .debug
  | conditionOnColumn _ => .warn
  | unknownTarget _ => .warn

def message : Event → String
  | resolverReady .. => "Content ACL resolver initialized"
  | servedFromCache => "Serving permissions from role set cache"
  | compilationFailed _ => "Failed to compile permissions"
  | undeclaredRole _ => "Active role is not declared, it grants nothing"
  | unknownField .. => "Permission declared for a field unknown to the model"
  | unboundVariable _ => "Unbound variable, substituting never"
  | conditionOnColumn _ => "Relation variable used on a column, substituting never"
  | unknownTarget _ => "Relation target is unknown, substituting never"

/-- The details of an event by name. -/
def details : Event → Members
  | resolverReady roles entities cacheRoleSets =>
    [("roles", .int roles), ("entities", .int entities), ("cache_role_sets", .bool cacheRoleSets)]
  | servedFromCache => []
  | compilationFailed fault => [("error", .str fault.message)]
  | undeclaredRole role => [("role", .str role)]
  | unknownField role entity field action =>
    [("role", .str role), ("entity", .str entity), ("field", .str field),
      ("operation", .str action.name)]
  | unboundVariable name => [("variable", .str name)]
  | conditionOnColumn name => [("variable", .str name)]
  | unknownTarget name => [("variable", .str name)]

end Event

/-- The items up to and including the first that stops the work. -/
def upToFirst {α : Type} (stops : α → Bool) : List α → List α
  | [] => []
  | a :: items => if stops a then [a] else a :: upToFirst stops items

end RoleAccess
