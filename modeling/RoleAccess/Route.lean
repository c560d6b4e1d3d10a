/-!
# Routes

A route says how a query comes to an entity: as its root, through a relation, through some relation
that is not told apart, or in a way that is not tracked at all.
-/

namespace RoleAccess

inductive Route where
  | root
  | anyRelation
  | unknown
  | relation (name : String)
deriving DecidableEq

namespace Route

def display : Route → String
  | root => "<root>"
  | anyRelation => "<any relation>"
  | unknown => "<unknown>"
  | relation name => name

/-- The order root, any relation, unknown, and then the relations by name. -/
def le : Route → Route → Bool
  | root, _ => true
  | anyRelation, root => false
  | anyRelation, _ => true
  | unknown, root => false
  | unknown, anyRelation => false
  | unknown, _ => true
  | relation m, relation n => m ≤ n
  | relation _, _ => false

def sort (routes : List Route) : List Route := routes.mergeSort le

/-- How many different routes a list holds. -/
def countDistinct (routes : List Route) : Nat := routes.eraseDups.length

end Route

end RoleAccess
