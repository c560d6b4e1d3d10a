import RoleAccess.Injection
import RoleAccess.Permissions

/-!
# Row filters

A row filter turns permissions, with an injector for their predicates, into the condition that the
rows of an operation have to satisfy. The two may rest on different models. When rows are reached
along a relation, the way back to the source rows is reduced to an existence check where it would
only repeat what the source rows were read under.
-/

namespace RoleAccess

structure RowFilter where
  permissions : Permissions
  injector : Injector

/-- The predicates that all of the items ask for, or none if an item is denied. -/
def Access.requirements (items : List Access) : Option (List Predicate) :=
  items.foldlM (fun required item =>
    match item with
    | denied => none
    | allowed => some required
    | conditional ps => some (appendMissing required ps)) []

/-- The items that an operation on the given fields needs: the fields, or deletion itself. -/
def EntityGrants.items (g : EntityGrants) (op : Operation) (fields : List String) : List Access :=
  match op with
  | .fields action => fields.map fun field => g.fieldAccess action field .root
  | .delete => [g.deleteAccess .root]

namespace RowFilter

/-- What an operation asks of the rows of an entity. A refusal names the primary key if known. -/
def demand (f : RowFilter) (entity : String) (op : Operation) (fields : List String) :
    Except (Option String) (List Predicate) :=
  match f.permissions.primary? entity with
  | none => .error none
  | some primary =>
    match f.permissions.grants.entity? entity with
    | none => .error (some primary)
    | some g =>
      match Access.requirements (g.items op (if fields.isEmpty then [primary] else fields)) with
      | none => .error (some primary)
      | some required => .ok required

/-- The conjunction of predicates with the bindings injected. -/
def conjunction (f : RowFilter) (entity : String) (ps : List Predicate) : Condition :=
  .all (ps.map (f.injector.inject entity))

/-- The condition for access that does not come along a relation. -/
def direct (f : RowFilter) (entity : String) (op : Operation) (fields : List String) : Condition :=
  match f.demand entity op fields with
  | .error primary => .refusal primary
  | .ok ps => f.conjunction entity ps

/-- Reduces the way back along a traversal, if it repeats the condition on the source rows, to the
existence of a source row. -/
def optimize (f : RowFilter) (along : Option Traversal) (c : Condition) : Condition :=
  match along with
  | some ⟨source, relation, some back⟩ =>
    let read := f.direct source (.fields .read) [relation]
    if read.isAlways then c
    else match f.permissions.primary? source with
      | some primary =>
        c.replace (.relation back read) (.relation back (.column primary .always))
      | none => c
  | _ => c

def build (f : RowFilter) (entity : String) (ps : List Predicate) (along : Option Traversal) :
    Condition :=
  if ps.isEmpty then .always else f.optimize along (f.conjunction entity ps)

/-- The condition under which all of the fields are accessible; no field means the row itself. -/
def create (f : RowFilter) (entity : String) (op : Operation) (fields : List String)
    (along : Option Traversal) : Condition :=
  match f.demand entity op fields with
  | .error primary => .refusal primary
  | .ok ps => f.build entity ps along

def row (f : RowFilter) (entity : String) (op : Operation) : Condition := f.create entity op [] none

/-! ## Events -/

def conjunctionEvents (f : RowFilter) (entity : String) (ps : List Predicate) : List Event :=
  ps.flatMap (f.injector.events entity)

def directEvents (f : RowFilter) (entity : String) (op : Operation) (fields : List String) :
    List Event :=
  match f.demand entity op fields with
  | .error _ => []
  | .ok ps => f.conjunctionEvents entity ps

def optimizeEvents (f : RowFilter) : Option Traversal → List Event
  | some ⟨source, relation, some _⟩ => f.directEvents source (.fields .read) [relation]
  | _ => []

def buildEvents (f : RowFilter) (entity : String) (ps : List Predicate)
    (along : Option Traversal) : List Event :=
  if ps.isEmpty then [] else f.conjunctionEvents entity ps ++ f.optimizeEvents along

def createEvents (f : RowFilter) (entity : String) (op : Operation) (fields : List String)
    (along : Option Traversal) : List Event :=
  match f.demand entity op fields with
  | .error _ => []
  | .ok ps => f.buildEvents entity ps along

end RowFilter

end RoleAccess
