import RoleAccess.Grant
import RoleAccess.NameMap
import RoleAccess.Route

/-!
# Grants by route

A grant map files the grants of one field, or of deletion, by the route of the access. `get?` reads
an entry as it stands. `matching` answers for a route: a relation without an entry takes the entry
for any relation, and failing that the one for the root. Maps are merged by what they answer, and
the entry for unknown routes is kept an upper bound of all others.
-/

namespace RoleAccess

structure GrantMap where
  root : Option Grant := none
  anyRelation : Option Grant := none
  unknown : Option Grant := none
  relations : NameMap Grant := .empty
deriving DecidableEq

namespace GrantMap

def empty : GrantMap := {}

instance : EmptyCollection GrantMap := ⟨empty⟩
instance : Inhabited GrantMap := ⟨empty⟩

def get? (m : GrantMap) : Route → Option Grant
  | .root => m.root
  | .anyRelation => m.anyRelation
  | .unknown => m.unknown
  | .relation name => m.relations.get? name

def insert (m : GrantMap) (route : Route) (grant : Grant) : GrantMap :=
  match route with
  | .root => { m with root := some grant }
  | .anyRelation => { m with anyRelation := some grant }
  | .unknown => { m with unknown := some grant }
  | .relation name => { m with relations := m.relations.insert name grant }

/-- Opens a route without a condition. -/
def allow (m : GrantMap) (route : Route) : GrantMap := m.insert route .allow

/-- Joins a predicate to the entry of a route. -/
def add (m : GrantMap) (route : Route) (predicate : Predicate) : GrantMap :=
  match m.get? route with
  | some grant => m.insert route (grant.join (.rows [predicate]))
  | none => m.insert route (.rows [predicate])

/-- The entries: root, any relation, unknown, then the relations by name. -/
def toList (m : GrantMap) : List (Route × Grant) :=
  [(Route.root, m.root), (.anyRelation, m.anyRelation), (.unknown, m.unknown)].filterMap
      (fun e => e.2.map (e.1, ·)) ++
    m.relations.entries.map fun e => (.relation e.1, e.2)

def isEmpty (m : GrantMap) : Bool := m.toList.isEmpty

/-- What a relation without an entry of its own is answered with. -/
def fallback (m : GrantMap) : Option Grant := m.anyRelation.or m.root

/-- The grant in force on a route. -/
def matching (m : GrantMap) : Route → Option Grant
  | .root => m.root
  | .anyRelation => m.fallback
  | .unknown => m.unknown
  | .relation name => (m.relations.get? name).or m.fallback

/-- The map with its entry for unknown routes raised to a bound of all entries: unconditional if
some entry is, and else the list of all their predicates, those it had before first. -/
def bounded (m : GrantMap) : GrantMap :=
  if m.toList.any (·.2 = .allow) then { m with unknown := some .allow }
  else
    let own := (m.unknown.map Grant.predicates).getD []
    match m.toList.foldl (fun acc e => appendMissing acc e.2.predicates) own with
    | [] => m
    | union => { m with unknown := some (.rows union) }

/-- The answers of two maps joined, for every route on which one of them has an entry. -/
def joinEntries (l r : GrantMap) : GrantMap where
  root := Grant.combine l.root r.root
  anyRelation :=
    if l.anyRelation.isSome || r.anyRelation.isSome then Grant.combine l.fallback r.fallback
    else none
  unknown := Grant.combine l.unknown r.unknown
  relations := NameMap.tabulate (l.relations.names ++ r.relations.names) fun name =>
    Grant.combine (l.matching (.relation name)) (r.matching (.relation name))

/-- The merge of two maps: joined answers under a fresh bound for unknown routes. -/
def merge (l r : GrantMap) : GrantMap := (joinEntries l r).bounded

end GrantMap

end RoleAccess
