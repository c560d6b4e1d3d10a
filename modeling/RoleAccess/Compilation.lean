import RoleAccess.Event
import RoleAccess.GrantTable
import RoleAccess.Role.Walk

/-!
# Compilation of roles to grants

The grants of a role list are the merge of what every visited role declares, in the order of the
walk. Afterwards the primary key of an entity, for every field action, is given the merge of what
its other fields have: who may see part of a row may see which row it is.
-/

namespace RoleAccess

/-! ## One rule -/

/-- Adds what an entry gives, on the routes that it is for. -/
def RuleEntry.addTo (lookup : String → Except Fault Predicate) (m : GrantMap) (e : RuleEntry) :
    Except Fault GrantMap :=
  match e.subject with
  | .flag true => return e.routes.foldl GrantMap.allow m
  | .flag false => return m
  | .named name => do
    let predicate ← lookup name
    return e.routes.foldl (fun m route => m.add route predicate) m

/-- The grants of a rule, with the predicates that its names stand for. -/
def Rule.grants (lookup : String → Except Fault Predicate) (rule : Rule) :
    Except Fault GrantMap := do
  return (← rule.entries.foldlM (RuleEntry.addTo lookup) .empty).bounded

/-! ## One role -/

namespace Visit

/-- The predicate `name` that the visited role declares for an entity, its variables put under the
variable prefix of the visit. -/
def predicate (v : Visit) (entity : Entity) (rules : EntityRules) (name : String) :
    Except Fault Predicate :=
  match rules.predicates.get? name with
  | some p => return p.mapVariables (prefixed v.scope)
  | none => throw (.undefinedPredicate v.name entity.name name)

def ruleGrants (v : Visit) (entity : Entity) (rules : EntityRules) (rule : Rule) :
    Except Fault GrantMap :=
  rule.grants (v.predicate entity rules)

/-- The grants of the declared fields of one action. -/
def fieldGrants (v : Visit) (entity : Entity) (rules : EntityRules) :
    Option (NameMap Rule) → Except Fault FieldGrants
  | none => .ok .empty
  | some declared => declared.traverse fun _ rule => v.ruleGrants entity rules rule

def deleteGrants (v : Visit) (entity : Entity) (rules : EntityRules) :
    Option Rule → Except Fault GrantMap
  | none => .ok .empty
  | some rule => v.ruleGrants entity rules rule

def entityGrants (v : Visit) (entity : Entity) (rules : EntityRules) :
    Except Fault EntityGrants := do
  return {
    fields := ← rules.operations.fields.traverse (v.fieldGrants entity rules)
    delete := ← v.deleteGrants entity rules rules.operations.delete
    customPrimary := rules.operations.customPrimary }

/-- What the visited role itself declares for an entity name. -/
def namedGrants (v : Visit) (model : Model) (name : String) (rules : EntityRules) :
    Except Fault EntityGrants :=
  match model.entity? name with
  | some entity => v.entityGrants entity rules
  | none => throw (.unknownEntity v.name name)

def grants (v : Visit) (model : Model) : Except Fault GrantTable := do
  return ⟨← v.role.entities.traverse (v.namedGrants model)⟩

end Visit

/-! ## Primary keys -/

/-- The merge of the grants of all fields other than the primary key. -/
def FieldGrants.union (fields : FieldGrants) (primary : String) : GrantMap :=
  (fields.entries.filter (·.1 ≠ primary)).foldl (fun m e => m.merge e.2) .empty

/-- Gives the primary key the union of the other fields, if any field is declared at all. -/
def FieldGrants.unifyPrimary (primary : String) (fields : FieldGrants) : FieldGrants :=
  if fields.isEmpty then fields else fields.insert primary (FieldGrants.union fields primary)

def GrantTable.unifyPrimaries (model : Model) (t : GrantTable) : GrantTable :=
  ⟨t.entities.mapValues fun name grants =>
    match model.primary? name with
    | some primary => { grants with fields := grants.fields.map (FieldGrants.unifyPrimary primary) }
    | none => grants⟩

/-! ## Role lists -/

/-- The fault of a failed computation. -/
def faultOf {α : Type} : Except Fault α → Option Fault
  | .ok _ => none
  | .error fault => some fault

namespace Schema

/-- The walk over the active roles, up to the first visit whose grants are faulty. -/
def compilationWalk (s : Schema) (roles : List String) (scope : Option String) : Walk :=
  s.acl.walkUntil (fun v => faultOf (v.grants s.model)) roles scope

/-- Merges the grants of a visit into a table. -/
def mergeVisit (s : Schema) (t : GrantTable) (v : Visit) : Except Fault GrantTable := do
  return t.merge (← v.grants s.model)

/-- The grants of a list of active roles. With `scope` all variables go under that prefix, and
without it under the prefix of the active role. -/
def compile (s : Schema) (roles : List String) (scope : Option String) :
    Except Fault GrantTable := do
  return (← (s.compilationWalk roles scope).foldM s.mergeVisit .empty).unifyPrimaries s.model

/-- Stopping at the first faulty visit changes nothing: the merge over the whole walk fails there. -/
theorem compile_eq_walk (s : Schema) (roles : List String) (scope : Option String) :
    s.compile roles scope =
      (do return (← (s.acl.walk roles scope).foldM s.mergeVisit .empty).unifyPrimaries s.model) := by
  rw [compile, compilationWalk, RoleSchema.walkUntil_eq_interrupt, Walk.foldM_interrupt]
  intro v fault hfault t
  cases h : v.grants s.model with
  | ok _ => simp [faultOf, h] at hfault
  | error e =>
    obtain rfl : e = fault := by simpa [faultOf, h] using hfault
    simp [mergeVisit, h, bind, Except.bind]

end Schema

/-! ## Events -/

namespace Visit

/-- The rules of fields in the order in which they are worked through, up to a faulty one. -/
def triedRules (v : Visit) (entity : Entity) (rules : EntityRules) :
    List (FieldAction × String × Rule) :=
  let declared := FieldAction.all.flatMap fun action =>
    ((rules.operations.fields.get action).getD .empty).entries.map (action, ·)
  upToFirst (fun e => (faultOf (v.ruleGrants entity rules e.2.2)).isSome) declared

def entityEvents (v : Visit) (entity : Entity) (rules : EntityRules) : List Event :=
  ((v.triedRules entity rules).filter fun e => !entity.hasField e.2.1).map fun e =>
    .unknownField v.name entity.name e.2.1 e.1

def events (v : Visit) (model : Model) : List Event :=
  let tried := upToFirst (fun e => (faultOf (v.namedGrants model e.1 e.2)).isSome)
    v.role.entities.entries
  tried.flatMap fun e =>
    match model.entity? e.1 with
    | some entity => v.entityEvents entity e.2
    | none => []

end Visit

/-- The events of a walk on which `report` tells those of a visit. -/
def Walk.events (report : Visit → List Event) (w : Walk) : List Event :=
  w.steps.flatMap fun
    | .visit v => report v
    | .undeclared role => [.undeclaredRole role]

def Schema.compileEvents (s : Schema) (roles : List String) (scope : Option String) :
    List Event :=
  (s.compilationWalk roles scope).events (·.events s.model)

end RoleAccess
