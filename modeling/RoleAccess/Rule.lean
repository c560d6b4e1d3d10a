import RoleAccess.NameMap
import RoleAccess.Operation
import RoleAccess.Predicate
import RoleAccess.Route

/-!
# Rules of an entity

For every entity a role declares named predicates and the rules of its operations. A rule grants
outright, grants under a named predicate, or lists entries that do so for certain routes.
-/

namespace RoleAccess

/-- What a rule gives: everything or nothing, or the rows of a named predicate. -/
inductive Subject where
  | flag (granted : Bool)
  | named (predicate : String)
deriving DecidableEq

/-- The routes that an entry is for: any relation, or just the relations of a list. -/
inductive Scope where
  | anyRelation (enabled : Bool)
  | relations (names : List String)
deriving DecidableEq

structure RuleEntry where
  subject : Subject
  through : Option Scope := none
deriving DecidableEq

/-- Without a scope, or with a disabled one, an entry is for direct access. -/
def RuleEntry.routes (e : RuleEntry) : List Route :=
  match e.through with
  | none | some (.anyRelation false) => [.root]
  | some (.anyRelation true) => [.anyRelation]
  | some (.relations names) => names.map .relation

inductive Rule where
  | direct (subject : Subject)
  | byRoute (entries : List RuleEntry)
deriving DecidableEq

/-- A direct rule is the list of one entry without a scope. -/
def Rule.entries : Rule → List RuleEntry
  | direct subject => [⟨subject, none⟩]
  | byRoute entries => entries

/-- The rules of the operations on one entity. -/
structure OperationRules where
  fields : PerAction (Option (NameMap Rule)) := ⟨none, none, none⟩
  delete : Option Rule := none
  customPrimary : Bool := false
deriving DecidableEq

structure EntityRules where
  predicates : NameMap Predicate := .empty
  operations : OperationRules := {}
deriving DecidableEq

namespace EntityRules

def define (e : EntityRules) (name : String) (predicate : Predicate) : EntityRules :=
  { e with predicates := e.predicates.insert name predicate }

/-- Declares the rule of a field. Deletion has no fields, so nothing is declared for it. -/
def declareField (e : EntityRules) (op : Operation) (field : String) (rule : Rule) : EntityRules :=
  match op with
  | .fields action =>
    let declared := e.operations.fields.modify action fun rules =>
      some ((rules.getD .empty).insert field rule)
    { e with operations := { e.operations with fields := declared } }
  | .delete => e

def declareDelete (e : EntityRules) (rule : Rule) : EntityRules :=
  { e with operations := { e.operations with delete := some rule } }

def allowCustomPrimary (e : EntityRules) : EntityRules :=
  { e with operations := { e.operations with customPrimary := true } }

/-- The declared fields of an operation, if it has fields and any are declared. -/
def declared? (e : EntityRules) : Operation → Option (NameMap Rule)
  | .fields action => e.operations.fields.get action
  | .delete => none

end EntityRules

end RoleAccess
