import RoleAccess.Predicate.Json
import RoleAccess.Rule

/-!
# JSON form of the rules of an entity

A direct rule is a flag or the name of a predicate, a rule by route the array of its entries.
-/

namespace RoleAccess

namespace Operation

def ofJson? (j : Json) : Option Operation := do ofName? (← j.constant? false)

def toJson (op : Operation) : Json := .str op.name

end Operation

namespace Subject

def ofJson? : Json → Option Subject
  | .bool b => some (flag b)
  | .str s => some (named s)
  | _ => none

def toJson : Subject → Json
  | flag b => .bool b
  | named s => .str s

end Subject

namespace Scope

def ofJson? : Json → Option Scope
  | .bool b => some (anyRelation b)
  | j => (j.items? Json.text?).map relations

def toJson : Scope → Json
  | anyRelation b => .bool b
  | relations names => .arr (names.map .str)

end Scope

namespace RuleEntry

def ofJson? (j : Json) : Option RuleEntry := do
  let members ← Members.ofJson? ["predicate", "through"] j
  return {
    subject := ← members.required "predicate" Subject.ofJson?
    through := ← members.optional "through" Scope.ofJson? }

def toJson (e : RuleEntry) : Json :=
  .obj ([("predicate", e.subject.toJson)] ++ Members.ofOption "through" Scope.toJson e.through)

end RuleEntry

namespace Rule

def ofJson? (j : Json) : Option Rule :=
  match Subject.ofJson? j with
  | some subject => some (direct subject)
  | none => (j.items? RuleEntry.ofJson?).map byRoute

def toJson : Rule → Json
  | direct subject => subject.toJson
  | byRoute entries => .arr (entries.map RuleEntry.toJson)

end Rule

namespace OperationRules

def ofJson? (j : Json) : Option OperationRules := do
  let members ← Members.ofJson? ["read", "create", "update", "delete", "customPrimary"] j
  let read ← members.optional "read" (Json.map? Rule.ofJson?)
  let create ← members.optional "create" (Json.map? Rule.ofJson?)
  let update ← members.optional "update" (Json.map? Rule.ofJson?)
  return {
    fields := ⟨create, read, update⟩
    delete := ← members.optional "delete" Rule.ofJson?
    customPrimary := ← members.defaulted "customPrimary" false Json.bool? }

def toJson (o : OperationRules) : Json :=
  .obj (Members.ofOption "read" (Json.ofMap Rule.toJson) o.fields.read ++
    Members.ofOption "create" (Json.ofMap Rule.toJson) o.fields.create ++
    Members.ofOption "update" (Json.ofMap Rule.toJson) o.fields.update ++
    Members.ofOption "delete" Rule.toJson o.delete ++
    [("customPrimary", .bool o.customPrimary)])

end OperationRules

namespace EntityRules

def ofJson? (j : Json) : Option EntityRules := do
  let members ← Members.ofJson? ["predicates", "operations"] j
  return {
    predicates := ← members.defaulted "predicates" .empty (Json.map? (Predicate.ofJson? false))
    operations := ← members.defaulted "operations" {} OperationRules.ofJson? }

def toJson (e : EntityRules) : Json :=
  .obj [("predicates", Json.ofMap Predicate.toJson e.predicates),
    ("operations", e.operations.toJson)]

end EntityRules

end RoleAccess
