import RoleAccess.Condition.Json
import RoleAccess.Model.Json
import RoleAccess.Role
import RoleAccess.Rule.Json

/-!
# JSON form of roles and schemas

A variable is tagged with its `type`.
-/

namespace RoleAccess

namespace IdentityValue

def name : IdentityValue → String
  | identityId => "identityID"
  | personId => "personID"

def ofJson? (blank : Bool) (j : Json) : Option IdentityValue := do
  let name ← j.constant? blank
  [identityId, personId].find? (·.name = name)

def toJson (v : IdentityValue) : Json := .str v.name

end IdentityValue

namespace VariableDefinition

def fieldNames (type : String) : List String :=
  if type = "predefined" then ["value"]
  else if type = "entity" then ["entityName", "fallback"]
  else ["fallback"]

def ofJson? (j : Json) : Option VariableDefinition := do
  let (type, members) ← Members.ofTagged? "type" fieldNames j
  if type = "predefined" then
    return predefined (← members.required "value" (IdentityValue.ofJson? true))
  else if type = "entity" then
    return entity (← members.required "entityName" Json.text?)
      (← members.optional "fallback" (ColumnTest.ofJson? true))
  else if type = "condition" then
    return condition (← members.optional "fallback" (ColumnTest.ofJson? true))
  else none

def toJson : VariableDefinition → Json
  | predefined value => .obj [("type", .str "predefined"), ("value", value.toJson)]
  | entity entityName fallback =>
    .obj ([("type", .str "entity"), ("entityName", .str entityName)] ++
      Members.ofOption "fallback" ColumnTest.toJson fallback)
  | condition fallback =>
    .obj ([("type", .str "condition")] ++ Members.ofOption "fallback" ColumnTest.toJson fallback)

end VariableDefinition

namespace Role

def ofJson? (j : Json) : Option Role := do
  let members ← Members.ofJson? ["inherits", "variablePrefix", "variables", "entities"] j
  return {
    inherits := ← members.defaulted "inherits" [] (Json.items? Json.text?)
    variablePrefix := ← members.optional "variablePrefix" Json.text?
    definitions := ← members.defaulted "variables" .empty (Json.map? VariableDefinition.ofJson?)
    entities := ← members.defaulted "entities" .empty (Json.map? EntityRules.ofJson?) }

def toJson (r : Role) : Json :=
  .obj ((if r.inherits.isEmpty then [] else [("inherits", .arr (r.inherits.map .str))]) ++
    Members.ofOption "variablePrefix" Json.str r.variablePrefix ++
    [("variables", Json.ofMap VariableDefinition.toJson r.definitions),
      ("entities", Json.ofMap EntityRules.toJson r.entities)])

end Role

namespace RoleSchema

def ofJson? (j : Json) : Option RoleSchema := do
  let members ← Members.ofJson? ["roles", "customPrimary"] j
  return {
    roles := ← members.defaulted "roles" .empty (Json.map? Role.ofJson?)
    customPrimary := ← members.optional "customPrimary" Json.bool? }

def toJson (s : RoleSchema) : Json :=
  .obj ([("roles", Json.ofMap Role.toJson s.roles)] ++
    Members.ofOption "customPrimary" Json.bool s.customPrimary)

end RoleSchema

namespace Schema

def ofJson? (j : Json) : Option Schema := do
  let members ← Members.ofJson? ["model", "acl"] j
  return {
    model := ← members.required "model" Model.ofJson?
    acl := ← members.defaulted "acl" {} RoleSchema.ofJson? }

def toJson (s : Schema) : Json := .obj [("model", s.model.toJson), ("acl", s.acl.toJson)]

end Schema

namespace VariableValue

def ofJson? : Json → Option VariableValue
  | .obj [(name, j)] =>
    if name = "column" then (ColumnTest.ofJson? false j).map test
    else if name = "where" then (Condition.ofJson? j).map condition
    else none
  | _ => none

def toJson : VariableValue → Json
  | test t => .obj [("column", t.toJson)]
  | condition c => .obj [("where", c.toJson)]

end VariableValue

end RoleAccess
