import RoleAccess.Json
import RoleAccess.Model

/-!
# JSON form of data models

A field is tagged with its `kind`. A relation that stands alone is the same record without the tag.
-/

namespace RoleAccess

namespace RelationSide

def name : RelationSide → String
  | owning => "owning"
  | inverse => "inverse"

def ofJson? (blank : Bool) (j : Json) : Option RelationSide := do
  let name ← j.constant? blank
  [owning, inverse].find? (·.name = name)

def toJson (s : RelationSide) : Json := .str s.name

end RelationSide

namespace Relation

def fieldNames : List String := ["target", "side", "counterpart"]

def ofMembers? (blank : Bool) (members : Members) : Option Relation := do
  return {
    target := ← members.required "target" Json.text?
    side := ← members.required "side" (RelationSide.ofJson? blank)
    counterpart := ← members.optional "counterpart" Json.text? }

def ofJson? (j : Json) : Option Relation := do
  ofMembers? false (← Members.ofJson? fieldNames j)

def members (r : Relation) : Members :=
  [("target", .str r.target), ("side", r.side.toJson)] ++
    Members.ofOption "counterpart" Json.str r.counterpart

def toJson (r : Relation) : Json := .obj r.members

end Relation

namespace Field

def fieldNames (kind : String) : List String :=
  if kind = "column" then ["column_type"] else Relation.fieldNames

def ofJson? (j : Json) : Option Field := do
  let (kind, members) ← Members.ofTagged? "kind" fieldNames j
  if kind = "column" then return column (← members.optional "column_type" Json.text?)
  else if kind = "relation" then return relation (← Relation.ofMembers? true members)
  else none

def toJson : Field → Json
  | column type => .obj ([("kind", .str "column")] ++ Members.ofOption "column_type" Json.str type)
  | relation r => .obj ([("kind", .str "relation")] ++ r.members)

end Field

namespace Entity

def ofJson? (j : Json) : Option Entity := do
  let members ← Members.ofJson? ["name", "primary", "fields"] j
  return {
    name := ← members.required "name" Json.text?
    primary := ← members.required "primary" Json.text?
    fields := ← members.defaulted "fields" .empty (Json.map? Field.ofJson?) }

def toJson (e : Entity) : Json :=
  .obj [("name", .str e.name), ("primary", .str e.primary),
    ("fields", Json.ofMap Field.toJson e.fields)]

end Entity

namespace Model

def ofJson? (j : Json) : Option Model := do
  let members ← Members.ofJson? ["entities"] j
  return { entities := ← members.defaulted "entities" .empty (Json.map? Entity.ofJson?) }

def toJson (m : Model) : Json := .obj [("entities", Json.ofMap Entity.toJson m.entities)]

end Model

end RoleAccess
