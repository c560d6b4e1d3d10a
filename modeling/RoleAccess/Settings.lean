import RoleAccess.Json

/-!
# Settings

The settings of a resolver, and their JSON form. No name beside those of the settings is accepted.
-/

namespace RoleAccess

structure Settings where
  /-- Takes the place of the schema's default for letting clients choose primary keys. -/
  defaultCustomPrimary : Option Bool := none
  /-- A variable prefix for every role. -/
  variablePrefix : Option String := none
  /-- Whether compiled permissions are kept for each role list. -/
  cacheRoleSets : Bool := true
deriving DecidableEq

namespace Settings

def fieldNames : List String := ["default_custom_primary", "variable_prefix", "cache_role_sets"]

def ofMembers? (members : Members) : Option Settings :=
  if members.all (fieldNames.contains ·.1) then do
    return {
      defaultCustomPrimary := ← members.optional "default_custom_primary" Json.bool?
      variablePrefix := ← members.optional "variable_prefix" Json.text?
      cacheRoleSets := ← members.defaulted "cache_role_sets" true Json.bool? }
  else none

def ofJson? (j : Json) : Option Settings := do ofMembers? (← Members.ofJson? fieldNames j)

def ofOption {α : Type} (write : α → Json) : Option α → Json
  | some a => write a
  | none => .null

def toJson (s : Settings) : Json :=
  .obj [("default_custom_primary", ofOption Json.bool s.defaultCustomPrimary),
    ("variable_prefix", ofOption Json.str s.variablePrefix),
    ("cache_role_sets", .bool s.cacheRoleSets)]

end Settings

end RoleAccess
