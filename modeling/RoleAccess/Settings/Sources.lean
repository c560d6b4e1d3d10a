import RoleAccess.Settings
import RoleAccess.Settings.Variable
import RoleAccess.Yaml.Value

/-!
# Sources of settings

Settings come from defaults, then from a YAML file, then from environment variables; for each key the
last source counts, and only its value has to fit.
-/

namespace RoleAccess.Settings

/-- The settings from a file text and environment variables, or none if they do not fit. -/
def load? (file : Option String) (environment : List (String × String)) : Option Settings := do
  let members := (← Yaml.membersOfText? (file.getD "")) ++ ofEnvironment environment
  ofMembers? (NameMap.ofList members.reverse).entries

end RoleAccess.Settings
