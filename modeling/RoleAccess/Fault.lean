/-!
# Faults of role declarations

What can be wrong with the declarations that a role list leads to. Being refused access is not a
fault: lookups answer with a refusal.
-/

namespace RoleAccess

inductive Fault where
  | undeclaredInherited (role inherited : String)
  | cyclicInheritance (path : List String)
  | undefinedPredicate (role entity predicate : String)
  | unknownEntity (role entity : String)
deriving DecidableEq

def Fault.message : Fault → String
  | undeclaredInherited role inherited =>
    "role '" ++ role ++ "' inherits undeclared role '" ++ inherited ++ "'"
  | cyclicInheritance path => "cyclic role inheritance: " ++ " -> ".intercalate path
  | undefinedPredicate role entity predicate =>
    "role '" ++ role ++ "' references undefined predicate '" ++ predicate ++ "' on entity '" ++
      entity ++ "'"
  | unknownEntity role entity =>
    "role '" ++ role ++ "' declares permissions for unknown entity '" ++ entity ++ "'"

end RoleAccess
