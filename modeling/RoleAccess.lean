import RoleAccess.Condition.Json
import RoleAccess.Model.Json
import RoleAccess.Predicate.Semantics
import RoleAccess.Resolver
import RoleAccess.Role.Json
import RoleAccess.Role.Reachability
import RoleAccess.Rule.Json
import RoleAccess.Settings.Sources
import RoleAccess.Proofs.GrantMerge
import RoleAccess.Proofs.Polarity
import RoleAccess.Proofs.RefusedSource
import RoleAccess.Proofs.Replacement
import RoleAccess.Proofs.CompiledLookups
import RoleAccess.Proofs.OwnVariables
import RoleAccess.Proofs.PrimaryUnion
import RoleAccess.Proofs.AccessLevels
import RoleAccess.Proofs.RowMeaning
import RoleAccess.Proofs.FieldAnswers
import RoleAccess.Proofs.MergeLaws
import RoleAccess.Proofs.PrimaryLookups
import RoleAccess.Proofs.RoleListAppend
import RoleAccess.Proofs.AddedRoles
import RoleAccess.Proofs.RoleSets
import RoleAccess.Proofs.UnknownRoutes
import RoleAccess.Proofs.RoleGraph
import RoleAccess.Proofs.RoleDefects
import RoleAccess.Proofs.NameAgreement
import RoleAccess.Proofs.MergeAlgebra
import RoleAccess.Proofs.SchemaFormats
import RoleAccess.Proofs.InheritancePaths
import RoleAccess.Proofs.InjectionLaws
import RoleAccess.Proofs.BoundValues
import RoleAccess.Proofs.Skeleton
import RoleAccess.Proofs.Memberships
import RoleAccess.Proofs.RuleScopes
import RoleAccess.Proofs.WalkCalls
