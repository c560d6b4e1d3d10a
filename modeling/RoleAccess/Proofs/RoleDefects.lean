import RoleAccess.Proofs.CompiledLookups
import RoleAccess.Proofs.Failure
import RoleAccess.Proofs.RoleGraph

/-!
# Defects of roles

A role list compiles just if all roles that are reached from its declared members are sound: they
inherit declared roles only and never themselves, have rules for entities of the model only, and
define the predicates that their rules name. A fault of compilation reports a defect of one of these
roles, so what is wrong with roles out of reach, or an active role that is not declared, has no
effect.
-/

namespace RoleAccess

/-- Some rule for the entity names the predicate, whether it grants it on a route or not. -/
def EntityRules.References (rules : EntityRules) (predicate : String) : Prop :=
  ∃ item rule, rules.rule? item = some rule ∧
    ∃ entry ∈ rule.entries, entry.subject = .named predicate

/-- The names in the rules of a role stand for something. -/
structure Role.Resolves (role : Role) (model : Model) : Prop where
  entities_known : ∀ name rules, role.entities.get? name = some rules →
    ∃ entity, model.entity? name = some entity
  predicates_defined : ∀ name rules predicate, role.entities.get? name = some rules →
    rules.References predicate → ∃ p, rules.predicates.get? predicate = some p

namespace Schema

/-- Nothing is wrong with the role `role` that is declared as `name`. -/
structure Sound (s : Schema) (name : String) (role : Role) : Prop where
  inherits_declared : ∀ inherited ∈ role.inherits, s.acl.Declared inherited
  acyclic : ¬ s.acl.Cyclic name
  resolves : role.Resolves s.model

/-- What the fault reports is wrong with a role that is reached from the active ones. -/
def HasDefect (s : Schema) (roles : List String) : Fault → Prop
  | .undeclaredInherited name inherited =>
    s.acl.Reachable roles name ∧ s.acl.Inherits name inherited ∧ ¬ s.acl.Declared inherited
  | .cyclicInheritance path =>
    ∃ active ∈ roles, s.acl.Declared active ∧ s.acl.InheritancePath active path ∧
      ∃ chain, ∃ name ∈ chain, path = chain ++ [name]
  | .undefinedPredicate name entityName predicate =>
    s.acl.Reachable roles name ∧ ∃ role key rules entity, s.acl.roles.get? name = some role ∧
      role.entities.get? key = some rules ∧ s.model.entity? key = some entity ∧
      entity.name = entityName ∧ rules.References predicate ∧
      rules.predicates.get? predicate = none
  | .unknownEntity name entityName =>
    s.acl.Reachable roles name ∧ ∃ role rules, s.acl.roles.get? name = some role ∧
      role.entities.get? entityName = some rules ∧ s.model.entity? entityName = none

end Schema

/-! ## Rules -/

namespace Rule

variable {lookup : String → Except Fault Predicate} {rule : Rule} {fault : Fault}

lemma exists_name_of_grants_eq_error (h : rule.grants lookup = .error fault) :
    ∃ entry ∈ rule.entries, ∃ name, entry.subject = .named name ∧ lookup name = .error fault := by
  obtain ⟨m, entry, hentry, h⟩ := exists_of_foldlM_eq_error (eq_error_of_map h)
  refine ⟨entry, hentry, ?_⟩
  unfold RuleEntry.addTo at h
  split at h
  · cases h
  · cases h
  · rename_i name hname
    exact ⟨name, hname, eq_error_of_map h⟩

lemma lookup_of_grants_eq_ok {m : GrantMap} {entry : RuleEntry} {name : String}
    (h : rule.grants lookup = .ok m) (hentry : entry ∈ rule.entries)
    (hname : entry.subject = .named name) : ∃ p, lookup name = .ok p := by
  obtain ⟨joined, hjoined, _⟩ := bind_eq_ok_iff.1 h
  obtain ⟨m', next, hnext⟩ := exists_step_of_foldlM_eq_ok hjoined entry hentry
  unfold RuleEntry.addTo at hnext
  rw [hname] at hnext
  obtain ⟨p, hp, _⟩ := bind_eq_ok_iff.1 hnext
  exact ⟨p, hp⟩

end Rule

/-! ## Visits -/

namespace Visit

variable {v : Visit} {model : Model} {entity : Entity} {rules : EntityRules} {fault : Fault}

lemma predicate_eq_ok_iff {name : String} {q : Predicate} :
    v.predicate entity rules name = .ok q ↔
      ∃ p, rules.predicates.get? name = some p ∧ p.mapVariables (prefixed v.scope) = q := by
  unfold predicate
  cases rules.predicates.get? name with
  | none => exact ⟨fun h => (nomatch h), fun ⟨_, h, _⟩ => (nomatch h)⟩
  | some p =>
    constructor
    · intro h
      exact ⟨p, rfl, Except.ok.inj h⟩
    · rintro ⟨p', hp, rfl⟩
      cases hp
      rfl

lemma predicate_eq_error_iff {name : String} :
    v.predicate entity rules name = .error fault ↔
      rules.predicates.get? name = none ∧ fault = .undefinedPredicate v.name entity.name name := by
  unfold predicate
  cases rules.predicates.get? name with
  | none =>
    constructor
    · intro h
      exact ⟨rfl, (Except.error.inj h).symm⟩
    · rintro ⟨_, rfl⟩
      rfl
  | some p => exact ⟨fun h => (nomatch h), fun h => (nomatch h.1)⟩

lemma exists_rule_of_entityGrants_eq_error (h : v.entityGrants entity rules = .error fault) :
    ∃ item rule, rules.rule? item = some rule ∧
      v.ruleGrants entity rules rule = .error fault := by
  rcases bind_eq_error_iff.1 h with h | ⟨_, _, h⟩
  · obtain ⟨action, h⟩ := PerAction.exists_of_traverse_eq_error h
    cases hdeclared : rules.operations.fields.get action with
    | none =>
      rw [hdeclared] at h
      cases h
    | some declared =>
      rw [hdeclared] at h
      unfold fieldGrants at h
      obtain ⟨field, rule, hrule, h⟩ := NameMap.exists_of_traverse_eq_error h
      refine ⟨.field action field, rule, ?_, h⟩
      rw [EntityRules.rule?, hdeclared, Option.bind_some, hrule]
  · have hdelete := eq_error_of_map h
    cases hrule : rules.operations.delete with
    | none =>
      rw [hrule] at hdelete
      cases hdelete
    | some rule =>
      rw [hrule] at hdelete
      exact ⟨.delete, rule, hrule, hdelete⟩

/-- An entity that is not in the model, or a predicate that a rule names and the role does not
define, is why the grants of a visit fail. -/
lemma defect_of_grants_eq_error (h : v.grants model = .error fault) :
    ∃ key rules, v.role.entities.get? key = some rules ∧
      ((model.entity? key = none ∧ fault = .unknownEntity v.name key) ∨
        ∃ entity predicate, model.entity? key = some entity ∧ rules.References predicate ∧
          rules.predicates.get? predicate = none ∧
          fault = .undefinedPredicate v.name entity.name predicate) := by
  obtain ⟨key, rules, hrules, h⟩ := NameMap.exists_of_traverse_eq_error (eq_error_of_map h)
  refine ⟨key, rules, hrules, ?_⟩
  unfold namedGrants at h
  cases hentity : model.entity? key with
  | none =>
    rw [hentity] at h
    exact .inl ⟨rfl, (Except.error.inj h).symm⟩
  | some entity =>
    rw [hentity] at h
    obtain ⟨item, rule, hrule, h⟩ := exists_rule_of_entityGrants_eq_error h
    obtain ⟨entry, hentry, predicate, hname, h⟩ := Rule.exists_name_of_grants_eq_error h
    obtain ⟨hmissing, hfault⟩ := predicate_eq_error_iff.1 h
    exact .inr ⟨entity, predicate, rfl, ⟨item, rule, hrule, entry, hentry, hname⟩, hmissing, hfault⟩

lemma resolves_of_grants_eq_ok {t : GrantTable} (h : v.grants model = .ok t) :
    v.role.Resolves model := by
  have hentity : ∀ name rules, v.role.entities.get? name = some rules →
      ∃ entity g, model.entity? name = some entity ∧ v.entityGrants entity rules = .ok g := by
    intro name rules hrules
    have hrel := entityGrants_of_grants_eq_ok h name
    rw [hrules] at hrel
    generalize t.entity? name = g at hrel
    cases hrel with
    | some h =>
      obtain ⟨entity, hentity, h⟩ := h
      exact ⟨entity, _, hentity, h⟩
  constructor
  · intro name rules hrules
    obtain ⟨entity, _, hentity, _⟩ := hentity name rules hrules
    exact ⟨entity, hentity⟩
  · rintro name rules predicate hrules ⟨item, rule, hrule, entry, hentry, hname⟩
    obtain ⟨entity, g, _, hg⟩ := hentity name rules hrules
    rcases map?_of_entityGrants_eq_ok hg item with ⟨rule', m, hrule', hm, _⟩ | ⟨hnone, _⟩
    · obtain rfl : rule = rule' := Option.some.inj (hrule.symm.trans hrule')
      obtain ⟨q, hq⟩ := Rule.lookup_of_grants_eq_ok hm hentry hname
      obtain ⟨p, hp, _⟩ := predicate_eq_ok_iff.1 hq
      exact ⟨p, hp⟩
    · cases hnone.symm.trans hrule

/-- A visit has grants just if the names in the rules of its role stand for something. -/
theorem exists_grants_iff : (∃ t, v.grants model = .ok t) ↔ v.role.Resolves model := by
  refine ⟨fun ⟨t, h⟩ => resolves_of_grants_eq_ok h, fun hresolves => ?_⟩
  cases h : v.grants model with
  | ok t => exact ⟨t, rfl⟩
  | error fault =>
    obtain ⟨key, rules, hrules, ⟨hunknown, _⟩ | ⟨_, predicate, _, hreferences, hmissing, _⟩⟩ :=
      defect_of_grants_eq_error h
    · obtain ⟨entity, hentity⟩ := hresolves.entities_known key rules hrules
      cases hunknown.symm.trans hentity
    · obtain ⟨p, hp⟩ := hresolves.predicates_defined key rules predicate hrules hreferences
      cases hmissing.symm.trans hp

end Visit

/-! ## Role lists -/

namespace Schema

variable {s : Schema} {roles : List String} {scope : Option String} {fault : Fault}

lemma hasDefect_of_walk (h : (s.acl.walk roles scope).fault = some fault) :
    s.HasDefect roles fault := by
  obtain ⟨active, hactive, hdeclared, hfault⟩ := RoleSchema.faultFrom_of_walk h
  cases hfault with
  | undeclared hreach hedge hmissing =>
    exact ⟨⟨active, hactive, hdeclared, hreach⟩, hedge, hmissing⟩
  | cyclic hpath hmem => exact ⟨active, hactive, hdeclared, hpath, _, _, hmem, rfl⟩

lemma reachable_of_mem_visits {v : Visit} (hv : v ∈ (s.acl.walk roles scope).visits) :
    s.acl.Reachable roles v.name ∧ s.acl.roles.get? v.name = some v.role := by
  obtain ⟨active, hactive, role, hrole, hmade⟩ := RoleSchema.mem_visits_walk hv
  exact ⟨⟨active, hactive, ⟨role, hrole⟩, hmade.reached⟩, hmade.declared⟩

lemma hasDefect_of_grants {v : Visit} (hv : v ∈ (s.acl.walk roles scope).visits)
    (h : v.grants s.model = .error fault) : s.HasDefect roles fault := by
  obtain ⟨hreachable, hrole⟩ := reachable_of_mem_visits hv
  obtain ⟨key, rules, hrules, ⟨hunknown, rfl⟩ | ⟨entity, predicate, hentity, href, hmissing, rfl⟩⟩ :=
    Visit.defect_of_grants_eq_error h
  · exact ⟨hreachable, v.role, rules, hrole, hrules, hunknown⟩
  · exact ⟨hreachable, v.role, key, rules, entity, hrole, hrules, hentity, rfl, href, hmissing⟩

lemma hasDefect_of_compile_eq_error (h : s.compile roles scope = .error fault) :
    s.HasDefect roles fault := by
  rw [compile_eq_walk] at h
  rcases Walk.exists_of_foldM_eq_error (eq_error_of_map h) with h | ⟨t, v, hv, h⟩
  · exact hasDefect_of_walk h
  · exact hasDefect_of_grants hv (eq_error_of_map h)

lemma exists_compile_eq_ok_iff_visits : (∃ t, s.compile roles scope = .ok t) ↔
    (s.acl.walk roles scope).fault = none ∧
      ∀ v ∈ (s.acl.walk roles scope).visits, v.role.Resolves s.model := by
  simp only [← Visit.exists_grants_iff, ← exists_foldlM_eq_ok_iff (t := .empty)]
  constructor
  · rintro ⟨t, h⟩
    obtain ⟨hfault, merged, hmerged, _⟩ := compile_eq_ok_iff.1 h
    exact ⟨hfault, merged, hmerged⟩
  · rintro ⟨hfault, merged, hmerged⟩
    exact ⟨_, compile_eq_ok_iff.2 ⟨hfault, merged, hmerged, rfl⟩⟩

/-- Compilation gets through the walk and through every visit just if each role that is reached is
sound. -/
lemma exists_compile_eq_ok_iff : (∃ t, s.compile roles scope = .ok t) ↔
    ∀ name role, s.acl.Reachable roles name → s.acl.roles.get? name = some role →
      s.Sound name role := by
  rw [exists_compile_eq_ok_iff_visits]
  constructor
  · rintro ⟨hfault, hvisits⟩ name role hreachable hrole
    obtain ⟨hdeclared, hacyclic⟩ := RoleSchema.fault_walk_eq_none_iff.1 hfault name hreachable
    obtain ⟨v, hv, _, rfl⟩ := RoleSchema.exists_visit_of_reachable hfault hreachable hrole
    exact {
      inherits_declared := fun inherited hinherited => hdeclared inherited ⟨v.role, hrole, hinherited⟩
      acyclic := hacyclic
      resolves := hvisits v hv }
  · intro hsound
    constructor
    · refine RoleSchema.fault_walk_eq_none_iff.2 fun name hreachable => ⟨?_, ?_⟩
      · rintro inherited ⟨role, hrole, hinherited⟩
        exact (hsound name role hreachable hrole).inherits_declared inherited hinherited
      · intro hcyclic
        obtain ⟨role, hrole⟩ := hcyclic.declared
        exact (hsound name role hreachable hrole).acyclic hcyclic
    · intro v hv
      obtain ⟨hreachable, hrole⟩ := reachable_of_mem_visits hv
      exact (hsound v.name v.role hreachable hrole).resolves

/-- A role list compiles just if every role that is reached from its declared members is sound, and
the fault of one that does not compile is a defect of such a role. -/
theorem compile_ok_iff_sound (s : Schema) (roles : List String) (scope : Option String) :
    ((∃ t, s.compile roles scope = .ok t) ↔
      ∀ name role, s.acl.Reachable roles name → s.acl.roles.get? name = some role →
        s.Sound name role) ∧
    ∀ fault, s.compile roles scope = .error fault → s.HasDefect roles fault :=
  ⟨exists_compile_eq_ok_iff, fun _ => hasDefect_of_compile_eq_error⟩

/-- The lead inherits the editor, and the editor and the reader inherit each other. -/
def circle : Schema where
  model := {}
  acl := RoleSchema.declare (RoleSchema.declare (RoleSchema.declare {}
    "lead" (Role.inherit {} ["editor"])) "editor" (Role.inherit {} ["reader"]))
    "reader" (Role.inherit {} ["editor"])

theorem lead_meets_editor_again :
    circle.compile ["guest", "lead"] none =
        .error (.cyclicInheritance ["lead", "editor", "reader", "editor"]) ∧
      circle.HasDefect ["guest", "lead"]
        (.cyclicInheritance ["lead", "editor", "reader", "editor"]) ∧
      ∃ t, circle.compile ["guest"] none = .ok t := by
  have hfault : faultOf (circle.compile ["guest", "lead"] none) =
      some (.cyclicInheritance ["lead", "editor", "reader", "editor"]) := by decide +kernel
  have hguest : circle.acl.roles.get? "guest" = none := by decide
  cases h : circle.compile ["guest", "lead"] none with
  | ok t =>
    rw [h] at hfault
    cases hfault
  | error fault =>
    rw [h] at hfault
    cases hfault
    refine ⟨rfl, (compile_ok_iff_sound circle ["guest", "lead"] none).2 _ h, ?_⟩
    refine (compile_ok_iff_sound circle ["guest"] none).1.2 ?_
    -- no role is reached, as the only active one is not declared
    rintro name role ⟨active, hactive, ⟨declared, hdeclared⟩, _⟩
    obtain rfl : active = "guest" := List.mem_singleton.1 hactive
    cases hguest.symm.trans hdeclared

end Schema

end RoleAccess
