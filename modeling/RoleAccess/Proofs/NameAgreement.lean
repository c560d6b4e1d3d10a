import RoleAccess.Proofs.AddedRoles
import RoleAccess.Proofs.OwnVariables
import RoleAccess.Proofs.ResolverRuns
import RoleAccess.Proofs.RoleDefects
import RoleAccess.Proofs.UnknownRoutes

/-!
# Names of variables in permissions and bindings

Compiled predicates and bindings take the names of variables from one walk. A predicate in compiled
permissions is one that a visited role declares for the entity, with its variables under the prefix
of the visit, and a visit binds its variables under the same prefix. So a variable that the role
declares and the identity has a value for is bound under the name that the predicate has for it.
-/

namespace RoleAccess

/-- The role declares the predicate for the entity. -/
def Visit.Declares (v : Visit) (entity : String) (own : Predicate) : Prop :=
  ∃ rules name, v.role.entities.get? entity = some rules ∧ rules.predicates.get? name = some own

/-- Some entry for the entity lists the predicate. -/
def GrantTable.Lists (t : GrantTable) (entity : String) (q : Predicate) : Prop :=
  ∃ item route, q ∈ Grant.listed (t.stored? entity item route)

/-! ## Listed predicates -/

namespace GrantMap

variable {P : Predicate → Prop} {m : GrantMap}

/-- All predicates that the map lists have the property `P`. -/
def ListsOnly (P : Predicate → Prop) (m : GrantMap) : Prop :=
  m.Each fun g => ∀ q ∈ g.predicates, P q

lemma ListsOnly.allow (hm : m.ListsOnly P) (route : Route) : (m.allow route).ListsOnly P :=
  Each.insert hm route fun _ hq => (nomatch hq)

lemma ListsOnly.add (hm : m.ListsOnly P) (route : Route) {p : Predicate} (hp : P p) :
    (m.add route p).ListsOnly P := by
  have hsingle : ∀ q ∈ [p], P q := List.forall_mem_singleton.2 hp
  refine Each.add hm route hsingle fun g hg => ?_
  cases g with
  | allow => exact fun _ hq => (nomatch hq)
  | rows ps =>
    intro q hq
    rcases mem_appendMissing.1 hq with hq | hq
    · exact hg q hq
    · exact hsingle q hq

lemma ListsOnly.bounded (hm : m.ListsOnly P) : m.bounded.ListsOnly P := by
  refine Each.bounded hm (fun _ hq => (nomatch hq)) fun q hq => ?_
  obtain ⟨source, g, hg, hq⟩ := mem_union_iff.1 hq
  exact hm source g hg q hq

end GrantMap

/-- The grants of a rule list only what its names stand for. -/
lemma Rule.listsOnly_grants {lookup : String → Except Fault Predicate} {rule : Rule} {m : GrantMap}
    (h : rule.grants lookup = .ok m) : m.ListsOnly fun q => ∃ name, lookup name = .ok q := by
  obtain ⟨joined, hjoined, rfl⟩ := exists_bounded_of_grants_eq_ok
    (P := GrantMap.ListsOnly fun q => ∃ name, lookup name = .ok q) GrantMap.each_empty
    (fun _ route _ hm => hm.allow route) (fun _ route name _ _ hp hm => hm.add route ⟨name, hp⟩) h
  exact hjoined.bounded

/-- What a visit lists for an entity is a predicate that its role declares there, put under the
prefix of the visit. -/
lemma Visit.exists_declared_of_mem_listed {v : Visit} {model : Model} {entity : String}
    {item : Item} {route : Route} {q : Predicate} (h : q ∈ v.listed model entity item route) :
    ∃ own, v.Declares entity own ∧ own.mapVariables (prefixed v.scope) = q := by
  obtain ⟨t, ht, h⟩ := mem_listed_iff.1 h
  unfold GrantTable.grant? at h
  rcases map?_of_grants_eq_ok ht entity item with ⟨e, m, _, hdeclared, hmap⟩ | ⟨_, hmap | hmap⟩
  · rw [hmap, Option.bind_some] at h
    obtain ⟨rules, hrules, hdeclared⟩ := Option.bind_eq_some_iff.1 hdeclared
    obtain ⟨rule, _, hdeclared⟩ := Option.bind_eq_some_iff.1 hdeclared
    obtain ⟨ps, hps, hmem⟩ := Grant.eq_some_of_mem_listed h
    have honly := Rule.listsOnly_grants (Option.some.inj hdeclared)
    obtain ⟨name, hname⟩ := GrantMap.Each.matching honly hps q hmem
    obtain ⟨own, hown, hq⟩ := predicate_eq_ok_iff.1 hname
    exact ⟨own, ⟨rules, name, hrules, hown⟩, hq⟩
  · rw [hmap] at h
    cases h
  · rw [hmap] at h
    cases route <;> cases h

/-! ## Injection -/

namespace Bindings

variable {m : Model} {b : Bindings} {n : String}

lemma mem_leafEvents {α : Type} {name : String} {x : Except Unresolved α}
    (h : .unboundVariable n ∈ leafEvents name x) : name = n ∧ x = .error .unbound := by
  cases x with
  | ok a => cases h
  | error reason =>
    have heq := List.mem_singleton.1 h
    cases reason <;> cases heq
    exact ⟨rfl, rfl⟩

/-- Injection reports only names without a value as unbound. -/
theorem get?_eq_none_of_mem_injectEvents {entity : Option String} {q : Predicate}
    (h : .unboundVariable n ∈ b.injectEvents m entity q) : b.get? n = none := by
  have hparts : ∀ {entity parts},
      (∀ part ∈ parts, ∀ {entity}, .unboundVariable n ∈ b.injectEvents m entity part →
        b.get? n = none) →
      .unboundVariable n ∈ b.injectListEvents m entity parts → b.get? n = none := by
    intro entity parts ih h
    induction parts with
    | nil => cases h
    | cons part parts ihParts =>
      obtain ⟨hpart, hrest⟩ := List.forall_mem_cons.1 ih
      rcases List.mem_append.1 h with h | h
      · exact hpart h
      · exact ihParts hrest h
  induction q generalizing entity with
  | and parts ih => exact hparts ih h
  | or parts ih => exact hparts ih h
  | not part ih => exact ih h
  | column field test => cases h
  | columnVariable field name =>
    obtain ⟨rfl, hunbound⟩ := mem_leafEvents h
    unfold testOf at hunbound
    split at hunbound
    · cases hunbound
    · cases hunbound
    · assumption
  | relation field inner ih => exact ih h
  | relationVariable field name =>
    obtain ⟨rfl, hunbound⟩ := mem_leafEvents h
    unfold conditionOf at hunbound
    split at hunbound
    · cases hunbound
    · cases hunbound
    · assumption
    · cases hunbound

end Bindings

namespace Schema

variable {s : Schema} {roles : List String} {scope : Option String}

/-- A predicate that compiled grants list for an entity is declared there by a visited role. -/
lemma exists_visit_of_lists {t : GrantTable} (h : s.compile roles scope = .ok t)
    {entity : String} {q : Predicate} (hq : t.Lists entity q) :
    ∃ v ∈ (s.acl.walk roles scope).visits, ∃ own, v.Declares entity own ∧
      own.mapVariables (prefixed v.scope) = q := by
  obtain ⟨hfault, merged, hmerged, rfl⟩ := compile_eq_ok_iff.1 h
  obtain ⟨item, route, hq⟩ := hq
  obtain ⟨ps, hps, _⟩ := Grant.eq_some_of_mem_listed hq
  -- an entry is in force on its own route, so the lists of grants in force tell all
  obtain ⟨m, hm, hentry⟩ := Option.bind_eq_some_iff.1 hps
  have hgrant : (merged.unifyPrimaries s.model).grant? entity item route = some (.rows ps) := by
    rw [GrantTable.grant?, hm]
    exact GrantMap.matching_of_get? hentry
  rw [hps, ← hgrant] at hq
  have hne : (merged.unifyPrimaries s.model).grant? entity item route ≠ some .allow := by
    rw [hgrant]
    simp
  obtain ⟨source, _, v, hv, hlisted⟩ :=
    (MergesTo.mem_listed_unified_iff ⟨hfault, hmerged⟩ hne).1 hq
  exact ⟨v, hv, Visit.exists_declared_of_mem_listed hlisted⟩

/-- Binding has no faults but those of the walk, which compilation has too. -/
lemma exists_bind_of_compile_eq_ok {t : GrantTable} (h : s.compile roles scope = .ok t)
    (i : Identity) : ∃ b, s.bind roles i scope = .ok b := by
  obtain ⟨hfault, _⟩ := compile_eq_ok_iff.1 h
  exact ⟨_, bind_eq_ok_iff_foldl.2 ⟨hfault, rfl⟩⟩

/-- A variable that a visited role declares and that has a value at the visit is bound under the
prefix of the visit. -/
lemma exists_test_of_value {i : Identity} {b : Bindings} (h : s.bind roles i scope = .ok b)
    {v : Visit} (hv : v ∈ (s.acl.walk roles scope).visits) {name : String}
    {d : VariableDefinition} {test : ColumnTest} (hd : v.role.definitions.get? name = some d)
    (htest : d.value? name i [v.name, v.member] = some test) :
    ∃ bound, b.get? (prefixed v.scope name) = some (.test bound) := by
  have hmem : (prefixed v.scope name, .test test) ∈ v.bindings i :=
    Visit.mem_bindings_iff.2 ⟨name, d, test, hd, htest, rfl, rfl⟩
  obtain ⟨y, hy⟩ := exists_get?_of_mem_bindings h hv hmem
  obtain ⟨_, last, _, _, hlast, _⟩ := (get?_eq_some_iff_last h).1 hy
  obtain ⟨_, _, bound, _, _, _, rfl⟩ := Visit.mem_bindings_iff.1 hlast
  exact ⟨bound, hy⟩

end Schema

namespace Resolver

/-- Where a resolver hands out permissions for a role list, it hands out bindings for every
identity. Every predicate of these permissions is one that a visited role declares for the entity,
with all its variables under the prefix of the active role of the visit. If the visited role
declares the variable and the identity has a value for it there, then it is bound under that same
name, so that no injection finds it unbound. -/
theorem permissions_and_bindings_agree (schema : Schema) (settings : Settings)
    (requests : List Request) (roles : List String) (i : Identity) {p : Permissions}
    (h : (((new schema settings).run requests).permissions roles).1 = .ok p) :
    ∃ b, ((new schema settings).run requests).bindings roles i = .ok b ∧
      (∀ entity q, p.grants.Lists entity q →
        ∃ v ∈ (schema.acl.walk roles settings.variablePrefix).visits, ∃ own,
          v.Declares entity own ∧ own.mapVariables (prefixed v.scope) = q ∧
          q.variableNames = own.variableNames.map (prefixed v.scope) ∧
          ∃ active ∈ roles, ∃ role, schema.acl.roles.get? active = some role ∧
            v.MadeFor schema.acl active (settings.variablePrefix.getD (role.scope active))) ∧
      ∀ v ∈ (schema.acl.walk roles settings.variablePrefix).visits, ∀ name d test,
        v.role.definitions.get? name = some d →
        d.value? name i [v.name, v.member] = some test →
        (∃ bound, b.get? (prefixed v.scope name) = some (.test bound)) ∧
          ∀ entity q, .unboundVariable (prefixed v.scope name) ∉
            b.injectEvents schema.model entity q := by
  rw [permissions_run_eq_compile] at h
  obtain ⟨t, (ht : schema.compile roles settings.variablePrefix = .ok t), hp⟩ := bind_eq_ok_iff.1 h
  cases hp
  obtain ⟨b, hbind⟩ := Schema.exists_bind_of_compile_eq_ok ht i
  refine ⟨b, ?_, ?_, ?_⟩
  · obtain ⟨hschema, hsettings⟩ := run_fixed (new schema settings) requests
    rw [bindings, hschema, hsettings]
    exact hbind
  · intro entity q hq
    obtain ⟨v, hv, own, hdeclares, rfl⟩ := Schema.exists_visit_of_lists ht hq
    exact ⟨v, hv, own, hdeclares, rfl, Predicate.variableNames_mapVariables _ own,
      RoleSchema.mem_visits_walk hv⟩
  · intro v hv name d test hd htest
    obtain ⟨bound, hbound⟩ := Schema.exists_test_of_value hbind hv hd htest
    refine ⟨⟨bound, hbound⟩, fun entity q hunbound => ?_⟩
    cases hbound.symm.trans (Bindings.get?_eq_none_of_mem_injectEvents hunbound)

/-- Readers see the titles of the books on their own shelves. -/
def shelfReader : Role :=
  let rules := EntityRules.define {} "own" (.columnVariable "shelf" "shelves")
  (Role.declareVariable {} "shelves" (.entity "Shelf" none)).declareEntity "Book"
    (rules.declareField (.fields .read) "title" (.direct (.named "own")))

/-- Editors are readers, with a variable prefix of their own. -/
def shelves : Schema where
  model := Model.insert {} (((Entity.new "Book").column "title").column "shelf")
  acl := (RoleSchema.declare {} "reader" shelfReader).declare "editor"
    ((Role.inherit {} ["reader"]).setVariablePrefix "ed")

theorem editor_reads_own_shelves :
    ∃ p b, (((new shelves {}).run [.permissions ["editor"]]).permissions ["editor"]).1 = .ok p ∧
      ((new shelves {}).run [.permissions ["editor"]]).bindings ["editor"]
        (Identity.assign {} "editor" "shelves" [.int 3]) = .ok b ∧
      p.grants.Lists "Book" (.columnVariable "shelf" "ed__shelves") ∧
      (∃ v ∈ (shelves.acl.walk ["editor"] none).visits, ∃ own, v.Declares "Book" own ∧
        own.mapVariables (prefixed v.scope) = .columnVariable "shelf" "ed__shelves") ∧
      (∃ bound, b.get? "ed__shelves" = some (.test bound)) ∧
      .unboundVariable "ed__shelves" ∉
        b.injectEvents shelves.model "Book" (.columnVariable "shelf" "ed__shelves") := by
  have hstored : ((((new shelves {}).run [.permissions ["editor"]]).permissions
      ["editor"]).1.toOption.bind fun p =>
        p.grants.stored? "Book" (.field .read "title") .root) =
      some (.rows [.columnVariable "shelf" "ed__shelves"]) := by decide +kernel
  have hvisit : ("reader", "editor", "ed") ∈ (shelves.acl.walk ["editor"] none).visits.map
      fun v => (v.name, v.member, v.scope) := by decide +kernel
  obtain ⟨v, hv, hvisit⟩ := List.mem_map.1 hvisit
  have hname : v.name = "reader" := congrArg (·.1) hvisit
  have hmember : v.member = "editor" := congrArg (·.2.1) hvisit
  have hscope : v.scope = "ed" := congrArg (·.2.2) hvisit
  have hrole : v.role = shelfReader := by
    have hdeclared := (Schema.reachable_of_mem_visits hv).2
    rw [hname] at hdeclared
    exact (Option.some.inj hdeclared).symm
  obtain ⟨p, hp, htitles⟩ := exists_of_toOption_bind hstored
  have hlists : p.grants.Lists "Book" (.columnVariable "shelf" "ed__shelves") := by
    refine ⟨.field .read "title", .root, ?_⟩
    rw [htitles]
    exact List.mem_singleton.2 rfl
  obtain ⟨b, hb, hpredicates, hvalues⟩ := permissions_and_bindings_agree shelves {}
    [.permissions ["editor"]] ["editor"] (Identity.assign {} "editor" "shelves" [.int 3]) hp
  obtain ⟨declaring, hdeclaring, own, hown, hq, _⟩ := hpredicates _ _ hlists
  have hbound := hvalues v hv "shelves" (.entity "Shelf" none) (.oneOf [.int 3])
    (by rw [hrole]; rfl) (by rw [hname, hmember]; rfl)
  rw [hscope] at hbound
  exact ⟨p, b, hp, hb, hlists, ⟨declaring, hdeclaring, own, hown, hq⟩, hbound.1, hbound.2 _ _⟩

end Resolver

end RoleAccess
